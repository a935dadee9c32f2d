import Stencil.Proofs.Template.Inclusion

namespace Stencil

open Ascii Text

structure Swap where
  file : Text
  before : Text
  after : Text

def FileSystem.DiffersInData (fs fs' : FileSystem) (name : Text) : Prop :=
  ∀ p, fs'.read p = fs.read p ∨
    p ≠ name ∧ Page.FileKind.ofPath p = .data ∧
      ∃ content content', content ≠ [] ∧ content' ≠ [] ∧
        fs.read p = .ok content ∧ fs'.read p = .ok content'

theorem FileSystem.DiffersInData.symm {fs fs' : FileSystem} {name : Text}
    (h : fs.DiffersInData fs' name) : fs'.DiffersInData fs name := by
  intro p
  rcases h p with hsame | ⟨hname, hkind, content, content', hne, hne', hread, hread'⟩
  · exact .inl hsame.symm
  · exact .inr ⟨hname, hkind, content', content, hne', hne, hread', hread⟩

theorem FileSystem.DiffersInData.read_ok {fs fs' : FileSystem} {name p content : Text}
    (h : fs.DiffersInData fs' name) (hread : fs.read p = .ok content) :
    ∃ content', fs'.read p = .ok content' ∧ (content' = [] ↔ content = []) := by
  rcases h p with hsame | ⟨-, -, before, after, hne, hne', hbefore, hafter⟩
  · exact ⟨content, hsame.trans hread, Iff.rfl⟩
  · rw [hread] at hbefore
    cases hbefore
    exact ⟨after, hafter, by simp [hne, hne']⟩

namespace Markup.Node

mutual

/-- The nodes are the same but for the texts of the files listed, which come in the order of the
nodes. -/
inductive Swaps : List Swap → Node → Node → Prop where
  | file (x : Swap) : Swaps [x] (.text x.before) (.text x.after)
  | text (data : Text) : Swaps [] (.text data) (.text data)
  | leaf {n : Node} : Page.isLeaf n = true → Swaps [] n n
  | element {xs ns tag attrs children children'} : SwapsAll xs children children' →
      Swaps xs (.element ns tag attrs children) (.element ns tag attrs children')

inductive SwapsAll : List Swap → List Node → List Node → Prop where
  | nil : SwapsAll [] [] []
  | cons {xs ys n n' rest rest'} : Swaps xs n n' → SwapsAll ys rest rest' →
      SwapsAll (xs ++ ys) (n :: rest) (n' :: rest')

end

end Markup.Node

namespace PageNode

mutual

inductive Swaps : List Swap → PageNode → PageNode → Prop where
  | verbatim (x : Swap) :
      Swaps [x] (.verbatim (some x.file) x.before) (.verbatim (some x.file) x.after)
  | text (origin : Option Text) (data : Text) : Swaps [] (.text origin data) (.text origin data)
  | leaf (origin : Option Text) {n : Markup.Node} : Page.isLeaf n = true →
      Swaps [] (.leaf origin n) (.leaf origin n)
  | element {xs origin ns tag attrs children children'} : SwapsAll xs children children' →
      Swaps xs (.element origin ns tag attrs children) (.element origin ns tag attrs children')

inductive SwapsAll : List Swap → List PageNode → List PageNode → Prop where
  | nil : SwapsAll [] [] []
  | cons {xs ys n n' rest rest'} : Swaps xs n n' → SwapsAll ys rest rest' →
      SwapsAll (xs ++ ys) (n :: rest) (n' :: rest')

end

theorem Swaps.single {xs : List Swap} {n n' : PageNode} (h : Swaps xs n n') :
    SwapsAll xs [n] [n'] := by
  have hcons := SwapsAll.cons h .nil
  rwa [List.append_nil] at hcons

theorem SwapsAll.append {xs ys : List Swap} {first first' rest rest' : List PageNode}
    (h : SwapsAll xs first first') (h' : SwapsAll ys rest rest') :
    SwapsAll (xs ++ ys) (first ++ rest) (first' ++ rest') := by
  match first, first', h with
  | _, _, .nil => exact h'
  | _, _, .cons hn hmore =>
    rw [List.append_assoc]
    exact .cons hn (hmore.append h')

theorem Swaps.mark {xs : List Swap} {n n' : PageNode} (h : Swaps xs n n') (file : Text) :
    Swaps xs (n.mark file) (n'.mark file) := by
  cases h with
  | verbatim x => exact .verbatim x
  | text origin data => exact .text _ data
  | leaf origin hleaf => exact .leaf _ hleaf
  | element hchildren => exact .element hchildren

theorem SwapsAll.mark {xs : List Swap} {page page' : List PageNode} (h : SwapsAll xs page page')
    (file : Text) : SwapsAll xs (page.map (PageNode.mark file)) (page'.map (PageNode.mark file)) := by
  match h with
  | .nil => exact .nil
  | .cons hn hrest => exact .cons (hn.mark file) (hrest.mark file)

theorem SwapsAll.isEmpty_eq {xs : List Swap} {page page' : List PageNode}
    (h : SwapsAll xs page page') : page'.isEmpty = page.isEmpty := by
  cases h <;> rfl

mutual

theorem Swaps.toNode {xs : List Swap} {n n' : PageNode} (h : Swaps xs n n') :
    Markup.Node.Swaps xs n.toNode n'.toNode := by
  match h with
  | .verbatim x => exact .file x
  | .text origin data => exact .text data
  | .leaf origin hleaf => exact .leaf hleaf
  | .element hchildren => exact .element hchildren.toNodes

theorem SwapsAll.toNodes {xs : List Swap} {page page' : List PageNode}
    (h : SwapsAll xs page page') :
    Markup.Node.SwapsAll xs (PageNode.toNodes page) (PageNode.toNodes page') := by
  match h with
  | .nil => exact .nil
  | .cons hn hrest => exact .cons hn.toNode hrest.toNodes

end

end PageNode

namespace Tree

mutual

inductive Swaps : List Swap → Tree → Tree → Prop where
  | file (x : Swap) : Swaps [x] (.data [.literal x.before]) (.data [.literal x.after])
  | data (text : Segments) : Swaps [] (.data text) (.data text)
  | comment (text : Text) : Swaps [] (.comment text) (.comment text)
  | doctype (name : Text) (attrs : List Markup.Attribute) :
      Swaps [] (.doctype name attrs) (.doctype name attrs)
  | element {xs ns tag attrs strip children children'} : SwapsAll xs children children' →
      Swaps xs (.element ns tag attrs strip children) (.element ns tag attrs strip children')
  | hole {xs ns tag attrs strip name args replaced replaced'} :
      Markup.Node.SwapsAll xs replaced replaced' →
      Swaps xs (.hole ns tag attrs strip name args replaced)
        (.hole ns tag attrs strip name args replaced')

inductive SwapsAll : List Swap → List Tree → List Tree → Prop where
  | nil : SwapsAll [] [] []
  | cons {xs ys t t' rest rest'} : Swaps xs t t' → SwapsAll ys rest rest' →
      SwapsAll (xs ++ ys) (t :: rest) (t' :: rest')

end

theorem Swaps.single {xs : List Swap} {t t' : Tree} (h : Swaps xs t t') : SwapsAll xs [t] [t'] := by
  have hcons := SwapsAll.cons h .nil
  rwa [List.append_nil] at hcons

theorem SwapsAll.append {xs ys : List Swap} {first first' rest rest' : List Tree}
    (h : SwapsAll xs first first') (h' : SwapsAll ys rest rest') :
    SwapsAll (xs ++ ys) (first ++ rest) (first' ++ rest') := by
  match first, first', h with
  | _, _, .nil => exact h'
  | _, _, .cons ht hmore =>
    rw [List.append_assoc]
    exact .cons ht (hmore.append h')

mutual

theorem Swaps.occurrences_eq {xs : List Swap} {t t' : Tree} (h : Swaps xs t t') :
    t'.occurrences = t.occurrences := by
  match h with
  | .file x => rfl
  | .data text => rfl
  | .comment text => rfl
  | .doctype name attrs => rfl
  | .element hchildren => rw [occurrences, occurrences, hchildren.occurrencesIn_eq]
  | .hole _ => rfl

theorem SwapsAll.occurrencesIn_eq {xs : List Swap} {list list' : List Tree}
    (h : SwapsAll xs list list') : occurrencesIn list' = occurrencesIn list := by
  match h with
  | .nil => rfl
  | .cons ht hrest =>
    rw [occurrencesIn, occurrencesIn, ht.occurrences_eq, hrest.occurrencesIn_eq]

end

end Tree

/-! Reading pages that differ in files of data. -/

namespace Reading

mutual

theorem node?_swaps {xs : List Swap} {n n' : PageNode} (h : PageNode.Swaps xs n n')
    {trees : List Tree} (hread : node? n = some trees) :
    ∃ trees', node? n' = some trees' ∧ Tree.SwapsAll xs trees trees' := by
  match h with
  | .verbatim x =>
    cases hread
    exact ⟨_, rfl, (Tree.Swaps.file x).single⟩
  | .text origin data =>
    obtain ⟨segments, hsegments, heq⟩ := Option.bind_eq_some_iff.mp hread
    cases heq
    exact ⟨_, hread, (Tree.Swaps.data segments).single⟩
  | .leaf origin (n := node) hleaf =>
    refine ⟨trees, hread, ?_⟩
    cases node with
    | comment data =>
      cases hread
      exact (Tree.Swaps.comment data).single
    | doctype name attrs =>
      cases hread
      exact (Tree.Swaps.doctype name attrs).single
    | raw | error =>
      cases hread
      exact .nil
    | element | text | document => cases hleaf
  | .element hchildren =>
    rw [node?] at hread
    obtain ⟨⟨d, attrs⟩, hhead, hread⟩ := Option.bind_eq_some_iff.mp hread
    rw [node?, hhead]
    dsimp only [Option.bind_eq_bind, Option.bind_some] at hread ⊢
    cases hhole : d.hole with
    | some name =>
      rw [hhole] at hread
      cases hread
      exact ⟨_, rfl, (Tree.Swaps.hole hchildren.toNodes).single⟩
    | none =>
      rw [hhole] at hread
      obtain ⟨inner, hinner, heq⟩ := Option.bind_eq_some_iff.mp hread
      cases heq
      obtain ⟨inner', hinner', hswaps⟩ := nodes?_swaps hchildren hinner
      refine ⟨[.element _ _ attrs d.strip inner'], ?_, (Tree.Swaps.element hswaps).single⟩
      dsimp only
      rw [hinner']
      rfl

theorem nodes?_swaps {xs : List Swap} {page page' : List PageNode}
    (h : PageNode.SwapsAll xs page page') {trees : List Tree} (hread : nodes? page = some trees) :
    ∃ trees', nodes? page' = some trees' ∧ Tree.SwapsAll xs trees trees' := by
  match h with
  | .nil =>
    cases hread
    exact ⟨[], rfl, .nil⟩
  | .cons hn hrest =>
    obtain ⟨first, hfirst, hread⟩ := Option.bind_eq_some_iff.mp hread
    obtain ⟨others, hothers, hread⟩ := Option.bind_eq_some_iff.mp hread
    cases hread
    obtain ⟨first', hfirst', hswaps⟩ := node?_swaps hn hfirst
    obtain ⟨others', hothers', hmore⟩ := nodes?_swaps hrest hothers
    refine ⟨first' ++ others', ?_, hswaps.append hmore⟩
    rw [nodes?, hfirst', hothers']
    rfl

end

end Reading

/-! Putting in files on both file systems. -/

namespace Page

def Event.data? : Event → Option (Text × Text)
  | .visit v =>
    match v.finding with
    | .opened content =>
      if FileKind.ofPath v.target = .data && !content.isEmpty then some (v.target, content)
      else none
    | _ => none
  | _ => none

/-- What was done on the two file systems: the same files were opened, and the files of data among
them are `xs`. -/
structure Mirrors (fs fs' : FileSystem) (log log' : List Event) (xs : List Swap) : Prop where
  held : ∀ x ∈ xs, FileKind.ofPath x.file = .data ∧ fs.read x.file = .ok x.before ∧
    fs'.read x.file = .ok x.after
  before : log.filterMap Event.data? = xs.map fun x => (x.file, x.before)
  after : log'.filterMap Event.data? = xs.map fun x => (x.file, x.after)
  opened : log'.filterMap Event.opened? = log.filterMap Event.opened?

section Mirrors

variable {fs fs' : FileSystem}

theorem mirrors_nil : Mirrors fs fs' [] [] [] :=
  ⟨by simp, rfl, rfl, rfl⟩

theorem Mirrors.append {log log' later later' : List Event} {xs ys : List Swap}
    (h : Mirrors fs fs' log log' xs) (hlater : Mirrors fs fs' later later' ys) :
    Mirrors fs fs' (log ++ later) (log' ++ later') (xs ++ ys) := by
  constructor
  · exact List.forall_mem_append.mpr ⟨h.held, hlater.held⟩
  · simp [h.before, hlater.before]
  · simp [h.after, hlater.after]
  · simp [h.opened, hlater.opened]

theorem mirrors_single {e : Event} (h : e.data? = none) : Mirrors fs fs' [e] [e] [] := by
  constructor
  · simp
  · exact List.filterMap_cons_none h
  · exact List.filterMap_cons_none h
  · rfl

theorem Mirrors.within {log log' : List Event} {xs : List Swap} {visit : Visit} {target : Text}
    (h : Mirrors fs fs' log log' xs) (hvisit : Event.data? (.visit visit) = none) :
    Mirrors fs fs' (.visit visit :: .enter target :: log ++ [.leave])
      (.visit visit :: .enter target :: log' ++ [.leave]) xs := by
  have hinside := (h.append (mirrors_single (e := .leave) rfl))
  rw [List.append_nil] at hinside
  exact (mirrors_single hvisit).append ((mirrors_single (e := .enter target) rfl).append hinside)

def Mirrored (fs fs' : FileSystem) (log : List Event) (r : Except TemplateError (List PageNode))
    (rule : Sources → List Event → Except TemplateError (List PageNode) → Prop) : Prop :=
  ∀ page, r = .ok page → ∀ s', ∃ log' page' xs, rule s' log' (.ok page') ∧
    Mirrors fs fs' log log' xs ∧ PageNode.SwapsAll xs page page'

theorem mirrored_error {log : List Event} {e : TemplateError}
    {rule : Sources → List Event → Except TemplateError (List PageNode) → Prop} :
    Mirrored fs fs' log (.error e) rule := by
  intro page hpage
  cases hpage

theorem Mirrored.map {log : List Event} {r : Except TemplateError (List PageNode)}
    {rule rule' : Sources → List Event → Except TemplateError (List PageNode) → Prop}
    (h : Mirrored fs fs' log r rule) {f : List PageNode → List PageNode}
    (hrule : ∀ s' log' page', rule s' log' (.ok page') → rule' s' log' (.ok (f page')))
    (hf : ∀ xs page page', PageNode.SwapsAll xs page page' →
      PageNode.SwapsAll xs (f page) (f page')) :
    Mirrored fs fs' log (r.map f) rule' := by
  intro page hpage s'
  cases r with
  | error e => cases hpage
  | ok content =>
    cases hpage
    obtain ⟨log', page', xs, hpage', hmirrors, hswaps⟩ := h content rfl s'
    exact ⟨log', f page', xs, hrule _ _ _ hpage', hmirrors, hf _ _ _ hswaps⟩

theorem Mirrored.append {log later : List Event} {first : List PageNode}
    {r : Except TemplateError (List PageNode)}
    {rule rest total : Sources → List Event → Except TemplateError (List PageNode) → Prop}
    (h : Mirrored fs fs' log (.ok first) rule) (hlater : Mirrored fs fs' later r rest)
    (htotal : ∀ s' log' page' later' more, rule s' log' (.ok page') →
      rest (s'.after log') later' (.ok more) → total s' (log' ++ later') (.ok (page' ++ more))) :
    Mirrored fs fs' (log ++ later) (r.map (first ++ ·)) total := by
  intro page hpage s'
  cases r with
  | error e => cases hpage
  | ok others =>
    cases hpage
    obtain ⟨log', first', xs, hfirst, hmirrors, hswaps⟩ := h first rfl s'
    obtain ⟨later', others', ys, hothers, hmore, hswaps'⟩ := hlater others rfl (s'.after log')
    exact ⟨log' ++ later', first' ++ others', xs ++ ys, htotal _ _ _ _ _ hfirst hothers,
      hmirrors.append hmore, hswaps.append hswaps'⟩

end Mirrors

section Files

variable {fs fs' : FileSystem} {name : Text} {active : List Text} {site : Site} {arg : Text}

theorem swapsAll_wrapped {ns tag : Text} {ordinary : List Markup.Attribute} (strip : Strip)
    {xs : List Swap} {page page' : List PageNode} (h : PageNode.SwapsAll xs page page') :
    PageNode.SwapsAll xs (wrapped ns tag ordinary strip page)
      (wrapped ns tag ordinary strip page') := by
  cases strip with
  | none => exact (PageNode.Swaps.element h).single
  | always => exact h
  | ifEmpty =>
    rw [wrapped, wrapped, h.isEmpty_eq]
    cases h with
    | nil => exact .nil
    | cons hn hrest => exact (PageNode.Swaps.element (.cons hn hrest)).single

theorem data?_opened {content : Text} :
    Event.data? (.visit ⟨active, site, arg, .opened content⟩) =
      if FileKind.ofPath (targetOf site.dir arg) = .data && !content.isEmpty then
        some (targetOf site.dir arg, content) else none := rfl

theorem ofPath_eq_data_iff {target content : Text} :
    FileKind.ofPath target = .data ↔ markupOf? target content = none := by
  rw [markupOf?]
  cases FileKind.ofPath target <;> simp

theorem mirrored_data (hfs : fs.DiffersInData fs' name) {content : Text}
    (hfinds : Finds fs active (targetOf site.dir arg) (.opened content))
    (hdata : markupOf? (targetOf site.dir arg) content = none) :
    Mirrored fs fs' [.visit ⟨active, site, arg, .opened content⟩]
      (.ok (if content.isEmpty then [] else [.verbatim (some (targetOf site.dir arg)) content]))
      fun s' => Includes fs' active s' site arg := by
  rintro _ ⟨rfl⟩ s'
  have hkind := ofPath_eq_data_iff.mpr hdata
  cases hfinds with
  | opened hvalid hactive hread =>
    obtain ⟨content', hread', hempty⟩ := hfs.read_ok hread
    have hdata' : markupOf? (targetOf site.dir arg) content' = none := ofPath_eq_data_iff.mp hkind
    have hincludes' := Includes.data (s := s') (.opened hvalid hactive hread') hdata'
    by_cases hnil : content = []
    · have hnil' : content' = [] := hempty.mpr hnil
      subst hnil hnil'
      exact ⟨_, _, [], hincludes', mirrors_single (by simp [data?_opened]), .nil⟩
    · have hnil' : content' ≠ [] := mt hempty.mp hnil
      refine ⟨_, _, [⟨targetOf site.dir arg, content, content'⟩], hincludes', ⟨?_, ?_, ?_, rfl⟩, ?_⟩
      · simp [hkind, hread, hread']
      · simp [data?_opened, hkind, hnil]
      · simp [data?_opened, hkind, hnil']
      · simpa [hnil, hnil'] using
          (PageNode.Swaps.verbatim ⟨targetOf site.dir arg, content, content'⟩).single

theorem mirrored_markup (hfs : fs.DiffersInData fs' name) {content : Text}
    {nodes : List Markup.Node} {log : List Event} {r : Except TemplateError (List PageNode)}
    (hfinds : Finds fs active (targetOf site.dir arg) (.opened content))
    (hmarkup : markupOf? (targetOf site.dir arg) content = some nodes)
    (h : Mirrored fs fs' log r fun s' =>
      ExpandsAll fs' (active ++ [targetOf site.dir arg]) s'
        ⟨targetOf site.dir arg, Path.dir (targetOf site.dir arg)⟩ nodes) :
    Mirrored fs fs' (.visit ⟨active, site, arg, .opened content⟩ ::
      .enter (targetOf site.dir arg) :: log ++ [.leave])
      (r.map (List.map (PageNode.mark (targetOf site.dir arg))))
      fun s' => Includes fs' active s' site arg := by
  have hkind : FileKind.ofPath (targetOf site.dir arg) ≠ .data := by
    rw [Ne, @ofPath_eq_data_iff _ content, hmarkup]
    simp
  have hfinds' : Finds fs' active (targetOf site.dir arg) (.opened content) := by
    cases hfinds with
    | opened hvalid hactive hread =>
      rcases hfs (targetOf site.dir arg) with hsame | ⟨-, hdata, -⟩
      · exact .opened hvalid hactive (hsame.trans hread)
      · exact absurd hdata hkind
  intro marked hmarked s'
  cases r with
  | error e => cases hmarked
  | ok page =>
    cases hmarked
    obtain ⟨log', page', xs, hpage', hmirrors, hswaps⟩ := h page rfl _
    refine ⟨_, _, xs, .markup hfinds' hmarkup hpage', hmirrors.within ?_, hswaps.mark _⟩
    simp [data?_opened, hkind]

end Files

section Expansion

variable {fs fs' : FileSystem} {name : Text}

mutual

theorem Includes.mirrored {active : List Text} {s : Sources} {site : Site} {arg : Text}
    {log : List Event} {r : Except TemplateError (List PageNode)}
    (h : Includes fs active s site arg log r) (hfs : fs.DiffersInData fs' name) :
    Mirrored fs fs' log r fun s' => Includes fs' active s' site arg := by
  match h with
  | .refused _ _ => exact mirrored_error
  | .data hfinds hdata => exact mirrored_data hfs hfinds hdata
  | .markup hfinds hmarkup hall => exact mirrored_markup hfs hfinds hmarkup (hall.mirrored hfs)

theorem IncludesEach.mirrored {active : List Text} {s : Sources} {site : Site} {args : List Text}
    {log : List Event} {r : Except TemplateError (List PageNode)}
    (h : IncludesEach fs active s site args log r) (hfs : fs.DiffersInData fs' name) :
    Mirrored fs fs' log r fun s' => IncludesEach fs' active s' site args := by
  match h with
  | .nil =>
    rintro _ ⟨rfl⟩ s'
    exact ⟨[], [], [], .nil, mirrors_nil, .nil⟩
  | .cons hfirst hrest =>
    exact (hfirst.mirrored hfs).append (hrest.mirrored hfs) fun _ _ _ _ _ => .cons
  | .stop _ => exact mirrored_error

theorem ExpandsNode.mirrored {active : List Text} {s : Sources} {site : Site} {n : Markup.Node}
    {log : List Event} {r : Except TemplateError (List PageNode)}
    (h : ExpandsNode fs active s site n log r) (hfs : fs.DiffersInData fs' name) :
    Mirrored fs fs' log r fun s' => ExpandsNode fs' active s' site n := by
  match h with
  | .document hall =>
    intro page hpage s'
    obtain ⟨log', page', xs, hpage', hrest⟩ := hall.mirrored hfs page hpage s'
    exact ⟨log', page', xs, .document hpage', hrest⟩
  | .malformed _ => exact mirrored_error
  | .kept hread hhole hall =>
    exact (hall.mirrored hfs).map (fun _ _ _ => .kept hread hhole) fun _ _ _ hswaps =>
      (PageNode.Swaps.element hswaps).single
  | .noFile _ _ _ => exact mirrored_error
  | .replaced hread hhole hargs heach =>
    exact (heach.mirrored hfs).map (fun _ _ _ => .replaced hread hhole hargs) fun _ _ _ hswaps =>
      swapsAll_wrapped _ hswaps
  | .text =>
    rintro _ ⟨rfl⟩ s'
    exact ⟨[], _, [], .text, mirrors_nil, (PageNode.Swaps.text _ _).single⟩
  | .leaf hleaf =>
    rintro _ ⟨rfl⟩ s'
    exact ⟨[], _, [], .leaf hleaf, mirrors_nil, (PageNode.Swaps.leaf _ hleaf).single⟩

theorem ExpandsAll.mirrored {active : List Text} {s : Sources} {site : Site}
    {nodes : List Markup.Node} {log : List Event} {r : Except TemplateError (List PageNode)}
    (h : ExpandsAll fs active s site nodes log r) (hfs : fs.DiffersInData fs' name) :
    Mirrored fs fs' log r fun s' => ExpandsAll fs' active s' site nodes := by
  match h with
  | .nil =>
    rintro _ ⟨rfl⟩ s'
    exact ⟨[], [], [], .nil, mirrors_nil, .nil⟩
  | .cons hfirst hrest =>
    exact (hfirst.mirrored hfs).append (hrest.mirrored hfs) fun _ _ _ _ _ => .cons
  | .stop _ => exact mirrored_error

end

end Expansion

end Page

namespace Document

def PutsIn (fs : FileSystem) (name : Text) (includes : List (Text × Text)) : Prop :=
  ∃ content log page, fs.read name = .ok content ∧
    Page.ExpandsAll fs [name] ⟨[(name, content)]⟩ ⟨name, Path.dir name⟩ (Markup.parse content) log
      (.ok page) ∧
    includes = log.filterMap Page.Event.data?

theorem read_swaps {fs fs' : FileSystem} {name : Text} (hfs : fs.DiffersInData fs' name)
    {doc : Document} (h : read fs name = .ok doc) :
    ∃ doc', read fs' name = .ok doc' ∧ doc'.symbols = doc.symbols ∧ doc'.files = doc.files ∧
      ∃ xs, Tree.SwapsAll xs doc.tree doc'.tree ∧ Markup.Node.SwapsAll xs doc.page doc'.page ∧
        PutsIn fs name (xs.map fun x => (x.file, x.before)) ∧
        PutsIn fs' name (xs.map fun x => (x.file, x.after)) ∧
        ∀ x ∈ xs, Page.FileKind.ofPath x.file = .data ∧ fs.read x.file = .ok x.before ∧
          fs'.read x.file = .ok x.after := by
  obtain ⟨content, log, page, tree, symbols, hread, hexpands, htree, hsymbols, rfl⟩ :=
    read_eq_ok_iff_expands.mp h
  have hread' : fs'.read name = .ok content := by
    rcases hfs name with hsame | ⟨hne, -⟩
    · exact hsame.trans hread
    · exact absurd rfl hne
  obtain ⟨log', page', xs, hexpands', hmirrors, hswaps⟩ :=
    hexpands.mirrored hfs page rfl ⟨[(name, content)]⟩
  obtain ⟨tree', htree', htrees⟩ := Reading.nodes?_swaps hswaps htree
  rw [← htrees.occurrencesIn_eq] at hsymbols
  refine ⟨_, read_eq_ok_iff_expands.mpr
    ⟨content, log', page', tree', symbols, hread', hexpands', htree', hsymbols, rfl⟩, rfl, ?_,
    xs, htrees, hswaps.toNodes, ⟨content, log, page, hread, hexpands, hmirrors.before.symm⟩,
    ⟨content, log', page', hread', hexpands', hmirrors.after.symm⟩, hmirrors.held⟩
  rw [hmirrors.opened]

/-- The bytes of files of data decide nothing. With other bytes in them a template can be read if it
could before, with the same holes from the same files. Each of these files is one node with its
bytes as they are, wherever it is put in, or one text among the nodes that a hole replaces. -/
theorem data_files_verbatim {fs fs' : FileSystem} {name : Text} (hfs : fs.DiffersInData fs' name) :
    ((∃ doc, read fs name = .ok doc) ↔ ∃ doc, read fs' name = .ok doc) ∧
    ∀ doc doc', read fs name = .ok doc → read fs' name = .ok doc' →
      doc'.symbols = doc.symbols ∧ doc'.files = doc.files ∧
      ∃ xs, Tree.SwapsAll xs doc.tree doc'.tree ∧ Markup.Node.SwapsAll xs doc.page doc'.page ∧
        PutsIn fs name (xs.map fun x => (x.file, x.before)) ∧
        PutsIn fs' name (xs.map fun x => (x.file, x.after)) ∧
        ∀ x ∈ xs, Page.FileKind.ofPath x.file = .data ∧ fs.read x.file = .ok x.before ∧
          fs'.read x.file = .ok x.after := by
  refine ⟨⟨?_, ?_⟩, ?_⟩
  · rintro ⟨doc, h⟩
    obtain ⟨doc', h', -⟩ := read_swaps hfs h
    exact ⟨doc', h'⟩
  · rintro ⟨doc', h'⟩
    obtain ⟨doc, h, -⟩ := read_swaps hfs.symm h'
    exact ⟨doc, h⟩
  · intro doc doc' h h'
    obtain ⟨again, hagain, hrest⟩ := read_swaps hfs h
    rw [h'] at hagain
    cases hagain
    exact hrest

end Document

namespace Tree

mutual

def texts : Tree → List Segments
  | .data text => [text]
  | .element _ _ _ _ children => textsIn children
  | _ => []

def textsIn : List Tree → List Segments
  | [] => []
  | t :: rest => texts t ++ textsIn rest

end

end Tree

namespace Document

def noted (page note : String) : FileSystem :=
  .ofFiles [(utf8 "p.html", utf8 page), (utf8 "n.txt", utf8 note)]

def outcome (fs : FileSystem) : Option (List Text × List Segments) :=
  (read fs (utf8 "p.html")).toOption.map fun doc => (doc.files, Tree.textsIn doc.tree)

theorem outcome_noted :
    Page.FileKind.ofPath (utf8 "n.txt") = .data ∧
      outcome (noted "<p><i ml:replace=\"include n.txt\"></i></p>" "$\x7b") =
        some ([utf8 "p.html", utf8 "n.txt"], [[.literal (utf8 "$\x7b")]]) ∧
      outcome (noted "<p ml:content=\"x\"><i ml:replace=\"include n.txt\"></i></p>" "$") =
        some ([utf8 "p.html", utf8 "n.txt"], []) := by
  decide +kernel

theorem differsInData_noted (page note note' : String) (h : utf8 note ≠ [])
    (h' : utf8 note' ≠ []) :
    (noted page note).DiffersInData (noted page note') (utf8 "p.html") := by
  intro p
  by_cases hp : p = utf8 "n.txt"
  · subst hp
    exact .inr ⟨by decide, outcome_noted.1, utf8 note, utf8 note', h, h', rfl, rfl⟩
  · left
    have hlookup : List.lookup p [(utf8 "p.html", utf8 page), (utf8 "n.txt", utf8 note')] =
        List.lookup p [(utf8 "p.html", utf8 page), (utf8 "n.txt", utf8 note)] := by
      simp only [List.lookup_cons, List.lookup_nil, beq_eq_false_iff_ne.mpr hp]
    simp only [noted, FileSystem.ofFiles, FileSystem.readVirtual, hlookup]
    rfl

theorem data_files_verbatim_placeholder :
    outcome (noted "<p><i ml:replace=\"include n.txt\"></i></p>" "$\x7b") =
      some ([utf8 "p.html", utf8 "n.txt"], [[.literal (utf8 "$\x7b")]]) ∧
    ∃ doc doc' xs,
      read (noted "<p><i ml:replace=\"include n.txt\"></i></p>" "a") (utf8 "p.html") = .ok doc ∧
      read (noted "<p><i ml:replace=\"include n.txt\"></i></p>" "$\x7b") (utf8 "p.html") =
        .ok doc' ∧
      doc'.symbols = doc.symbols ∧ doc'.files = doc.files ∧
      Tree.SwapsAll xs doc.tree doc'.tree := by
  obtain ⟨-, hok, -⟩ := outcome_noted
  refine ⟨hok, ?_⟩
  obtain ⟨hboth, hsame⟩ := data_files_verbatim (differsInData_noted
    "<p><i ml:replace=\"include n.txt\"></i></p>" "a" "$\x7b" (by decide) (by decide))
  cases hread' : read (noted "<p><i ml:replace=\"include n.txt\"></i></p>" "$\x7b")
    (utf8 "p.html") with
  | error e =>
    rw [outcome, hread'] at hok
    cases hok
  | ok doc' =>
    obtain ⟨doc, hread⟩ := hboth.mpr ⟨doc', hread'⟩
    obtain ⟨hsymbols, hfiles, xs, htrees, -⟩ := hsame doc doc' hread hread'
    exact ⟨doc, doc', xs, hread, rfl, hsymbols, hfiles, htrees⟩

/-- A file of data among the children that a hole replaces is read, and is no node of the tree. -/
theorem replaced_data_file_not_in_tree :
    Page.FileKind.ofPath (utf8 "n.txt") = .data ∧
      outcome (noted "<p ml:content=\"x\"><i ml:replace=\"include n.txt\"></i></p>" "$") =
        some ([utf8 "p.html", utf8 "n.txt"], []) := by
  obtain ⟨hkind, -, hread⟩ := outcome_noted
  exact ⟨hkind, hread⟩

end Document

end Stencil
