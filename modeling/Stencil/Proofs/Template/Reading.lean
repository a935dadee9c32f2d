import Stencil.Proofs.Template.Symbols
import Stencil.Template.Document

namespace Stencil

inductive Occurrence where
  | value (hole : Text)
  | call (hole : Text) (args : List Text)
  | content (hole : Text) (args : List Text)
  deriving DecidableEq, Repr

namespace Occurrence

def hole : Occurrence → Text
  | .value hole | .call hole _ | .content hole _ => hole

def hasArgs : Occurrence → Bool
  | .value _ => false
  | .call _ args | .content _ args => !args.isEmpty

def isContent : Occurrence → Bool
  | .content _ _ => true
  | _ => false

def use : Occurrence → Use
  | .value hole => ⟨hole, .string⟩
  | .call hole _ => ⟨hole, .stringFunction⟩
  | .content hole args => ⟨hole, Scan.contentType args⟩

end Occurrence

def Segment.occurrences : Segment → List Occurrence
  | .literal _ => []
  | .variable hole => [.value hole]
  | .call hole args => [.call hole args]

def Segments.occurrences (segments : Segments) : List Occurrence :=
  segments.flatMap Segment.occurrences

def Attr.occurrences (a : Attr) : List Occurrence :=
  Segments.occurrences a.value

namespace Tree

mutual

def occurrences : Tree → List Occurrence
  | .data text => Segments.occurrences text
  | .comment _ => []
  | .doctype _ _ => []
  | .element _ _ attrs _ children => attrs.flatMap Attr.occurrences ++ occurrencesIn children
  | .hole _ _ attrs _ name args _ => attrs.flatMap Attr.occurrences ++ [.content name args]

def occurrencesIn : List Tree → List Occurrence
  | [] => []
  | t :: rest => occurrences t ++ occurrencesIn rest

end

theorem occurrencesIn_append (first second : List Tree) :
    occurrencesIn (first ++ second) = occurrencesIn first ++ occurrencesIn second := by
  induction first with
  | nil => rfl
  | cons t rest ih => simp [occurrencesIn, ih]

end Tree

/-! Reading without a table. -/

namespace Reading

def placeholder? (inner : Text) : Option Segment :=
  match Words.split? inner with
  | some (name :: args) =>
    if isHoleName name then some (if args.isEmpty then .variable name else .call name args) else none
  | _ => none

def stretch? : Stretch → Option Segment
  | .literal text => some (.literal text)
  | .placeholder inner => placeholder? inner
  | .unclosed _ => none

def text? (s : Text) : Option Segments :=
  (Stretch.ofText s).mapM stretch?

def attr? (a : Markup.Attribute) : Option Attr := do
  return ⟨a.ns, a.key, ← text? a.value⟩

def attrs? (list : List Markup.Attribute) : Option (List Attr) :=
  list.mapM attr?

def head? (attributes : List Markup.Attribute) : Option (Directive × List Attr) := do
  let (d, ordinary) ← (Directive.read attributes).toOption
  return (d, ← attrs? ordinary)

mutual

def node? : PageNode → Option (List Tree)
  | .text _ data => do return [.data (← text? data)]
  | .verbatim _ data => some [.data [.literal data]]
  | .leaf _ (.comment data) => some [.comment data]
  | .leaf _ (.doctype name attrs) => some [.doctype name attrs]
  | .leaf _ _ => some []
  | .element _ ns tag attributes children => do
    let (d, attrs) ← head? attributes
    match d.hole with
    | some name => return [.hole ns tag attrs d.strip name d.args (PageNode.toNodes children)]
    | none => return [.element ns tag attrs d.strip (← nodes? children)]

def nodes? : List PageNode → Option (List Tree)
  | [] => some []
  | n :: rest => do
    let first ← node? n
    let others ← nodes? rest
    return first ++ others

end

end Reading

/-! What can be read names holes by hole names, and calls them with arguments. -/

def Occurrence.WellFormed : Occurrence → Prop
  | .value hole | .content hole _ => isHoleName hole = true
  | .call hole args => isHoleName hole = true ∧ args ≠ []

theorem Occurrence.WellFormed.hole {o : Occurrence} (h : o.WellFormed) :
    isHoleName o.hole = true := by
  cases o with
  | value hole => exact h
  | call hole args => exact h.1
  | content hole args => exact h

theorem Option.forall_mem_of_mapM {α β : Type} {f : α → Option β} {P : β → Prop}
    (h : ∀ a b, f a = some b → P b) {list : List α} {bs : List β} (hm : list.mapM f = some bs) :
    ∀ b ∈ bs, P b := by
  induction list generalizing bs with
  | nil => cases hm; simp
  | cons a rest ih =>
    rw [List.mapM_cons] at hm
    obtain ⟨b, hb, hm⟩ := Option.bind_eq_some_iff.mp hm
    obtain ⟨others, ho, hm⟩ := Option.bind_eq_some_iff.mp hm
    cases hm
    rw [List.forall_mem_cons]
    exact ⟨h a b hb, ih ho⟩

namespace Reading

theorem placeholder?_wellFormed {inner : Text} {s : Segment} (h : placeholder? inner = some s) :
    ∀ o ∈ s.occurrences, o.WellFormed := by
  unfold placeholder? at h
  split at h
  · rename_i name args hw
    split at h
    · rename_i hn
      cases h
      cases args with
      | nil => simpa [Segment.occurrences, Occurrence.WellFormed] using hn
      | cons arg args => simpa [Segment.occurrences, Occurrence.WellFormed] using hn
    · cases h
  · cases h

theorem stretch?_wellFormed {stretch : Stretch} {s : Segment} (h : stretch? stretch = some s) :
    ∀ o ∈ s.occurrences, o.WellFormed := by
  cases stretch with
  | literal text => cases h; simp [Segment.occurrences]
  | placeholder inner => exact placeholder?_wellFormed h
  | unclosed inner => cases h

theorem text?_wellFormed {s : Text} {segments : Segments} (h : text? s = some segments) :
    ∀ o ∈ Segments.occurrences segments, o.WellFormed := by
  intro o ho
  obtain ⟨segment, hs, ho⟩ := List.mem_flatMap.mp ho
  exact Option.forall_mem_of_mapM (fun _ _ => stretch?_wellFormed) h segment hs o ho

theorem attr?_wellFormed {a : Markup.Attribute} {b : Attr} (h : attr? a = some b) :
    ∀ o ∈ b.occurrences, o.WellFormed := by
  obtain ⟨value, hv, ha⟩ := Option.bind_eq_some_iff.mp h
  cases ha
  exact text?_wellFormed hv

theorem attrs?_wellFormed {list : List Markup.Attribute} {attrs : List Attr}
    (h : attrs? list = some attrs) : ∀ o ∈ attrs.flatMap Attr.occurrences, o.WellFormed := by
  intro o ho
  obtain ⟨a, ha, ho⟩ := List.mem_flatMap.mp ho
  exact Option.forall_mem_of_mapM (fun _ _ => attr?_wellFormed) h a ha o ho

theorem holeOf_isHoleName {a : Markup.Attribute} {name : Text} {args : List Text}
    (h : Directive.holeOf a = .ok (name, args)) : isHoleName name = true := by
  unfold Directive.holeOf at h
  split at h
  · cases h
  · cases h
  · split at h
    · cases h; assumption
    · cases h

theorem update_isHoleName {d d' : Directive} {name : Text} {a : Markup.Attribute}
    (hd : ∀ hole, d.hole = some hole → isHoleName hole = true) (h : d.update name a = .ok d') :
    ∀ hole, d'.hole = some hole → isHoleName hole = true := by
  unfold Directive.update at h
  split at h
  · cases hh : Directive.holeOf a with
    | error e => rw [hh] at h; cases h
    | ok p =>
      rw [hh] at h
      cases h
      rintro hole ⟨rfl⟩
      exact holeOf_isHoleName hh
  · split at h
    · cases hh : Directive.holeOf a with
      | error e => rw [hh] at h; cases h
      | ok p =>
        rw [hh] at h
        cases h
        rintro hole ⟨rfl⟩
        exact holeOf_isHoleName hh
    · split at h
      · cases h; exact hd
      · cases h

theorem readFrom_isHoleName {list : List Markup.Attribute} {d : Directive}
    {p : Directive × List Markup.Attribute}
    (hd : ∀ hole, d.hole = some hole → isHoleName hole = true)
    (h : Directive.readFrom d list = .ok p) :
    ∀ hole, p.1.hole = some hole → isHoleName hole = true := by
  induction list generalizing d p with
  | nil => cases h; exact hd
  | cons a rest ih =>
    unfold Directive.readFrom at h
    split at h
    · cases hr : Directive.readFrom d rest with
      | error e => rw [hr] at h; cases h
      | ok q =>
        rw [hr] at h
        cases h
        exact ih (p := q) hd hr
    · rename_i name hn
      cases hu : d.update name a with
      | error e => rw [hu] at h; cases h
      | ok d' =>
        rw [hu] at h
        exact ih (update_isHoleName hd hu) h

theorem head?_wellFormed {attributes : List Markup.Attribute} {d : Directive} {attrs : List Attr}
    (h : head? attributes = some (d, attrs)) :
    (∀ hole, d.hole = some hole → isHoleName hole = true) ∧
      ∀ o ∈ attrs.flatMap Attr.occurrences, o.WellFormed := by
  obtain ⟨⟨d', ordinary⟩, hr, h⟩ := Option.bind_eq_some_iff.mp h
  obtain ⟨attrs', ha, h⟩ := Option.bind_eq_some_iff.mp h
  cases h
  refine ⟨?_, attrs?_wellFormed ha⟩
  cases hread : Directive.read attributes with
  | error e => rw [hread] at hr; cases hr
  | ok p =>
    rw [hread] at hr
    cases hr
    exact readFrom_isHoleName (by simp) hread

mutual

theorem node?_wellFormed {n : PageNode} {trees : List Tree} (h : node? n = some trees) :
    ∀ o ∈ Tree.occurrencesIn trees, o.WellFormed := by
  cases n with
  | text file data =>
    obtain ⟨segments, hs, h⟩ := Option.bind_eq_some_iff.mp h
    cases h
    simpa [Tree.occurrencesIn, Tree.occurrences] using text?_wellFormed hs
  | verbatim file data =>
    cases h
    simp [Tree.occurrencesIn, Tree.occurrences, Segments.occurrences, Segment.occurrences]
  | leaf file n => cases n <;> cases h <;> simp [Tree.occurrencesIn, Tree.occurrences]
  | element file ns tag attributes children =>
    rw [node?] at h
    obtain ⟨⟨d, attrs⟩, hh, h⟩ := Option.bind_eq_some_iff.mp h
    obtain ⟨hname, hattrs⟩ := head?_wellFormed hh
    dsimp only at h
    cases hd : d.hole with
    | some name =>
      rw [hd] at h
      cases h
      simp only [Tree.occurrencesIn, Tree.occurrences, List.append_nil, List.forall_mem_append,
        List.forall_mem_singleton]
      exact ⟨hattrs, hname name hd⟩
    | none =>
      rw [hd] at h
      obtain ⟨inner, hi, h⟩ := Option.bind_eq_some_iff.mp h
      cases h
      simp only [Tree.occurrencesIn, Tree.occurrences, List.append_nil, List.forall_mem_append]
      exact ⟨hattrs, nodes?_wellFormed hi⟩

theorem nodes?_wellFormed {list : List PageNode} {trees : List Tree}
    (h : nodes? list = some trees) :
    ∀ o ∈ Tree.occurrencesIn trees, o.WellFormed := by
  cases list with
  | nil => cases h; simp [Tree.occurrencesIn]
  | cons n rest =>
    obtain ⟨first, hf, h⟩ := Option.bind_eq_some_iff.mp h
    obtain ⟨others, ho, h⟩ := Option.bind_eq_some_iff.mp h
    cases h
    rw [Tree.occurrencesIn_append, List.forall_mem_append]
    exact ⟨node?_wellFormed hf, nodes?_wellFormed ho⟩

end

end Reading

/-! Scanning against reading. -/

namespace Scan

variable {α β : Type}

theorem run_bind (action : Scan α) (f : α → Scan β) (table : Symbols) :
    (action >>= f).run table =
      match action.run table with
      | (.ok a, next) => (f a).run next
      | (.error e, next) => (.error e, next) := by
  have hrun : (action >>= f).run table =
      match action.run table with
      | (r, next) => ExceptT.bindCont f r next := rfl
  rw [hrun]
  rcases action.run table with ⟨_ | _, next⟩ <;> rfl

theorem run_register (name : Text) (type : HoleType) (table : Symbols) :
    (register name type).run table =
      match table.register name type with
      | .ok next => (.ok (), next)
      | .error clash => (.error (.conflict ⟨clash, {}⟩), table) := by
  have hrun : (register name type).run table =
      ((match table.register name type with
        | .ok next => set next
        | .error clash => throw (.conflict ⟨clash, {}⟩) : Scan Unit)).run table := rfl
  rw [hrun]
  cases table.register name type <;> rfl

theorem run_inFile (sources : Page.Sources) (file : Text) (action : Scan α) (table : Symbols) :
    (inFile sources file action).run table =
      match action.run table with
      | (.ok a, next) => (.ok a, next)
      | (.error e, next) => (.error (e.locate file (sources.find? file)), next) := by
  rw [inFile, ExceptT.run_tryCatch]
  simp only [Bind.bind, StateT.bind]
  rcases action.run table with ⟨_ | _, next⟩ <;> rfl

/-- The action gives what is read and records its uses. It stops at a clash of uses, and fails where
there is nothing to read. -/
structure Follows (action : Scan α) (reading : Option α) (uses : α → List Use) : Prop where
  done : ∀ {a table next}, reading = some a → table.registerAll (uses a) = .ok next →
    action.run table = (.ok a, next)
  clash : ∀ {a table clash}, reading = some a → table.registerAll (uses a) = .error clash →
    ∃ place next, action.run table = (.error (.conflict ⟨clash, place⟩), next)
  fails : reading = none → ∀ table, ∃ e next, action.run table = (.error e, next)

theorem locate_conflict (file : Text) (source : Option Text) (clash : Clash) (place : Place) :
    ∃ place',
      (TextError.conflict ⟨clash, place⟩).locate file source = .conflict ⟨clash, place'⟩ := by
  unfold TextError.locate
  dsimp only
  split
  · exact ⟨place, rfl⟩
  · split <;> exact ⟨_, rfl⟩

namespace Follows

theorem pure {a : α} {uses : α → List Use} (h : uses a = []) :
    Follows (Pure.pure a) (some a) uses where
  done := by
    rintro a' table next ⟨rfl⟩ hr
    rw [h] at hr
    cases hr
    rfl
  clash := by
    rintro a' table clash ⟨rfl⟩ hr
    rw [h] at hr
    cases hr
  fails := by simp

theorem fail (e : TextError) (uses : α → List Use) : Follows (throw e) none uses where
  done := by simp
  clash := by simp
  fails := fun _ table => ⟨e, table, rfl⟩

theorem register (name : Text) (type : HoleType) :
    Follows (Scan.register name type) (some ()) (fun _ => [⟨name, type⟩]) where
  done := by
    rintro ⟨⟩ table next - hr
    simp only [Symbols.registerAll] at hr
    rw [run_register]
    cases ht : table.register name type <;> simp_all
  clash := by
    rintro ⟨⟩ table clash - hr
    simp only [Symbols.registerAll] at hr
    refine ⟨{}, table, ?_⟩
    rw [run_register]
    cases ht : table.register name type <;> simp_all
  fails := by simp

theorem bind {action : Scan α} {reading : Option α} {uses : α → List Use}
    {f : α → Scan β} {g : α → Option β} {total : β → List Use} (h : Follows action reading uses)
    (more : α → β → List Use) (hf : ∀ a, Follows (f a) (g a) (more a))
    (ht : ∀ a b, g a = some b → total b = uses a ++ more a b) :
    Follows (action >>= f) (reading >>= g) total := by
  constructor
  · intro b table next hb hr
    obtain ⟨a, ha, hg⟩ := Option.bind_eq_some_iff.mp hb
    rw [ht a b hg, Symbols.registerAll_append] at hr
    cases hu : table.registerAll (uses a) with
    | ok middle =>
      rw [hu] at hr
      rw [run_bind, h.done ha hu]
      exact (hf a).done hg hr
    | error clash => rw [hu] at hr; cases hr
  · intro b table clash hb hr
    obtain ⟨a, ha, hg⟩ := Option.bind_eq_some_iff.mp hb
    rw [ht a b hg, Symbols.registerAll_append] at hr
    cases hu : table.registerAll (uses a) with
    | ok middle =>
      rw [hu] at hr
      rw [run_bind, h.done ha hu]
      exact (hf a).clash hg hr
    | error clash' =>
      rw [hu] at hr
      cases hr
      obtain ⟨place, next, he⟩ := h.clash ha hu
      exact ⟨place, next, by rw [run_bind, he]⟩
  · intro hb table
    rw [run_bind]
    cases hr : reading with
    | none =>
      obtain ⟨e, next, he⟩ := h.fails hr table
      exact ⟨e, next, by rw [he]⟩
    | some a =>
      have hg : g a = none := by simpa [hr] using hb
      cases hu : table.registerAll (uses a) with
      | ok middle =>
        rw [h.done hr hu]
        exact (hf a).fails hg middle
      | error clash =>
        obtain ⟨place, next, he⟩ := h.clash hr hu
        exact ⟨_, next, by rw [he]⟩

theorem map {action : Scan α} {reading : Option α} {uses : α → List Use} {total : β → List Use}
    (h : Follows action reading uses) (f : α → β) (hf : ∀ a, total (f a) = uses a) :
    Follows (action >>= fun a => Pure.pure (f a)) (reading >>= fun a => some (f a)) total :=
  h.bind (fun _ _ => []) (fun _ => .pure rfl) (by rintro a _ ⟨rfl⟩; simp [hf])

theorem recorded {name : Text} {type : HoleType} {b : β} {total : β → List Use}
    (h : total b = [⟨name, type⟩]) :
    Follows (Scan.register name type >>= fun _ => Pure.pure b) (some b) total :=
  (register name type).map (fun _ => b) fun _ => h

theorem inFile {action : Scan α} {reading : Option α} {uses : α → List Use}
    (h : Follows action reading uses) (sources : Page.Sources) (file : Text) :
    Follows (Scan.inFile sources file action) reading uses := by
  constructor
  · intro a table next ha hr
    rw [run_inFile, h.done ha hr]
  · intro a table clash ha hr
    obtain ⟨place, next, he⟩ := h.clash ha hr
    obtain ⟨place', hl⟩ := locate_conflict file (sources.find? file) clash place
    exact ⟨place', next, by rw [run_inFile, he]; simp only [hl]⟩
  · intro ha table
    obtain ⟨e, next, he⟩ := h.fails ha table
    exact ⟨_, next, by rw [run_inFile, he]⟩

theorem mapM {f : α → Scan β} {g : α → Option β} {uses : β → List Use}
    (h : ∀ a, Follows (f a) (g a) uses) (list : List α) :
    Follows (list.mapM f) (list.mapM g) (fun bs => bs.flatMap uses) := by
  induction list with
  | nil => exact .pure rfl
  | cons a rest ih =>
    simp only [List.mapM_cons]
    refine (h a).bind (fun _ bs => bs.tail.flatMap uses) (fun b => ?_) ?_
    · refine ih.bind (fun _ _ => []) (fun bs => .pure rfl) ?_
      intro bs all hall
      cases hall
      simp
    · intro b all hall
      obtain ⟨bs, -, hall⟩ := Option.bind_eq_some_iff.mp hall
      cases hall
      simp

theorem lift (result : Except TextError α) :
    Follows (Scan.lift result) result.toOption (fun _ => []) := by
  cases result with
  | ok a => exact .pure rfl
  | error e => exact .fail e _

end Follows

theorem placeholder_follows (inner : Text) :
    Follows (placeholder inner) (Reading.placeholder? inner)
      (fun s => s.occurrences.map Occurrence.use) := by
  unfold placeholder Reading.placeholder?
  cases Words.split? inner with
  | none => exact .fail _ _
  | some words =>
    cases words with
    | nil => exact .fail _ _
    | cons name args =>
      by_cases hn : isHoleName name
      · cases args with
        | nil =>
          simp only [hn]
          exact .recorded rfl
        | cons arg args =>
          simp only [hn]
          exact .recorded rfl
      · simp only [hn]
        exact .fail _ _

theorem stretch_follows (s : Stretch) :
    Follows (stretch s) (Reading.stretch? s) (fun s => s.occurrences.map Occurrence.use) := by
  cases s with
  | literal text => exact .pure rfl
  | placeholder inner => exact placeholder_follows inner
  | unclosed inner => exact .fail _ _

theorem text_follows (s : Text) :
    Follows (text s) (Reading.text? s)
      (fun segments => (Segments.occurrences segments).map Occurrence.use) := by
  have h := Follows.mapM stretch_follows (Stretch.ofText s)
  simp only [Segments.occurrences, List.map_flatMap]
  exact h

theorem attr_follows (a : Markup.Attribute) :
    Follows (attr a) (Reading.attr? a) (fun a => a.occurrences.map Occurrence.use) :=
  (text_follows a.value).map (fun value => Attr.mk a.ns a.key value) fun _ => rfl

theorem attrs_follows (list : List Markup.Attribute) :
    Follows (attrs list) (Reading.attrs? list)
      (fun attrs => (attrs.flatMap Attr.occurrences).map Occurrence.use) := by
  have h := Follows.mapM attr_follows list
  simp only [List.map_flatMap]
  exact h

theorem head_follows (attributes : List Markup.Attribute) :
    Follows (head attributes) (Reading.head? attributes)
      (fun p => (p.2.flatMap Attr.occurrences).map Occurrence.use) := by
  refine (Follows.lift (Directive.read attributes)).bind
    (fun _ p => (p.2.flatMap Attr.occurrences).map Occurrence.use) ?_ (by simp)
  rintro ⟨d, ordinary⟩
  exact (attrs_follows ordinary).map (fun attrs => (d, attrs)) fun _ => rfl

mutual

theorem node_follows (sources : Page.Sources) (file : Text) (n : PageNode) :
    Follows (node sources file n) (Reading.node? n)
      (fun trees => (Tree.occurrencesIn trees).map Occurrence.use) := by
  cases n with
  | text origin data =>
    exact (text_follows data).map (fun segments => [Tree.data segments])
      (by simp [Tree.occurrencesIn, Tree.occurrences])
  | verbatim origin data => exact .pure rfl
  | leaf origin n =>
    cases n <;> simp only [node, Reading.node?] <;> exact .pure rfl
  | element origin ns tag attributes children =>
    rw [node, Reading.node?]
    -- What an element records after its attributes.
    let more (p : Directive × List Attr) (trees : List Tree) : List Use :=
      ((Tree.occurrencesIn trees).drop (p.2.flatMap Attr.occurrences).length).map Occurrence.use
    refine (head_follows attributes).bind more ?_ ?_
    · rintro ⟨d, attrs⟩
      dsimp only
      cases d.hole with
      | some name =>
        refine (Follows.register name (contentType d.args)).map _ ?_
        simp [more, Tree.occurrencesIn, Tree.occurrences, Occurrence.use]
      | none =>
        refine (nodes_follows sources file children).map
          (fun inner => [Tree.element ns tag attrs d.strip inner]) ?_
        simp [more, Tree.occurrencesIn, Tree.occurrences]
    · rintro ⟨d, attrs⟩ trees ht
      dsimp only at ht
      cases hd : d.hole with
      | some name =>
        rw [hd] at ht
        cases ht
        simp [more, Tree.occurrencesIn, Tree.occurrences]
      | none =>
        rw [hd] at ht
        obtain ⟨inner, -, ht⟩ := Option.bind_eq_some_iff.mp ht
        cases ht
        simp [more, Tree.occurrencesIn, Tree.occurrences]

theorem nodes_follows (sources : Page.Sources) (file : Text) (list : List PageNode) :
    Follows (nodes sources file list) (Reading.nodes? list)
      (fun trees => (Tree.occurrencesIn trees).map Occurrence.use) := by
  cases list with
  | nil => exact .pure rfl
  | cons n rest =>
    refine ((node_follows sources (n.origin.getD file) n).inFile sources _).bind
      (fun first all => (Tree.occurrencesIn (all.drop first.length)).map Occurrence.use) ?_ ?_
    · intro first
      exact (nodes_follows sources file rest).map (fun others => first ++ others) (by simp)
    · intro first all hall
      obtain ⟨others, -, hall⟩ := Option.bind_eq_some_iff.mp hall
      cases hall
      simp [Tree.occurrencesIn_append]

end

end Scan

end Stencil
