import Stencil.Proofs.Evaluate.Agreement
import Stencil.Proofs.Template.Expansion
import Stencil.Proofs.Template.Inference

namespace Stencil

open Ascii Text

namespace Page

/-! The chain of files at each attempt. -/

def chainAfter : List Text → List Event → List Text
  | chain, [] => chain
  | chain, .visit _ :: rest => chainAfter chain rest
  | chain, .enter target :: rest => chainAfter (chain ++ [target]) rest
  | chain, .leave :: rest => chainAfter chain.dropLast rest

theorem chainAfter_append (chain : List Text) (log later : List Event) :
    chainAfter chain (log ++ later) = chainAfter (chainAfter chain log) later := by
  induction log generalizing chain with
  | nil => rfl
  | cons event log ih => cases event <;> exact ih _

def Nested (fs : FileSystem) (start : List Text) : List Text → List Event → Prop
  | _, [] => True
  | chain, .visit v :: rest =>
    v.active = start ++ chain ∧ Finds fs v.active v.target v.finding ∧ Nested fs start chain rest
  | chain, .enter target :: rest =>
    (Path.isValid target = true ∧ FileKind.ofPath target ≠ .data) ∧
      Nested fs start (chain ++ [target]) rest
  | chain, .leave :: rest => Nested fs start chain.dropLast rest

section Nested

variable {fs : FileSystem} {start chain : List Text}

theorem nested_append {log later : List Event} :
    Nested fs start chain (log ++ later) ↔
      Nested fs start chain log ∧ Nested fs start (chainAfter chain log) later := by
  induction log generalizing chain with
  | nil => simp [Nested, chainAfter]
  | cons event log ih => cases event <;> simp [Nested, chainAfter, ih, and_assoc]

theorem Nested.mem_chainAfter {log : List Event} (h : Nested fs start chain log)
    (hchain : ∀ t ∈ chain, Path.isValid t = true ∧ FileKind.ofPath t ≠ .data) :
    ∀ t ∈ chainAfter chain log, Path.isValid t = true ∧ FileKind.ofPath t ≠ .data := by
  induction log generalizing chain with
  | nil => exact hchain
  | cons event log ih =>
    cases event with
    | visit v => exact ih h.2.2 hchain
    | enter target =>
      refine ih h.2 fun t ht => ?_
      rcases List.mem_append.mp ht with ht | ht
      · exact hchain t ht
      · rw [List.mem_singleton.mp ht]
        exact h.1
    | leave => exact ih h fun t ht => hchain t ((List.dropLast_subset chain) ht)

end Nested

/-- What holds of an expansion under the files `start ++ chain`: the chain is restored at its end,
whichever it is, and the first fault ends it. -/
structure Logged (fs : FileSystem) (start chain : List Text) (log : List Event)
    (r : Except TemplateError (List PageNode)) : Prop where
  nested : Nested fs start chain log
  restored : chainAfter chain log = chain
  stops : ∀ v e, Event.visit v ∈ log → v.fault? = some e → r = .error e
  reported : ∀ e, r = .error (.badInclude e) →
    ∃ v, Event.visit v ∈ log ∧ v.fault? = some (.badInclude e)

section Logged

variable {fs : FileSystem} {start chain : List Text} {log later : List Event}
  {r : Except TemplateError (List PageNode)}

theorem logged_nil (h : ∀ e, r ≠ .error (.badInclude e)) : Logged fs start chain [] r :=
  ⟨trivial, rfl, by simp, fun e he => absurd he (h e)⟩

theorem Logged.map (h : Logged fs start chain log r) (f : List PageNode → List PageNode) :
    Logged fs start chain log (r.map f) := by
  refine ⟨h.nested, h.restored, fun v e hv he => ?_, fun e he => h.reported e ?_⟩
  · rw [h.stops v e hv he]
    rfl
  · cases r with
    | error e' =>
      cases he
      rfl
    | ok page => cases he

theorem Logged.append {first : List PageNode} (h : Logged fs start chain log (.ok first))
    (h' : Logged fs start chain later r) : Logged fs start chain (log ++ later) r := by
  refine ⟨nested_append.mpr ⟨h.nested, ?_⟩, ?_, fun v e hv he => ?_, fun e he => ?_⟩
  · rw [h.restored]
    exact h'.nested
  · rw [chainAfter_append, h.restored, h'.restored]
  · rcases List.mem_append.mp hv with hv | hv
    · cases h.stops v e hv he
    · exact h'.stops v e hv he
  · obtain ⟨v, hv, hfault⟩ := h'.reported e he
    exact ⟨v, List.mem_append_right log hv, hfault⟩

theorem logged_visit {site : Site} {arg : Text} {finding : Finding}
    (h : Finds fs (start ++ chain) (targetOf site.dir arg) finding)
    (hr : ∀ e, Visit.fault? ⟨start ++ chain, site, arg, finding⟩ = some e → r = .error e)
    (hr' : ∀ e, r = .error e → Visit.fault? ⟨start ++ chain, site, arg, finding⟩ = some e) :
    Logged fs start chain [.visit ⟨start ++ chain, site, arg, finding⟩] r := by
  refine ⟨⟨rfl, h, trivial⟩, rfl, fun v e hv he => ?_, fun e he => ?_⟩
  · cases List.mem_singleton.mp hv
    exact hr e he
  · exact ⟨_, List.mem_cons_self, hr' _ he⟩

theorem Logged.within {site : Site} {arg content : Text} {nodes : List Markup.Node}
    (hfinds : Finds fs (start ++ chain) (targetOf site.dir arg) (.opened content))
    (hmarkup : markupOf? (targetOf site.dir arg) content = some nodes)
    (h : Logged fs start (chain ++ [targetOf site.dir arg]) log r) :
    Logged fs start chain (.visit ⟨start ++ chain, site, arg, .opened content⟩ ::
      .enter (targetOf site.dir arg) :: log ++ [.leave]) r := by
  have hvalid : Path.isValid (targetOf site.dir arg) = true := by
    cases hfinds with
    | opened hvalid => exact hvalid
  have hkind : FileKind.ofPath (targetOf site.dir arg) ≠ .data := by
    intro hdata
    rw [markupOf?, hdata] at hmarkup
    cases hmarkup
  -- the events inside are under the longer chain, and leaving the file takes it off again
  refine ⟨?_, ?_, ?_, ?_⟩
  · refine ⟨rfl, hfinds, ⟨hvalid, hkind⟩, nested_append.mpr ⟨h.nested, ?_⟩⟩
    exact trivial
  · simp only [chainAfter, List.cons_append]
    rw [chainAfter_append, h.restored]
    simp [chainAfter]
  · intro v e hv he
    have hv : Event.visit v = .visit ⟨start ++ chain, site, arg, .opened content⟩ ∨
        Event.visit v ∈ log := by simpa using hv
    rcases hv with hv | hv
    · cases hv
      cases he
    · exact h.stops v e hv he
  · intro e he
    obtain ⟨v, hv, hfault⟩ := h.reported e he
    exact ⟨v, by simp [hv], hfault⟩

mutual

theorem Includes.logged {active : List Text} {s : Sources} {site : Site} {arg : Text}
    {log : List Event} {r : Except TemplateError (List PageNode)} {chain : List Text}
    (h : Includes fs active s site arg log r) (hactive : active = start ++ chain) :
    Logged fs start chain log r := by
  match h with
  | .refused hfinds he =>
    subst hactive
    refine logged_visit hfinds (fun e he' => ?_) fun e he' => ?_
    · rw [he] at he'
      cases he'
      rfl
    · cases he'
      exact he
  | .data hfinds _ =>
    subst hactive
    exact logged_visit hfinds (fun _ he => by cases he) fun _ he => by cases he
  | .markup hfinds hmarkup hall =>
    have hinside := hall.logged ((congrArg (· ++ _) hactive).trans (List.append_assoc _ _ _))
    subst hactive
    exact .within hfinds hmarkup (hinside.map _)

theorem IncludesEach.logged {active : List Text} {s : Sources} {site : Site} {args : List Text}
    {log : List Event} {r : Except TemplateError (List PageNode)} {chain : List Text}
    (h : IncludesEach fs active s site args log r) (hactive : active = start ++ chain) :
    Logged fs start chain log r := by
  match h with
  | .nil => exact logged_nil fun _ he => by cases he
  | .cons hfirst hrest => exact (hfirst.logged hactive).append ((hrest.logged hactive).map _)
  | .stop hfirst => exact hfirst.logged hactive

theorem ExpandsNode.logged {active : List Text} {s : Sources} {site : Site} {n : Markup.Node}
    {log : List Event} {r : Except TemplateError (List PageNode)} {chain : List Text}
    (h : ExpandsNode fs active s site n log r) (hactive : active = start ++ chain) :
    Logged fs start chain log r := by
  match h with
  | .document hall => exact hall.logged hactive
  | .malformed _ => exact logged_nil fun _ he => by cases he
  | .kept _ _ hall => exact (hall.logged hactive).map _
  | .noFile _ _ _ => exact logged_nil fun _ he => by cases he
  | .replaced _ _ _ heach => exact (heach.logged hactive).map _
  | .text => exact logged_nil fun _ he => by cases he
  | .leaf _ => exact logged_nil fun _ he => by cases he

theorem ExpandsAll.logged {active : List Text} {s : Sources} {site : Site}
    {nodes : List Markup.Node} {log : List Event} {r : Except TemplateError (List PageNode)}
    {chain : List Text} (h : ExpandsAll fs active s site nodes log r)
    (hactive : active = start ++ chain) : Logged fs start chain log r := by
  match h with
  | .nil => exact logged_nil fun _ he => by cases he
  | .cons hfirst hrest => exact (hfirst.logged hactive).append ((hrest.logged hactive).map _)
  | .stop hfirst => exact hfirst.logged hactive

end

end Logged

/-! What was found at each attempt. -/

def Visit.isRead (v : Visit) : Bool :=
  match v.finding with
  | .unreadable _ | .opened _ => true
  | _ => false

theorem Finds.cyclic_iff {fs : FileSystem} {active : List Text} {target : Text} {finding : Finding}
    (h : Finds fs active target finding) :
    finding = .cyclic ↔ Path.isValid target = true ∧ target ∈ active := by
  cases h <;> simp_all

theorem Finds.isValid_of_isRead {fs : FileSystem} {v : Visit}
    (h : Finds fs v.active v.target v.finding) (hread : v.isRead = true) :
    Path.isValid v.target = true := by
  unfold Visit.isRead at hread
  generalize v.finding = finding at h hread
  cases h with
  | escapes | cyclic => cases hread
  | unreadable hvalid | opened hvalid => exact hvalid

theorem Logged.at_visit {fs : FileSystem} {start : List Text} {log : List Event}
    {r : Except TemplateError (List PageNode)} (h : Logged fs start [] log r)
    {before later : List Event} {v : Visit} (hlog : log = before ++ .visit v :: later) :
    v.active = start ++ chainAfter [] before ∧ Finds fs v.active v.target v.finding ∧
      ∀ t ∈ chainAfter [] before, Path.isValid t = true ∧ FileKind.ofPath t ≠ .data := by
  have hnested := h.nested
  rw [hlog] at hnested
  obtain ⟨hbefore, hactive, hfinds, -⟩ := nested_append.mp hnested
  exact ⟨hactive, hfinds, hbefore.mem_chainAfter (by simp)⟩

/-! The files that were read. -/

def Event.opened? : Event → Option Text
  | .visit v =>
    match v.finding with
    | .opened _ => some v.target
    | _ => none
  | _ => none

theorem Sources.find?_eq_none_iff (s : Sources) (name : Text) :
    s.find? name = none ↔ name ∉ s.names := by
  rw [find?, List.lookup_eq_none_iff, names, List.mem_map]
  constructor
  · rintro h ⟨entry, hentry, rfl⟩
    exact absurd (h entry hentry) (by simp)
  · intro h entry hentry
    exact bne_iff_ne.mpr fun he => h ⟨entry, hentry, he.symm⟩

theorem Sources.names_record {s : Sources} {read : List Text} (h : s.names = read.eraseDups)
    (name content : Text) : (s.record name content).names = (read ++ [name]).eraseDups := by
  have hmem : name ∈ s.names ↔ name ∈ read := by rw [h, List.mem_eraseDups]
  rw [List.eraseDups_append, ← h]
  cases hfind : s.find? name with
  | none =>
    have hnew : name ∉ read := fun hname =>
      (s.find?_eq_none_iff name).mp hfind (hmem.mpr hname)
    simp [record, hfind, names, List.removeAll, hnew, List.eraseDups_cons]
  | some found =>
    have hold : name ∈ read := by
      apply hmem.mp
      apply Classical.byContradiction
      intro hno
      rw [(s.find?_eq_none_iff name).mpr hno] at hfind
      cases hfind
    simp [record, hfind, List.removeAll, hold]

theorem Sources.names_after {s : Sources} {read : List Text} (h : s.names = read.eraseDups)
    (log : List Event) : (s.after log).names = (read ++ log.filterMap Event.opened?).eraseDups := by
  induction log generalizing s read with
  | nil => simpa [after] using h
  | cons event log ih =>
    cases event with
    | visit v =>
      obtain ⟨active, site, arg, finding⟩ := v
      cases finding with
      | opened content =>
        have hrest := ih (names_record h (targetOf site.dir arg) content)
        rw [List.append_assoc] at hrest
        exact hrest
      | escapes | cyclic | unreadable => exact ih h
    | enter target => exact ih h
    | leave => exact ih h

end Page

/-! A page that was put together has no include directive left. -/

namespace Directive

theorem nameOf?_of_readFrom {d d' : Directive} {attrs ordinary : List Markup.Attribute}
    (h : readFrom d attrs = .ok (d', ordinary)) : ∀ a ∈ ordinary, nameOf? a = none := by
  induction attrs generalizing d d' ordinary with
  | nil =>
    cases h
    simp
  | cons a attrs ih =>
    rw [readFrom] at h
    cases hname : nameOf? a with
    | none =>
      rw [hname] at h
      obtain ⟨⟨d₁, rest⟩, hrest, heq⟩ := bind_eq_ok_iff.mp h
      cases heq
      exact List.forall_mem_cons.mpr ⟨hname, ih hrest⟩
    | some name =>
      rw [hname] at h
      obtain ⟨d₁, -, hrest⟩ := bind_eq_ok_iff.mp h
      exact ih hrest

theorem readFrom_of_nameOf? (d : Directive) {ordinary : List Markup.Attribute}
    (h : ∀ a ∈ ordinary, nameOf? a = none) : readFrom d ordinary = .ok (d, ordinary) := by
  induction ordinary with
  | nil => rfl
  | cons a ordinary ih =>
    obtain ⟨ha, hrest⟩ := List.forall_mem_cons.mp h
    rw [readFrom, ha, ih hrest]
    rfl

theorem read_ordinary {d : Directive} {attrs ordinary : List Markup.Attribute}
    (h : read attrs = .ok (d, ordinary)) : read ordinary = .ok ({}, ordinary) :=
  readFrom_of_nameOf? {} (nameOf?_of_readFrom h)

end Directive

inductive PageNode.IncludeFree : PageNode → Prop where
  | element {origin ns tag attrs children d ordinary} : Directive.read attrs = .ok (d, ordinary) →
      d.hole ≠ some Directive.includeHole → (∀ n ∈ children, IncludeFree n) →
      IncludeFree (.element origin ns tag attrs children)
  | text {origin data} : IncludeFree (.text origin data)
  | verbatim {origin data} : IncludeFree (.verbatim origin data)
  | leaf {origin node} : Page.isLeaf node = true → IncludeFree (.leaf origin node)

theorem PageNode.IncludeFree.mark {n : PageNode} (h : n.IncludeFree) (file : Text) :
    (n.mark file).IncludeFree := by
  cases h with
  | element hread hhole hchildren => exact .element hread hhole hchildren
  | text => exact .text
  | verbatim => exact .verbatim
  | leaf hleaf => exact .leaf hleaf

namespace Page

section Complete

variable {fs : FileSystem}

def Complete (r : Except TemplateError (List PageNode)) : Prop :=
  ∀ page, r = .ok page → ∀ n ∈ page, n.IncludeFree

theorem complete_error (e : TemplateError) : Complete (.error e) :=
  fun _ h => by cases h

theorem Complete.map {r : Except TemplateError (List PageNode)} (h : Complete r)
    {f : List PageNode → List PageNode}
    (hf : ∀ content, (∀ n ∈ content, n.IncludeFree) → ∀ n ∈ f content, n.IncludeFree) :
    Complete (r.map f) := by
  intro page hpage
  cases r with
  | error e => cases hpage
  | ok content =>
    cases hpage
    exact hf content (h content rfl)

theorem Complete.append {first : List PageNode} {r : Except TemplateError (List PageNode)}
    (hfirst : Complete (.ok first)) (h : Complete r) : Complete (r.map (first ++ ·)) :=
  h.map fun _ hcontent => List.forall_mem_append.mpr ⟨hfirst first rfl, hcontent⟩

theorem includeFree_wrapped {ns tag : Text} {attrs ordinary : List Markup.Attribute}
    {d : Directive} (hread : Directive.read attrs = .ok (d, ordinary)) (strip : Strip)
    {content : List PageNode} (hcontent : ∀ n ∈ content, n.IncludeFree) :
    ∀ n ∈ wrapped ns tag ordinary strip content, n.IncludeFree := by
  have helement : (PageNode.element none ns tag ordinary content).IncludeFree :=
    .element (Directive.read_ordinary hread) (by simp) hcontent
  cases strip with
  | none => simpa [wrapped] using helement
  | always => exact hcontent
  | ifEmpty =>
    rw [wrapped]
    split
    · simp
    · simpa using helement

mutual

theorem Includes.complete {active : List Text} {s : Sources} {site : Site} {arg : Text}
    {log : List Event} {r : Except TemplateError (List PageNode)}
    (h : Includes fs active s site arg log r) : Complete r := by
  match h with
  | .refused _ _ => exact complete_error _
  | .data _ _ =>
    rintro _ ⟨⟩
    split
    · simp
    · simpa using .verbatim
  | .markup _ _ hall =>
    refine hall.complete.map fun content hcontent => ?_
    exact List.forall_mem_map.mpr fun n hn => (hcontent n hn).mark _

theorem IncludesEach.complete {active : List Text} {s : Sources} {site : Site} {args : List Text}
    {log : List Event} {r : Except TemplateError (List PageNode)}
    (h : IncludesEach fs active s site args log r) : Complete r := by
  match h with
  | .nil =>
    rintro _ ⟨⟩
    simp
  | .cons hfirst hrest => exact hfirst.complete.append hrest.complete
  | .stop _ => exact complete_error _

theorem ExpandsNode.complete {active : List Text} {s : Sources} {site : Site} {n : Markup.Node}
    {log : List Event} {r : Except TemplateError (List PageNode)}
    (h : ExpandsNode fs active s site n log r) : Complete r := by
  match h with
  | .document hall => exact hall.complete
  | .malformed _ => exact complete_error _
  | .kept hread hhole hall =>
    refine hall.complete.map fun content hcontent => ?_
    simpa using .element hread hhole hcontent
  | .noFile _ _ _ => exact complete_error _
  | .replaced hread _ _ heach =>
    exact heach.complete.map fun content hcontent => includeFree_wrapped hread _ hcontent
  | .text =>
    rintro _ ⟨⟩
    simpa using .text
  | .leaf hleaf =>
    rintro _ ⟨⟩
    simpa using .leaf hleaf

theorem ExpandsAll.complete {active : List Text} {s : Sources} {site : Site}
    {nodes : List Markup.Node} {log : List Event} {r : Except TemplateError (List PageNode)}
    (h : ExpandsAll fs active s site nodes log r) : Complete r := by
  match h with
  | .nil =>
    rintro _ ⟨⟩
    simp
  | .cons hfirst hrest => exact hfirst.complete.append hrest.complete
  | .stop _ => exact complete_error _

end

end Complete

theorem toNodes_append (first second : List PageNode) :
    PageNode.toNodes (first ++ second) = PageNode.toNodes first ++ PageNode.toNodes second := by
  induction first with
  | nil => rfl
  | cons n first ih => simp [PageNode.toNodes, ih]

mutual

theorem expandNode_again (site : Site) (n : PageNode) (h : n.IncludeFree) :
    ∃ again, PageNode.toNodes again = [n.toNode] ∧
      ∀ (included : Site → Text → Expand (List PageNode)) (s : Sources),
        (expandNode included site n.toNode).run s = .ok (again, s) := by
  match n with
  | .element origin ns tag attrs children =>
    cases h with
    | element hread hhole hchildren =>
      obtain ⟨again, hagain, hrun⟩ := expandAll_again site children hchildren
      refine ⟨[.element none ns tag attrs again], ?_, fun included s => ?_⟩
      · simp [PageNode.toNodes, PageNode.toNode, hagain]
      · rw [PageNode.toNode, expandNode, hread]
        dsimp only
        rw [if_neg hhole, run_bind, hrun included s]
        rfl
  | .text origin data => exact ⟨[.text none data], rfl, fun _ _ => rfl⟩
  | .verbatim origin data => exact ⟨[.text none data], rfl, fun _ _ => rfl⟩
  | .leaf origin node =>
    cases h with
    | leaf hleaf =>
      refine ⟨[.leaf none node], rfl, fun included s => ?_⟩
      cases node with
      | comment | doctype | raw | error => rfl
      | element | text | document => cases hleaf

theorem expandAll_again (site : Site) (page : List PageNode) (h : ∀ n ∈ page, n.IncludeFree) :
    ∃ again, PageNode.toNodes again = PageNode.toNodes page ∧
      ∀ (included : Site → Text → Expand (List PageNode)) (s : Sources),
        (expandAll included site (PageNode.toNodes page)).run s = .ok (again, s) := by
  match page with
  | [] => exact ⟨[], rfl, fun _ _ => rfl⟩
  | n :: rest =>
    obtain ⟨hn, hrest⟩ := List.forall_mem_cons.mp h
    obtain ⟨first, hfirst, hrun⟩ := expandNode_again site n hn
    obtain ⟨others, hothers, hrun'⟩ := expandAll_again site rest hrest
    refine ⟨first ++ others, ?_, fun included s => ?_⟩
    · rw [toNodes_append, hfirst, hothers]
      rfl
    · rw [PageNode.toNodes, expandAll, run_bind, hrun included s]
      dsimp only
      rw [run_bind, hrun' included s]
      rfl

end

/-- Putting files into nodes ends in the one way that the rules allow. Each attempt is made under
the start file and the markup files being put in around it, and is refused as a cycle exactly if its
file is among them. The files read are listed once each, in the order of their first reading, and a
page that comes out has nothing left to put in. -/
theorem expansion_complete (fs : FileSystem) (start : Option (Text × Text)) (site : Site)
    (nodes : List Markup.Node) :
    ∃ log result,
      (∀ log' result', ExpandsAll fs (start.toList.map Prod.fst) ⟨start.toList⟩ site nodes log'
        result' ↔ log' = log ∧ result' = result) ∧
      (expand (some fs) (start.toList.map Prod.fst) site nodes).run ⟨start.toList⟩ =
        result.map (·, Sources.after ⟨start.toList⟩ log) ∧
      (∀ before v later, log = before ++ .visit v :: later →
        v.active = start.toList.map Prod.fst ++ chainAfter [] before ∧
        (∀ t ∈ chainAfter [] before, FileKind.ofPath t ≠ .data) ∧
        (v.finding = .cyclic ↔ Path.isValid v.target = true ∧ v.target ∈ v.active) ∧
        ((∀ name ∈ start.toList.map Prod.fst, Path.isValid name = true) →
          (v.finding = .cyclic ↔ v.target ∈ v.active)) ∧
        (v.isRead = true → Path.isValid v.target = true)) ∧
      chainAfter [] log = [] ∧
      (∀ v e, .visit v ∈ log → v.fault? = some e → result = .error e) ∧
      (∀ e, result = .error (.badInclude e) →
        ∃ v, .visit v ∈ log ∧ v.fault? = some (.badInclude e)) ∧
      (Sources.after ⟨start.toList⟩ log).names =
        (start.toList.map Prod.fst ++ log.filterMap Event.opened?).eraseDups ∧
      ∀ page, result = .ok page →
        (∀ path doc, Document.ofPage path page (Sources.after ⟨start.toList⟩ log) = .ok doc →
          doc.files = (start.toList.map Prod.fst ++ log.filterMap Event.opened?).eraseDups) ∧
        (∀ n ∈ page, n.IncludeFree) ∧
        ∀ site', ∃ again,
          Markup.Node.equalAll (PageNode.toNodes again) (PageNode.toNodes page) = true ∧
          ∀ fs' active' s', (expand fs' active' site' (PageNode.toNodes page)).run s' =
            .ok (again, s') := by
  obtain ⟨log, result, hrun, hexpands⟩ :=
    expand_runs fs (start.toList.map Prod.fst) site nodes ⟨start.toList⟩
  have hlogged : Logged fs (start.toList.map Prod.fst) [] log result :=
    hexpands.logged (List.append_nil _).symm
  have hnames : (Sources.after ⟨start.toList⟩ log).names =
      (start.toList.map Prod.fst ++ log.filterMap Event.opened?).eraseDups :=
    Sources.names_after (by cases start <;> rfl) log
  refine ⟨log, result, fun log' result' => ⟨hexpands.only log' result', ?_⟩, hrun,
    fun before v later hlog => ?_, hlogged.restored, hlogged.stops, hlogged.reported, hnames,
    fun page hpage => ⟨fun path doc hdoc => ?_, hexpands.complete page hpage, fun site' => ?_⟩⟩
  · rintro ⟨rfl, rfl⟩
    exact hexpands
  · obtain ⟨hactive, hfinds, hchain⟩ := hlogged.at_visit hlog
    refine ⟨hactive, fun t ht => (hchain t ht).2, hfinds.cyclic_iff, fun hstart => ?_,
      hfinds.isValid_of_isRead⟩
    rw [hfinds.cyclic_iff]
    refine and_iff_right_of_imp fun hmem => ?_
    rw [hactive] at hmem
    exact (List.mem_append.mp hmem).elim (hstart _) fun h => (hchain _ h).1
  · exact (Document.files_of_ofPage hdoc).trans hnames
  · obtain ⟨again, hagain, hrun'⟩ := expandAll_again site' page (hexpands.complete page hpage)
    refine ⟨again, ?_, fun fs' active' s' => ?_⟩
    · rw [hagain]
      exact Markup.Node.equalAll_refl _
    · cases fs' <;> exact hrun' _ s'

end Page

namespace Document

theorem read_eq_ok_iff_expands {fs : FileSystem} {name : Text} {doc : Document} :
    read fs name = .ok doc ↔ ∃ content log page tree symbols, fs.read name = .ok content ∧
      Page.ExpandsAll fs [name] ⟨[(name, content)]⟩ ⟨name, Path.dir name⟩ (Markup.parse content) log
        (.ok page) ∧
      Reading.nodes? page = some tree ∧
      Symbols.empty.registerAll ((Tree.occurrencesIn tree).map Occurrence.use) = .ok symbols ∧
      doc = ⟨name, PageNode.toNodes page, tree, symbols,
        (name :: log.filterMap Page.Event.opened?).eraseDups⟩ := by
  have hnames (content : Text) (log : List Page.Event) :
      (Page.Sources.after ⟨[(name, content)]⟩ log).names =
        (name :: log.filterMap Page.Event.opened?).eraseDups :=
    @Page.Sources.names_after ⟨[(name, content)]⟩ [name] rfl log
  simp only [read_eq_ok_iff, ofPage_eq_ok_iff]
  constructor
  · rintro ⟨content, page, sources, hread, hexpand, tree, symbols, htree, hsymbols, rfl⟩
    obtain ⟨log, r, hrun, hexpands⟩ := Page.expand_runs fs [name] ⟨name, Path.dir name⟩
      (Markup.parse content) ⟨[(name, content)]⟩
    rw [hexpand] at hrun
    cases r with
    | error e => cases hrun
    | ok page' =>
      cases hrun
      exact ⟨content, log, page, tree, symbols, hread, hexpands, htree, hsymbols, by rw [hnames]⟩
  · rintro ⟨content, log, page, tree, symbols, hread, hexpands, htree, hsymbols, rfl⟩
    exact ⟨content, page, _, hread, hexpands.run, tree, symbols, htree, hsymbols, by rw [hnames]⟩

end Document

end Stencil
