import Stencil.Forest.Register
import Stencil.Proofs.Forest.Copying
import Stencil.Proofs.Text.Order

namespace Stencil

open Forest

inductive Building where
  | text (dst s : Text)
  | comment (dst s : Text)
  | doctype (dst name : Text) (attrs : List Markup.Attribute)
  | element (dst ns tag : Text) (attrs : List Markup.Attribute) (srcs : List Text)
  | concat (dst : Text) (srcs : List Text)
  | clone (dst src : Text)
  | children (dst src : Text) (index : Int)

namespace Building

def op : Building → RegisterOp
  | text dst s => .text dst s
  | comment dst s => .comment dst s
  | doctype dst name attrs => .doctype dst name attrs
  | element dst ns tag attrs srcs => .element dst ns tag attrs srcs
  | concat dst srcs => .concat dst srcs
  | clone dst src => .clone dst src
  | children dst src index => .children dst src index

def dst : Building → Text
  | text dst _ | comment dst _ | doctype dst _ _ | element dst _ _ _ _ | concat dst _ | clone dst _
  | children dst _ _ => dst

def value (r : Text → List Markup.Node) : Building → Except AccessFault (List Markup.Node)
  | text _ s => .ok (if s.isEmpty then [] else [.text s])
  | comment _ s => .ok [.comment s]
  | doctype _ name attrs => .ok [.doctype name attrs]
  | element _ ns tag attrs srcs => .ok [.element ns tag attrs (srcs.flatMap r)]
  | concat _ srcs => .ok (srcs.flatMap r)
  | clone _ src => .ok (r src)
  | children _ src index =>
    match if index < 0 then none else (r src)[index.toNat]? with
    | none => .error (.outOfRange index (r src).length)
    | some tree => .ok tree.children

def apply (r : Text → List Markup.Node) (b : Building) : Text → List Markup.Node :=
  match b.value r with
  | .ok trees => Function.update r b.dst trees
  | .error _ => r

theorem apply_of_ne (r : Text → List Markup.Node) (b : Building) {name : Text}
    (hname : name ≠ b.dst) : b.apply r name = r name := by
  rw [apply]
  cases b.value r with
  | ok built => exact Function.update_of_ne hname _ _
  | error e => rfl

theorem answer_ne_attached (r : Text → List Markup.Node) (b : Building) :
    ((b.value r).map fun built => RegisterAnswer.siblings (built.map some)) ≠ .error .attached := by
  cases b with
  | children dst src index =>
    rw [value]
    split <;> simp [Except.map]
  | _ => simp [value, Except.map]

end Building

namespace Workspace

variable {f g : Forest} {list : Siblings} {trees : List Markup.Node} {w : Workspace}
  {r : Text → List Markup.Node}

def Shows (f : Forest) (list : Siblings) (trees : List Markup.Node) : Prop :=
  ∃ nodes : List NodeId, list = nodes.map some ∧ (∀ n ∈ nodes, n < f.size) ∧
    nodes.map f.toNode = trees

theorem Shows.view_eq (h : Shows f list trees) : view f list = trees.map some := by
  obtain ⟨nodes, rfl, -, rfl⟩ := h
  simp [view]

theorem shows_nil (f : Forest) : Shows f [] [] :=
  ⟨[], rfl, by simp, rfl⟩

theorem Shows.append {list' : Siblings} {trees' : List Markup.Node} (h : Shows f list trees)
    (h' : Shows f list' trees') : Shows f (list ++ list') (trees ++ trees') := by
  obtain ⟨nodes, rfl, hknown, rfl⟩ := h
  obtain ⟨nodes', rfl, hknown', rfl⟩ := h'
  refine ⟨nodes ++ nodes', by simp, fun n hn => ?_, by simp⟩
  exact (List.mem_append.mp hn).elim (hknown n) (hknown' n)

theorem shows_flatMap {find : Text → Siblings} (h : ∀ name, Shows f (find name) (r name))
    (srcs : List Text) : Shows f (srcs.flatMap find) (srcs.flatMap r) := by
  induction srcs with
  | nil => exact shows_nil f
  | cons src srcs ih => exact (h src).append ih

theorem Shows.member_eq_error (h : Shows f list trees) {index : Int}
    (hno : (if index < 0 then none else trees[index.toNat]?) = none) :
    member list index = .error (.outOfRange index trees.length) := by
  obtain ⟨nodes, rfl, -, rfl⟩ := h
  by_cases hneg : index < 0
  · simp [member, hneg]
  · rw [if_neg hneg, List.getElem?_map, Option.map_eq_none_iff] at hno
    simp [member, hneg, hno]

theorem Shows.member_eq_ok (h : Shows f list trees) {index : Int} {tree : Markup.Node}
    (htree : (if index < 0 then none else trees[index.toNat]?) = some tree) :
    ∃ n, member list index = .ok n ∧ n < f.size ∧ f.toNode n = tree := by
  obtain ⟨nodes, rfl, hknown, rfl⟩ := h
  by_cases hneg : index < 0
  · rw [if_pos hneg] at htree
    cases htree
  · rw [if_neg hneg, List.getElem?_map, Option.map_eq_some_iff] at htree
    obtain ⟨n, hn, rfl⟩ := htree
    exact ⟨n, by simp [member, hneg, hn], hknown n (List.mem_of_getElem? hn), rfl⟩

def Keeps (f g : Forest) : Prop :=
  ∀ n < f.size, n < g.size ∧ g.toNode n = f.toNode n

theorem Keeps.trans {f' : Forest} (h : Keeps f g) (h' : Keeps g f') : Keeps f f' := by
  intro n hn
  obtain ⟨hg, htree⟩ := h n hn
  obtain ⟨hf', htree'⟩ := h' n hg
  exact ⟨hf', htree'.trans htree⟩

theorem Shows.keeps (h : Shows f list trees) (hk : Keeps f g) : Shows g list trees := by
  obtain ⟨nodes, rfl, hknown, rfl⟩ := h
  refine ⟨nodes, rfl, fun n hn => (hk n (hknown n hn)).1, ?_⟩
  exact List.map_congr_left fun n hn => (hk n (hknown n hn)).2

theorem keeps_of_newRoot {rank rank' : NodeId → Nat} {n : NodeId} {label : Label} {k : Nat}
    (hf : f.Sound rank) (h : f.NewRoot rank n label k trees g rank') : Keeps f g :=
  fun _ hm => ⟨Nat.lt_of_lt_of_le hm h.grows.size_le, h.grows.toNode_eq hf h.sound hm⟩

theorem shows_newRoot {rank rank' : NodeId → Nat} {n : NodeId} {label : Label} {k : Nat}
    (h : f.NewRoot rank n label k trees g rank') : Shows g [some n] [label.toNode trees] :=
  ⟨[n], rfl, by simpa using h.lt_size, by simp [h.toNode_eq]⟩

def Makes (f : Forest) (trees : List Markup.Node) (out : Except AccessFault (Siblings × Forest)) :
    Prop :=
  ∃ list g rank, out = .ok (list, g) ∧ g.Sound rank ∧ Keeps f g ∧ Shows g list trees

section

variable {rank : NodeId → Nat} (hf : f.Sound rank)
include hf

theorem makes_known (h : Shows f list trees) : Makes f trees (.ok (list, f)) :=
  ⟨list, f, rank, rfl, hf, fun _ hn => ⟨hn, rfl⟩, h⟩

theorem makes_add (label : Label) :
    Makes f [label.toNode []] (.ok ([some f.size], (f.add label).2)) :=
  have hroot := hf.newRoot_add label (Nat.zero_le _)
  ⟨_, _, _, rfl, hroot.sound, keeps_of_newRoot hf hroot, shows_newRoot hroot⟩

theorem appendAll_eq_ok {rank' : NodeId → Nat} {n : NodeId} {label : Label} {k : Nat}
    {before : List Markup.Node} (h : f.NewRoot rank n label k before g rank')
    (hbears : label.hasChildren = true) {nodes : List NodeId}
    (hnodes : ∀ m ∈ nodes, m < f.size ∧ rank m < k) :
    ∃ g' rank'', appendAll g n (nodes.map some) = .ok g' ∧
      f.NewRoot rank n label k (before ++ nodes.map f.toNode) g' rank'' := by
  induction nodes generalizing g rank' before with
  | nil => exact ⟨g, rank', rfl, by rwa [List.map_nil, List.append_nil]⟩
  | cons m nodes ih =>
    obtain ⟨hknown, hlower⟩ := hnodes m List.mem_cons_self
    obtain ⟨g₁, rank₁, happend, hroot⟩ := h.append hf hbears hknown hlower
    obtain ⟨g', rank'', hall, hroot'⟩ := ih hroot fun m hm => hnodes m (List.mem_cons_of_mem _ hm)
    refine ⟨g', rank'', ?_, by simpa using hroot'⟩
    rw [List.map_cons, appendAll, happend]
    exact hall

theorem makes_addElement (ns tag : Text) (attrs : List Markup.Attribute)
    (h : Shows f list trees) :
    Makes f [.element ns tag attrs trees] (addElement f ns tag attrs list) := by
  obtain ⟨nodes, rfl, hknown, rfl⟩ := h
  -- the element is above all nodes that were there
  have hadd := hf.newRoot_add (.element ns tag attrs) (Nat.le_refl _)
  obtain ⟨g, rank', hall, hroot⟩ :=
    appendAll_eq_ok hf hadd rfl fun m hm => ⟨hknown m hm, hf.bounded (hknown m hm)⟩
  refine ⟨[some f.size], g, rank', ?_, hroot.sound, keeps_of_newRoot hf hroot,
    shows_newRoot hroot⟩
  exact congrArg (· >>= fun g => pure ([some f.size], g)) hall

end

theorem makes_cloneAll {rank : NodeId → Nat} (hf : f.Sound rank) (h : Shows f list trees) :
    Makes f trees (cloneAll f list) := by
  obtain ⟨nodes, rfl, hknown, rfl⟩ := h
  induction nodes generalizing f rank with
  | nil => exact makes_known hf (shows_nil f)
  | cons n nodes ih =>
    obtain ⟨copy, g, rank', hclone, ⟨label, hlabel, hroot⟩, -⟩ :=
      clone_eq_ok hf (hknown n List.mem_cons_self)
    have hkeeps := keeps_of_newRoot hf hroot
    have hcopy : Shows g [some copy] [f.toNode n] := by
      rw [hf.toNode_eq hlabel]
      exact shows_newRoot hroot
    have hrest (m : NodeId) (hm : m ∈ nodes) := hkeeps m (hknown m (List.mem_cons_of_mem _ hm))
    obtain ⟨list, g', rank'', hall, hsound, hkeeps', hlist⟩ :=
      ih hroot.sound fun m hm => (hrest m hm).1
    have htrees : nodes.map g.toNode = nodes.map f.toNode :=
      List.map_congr_left fun m hm => (hrest m hm).2
    rw [htrees] at hlist
    refine ⟨some copy :: list, g', rank'', ?_, hsound, hkeeps.trans hkeeps',
      (hcopy.keeps hkeeps').append hlist⟩
    rw [List.map_cons, cloneAll, hclone]
    exact congrArg (· >>= fun out => pure (some copy :: out.1, out.2)) hall

structure Represents (w : Workspace) (r : Text → List Markup.Node) : Prop where
  sound : ∃ rank, w.forest.Sound rank
  shows : ∀ name, Shows w.forest (w.find name) (r name)

theorem find_store (w : Workspace) (dst : Text) (g : Forest) (list : Siblings) (name : Text) :
    (w.store dst g list).find name = if name = dst then list else w.find name := by
  rw [find, store, Text.lookup_cons_ite, Text.lookup_filter_ne]
  split <;> rfl

namespace Represents

theorem keep (h : w.Represents r) (dst : Text) {out : Except AccessFault (Siblings × Forest)}
    (hout : Makes w.forest trees out) :
    (w.keep dst out).1 = .ok (.siblings (trees.map some)) ∧
      (w.keep dst out).2.Represents (Function.update r dst trees) := by
  obtain ⟨list, g, rank, rfl, hsound, hkeeps, hlist⟩ := hout
  refine ⟨by rw [Workspace.keep, hlist.view_eq], ⟨rank, hsound⟩, fun name => ?_⟩
  rw [Workspace.keep, find_store]
  by_cases hname : name = dst
  · subst hname
    rwa [if_pos rfl, Function.update_self]
  · rw [if_neg hname, Function.update_of_ne hname]
    exact (h.shows name).keeps hkeeps

theorem run (h : w.Represents r) (b : Building) :
    (w.run b.op).1 = (b.value r).map (fun trees => .siblings (trees.map some)) ∧
      (w.run b.op).2.Represents (b.apply r) := by
  obtain ⟨rank, hf⟩ := h.sound
  cases b with
  | text dst s =>
    have hout : Makes w.forest (if s.isEmpty then [] else [.text s])
        (if s.isEmpty then .ok ([], w.forest) else w.single (.text s)) := by
      by_cases hs : s.isEmpty
      · rw [if_pos hs, if_pos hs]
        exact makes_known hf (shows_nil w.forest)
      · rw [if_neg hs, if_neg hs]
        exact makes_add hf (.text s)
    exact h.keep dst hout
  | comment dst s => exact h.keep dst (makes_add hf (.comment s))
  | doctype dst name attrs => exact h.keep dst (makes_add hf (.doctype name attrs))
  | element dst ns tag attrs srcs =>
    exact h.keep dst (makes_addElement hf ns tag attrs (shows_flatMap h.shows srcs))
  | concat dst srcs => exact h.keep dst (makes_known hf (shows_flatMap h.shows srcs))
  | clone dst src => exact h.keep dst (makes_cloneAll hf (h.shows src))
  | children dst src index =>
    simp only [Building.value, Building.apply, Building.op, Workspace.run]
    cases htree : if index < 0 then none else (r src)[index.toNat]? with
    | none =>
      rw [(h.shows src).member_eq_error htree]
      exact ⟨rfl, h⟩
    | some tree =>
      obtain ⟨n, hn, hknown, rfl⟩ := (h.shows src).member_eq_ok htree
      rw [hn]
      refine h.keep dst (makes_known hf ⟨w.forest.childrenOf n, rfl, fun m hm => ?_, ?_⟩)
      · exact (hf.known hm).1
      · exact (hf.children_toNode hknown).symm

end Represents

theorem represents_empty : ({} : Workspace).Represents fun _ => [] := by
  have hlinked : Linked {} (fun _ => []) (fun _ => 0) := by
    constructor <;> simp [get?, size]
  exact ⟨⟨_, hlinked.sound⟩, fun _ => shows_nil _⟩

def buildAll (w : Workspace) (steps : List Building) : Workspace :=
  steps.foldl (fun w b => (w.run b.op).2) w

theorem Represents.buildAll (h : w.Represents r) (steps : List Building) :
    (w.buildAll steps).Represents (steps.foldl Building.apply r) := by
  induction steps generalizing w r with
  | nil => exact h
  | cons b steps ih => exact ih (h.run b).2

/-- Sharing nodes is safe. Whatever was built before, the links are those of a forest and every name
has the trees that the same operations give when trees are never changed. The next operation gives
the value it has on trees, attaches no node that is attached, and keeps what other names have. -/
theorem sharing_refines_trees (h : w.Represents r) (steps : List Building) (b : Building) :
    let before := w.buildAll steps
    let trees := steps.foldl Building.apply r
    let after := (before.run b.op).2
    (∃ rank, before.forest.Sound rank) ∧
    (∀ n p q, n ∈ before.forest.childrenOf p → n ∈ before.forest.childrenOf q → p = q) ∧
    (∀ name, view before.forest (before.find name) = (trees name).map some) ∧
    (before.run b.op).1 = (b.value trees).map (fun built => .siblings (built.map some)) ∧
    (before.run b.op).1 ≠ .error .attached ∧
    ∀ name, name ≠ b.dst →
      view after.forest (after.find name) = view before.forest (before.find name) := by
  intro before trees after
  have hbefore : before.Represents trees := h.buildAll steps
  obtain ⟨hanswer, hafter⟩ := hbefore.run b
  obtain ⟨rank, hsound⟩ := hbefore.sound
  refine ⟨⟨rank, hsound⟩, fun n p q => hsound.parent_unique,
    fun name => (hbefore.shows name).view_eq, hanswer, ?_, fun name hname => ?_⟩
  · rw [hanswer]
    exact b.answer_ne_attached trees
  · rw [(hafter.shows name).view_eq, (hbefore.shows name).view_eq, b.apply_of_ne trees hname]

theorem sharing_refines_trees_twice :
    let steps : List Building := [.text (utf8 "a") (utf8 "x"),
      .element (utf8 "p") [] (utf8 "p") [] [utf8 "a", utf8 "a"],
      .element (utf8 "d") (utf8 "svg") (utf8 "g") [] [utf8 "p", utf8 "a", utf8 "p"],
      .children (utf8 "c") (utf8 "d") 0]
    let before := ({} : Workspace).buildAll steps
    let p : Markup.Node := .element [] (utf8 "p") [] [.text (utf8 "x"), .text (utf8 "x")]
    ({} : Workspace).Represents (fun _ => []) ∧
    view before.forest (before.find (utf8 "d")) =
      [some (.element (utf8 "svg") (utf8 "g") [] [p, .text (utf8 "x"), p])] ∧
    view before.forest (before.find (utf8 "p")) = [some p] :=
  have h := sharing_refines_trees represents_empty
    [.text (utf8 "a") (utf8 "x"),
      .element (utf8 "p") [] (utf8 "p") [] [utf8 "a", utf8 "a"],
      .element (utf8 "d") (utf8 "svg") (utf8 "g") [] [utf8 "p", utf8 "a", utf8 "p"],
      .children (utf8 "c") (utf8 "d") 0] (.clone (utf8 "a") (utf8 "d"))
  ⟨represents_empty, h.2.2.1 (utf8 "d"), h.2.2.1 (utf8 "p")⟩

end Workspace

end Stencil
