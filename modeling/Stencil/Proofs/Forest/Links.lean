import Stencil.Forest.Basic
import Mathlib.Data.List.Perm.Subperm
import Mathlib.Logic.Function.Basic

namespace Stencil

def Label.hasChildren : Label → Bool
  | .element _ _ _ | .document => true
  | _ => false

namespace Forest

variable {f g : Forest} {n p : NodeId} {c : Cell}

theorem lt_size_of_get? (h : f.get? n = some c) : n < f.size :=
  (List.getElem?_eq_some_iff.mp h).1

theorem exists_get? (h : n < f.size) : ∃ c, f.get? n = some c :=
  ⟨_, List.getElem?_eq_getElem h⟩

theorem get?_modify (f : Forest) (m : NodeId) (change : Cell → Cell) (n : NodeId) :
    (f.modify m change).get? n = (f.get? n).map fun c => if m = n then change c else c := by
  simp only [get?, modify, List.getElem?_modify]
  rfl

@[simp]
theorem size_modify (f : Forest) (m : NodeId) (change : Cell → Cell) :
    (f.modify m change).size = f.size :=
  List.length_modify ..

@[simp]
theorem size_add (f : Forest) (label : Label) : (f.add label).2.size = f.size + 1 := by
  simp [size, add]

theorem get?_add_of_lt (label : Label) (h : n < f.size) : (f.add label).2.get? n = f.get? n :=
  List.getElem?_append_left h

theorem get?_add_self (f : Forest) (label : Label) :
    (f.add label).2.get? f.size = some { label := label } :=
  List.getElem?_concat_length

def relinked (parent child : NodeId) (last : Option NodeId) (n : NodeId) (c : Cell) : Cell where
  label := c.label
  parent := if n = child then some parent else c.parent
  firstChild := if n = parent ∧ last = none then some child else c.firstChild
  lastChild := if n = parent then some child else c.lastChild
  prev := if n = child then last else c.prev
  next := if last = some n then some child else c.next

theorem attach_eq_ok {child : NodeId} (h : f.isAttached child = false) (parent : NodeId) :
    ∃ g, f.attach parent child = .ok g ∧ g.size = f.size ∧
      ∀ n, g.get? n = (f.get? n).map
        (relinked parent child ((f.get? parent).bind Cell.lastChild) n) := by
  rw [attach, if_neg (by simp [h])]
  cases hlast : (f.get? parent).bind Cell.lastChild with
  | none =>
    refine ⟨_, rfl, by simp, fun n => ?_⟩
    simp only [get?_modify, Option.map_map]
    congr 1
    funext c
    simp only [Function.comp_apply, relinked]
    by_cases hp : parent = n <;> by_cases hc : child = n <;> simp [hp, hc, eq_comm (a := n)]
  | some sibling =>
    refine ⟨_, rfl, by simp, fun n => ?_⟩
    simp only [get?_modify, Option.map_map]
    congr 1
    funext c
    simp only [Function.comp_apply, relinked]
    by_cases hp : parent = n <;> by_cases hc : child = n <;> by_cases hs : sibling = n <;>
      simp [hp, hc, hs, eq_comm (a := n)]

theorem mem_update_concat {kids : NodeId → List NodeId} {parent child : NodeId} :
    n ∈ Function.update kids parent (kids parent ++ [child]) p ↔
      n ∈ kids p ∨ (p = parent ∧ n = child) := by
  by_cases hp : p = parent
  · subst hp
    simp
  · rw [Function.update_of_ne hp]
    simp [hp]

/-- The links of `f` are those of a forest where `kids` gives the children of every node. A rank
that is lower for children than for their parent excludes cycles. -/
structure Linked (f : Forest) (kids : NodeId → List NodeId) (rank : NodeId → Nat) : Prop where
  first : ∀ {n c}, f.get? n = some c → c.firstChild = (kids n).head?
  last : ∀ {n c}, f.get? n = some c → c.lastChild = (kids n).getLast?
  parent : ∀ {n c p}, f.get? n = some c → (c.parent = some p ↔ n ∈ kids p)
  beside : ∀ {p before n after c}, kids p = before ++ n :: after → f.get? n = some c →
    c.prev = before.getLast? ∧ c.next = after.head?
  alone : ∀ {n c}, f.get? n = some c → c.parent = none → c.prev = none ∧ c.next = none
  distinct : ∀ n, (kids n).Nodup
  known : ∀ {p n}, n ∈ kids p → n < f.size ∧ p < f.size
  bears : ∀ {p n c}, n ∈ kids p → f.get? p = some c → c.label.hasChildren = true
  lower : ∀ {p n}, n ∈ kids p → rank n < rank p
  bounded : ∀ {n}, n < f.size → rank n < f.size

namespace Linked

variable {kids : NodeId → List NodeId} {rank : NodeId → Nat}

theorem isAttached_eq_false_iff (h : f.Linked kids rank) (hn : n < f.size) :
    f.isAttached n = false ↔ ∀ p, n ∉ kids p := by
  obtain ⟨c, hc⟩ := exists_get? hn
  have hattached : f.isAttached n = c.isAttached := by simp [isAttached, hc]
  rw [hattached]
  constructor
  · intro hno p hmem
    have hparent := (h.parent hc).mpr hmem
    simp [Cell.isAttached, hparent] at hno
  · intro hno
    have hparent : c.parent = none :=
      Option.eq_none_iff_forall_not_mem.mpr fun p hp => hno p ((h.parent hc).mp hp)
    obtain ⟨hprev, hnext⟩ := h.alone hc hparent
    simp [Cell.isAttached, hparent, hprev, hnext]

theorem siblingsFrom_eq (h : f.Linked kids rank) {before rest : List NodeId}
    (hkids : kids p = before ++ rest) {fuel : Nat} (hfuel : rest.length ≤ fuel) :
    f.siblingsFrom fuel rest.head? = rest := by
  induction rest generalizing before fuel with
  | nil => cases fuel <;> rfl
  | cons n rest ih =>
    cases fuel with
    | zero => simp at hfuel
    | succ fuel =>
      have hmem : n ∈ kids p := by simp [hkids]
      obtain ⟨c, hc⟩ := exists_get? (h.known hmem).1
      obtain ⟨-, hnext⟩ := h.beside hkids hc
      have hkids' : kids p = (before ++ [n]) ++ rest := by rw [hkids]; simp
      have hrest : f.siblingsFrom fuel rest.head? = rest := ih hkids' (by simpa using hfuel)
      rw [List.head?_cons, siblingsFrom, hc, Option.bind_some, hnext, hrest]

theorem length_kids_le (h : f.Linked kids rank) (p : NodeId) : (kids p).length ≤ f.size := by
  have hsub : kids p ⊆ List.range f.size := fun n hn => List.mem_range.mpr (h.known hn).1
  have hle := (List.subperm_of_subset (h.distinct p) hsub).length_le
  rwa [List.length_range] at hle

theorem childrenOf_eq (h : f.Linked kids rank) (p : NodeId) : f.childrenOf p = kids p := by
  by_cases hp : p < f.size
  · obtain ⟨c, hc⟩ := exists_get? hp
    rw [childrenOf, hc, Option.bind_some, h.first hc]
    exact h.siblingsFrom_eq (List.nil_append _).symm (h.length_kids_le p)
  · have hnone : f.get? p = none := List.getElem?_eq_none (Nat.le_of_not_lt hp)
    have hkids : kids p = [] := List.eq_nil_iff_forall_not_mem.mpr fun n hn => hp (h.known hn).2
    rw [childrenOf, hnone, hkids]
    cases f.size <;> rfl

theorem kids_eq_nil (h : f.Linked kids rank) (hp : f.size ≤ p) : kids p = [] :=
  List.eq_nil_iff_forall_not_mem.mpr fun _ hn => Nat.not_lt.mpr hp (h.known hn).2

theorem add (h : f.Linked kids rank) (label : Label) {r : Nat} (hr : r ≤ f.size) :
    (f.add label).2.Linked kids (Function.update rank f.size r) := by
  have hold {n : NodeId} {c : Cell} (hc : (f.add label).2.get? n = some c) :
      (n < f.size ∧ f.get? n = some c) ∨ (n = f.size ∧ c = { label := label }) := by
    rcases Nat.lt_or_ge n f.size with hn | hn
    · exact .inl ⟨hn, by rwa [get?_add_of_lt label hn] at hc⟩
    · have hlt : n < f.size + 1 := size_add f label ▸ lt_size_of_get? hc
      obtain rfl : n = f.size := Nat.le_antisymm (Nat.le_of_lt_succ hlt) hn
      rw [get?_add_self] at hc
      exact .inr ⟨rfl, (Option.some.inj hc).symm⟩
  have hnone (p : NodeId) : f.size ∉ kids p := fun hmem => Nat.lt_irrefl _ (h.known hmem).1
  have hrank {n : NodeId} (hn : n < f.size) : Function.update rank f.size r n = rank n :=
    Function.update_of_ne (Nat.ne_of_lt hn) _ _
  constructor
  case first =>
    intro n c hc
    obtain ⟨-, hc⟩ | ⟨rfl, rfl⟩ := hold hc
    · exact h.first hc
    · rw [h.kids_eq_nil (Nat.le_refl _)]
      rfl
  case last =>
    intro n c hc
    obtain ⟨-, hc⟩ | ⟨rfl, rfl⟩ := hold hc
    · exact h.last hc
    · rw [h.kids_eq_nil (Nat.le_refl _)]
      rfl
  case parent =>
    intro n c p hc
    obtain ⟨-, hc⟩ | ⟨rfl, rfl⟩ := hold hc
    · exact h.parent hc
    · simp [hnone]
  case beside =>
    intro p before n after c hkids hc
    obtain ⟨-, hc⟩ | ⟨rfl, rfl⟩ := hold hc
    · exact h.beside hkids hc
    · exact absurd (by simp [hkids]) (hnone p)
  case alone =>
    intro n c hc hparent
    obtain ⟨-, hc⟩ | ⟨rfl, rfl⟩ := hold hc
    · exact h.alone hc hparent
    · exact ⟨rfl, rfl⟩
  case distinct =>
    exact h.distinct
  case known =>
    intro p n hmem
    obtain ⟨hn, hp⟩ := h.known hmem
    rw [size_add]
    exact ⟨Nat.lt_succ_of_lt hn, Nat.lt_succ_of_lt hp⟩
  case bears =>
    intro p n c hmem hc
    obtain ⟨-, hc⟩ | ⟨rfl, rfl⟩ := hold hc
    · exact h.bears hmem hc
    · exact absurd (h.known hmem).2 (Nat.lt_irrefl _)
  case lower =>
    intro p n hmem
    rw [hrank (h.known hmem).1, hrank (h.known hmem).2]
    exact h.lower hmem
  case bounded =>
    intro n hn
    rw [size_add] at hn ⊢
    rcases Nat.lt_succ_iff_lt_or_eq.mp hn with hn | rfl
    · rw [hrank hn]
      exact Nat.lt_succ_of_lt (h.bounded hn)
    · rw [Function.update_self]
      exact Nat.lt_succ_of_le hr

theorem parent_unique (h : f.Linked kids rank) {p q : NodeId} (hp : n ∈ kids p) (hq : n ∈ kids q) :
    p = q := by
  obtain ⟨c, hc⟩ := exists_get? (h.known hp).1
  exact Option.some.inj (((h.parent hc).mpr hp).symm.trans ((h.parent hc).mpr hq))

theorem alone_of_free (h : f.Linked kids rank) (hfree : ∀ p, n ∉ kids p) (hc : f.get? n = some c) :
    c.prev = none ∧ c.next = none := by
  refine h.alone hc (Option.eq_none_iff_forall_not_mem.mpr fun p hp => ?_)
  exact hfree p ((h.parent hc).mp hp)

theorem beside_relinked (h : f.Linked kids rank) {parent child : NodeId}
    (hfree : ∀ p, child ∉ kids p) {before after : List NodeId}
    (hlist : Function.update kids parent (kids parent ++ [child]) p = before ++ n :: after)
    (hc : f.get? n = some c) :
    (relinked parent child (kids parent).getLast? n c).prev = before.getLast? ∧
      (relinked parent child (kids parent).getLast? n c).next = after.head? := by
  have hne_child {q : NodeId} (hmem : n ∈ kids q) : n ≠ child := fun he => hfree q (he ▸ hmem)
  by_cases hp : p = parent
  · subst hp
    rw [Function.update_self] at hlist
    rcases List.eq_nil_or_concat after with rfl | ⟨after, m, rfl⟩
    · -- the node is the new child
      obtain ⟨rfl, hn⟩ := List.append_inj' hlist rfl
      cases hn
      have hlast : (kids p).getLast? ≠ some n := fun hl => hfree p (List.mem_of_getLast? hl)
      simp [relinked, hlast, (h.alone_of_free hfree hc).2]
    · have hsplit : kids p ++ [child] = (before ++ n :: after) ++ [m] := by simpa using hlist
      obtain ⟨hkids, hm⟩ := List.append_inj' hsplit rfl
      cases hm
      have hn : n ≠ child := hne_child (q := p) (by simp [hkids])
      obtain ⟨hprev, hnext⟩ := h.beside hkids hc
      refine ⟨by simp [relinked, hn, hprev], ?_⟩
      cases after with
      | nil => simp [relinked, hkids]
      | cons m after =>
        -- another child follows, so the node is not the last one
        have hdistinct := h.distinct p
        rw [hkids, List.nodup_append, List.nodup_cons] at hdistinct
        have hlast : (m :: after).getLast? ≠ some n := fun hl =>
          hdistinct.2.1.1 (List.mem_of_getLast? hl)
        simp only [relinked, hkids, List.getLast?_append, List.getLast?_cons_cons]
        rw [Option.or_of_isSome (by simp), if_neg hlast, hnext]
        rfl
  · rw [Function.update_of_ne hp] at hlist
    have hmem : n ∈ kids p := by simp [hlist]
    have hlast : (kids parent).getLast? ≠ some n := fun hl =>
      hp (h.parent_unique hmem (List.mem_of_getLast? hl))
    obtain ⟨hprev, hnext⟩ := h.beside hlist hc
    simp [relinked, hne_child hmem, hlast, hprev, hnext]

theorem attach (h : f.Linked kids rank) {parent child : NodeId} {d : Cell}
    (hparent : f.get? parent = some d) (hbears : d.label.hasChildren = true)
    (hchild : child < f.size) (hfree : ∀ p, child ∉ kids p) (hrank : rank child < rank parent) :
    ∃ g, f.attach parent child = .ok g ∧ g.size = f.size ∧
      (∀ n, (g.get? n).map Cell.label = (f.get? n).map Cell.label) ∧
      g.Linked (Function.update kids parent (kids parent ++ [child])) rank := by
  obtain ⟨g, hg, hsize, hget⟩ :=
    attach_eq_ok ((h.isAttached_eq_false_iff hchild).mpr hfree) parent
  rw [hparent, Option.bind_some, h.last hparent] at hget
  refine ⟨g, hg, hsize, fun n => ?_, ?_⟩
  · rw [hget, Option.map_map]
    rfl
  -- every cell of the new forest is an old one with its links changed
  have hold {n : NodeId} {c : Cell} (hc : g.get? n = some c) : ∃ c₀, f.get? n = some c₀ ∧
      c = relinked parent child (kids parent).getLast? n c₀ := by
    rw [hget] at hc
    obtain ⟨c₀, hc₀, rfl⟩ := Option.map_eq_some_iff.mp hc
    exact ⟨c₀, hc₀, rfl⟩
  have hkids {p : NodeId} (hp : p ≠ parent) :
      Function.update kids parent (kids parent ++ [child]) p = kids p :=
    Function.update_of_ne hp _ _
  have hself : Function.update kids parent (kids parent ++ [child]) parent =
      kids parent ++ [child] := Function.update_self ..
  constructor
  case first =>
    intro n c hc
    obtain ⟨c₀, hc₀, rfl⟩ := hold hc
    by_cases hn : n = parent
    · subst hn
      rw [hself]
      cases hlist : kids n with
      | nil => simp [relinked]
      | cons m rest =>
        simp only [relinked, hlist, h.first hc₀]
        simp
    · rw [hkids hn]
      simp [relinked, hn, h.first hc₀]
  case last =>
    intro n c hc
    obtain ⟨c₀, hc₀, rfl⟩ := hold hc
    by_cases hn : n = parent
    · subst hn
      rw [hself]
      simp [relinked]
    · rw [hkids hn]
      simp [relinked, hn, h.last hc₀]
  case parent =>
    intro n c p hc
    obtain ⟨c₀, hc₀, rfl⟩ := hold hc
    rw [mem_update_concat]
    by_cases hn : n = child
    · subst hn
      simp [relinked, hfree, eq_comm]
    · simp [relinked, hn, h.parent hc₀]
  case beside =>
    intro p before n after c hlist hc
    obtain ⟨c₀, hc₀, rfl⟩ := hold hc
    exact h.beside_relinked hfree hlist hc₀
  case alone =>
    intro n c hc hroot
    obtain ⟨c₀, hc₀, rfl⟩ := hold hc
    have hn : n ≠ child := by
      rintro rfl
      simp [relinked] at hroot
    have hroot : c₀.parent = none := by simpa [relinked, hn] using hroot
    have hlast : (kids parent).getLast? ≠ some n := fun hlast => by
      have hmem := (h.parent hc₀).mpr (List.mem_of_getLast? hlast)
      rw [hroot] at hmem
      cases hmem
    simpa [relinked, hn, hlast] using h.alone hc₀ hroot
  case distinct =>
    intro p
    by_cases hp : p = parent
    · subst hp
      rw [hself, List.nodup_append]
      refine ⟨h.distinct p, by simp, ?_⟩
      rintro m hm m' hm' rfl
      exact hfree p (List.mem_singleton.mp hm' ▸ hm)
    · rw [hkids hp]
      exact h.distinct p
  case known =>
    intro p n hn
    rw [hsize]
    rcases mem_update_concat.mp hn with hn | ⟨rfl, rfl⟩
    · exact h.known hn
    · exact ⟨hchild, lt_size_of_get? hparent⟩
  case bears =>
    intro p n c hn hc
    obtain ⟨c₀, hc₀, rfl⟩ := hold hc
    rcases mem_update_concat.mp hn with hn | ⟨rfl, rfl⟩
    · exact @Linked.bears f kids rank h _ _ c₀ hn hc₀
    · rw [hparent] at hc₀
      cases hc₀
      exact hbears
  case lower =>
    intro p n hn
    rcases mem_update_concat.mp hn with hn | ⟨rfl, rfl⟩
    · exact h.lower hn
    · exact hrank
  case bounded =>
    intro n hn
    rw [hsize] at hn ⊢
    exact h.bounded hn

end Linked

end Forest

end Stencil
