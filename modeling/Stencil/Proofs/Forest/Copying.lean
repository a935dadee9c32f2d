import Stencil.Proofs.Forest.Links

namespace Stencil

theorem Label.children_toNode (label : Label) (trees : List Markup.Node) :
    (label.toNode trees).children = if label.hasChildren then trees else [] := by
  cases label <;> rfl

namespace Forest

variable {f g : Forest} {n m p : NodeId} {rank rank' : NodeId → Nat}

def label? (f : Forest) (n : NodeId) : Option Label :=
  (f.get? n).map Cell.label

theorem lt_size_of_label? {label : Label} (h : f.label? n = some label) : n < f.size := by
  obtain ⟨c, hc, -⟩ := Option.map_eq_some_iff.mp h
  exact lt_size_of_get? hc

theorem exists_label? (h : n < f.size) : ∃ label, f.label? n = some label := by
  obtain ⟨c, hc⟩ := exists_get? h
  exact ⟨c.label, by rw [label?, hc, Option.map_some]⟩

def Sound (f : Forest) (rank : NodeId → Nat) : Prop :=
  f.Linked f.childrenOf rank

theorem Linked.childrenOf_eq_kids {kids : NodeId → List NodeId} (h : f.Linked kids rank) :
    f.childrenOf = kids :=
  funext h.childrenOf_eq

theorem Linked.sound {kids : NodeId → List NodeId} (h : f.Linked kids rank) : f.Sound rank := by
  rw [Sound, h.childrenOf_eq_kids]
  exact h

theorem toNodeWithin_congr (h : f.Sound rank) {fuel fuel' : Nat} (hn : rank n < fuel)
    (hn' : rank n < fuel') : f.toNodeWithin fuel n = f.toNodeWithin fuel' n := by
  induction fuel generalizing n fuel' with
  | zero => simp at hn
  | succ fuel ih =>
    cases fuel' with
    | zero => simp at hn'
    | succ fuel' =>
      have hchildren : (f.childrenOf n).map (f.toNodeWithin fuel) =
          (f.childrenOf n).map (f.toNodeWithin fuel') := by
        refine List.map_congr_left fun child hchild => ?_
        have hlt := h.lower hchild
        exact ih (by omega) (by omega)
      rw [toNodeWithin, toNodeWithin, hchildren]

theorem Sound.toNode_eq (h : f.Sound rank) {label : Label} (hn : f.label? n = some label) :
    f.toNode n = label.toNode ((f.childrenOf n).map f.toNode) := by
  obtain ⟨c, hc, rfl⟩ := Option.map_eq_some_iff.mp hn
  obtain ⟨k, hk⟩ : ∃ k, f.size = k + 1 :=
    Nat.exists_eq_succ_of_ne_zero (Nat.ne_zero_of_lt (lt_size_of_get? hc))
  have hchildren : (f.childrenOf n).map (f.toNodeWithin k) = (f.childrenOf n).map f.toNode := by
    refine List.map_congr_left fun child hchild => ?_
    have hlt := h.lower hchild
    have hbound := h.bounded (lt_size_of_get? hc)
    exact toNodeWithin_congr h (by omega) (by omega)
  rw [toNode, hk, toNodeWithin, hc]
  exact congrArg c.label.toNode hchildren

theorem Sound.childrenOf_eq_nil (h : f.Sound rank) {label : Label} (hn : f.label? n = some label)
    (hno : label.hasChildren = false) : f.childrenOf n = [] := by
  obtain ⟨c, hc, rfl⟩ := Option.map_eq_some_iff.mp hn
  refine List.eq_nil_iff_forall_not_mem.mpr fun m hm => ?_
  have hbears := h.bears hm hc
  rw [hno] at hbears
  cases hbears

theorem Sound.children_toNode (h : f.Sound rank) (hn : n < f.size) :
    (f.toNode n).children = (f.childrenOf n).map f.toNode := by
  obtain ⟨label, hlabel⟩ := exists_label? hn
  rw [h.toNode_eq hlabel, Label.children_toNode]
  cases hbears : label.hasChildren with
  | true => rfl
  | false => rw [h.childrenOf_eq_nil hlabel hbears]; rfl

theorem toNode_congr (hf : f.Sound rank) (hg : g.Sound rank') {S : NodeId → Prop}
    (known : ∀ {n}, S n → n < f.size) (closed : ∀ {n m}, S n → m ∈ f.childrenOf n → S m)
    (labels : ∀ {n}, S n → g.label? n = f.label? n)
    (children : ∀ {n}, S n → g.childrenOf n = f.childrenOf n) (hn : S n) :
    g.toNode n = f.toNode n := by
  -- the children of a node have lower ranks than it has
  induction hr : rank n using Nat.strongRecOn generalizing n with
  | ind r ih =>
    obtain ⟨label, hlabel⟩ := exists_label? (known hn)
    rw [hf.toNode_eq hlabel, hg.toNode_eq ((labels hn).trans hlabel), children hn]
    congr 1
    refine List.map_congr_left fun m hm => ?_
    exact ih (rank m) (hr ▸ hf.lower hm) (closed hn hm) rfl

structure Grows (f : Forest) (rank : NodeId → Nat) (g : Forest) (rank' : NodeId → Nat) : Prop where
  size_le : f.size ≤ g.size
  labels : ∀ {n}, n < f.size → g.label? n = f.label? n
  children : ∀ {n}, n < f.size → g.childrenOf n = f.childrenOf n
  ranks : ∀ {n}, n < f.size → rank' n = rank n

namespace Grows

theorem trans {f' : Forest} {rank'' : NodeId → Nat} (h : f.Grows rank g rank')
    (h' : g.Grows rank' f' rank'') : f.Grows rank f' rank'' where
  size_le := Nat.le_trans h.size_le h'.size_le
  labels hn := (h'.labels (Nat.lt_of_lt_of_le hn h.size_le)).trans (h.labels hn)
  children hn := (h'.children (Nat.lt_of_lt_of_le hn h.size_le)).trans (h.children hn)
  ranks hn := (h'.ranks (Nat.lt_of_lt_of_le hn h.size_le)).trans (h.ranks hn)

theorem toNode_eq (h : f.Grows rank g rank') (hf : f.Sound rank) (hg : g.Sound rank')
    (hn : n < f.size) : g.toNode n = f.toNode n :=
  toNode_congr hf hg (S := (· < f.size)) id (fun _ hm => (hf.known hm).1) h.labels h.children hn

end Grows

theorem Sound.childrenOf_add (h : f.Sound rank) (label : Label) :
    (f.add label).2.childrenOf = f.childrenOf :=
  (Linked.add h label (Nat.zero_le _)).childrenOf_eq_kids

theorem Sound.add (h : f.Sound rank) (label : Label) {r : Nat} (hr : r ≤ f.size) :
    (f.add label).2.Sound (Function.update rank f.size r) :=
  (Linked.add h label hr).sound

theorem Sound.grows_add (h : f.Sound rank) (label : Label) (r : Nat) :
    f.Grows rank (f.add label).2 (Function.update rank f.size r) where
  size_le := size_add f label ▸ Nat.le_succ _
  labels hn := by rw [label?, get?_add_of_lt label hn, label?]
  children _ := by rw [h.childrenOf_add]
  ranks hn := Function.update_of_ne (Nat.ne_of_lt hn) _ _

theorem Sound.attach (h : f.Sound rank) {parent child : NodeId} {label : Label}
    (hparent : f.label? parent = some label) (hbears : label.hasChildren = true)
    (hchild : child < f.size) (hfree : ∀ p, child ∉ f.childrenOf p)
    (hrank : rank child < rank parent) :
    ∃ g, f.attach parent child = .ok g ∧ g.size = f.size ∧ g.label? = f.label? ∧
      g.childrenOf = Function.update f.childrenOf parent (f.childrenOf parent ++ [child]) ∧
      g.Sound rank := by
  obtain ⟨c, hc, rfl⟩ := Option.map_eq_some_iff.mp hparent
  obtain ⟨g, hg, hsize, hlabels, hlinked⟩ := Linked.attach h hc hbears hchild hfree hrank
  exact ⟨g, hg, hsize, funext hlabels, hlinked.childrenOf_eq_kids, hlinked.sound⟩

def Apart (f g : Forest) : Prop :=
  ∀ {n p}, n < f.size → n ∈ g.childrenOf p → n ∈ f.childrenOf p

theorem Apart.trans {f' : Forest} (h : f.Apart g) (hsize : f.size ≤ g.size) (h' : g.Apart f') :
    f.Apart f' :=
  fun hn hp => h hn (h' (Nat.lt_of_lt_of_le hn hsize) hp)

theorem Apart.update (h : f.Apart g) {g' : Forest} {parent child : NodeId}
    (hchildren : g'.childrenOf =
      Function.update g.childrenOf parent (g.childrenOf parent ++ [child]))
    (hchild : f.size ≤ child) : f.Apart g' := by
  intro n p hn hp
  rw [hchildren, mem_update_concat] at hp
  obtain hp | ⟨-, rfl⟩ := hp
  · exact h hn hp
  · exact absurd hn (Nat.not_lt.mpr hchild)

structure NewRoot (f : Forest) (rank : NodeId → Nat) (n : NodeId) (label : Label) (r : Nat)
    (trees : List Markup.Node) (g : Forest) (rank' : NodeId → Nat) : Prop where
  sound : g.Sound rank'
  grows : f.Grows rank g rank'
  fresh : f.size ≤ n
  label : g.label? n = some label
  free : ∀ p, n ∉ g.childrenOf p
  rank : rank' n = r
  trees : (g.childrenOf n).map g.toNode = trees

theorem Sound.newRoot_add (h : f.Sound rank) (label : Label) {r : Nat} (hr : r ≤ f.size) :
    f.NewRoot rank f.size label r [] (f.add label).2 (Function.update rank f.size r) where
  sound := h.add label hr
  grows := h.grows_add label r
  fresh := Nat.le_refl _
  label := by rw [label?, get?_add_self, Option.map_some]
  free p hp := by
    rw [h.childrenOf_add] at hp
    exact Nat.lt_irrefl _ (h.known hp).1
  rank := Function.update_self ..
  trees := by rw [h.childrenOf_add, h.kids_eq_nil (Nat.le_refl _), List.map_nil]

namespace NewRoot

variable {label : Label} {r : Nat} {trees : List Markup.Node} {child : NodeId}

theorem toNode_eq (h : f.NewRoot rank n label r trees g rank') :
    g.toNode n = label.toNode trees := by
  rw [h.sound.toNode_eq h.label, h.trees]

theorem lt_size (h : f.NewRoot rank n label r trees g rank') : n < g.size :=
  lt_size_of_label? h.label

theorem grow (h : f.NewRoot rank n label r trees g rank') {g' : Forest} {rank'' : NodeId → Nat}
    (sound : g'.Sound rank'') (grows : g.Grows rank' g' rank'') (apart : g.Apart g') :
    f.NewRoot rank n label r trees g' rank'' where
  sound := sound
  grows := h.grows.trans grows
  fresh := h.fresh
  label := (grows.labels h.lt_size).trans h.label
  free p hp := h.free p (apart h.lt_size hp)
  rank := (grows.ranks h.lt_size).trans h.rank
  trees := by
    rw [grows.children h.lt_size, ← h.trees]
    exact List.map_congr_left fun m hm => grows.toNode_eq h.sound sound (h.sound.known hm).1

theorem attach (h : f.NewRoot rank n label r trees g rank') (hbears : label.hasChildren = true)
    (hchild : child < g.size) (hfree : ∀ p, child ∉ g.childrenOf p) (hrank : rank' child < r) :
    ∃ g', g.attach n child = .ok g' ∧
      g'.childrenOf = Function.update g.childrenOf n (g.childrenOf n ++ [child]) ∧
      f.NewRoot rank n label r (trees ++ [g.toNode child]) g' rank' := by
  have hlt : rank' child < rank' n := h.rank ▸ hrank
  have hne : child ≠ n := by
    rintro rfl
    exact Nat.lt_irrefl _ hlt
  obtain ⟨g', hg', hsize, hlabels, hchildren, hsound⟩ :=
    h.sound.attach h.label hbears hchild hfree hlt
  have hother {m : NodeId} (hm : m ≠ n) : g'.childrenOf m = g.childrenOf m := by
    rw [hchildren, Function.update_of_ne hm]
  have hself : g'.childrenOf n = g.childrenOf n ++ [child] := by
    rw [hchildren, Function.update_self]
  -- the root is below no node, so only its own tree changes
  have htree {m : NodeId} (hm : m < g.size) (hmn : m ≠ n) : g'.toNode m = g.toNode m := by
    refine toNode_congr h.sound hsound (S := fun m => m < g.size ∧ m ≠ n) (·.1) ?_
      (fun _ => by rw [hlabels]) (fun hm => hother hm.2) ⟨hm, hmn⟩
    rintro p k - hk
    refine ⟨(h.sound.known hk).1, ?_⟩
    rintro rfl
    exact h.free p hk
  refine ⟨g', hg', hchildren, hsound, ⟨?_, fun hm => ?_, fun hm => ?_, h.grows.ranks⟩, h.fresh, ?_,
    fun p hp => ?_, h.rank, ?_⟩
  · exact hsize ▸ h.grows.size_le
  · rw [hlabels, h.grows.labels hm]
  · rw [hother (Nat.ne_of_lt (Nat.lt_of_lt_of_le hm h.fresh)), h.grows.children hm]
  · rw [hlabels, h.label]
  · rw [hchildren, mem_update_concat] at hp
    exact hp.elim (h.free p) fun he => hne he.2.symm
  · rw [hself, List.map_append, List.map_singleton, htree hchild hne, ← h.trees]
    congr 1
    refine List.map_congr_left fun m hm => htree (h.sound.known hm).1 ?_
    rintro rfl
    exact h.free m hm

end NewRoot

structure CopyOf (f : Forest) (rank : NodeId → Nat) (n copy : NodeId) (g : Forest)
    (rank' : NodeId → Nat) : Prop where
  root : ∃ label, f.label? n = some label ∧
    f.NewRoot rank copy label (rank n) ((f.childrenOf n).map f.toNode) g rank'
  apart : f.Apart g

theorem NewRoot.attach_copy {label : Label} {r : Nat} {trees : List Markup.Node}
    {child copy : NodeId} {g' : Forest} {rank'' : NodeId → Nat} (hf : f.Sound rank)
    (h : f.NewRoot rank n label r trees g rank') (hbears : label.hasChildren = true)
    (hchild : child < f.size) (hrank : rank child < r)
    (hcopy : g.CopyOf rank' child copy g' rank'') :
    ∃ g'', g'.attach n copy = .ok g'' ∧
      g''.childrenOf = Function.update g'.childrenOf n (g'.childrenOf n ++ [copy]) ∧
      f.NewRoot rank n label r (trees ++ [f.toNode child]) g'' rank'' := by
  obtain ⟨⟨label', hlabel, hroot'⟩, hapart⟩ := hcopy
  have hroot := h.grow hroot'.sound hroot'.grows hapart
  have hlower : rank'' copy < r := by
    rw [hroot'.rank, h.grows.ranks hchild]
    exact hrank
  have htree : g'.toNode copy = f.toNode child := by
    rw [hroot'.toNode_eq, ← h.sound.toNode_eq hlabel, h.grows.toNode_eq hf h.sound hchild]
  have hattach := hroot.attach hbears hroot'.lt_size hroot'.free hlower
  rwa [htree] at hattach

theorem NewRoot.foldlM_clone {copy : NodeId} {label : Label} {r fuel : Nat}
    {trees : List Markup.Node} {children : List NodeId} (hf : f.Sound rank)
    (h : f.NewRoot rank copy label r trees g rank') (hapart : f.Apart g)
    (hbears : label.hasChildren = true)
    (hchildren : ∀ child ∈ children, child < f.size ∧ rank child < r) (hfuel : r ≤ fuel)
    (clones : ∀ {g : Forest} {rank : NodeId → Nat} {n : NodeId}, g.Sound rank → n < g.size →
      rank n < fuel → ∃ copy g' rank', cloneWithin fuel g n = .ok (copy, g') ∧
        g.CopyOf rank n copy g' rank') :
    ∃ g' rank'', children.foldlM (fun g child => do
        let (k, g) ← cloneWithin fuel g child
        g.attach copy k) g = .ok g' ∧
      f.NewRoot rank copy label r (trees ++ children.map f.toNode) g' rank'' ∧ f.Apart g' := by
  induction children generalizing g rank' trees with
  | nil => exact ⟨g, rank', rfl, by rwa [List.map_nil, List.append_nil], hapart⟩
  | cons child children ih =>
    obtain ⟨hknown, hlower⟩ := hchildren child List.mem_cons_self
    have hrank : rank' child < fuel := by
      rw [h.grows.ranks hknown]
      exact Nat.lt_of_lt_of_le hlower hfuel
    obtain ⟨k, g₁, rank₁, hclone, hcopy⟩ :=
      clones h.sound (Nat.lt_of_lt_of_le hknown h.grows.size_le) hrank
    obtain ⟨g₂, hattach, hchildren₂, hroot⟩ := h.attach_copy hf hbears hknown hlower hcopy
    -- what was put under the copy is new, so no node of `f` has moved
    obtain ⟨_, -, hk⟩ := hcopy.root
    have hapart₂ : f.Apart g₂ :=
      Apart.update (hapart.trans h.grows.size_le hcopy.apart) hchildren₂
        (Nat.le_trans h.grows.size_le hk.fresh)
    obtain ⟨g', rank'', hfold, hroot', hapart'⟩ :=
      ih hroot hapart₂ fun c hc => hchildren c (List.mem_cons_of_mem _ hc)
    refine ⟨g', rank'', ?_, by simpa using hroot', hapart'⟩
    rw [List.foldlM_cons, hclone]
    exact (congrArg (· >>= _) hattach).trans hfold

theorem cloneWithin_eq_ok {fuel : Nat} (hf : f.Sound rank) (hn : n < f.size)
    (hfuel : rank n < fuel) :
    ∃ copy g rank', cloneWithin fuel f n = .ok (copy, g) ∧ f.CopyOf rank n copy g rank' := by
  induction fuel generalizing f rank n with
  | zero => exact absurd hfuel (Nat.not_lt_zero _)
  | succ fuel ih =>
    obtain ⟨c, hc⟩ := exists_get? hn
    have hlabel : f.label? n = some c.label := by rw [label?, hc, Option.map_some]
    -- the copy gets the rank of the node, so that copies of its children are lower
    have hadd := hf.newRoot_add c.label (Nat.le_of_lt (hf.bounded hn))
    have hapart : f.Apart (f.add c.label).2 := fun _ hp => by rwa [hf.childrenOf_add] at hp
    have hchildren : ∀ child ∈ f.childrenOf n, child < f.size ∧ rank child < rank n :=
      fun child hchild => ⟨(hf.known hchild).1, hf.lower hchild⟩
    obtain ⟨g, rank', hfold, hroot, hapart'⟩ : ∃ g rank', (f.childrenOf n).foldlM (fun g child => do
          let (k, g) ← cloneWithin fuel g child
          g.attach f.size k) (f.add c.label).2 = .ok g ∧
        f.NewRoot rank f.size c.label (rank n) ((f.childrenOf n).map f.toNode) g rank' ∧
        f.Apart g := by
      cases hbears : c.label.hasChildren with
      | true =>
        exact hadd.foldlM_clone hf hapart hbears hchildren (Nat.le_of_lt_succ hfuel) ih
      | false =>
        rw [hf.childrenOf_eq_nil hlabel hbears]
        exact ⟨_, _, rfl, hadd, hapart⟩
    refine ⟨f.size, g, rank', ?_, ⟨c.label, hlabel, hroot⟩, hapart'⟩
    rw [cloneWithin, hc]
    exact congrArg (· >>= fun g => pure (f.size, g)) hfold

theorem clone_eq_ok (hf : f.Sound rank) (hn : n < f.size) :
    ∃ copy g rank', f.clone n = .ok (copy, g) ∧ f.CopyOf rank n copy g rank' :=
  cloneWithin_eq_ok hf hn (hf.bounded hn)

theorem NewRoot.append {label : Label} {r : Nat} {trees : List Markup.Node} {child : NodeId}
    (hf : f.Sound rank) (h : f.NewRoot rank n label r trees g rank')
    (hbears : label.hasChildren = true) (hchild : child < f.size) (hrank : rank child < r) :
    ∃ g' rank'', g.append n child = .ok g' ∧
      f.NewRoot rank n label r (trees ++ [f.toNode child]) g' rank'' := by
  have hknown : child < g.size := Nat.lt_of_lt_of_le hchild h.grows.size_le
  cases hattached : g.isAttached child with
  | true =>
    obtain ⟨copy, g₁, rank₁, hclone, hcopy⟩ := clone_eq_ok h.sound hknown
    obtain ⟨g₂, hattach, -, hroot⟩ := h.attach_copy hf hbears hchild hrank hcopy
    refine ⟨g₂, rank₁, ?_, hroot⟩
    rw [Forest.append, if_pos hattached, hclone]
    exact hattach
  | false =>
    have hfree := (h.sound.isAttached_eq_false_iff hknown).mp hattached
    have hlower : rank' child < r := by
      rw [h.grows.ranks hchild]
      exact hrank
    obtain ⟨g', hattach, -, hroot⟩ := h.attach hbears hknown hfree hlower
    rw [h.grows.toNode_eq hf h.sound hchild] at hroot
    refine ⟨g', rank', ?_, hroot⟩
    rw [Forest.append, if_neg (by simp [hattached]), hattach]

end Forest

end Stencil
