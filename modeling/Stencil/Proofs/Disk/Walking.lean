import Mathlib.Data.List.Perm.Subperm
import Stencil.Proofs.Project.Discovery

namespace Stencil

namespace Disk

variable {d : Disk} {loc rest : Location} {e top : Entry} {skip : Location → Bool}

theorem mem_keys_of_find? (hloc : loc ≠ []) (h : (d.find? loc).isSome = true) :
    loc ∈ d.entries.map Prod.fst := by
  rw [find?_of_ne hloc] at h
  obtain ⟨e, he⟩ := Option.isSome_iff_exists.mp h
  obtain ⟨before, after, hentries, -⟩ := List.lookup_eq_some_iff.mp he
  simp [hentries]

theorem Sound.length_le (hd : d.Sound) (h : (d.find? (loc ++ rest)).isSome = true) :
    rest.length ≤ d.entries.length := by
  have hnodup : ((List.range rest.length).map fun i => loc ++ rest.take (i + 1)).Nodup := by
    refine List.nodup_range.map_on fun i hi j hj heq => ?_
    have hlength := congrArg List.length (List.append_cancel_left heq)
    simp only [List.length_take, List.mem_range] at hlength hi hj
    omega
  have hsubset : ((List.range rest.length).map fun i => loc ++ rest.take (i + 1)) ⊆
      d.entries.map Prod.fst := by
    intro l hl
    obtain ⟨i, hi, rfl⟩ := List.mem_map.mp hl
    rw [List.mem_range] at hi
    have hne : rest.take (i + 1) ≠ [] := by
      rw [Ne, List.take_eq_nil_iff]
      rintro (hzero | rfl)
      · cases hzero
      · cases hi
    refine mem_keys_of_find? (by simp [hne]) ?_
    by_cases hdrop : rest.drop (i + 1) = []
    · rw [← List.take_append_drop (i + 1) rest, hdrop, List.append_nil] at h
      exact h
    · have hsplit : loc ++ rest = loc ++ rest.take (i + 1) ++ rest.drop (i + 1) := by
        rw [List.append_assoc, List.take_append_drop]
      rw [(hd _ h).above hsplit hdrop]
      rfl
  have hle := (List.subperm_of_subset hnodup hsubset).length_le
  simpa using hle

theorem self_mem_treeWithin (d : Disk) (skip : Location → Bool) (fuel : Nat) (loc : Location)
    (top : Entry) : (loc, top) ∈ d.treeWithin skip fuel loc top := by
  cases fuel <;> cases top <;> simp [treeWithin]

theorem mem_treeWithin_of_find? (hd : d.Sound) {fuel : Nat} (hfuel : rest.length ≤ fuel)
    (htop : d.find? loc = some top) (h : d.find? (loc ++ rest) = some e)
    (hskip : ∀ upper name lower, rest = upper ++ name :: lower → lower ≠ [] ∨ e = .directory →
      skip (loc ++ upper ++ [name]) = false) :
    (loc ++ rest, e) ∈ d.treeWithin skip fuel loc top := by
  induction rest generalizing loc top fuel with
  | nil =>
    rw [List.append_nil, htop] at h
    cases h
    rw [List.append_nil]
    exact self_mem_treeWithin d skip fuel loc e
  | cons name rest ih =>
    have hleads := hd _ (by rw [h]; rfl)
    have hdir := hleads.above rfl (List.cons_ne_nil name rest)
    rw [htop] at hdir
    cases hdir
    obtain ⟨inner, hinner, hplain⟩ : ∃ inner, d.find? (loc ++ [name]) = some inner ∧
        (inner = .directory → rest ≠ [] ∨ e = .directory) := by
      by_cases hrest : rest = []
      · subst hrest
        exact ⟨e, h, .inr⟩
      · refine ⟨.directory, hleads.above ?_ hrest, fun _ => .inl hrest⟩
        rw [List.append_assoc]
        rfl
    cases fuel with
    | zero => cases hfuel
    | succ fuel =>
      rw [treeWithin, List.mem_cons, List.mem_flatMap]
      refine .inr ⟨(name, inner), mem_list hinner, ?_⟩
      have hshown : (inner.isDirectory && skip (loc ++ [name])) = false := by
        cases inner with
        | file content => rfl
        | directory => simpa [Entry.isDirectory] using hskip [] name rest rfl (hplain rfl)
      dsimp only
      rw [hshown, if_neg (by simp)]
      have hmem := ih (Nat.le_of_succ_le_succ hfuel) hinner (by simpa using h)
        fun upper other lower hsplit hlower => by
          simpa using hskip (name :: upper) other lower (by rw [hsplit]; rfl) hlower
      simpa using hmem

theorem mem_tree (hd : d.Sound) (h : d.find? (loc ++ rest) = some e)
    (hskip : ∀ upper name lower, rest = upper ++ name :: lower → lower ≠ [] ∨ e = .directory →
      skip (loc ++ upper ++ [name]) = false) : (loc ++ rest, e) ∈ d.tree skip loc := by
  have hfuel := hd.length_le (by rw [h]; rfl)
  obtain ⟨top, htop⟩ : ∃ top, d.find? loc = some top := by
    by_cases hrest : rest = []
    · subst hrest
      exact ⟨e, by simpa using h⟩
    · exact ⟨.directory, (hd _ (by rw [h]; rfl)).above rfl hrest⟩
  rw [tree, htop]
  exact mem_treeWithin_of_find? hd hfuel htop h hskip

theorem leads_of_mem_tree (hd : d.Sound) (hloc : d.Leads loc) {p : Location × Entry}
    (h : p ∈ d.tree skip loc) : d.Leads p.1 := by
  unfold tree at h
  split at h
  · obtain ⟨rest, heq, -, hthere, -⟩ := mem_treeWithin h
    by_cases hrest : rest = []
    · rw [heq, hrest, List.append_nil]
      exact hloc
    · exact hd _ (isSome_find?_of_mem (hthere hrest).2)
  · cases h

theorem directory_mem_sourceTree (hd : d.Sound) (h : d.find? (loc ++ rest) = some .directory)
    (hshown : ∀ name ∈ rest, isSkippedDirectory name = false) :
    (loc ++ rest, .directory) ∈ d.sourceTree loc := by
  refine mem_tree hd h fun upper name lower hsplit _ => ?_
  rw [List.getLastD_eq_getLast?, List.getLast?_append]
  exact hshown name (by simp [hsplit])

end Disk

end Stencil
