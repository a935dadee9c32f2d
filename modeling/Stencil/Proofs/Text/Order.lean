import Stencil.Text.Basic

namespace Stencil.Text

theorem lt_irrefl (s : Text) : lt s s = false := by
  induction s with
  | nil => rfl
  | cons a s ih => simp [lt, ih]

theorem lt_trans {s t u : Text} (hst : lt s t = true) (htu : lt t u = true) : lt s u = true := by
  induction s generalizing t u with
  | nil =>
    cases t with
    | nil => simp [lt] at hst
    | cons b t =>
      cases u with
      | nil => simp [lt] at htu
      | cons c u => rfl
  | cons a s ih =>
    cases t with
    | nil => simp [lt] at hst
    | cons b t =>
      cases u with
      | nil => simp [lt] at htu
      | cons c u =>
        simp only [lt, beq_iff_eq] at *
        split at hst
        · split at htu
          · simp_all
            exact ih hst htu
          · simp_all
        · split at htu
          · simp_all
          · have hac := UInt8.lt_trans (by simpa using hst) (by simpa using htu)
            rw [if_neg (UInt8.ne_of_lt hac)]
            simpa using hac

theorem lt_or_lt_of_ne {s t : Text} (h : s ≠ t) : lt s t = true ∨ lt t s = true := by
  induction s generalizing t with
  | nil =>
    cases t with
    | nil => exact absurd rfl h
    | cons b t => exact .inl rfl
  | cons a s ih =>
    cases t with
    | nil => exact .inr rfl
    | cons b t =>
      by_cases hab : a = b
      · subst hab
        have hst : s ≠ t := fun he => h (by rw [he])
        simpa [lt] using ih hst
      · rcases UInt8.lt_or_lt_of_ne hab with hlt | hlt
        · exact .inl (by simp [lt, hab, hlt])
        · exact .inr (by simp [lt, Ne.symm hab, hlt])

theorem le_of_lt {s t : Text} (h : lt s t = true) : le s t = true := by
  have hback : lt t s = false := by
    rw [Bool.eq_false_iff]
    intro hback
    have hself := lt_trans h hback
    rw [lt_irrefl] at hself
    cases hself
  simp [le, hback]

theorem le_total (s t : Text) : (le s t || le t s) = true := by
  by_cases h : s = t
  · simp [h, le, lt_irrefl]
  · rcases lt_or_lt_of_ne h with hlt | hlt <;> simp [le_of_lt hlt]

theorem lt_of_le_of_ne {s t : Text} (h : le s t = true) (hne : s ≠ t) : lt s t = true := by
  rcases lt_or_lt_of_ne hne with hlt | hlt
  · exact hlt
  · simp [le, hlt] at h

theorem le_trans (s t u : Text) (hst : le s t = true) (htu : le t u = true) : le s u = true := by
  by_cases hs : s = t
  · rwa [hs]
  · by_cases hu : t = u
    · rwa [← hu]
    · exact le_of_lt (lt_trans (lt_of_le_of_ne hst hs) (lt_of_le_of_ne htu hu))

theorem insertOn_perm {α : Type} (key : α → Text) (a : α) (list : List α) :
    (insertOn key a list).Perm (a :: list) := by
  induction list with
  | nil => exact .rfl
  | cons b rest ih =>
    rw [insertOn]
    split
    · exact .rfl
    · exact (ih.cons b).trans (.swap a b rest)

theorem insertOn_ordered {α : Type} {key : α → Text} {list : List α}
    (h : list.Pairwise fun a b => le (key a) (key b) = true) (a : α) :
    (insertOn key a list).Pairwise fun a b => le (key a) (key b) = true := by
  induction list with
  | nil => exact List.pairwise_singleton _ a
  | cons b rest ih =>
    obtain ⟨hfirst, hrest⟩ := List.pairwise_cons.mp h
    rw [insertOn]
    split
    next hab =>
      have hall : ∀ x ∈ b :: rest, le (key a) (key x) = true := by
        intro x hx
        rcases List.mem_cons.mp hx with rfl | hx
        · exact hab
        · exact le_trans _ _ _ hab (hfirst x hx)
      exact List.pairwise_cons.mpr ⟨hall, h⟩
    next hab =>
      have hba : le (key b) (key a) = true := by
        have htotal := le_total (key a) (key b)
        rwa [Bool.eq_false_iff.mpr hab, Bool.false_or] at htotal
      refine List.pairwise_cons.mpr ⟨fun x hx => ?_, ih hrest⟩
      rcases List.mem_cons.mp ((insertOn_perm key a rest).mem_iff.mp hx) with rfl | hx
      · exact hba
      · exact hfirst x hx

theorem sortOn_ordered {α : Type} (key : α → Text) (list : List α) :
    (sortOn key list).Pairwise fun a b => le (key a) (key b) = true := by
  induction list with
  | nil => exact .nil
  | cons a list ih => exact insertOn_ordered ih a

theorem sortOn_perm {α : Type} (key : α → Text) (list : List α) : (sortOn key list).Perm list := by
  induction list with
  | nil => exact .rfl
  | cons a list ih => exact (insertOn_perm key a _).trans (ih.cons a)

theorem sort_strict {texts : List Text} (h : texts.Nodup) :
    (sort texts).Pairwise fun s t => lt s t = true := by
  have hnodup : (sort texts).Nodup := (sortOn_perm id texts).nodup_iff.mpr h
  exact (sortOn_ordered id texts).imp₂ (fun _ _ => lt_of_le_of_ne) hnodup

theorem lookup_cons_ite {β : Type} (key other : Text) (b : β) (rest : List (Text × β)) :
    ((key, b) :: rest).lookup other = if other = key then some b else rest.lookup other := by
  by_cases h : other = key
  · simp [h]
  · simp [List.lookup_cons, beq_false_of_ne h, h]

theorem lookup_filter_ne {β : Type} (key other : Text) (list : List (Text × β)) :
    (list.filter (·.1 ≠ key)).lookup other = if other = key then none else list.lookup other := by
  induction list with
  | nil => simp
  | cons entry rest ih =>
    obtain ⟨name, b⟩ := entry
    by_cases hname : name = key
    · subst hname
      rw [List.filter_cons_of_neg (by simp), ih, lookup_cons_ite]
      split <;> rfl
    · rw [List.filter_cons_of_pos (by simpa using hname), lookup_cons_ite, lookup_cons_ite, ih]
      by_cases hother : other = name
      · rw [if_pos hother, if_neg fun h => hname (hother.symm.trans h), if_pos hother]
      · rw [if_neg hother, if_neg hother]

theorem lookup_of_mem {β : Type} {list : List (Text × β)} (hkeys : (list.map Prod.fst).Nodup)
    {entry : Text × β} (hentry : entry ∈ list) : list.lookup entry.1 = some entry.2 := by
  induction list with
  | nil => exact absurd hentry (by simp)
  | cons first rest ih =>
    rw [List.map_cons, List.nodup_cons] at hkeys
    rw [lookup_cons_ite]
    rcases List.mem_cons.mp hentry with rfl | hentry
    · exact if_pos rfl
    · have hne : entry.1 ≠ first.1 := fun heq => hkeys.1 (heq ▸ List.mem_map_of_mem hentry)
      rw [if_neg hne]
      exact ih hkeys.2 hentry

end Stencil.Text
