import Stencil.Text.Pattern

namespace Stencil.Pattern

open Ascii

section Steps

variable {isIn : UInt8 → Bool} {captured : Bool} {steps : List Step} {before : Option UInt8}
  {m : Match}

theorem run_eq_some {next : Option UInt8 → Text → Option Match} {s : Text}
    (h : run isIn captured next before s = some m) :
    ∃ taken rest before' m', s = taken ++ rest ∧ (∀ c ∈ taken, isIn c = true) ∧
      next before' rest = some m' ∧ m = m'.prepend taken captured := by
  have hstop {before : Option UInt8} {s : Text} {m : Match} (h : next before s = some m) :
      ∃ taken rest before' m', s = taken ++ rest ∧ (∀ c ∈ taken, isIn c = true) ∧
        next before' rest = some m' ∧ m = m'.prepend taken captured :=
    ⟨[], s, before, m, rfl, by simp, h, by simp [Match.prepend]⟩
  induction s generalizing before m with
  | nil => exact hstop h
  | cons c s ih =>
    rw [run] at h
    by_cases hc : isIn c = true
    · rw [if_pos hc] at h
      cases hrun : run isIn captured next (some c) s with
      | none =>
        rw [hrun] at h
        exact hstop h
      | some longer =>
        rw [hrun] at h
        cases h
        obtain ⟨taken, rest, before', m', rfl, htaken, hnext, rfl⟩ := ih hrun
        exact ⟨c :: taken, rest, before', m', rfl, List.forall_mem_cons.mpr ⟨hc, htaken⟩, hnext,
          by cases captured <;> rfl⟩
    · rw [if_neg hc] at h
      exact hstop h

theorem run_append {next : Option UInt8 → Text → Option Match} {taken rest : Text}
    (htaken : ∀ c ∈ taken, isIn c = true) (hrest : rest.head?.all (!isIn ·) = true)
    (hnext : ∀ before, next before rest = some m) (captured : Bool) (before : Option UInt8) :
    run isIn captured next before (taken ++ rest) = some (m.prepend taken captured) := by
  induction taken generalizing before with
  | nil =>
    have hm : m.prepend [] captured = m := by cases captured <;> rfl
    rw [List.nil_append, hm]
    cases rest with
    | nil => exact hnext before
    | cons c rest =>
      rw [run, if_neg (by simpa using hrest)]
      exact hnext before
  | cons c taken ih =>
    obtain ⟨hc, htaken⟩ := List.forall_mem_cons.mp htaken
    rw [List.cons_append, run, if_pos hc, ih htaken]
    cases captured <;> rfl

theorem matchAt?_many_eq_some {s : Text}
    (h : matchAt? (.many isIn captured :: steps) before s = some m) :
    ∃ taken rest before' m', s = taken ++ rest ∧ (∀ c ∈ taken, isIn c = true) ∧
      matchAt? steps before' rest = some m' ∧ m = m'.prepend taken captured :=
  run_eq_some h

theorem matchAt?_many_append {taken rest : Text} (htaken : ∀ c ∈ taken, isIn c = true)
    (hrest : rest.head?.all (!isIn ·) = true) (h : ∀ before, matchAt? steps before rest = some m)
    (captured : Bool) (before : Option UInt8) :
    matchAt? (.many isIn captured :: steps) before (taken ++ rest) =
      some (m.prepend taken captured) :=
  run_append htaken hrest h captured before

theorem matchAt?_one_eq_some {s : Text}
    (h : matchAt? (.one isIn captured :: steps) before s = some m) :
    ∃ c rest m', s = c :: rest ∧ isIn c = true ∧ matchAt? steps (some c) rest = some m' ∧
      m = m'.prepend [c] captured := by
  cases s with
  | nil => cases h
  | cons c rest =>
    rw [matchAt?] at h
    obtain ⟨hc, h⟩ := Option.ite_none_right_eq_some.mp h
    obtain ⟨m', hm', rfl⟩ := Option.map_eq_some_iff.mp h
    exact ⟨c, rest, m', rfl, hc, hm', rfl⟩

theorem matchAt?_one_cons {c : UInt8} {rest : Text} (hc : isIn c = true)
    (h : matchAt? steps (some c) rest = some m) (captured : Bool) (before : Option UInt8) :
    matchAt? (.one isIn captured :: steps) before (c :: rest) = some (m.prepend [c] captured) := by
  rw [matchAt?, if_pos hc, h]
  rfl

theorem matchAt?_literal_eq_some {t s : Text}
    (h : matchAt? (literal t ++ steps) before s = some m) :
    ∃ rest before' m', s = t ++ rest ∧ matchAt? steps before' rest = some m' ∧
      m = m'.prepend t false := by
  induction t generalizing before s m with
  | nil => exact ⟨s, before, m, rfl, h, rfl⟩
  | cons b t ih =>
    obtain ⟨c, s, m', rfl, hc, hm', rfl⟩ := matchAt?_one_eq_some h
    obtain ⟨rest, before', m'', rfl, hm'', rfl⟩ := ih hm'
    cases eq_of_beq hc
    exact ⟨rest, before', m'', rfl, hm'', rfl⟩

theorem matchAt?_literal_append (t : Text) {rest : Text}
    (h : ∀ before, matchAt? steps before rest = some m) (before : Option UInt8) :
    matchAt? (literal t ++ steps) before (t ++ rest) = some (m.prepend t false) := by
  induction t generalizing before with
  | nil => exact h before
  | cons b t ih =>
    change matchAt? (.one (b == ·) false :: (literal t ++ steps)) before (b :: (t ++ rest)) = _
    rw [matchAt?_one_cons (BEq.refl b) (ih (some b))]
    rfl

end Steps

section Scan

variable {steps : List Step} {before : Option UInt8}

theorem scan_cons_of_none {c : UInt8} {rest : Text}
    (h : matchAt? steps before (c :: rest) = none) :
    scan steps 0 before (c :: rest) = .byte c :: scan steps 0 (some c) rest := by
  rw [scan, h]
  rfl

theorem exists_scan_skip (steps : List Step) (before : Option UInt8) (taken rest : Text) :
    ∃ before', scan steps taken.length before (taken ++ rest) = scan steps 0 before' rest := by
  induction taken generalizing before with
  | nil => exact ⟨before, rfl⟩
  | cons c taken ih => exact ih (some c)

theorem exists_scan_of_some {m : Match} {rest : Text} (hm : m.text ≠ [])
    (h : matchAt? steps before (m.text ++ rest) = some m) :
    ∃ before', scan steps 0 before (m.text ++ rest) = .found m :: scan steps 0 before' rest := by
  obtain ⟨c, more, htext⟩ := List.exists_cons_of_ne_nil hm
  obtain ⟨before', hskip⟩ := exists_scan_skip steps (some c) more rest
  rw [htext, List.cons_append] at h ⊢
  refine ⟨before', ?_⟩
  rw [scan, h, Option.filter_some, if_pos (by simp [htext])]
  simp only [htext, List.length_cons, Nat.add_sub_cancel, hskip]

end Scan

end Stencil.Pattern
