import Mathlib.Data.List.Chain
import Mathlib.Data.List.TakeWhile
import Stencil.Text.Digit
import Stencil.Text.Letter
import Stencil.Text.Rune

namespace Stencil.Text

namespace Range

variable {table other : List Range} {c : Nat}

def Ascending (table : List Range) : Prop :=
  (table.map Prod.fst).IsChain (· ≤ ·)

instance (table : List Range) : Decidable (Ascending table) :=
  inferInstanceAs (Decidable ((table.map Prod.fst).IsChain (· ≤ ·)))

def apart : (table other : List Range) → Bool
  | [], _ => true
  | r :: table, other =>
    let later := other.dropWhile (·.2 < r.1)
    later.head?.all (r.2 < ·.1) && apart table later

theorem covers_iff : covers table c = true ↔ ∃ r ∈ table, r.1 ≤ c ∧ c ≤ r.2 := by
  simp [covers]

theorem ascending_singleton (r : Range) : Ascending [r] :=
  List.isChain_singleton _

theorem Ascending.pairwise (h : Ascending table) : table.Pairwise (·.1 ≤ ·.1) :=
  List.pairwise_map.mp (List.isChain_iff_pairwise.mp h)

theorem apart_sound (ht : table.Pairwise (·.1 ≤ ·.1)) (ho : other.Pairwise (·.1 ≤ ·.1))
    (h : apart table other = true) : ∀ r ∈ table, ∀ s ∈ other, s.2 < r.1 ∨ r.2 < s.1 := by
  induction table generalizing other with
  | nil => simp
  | cons r table ih =>
    obtain ⟨hfirst, ht⟩ := List.pairwise_cons.mp ht
    obtain ⟨hhead, h⟩ := (Bool.and_eq_true _ _).mp h
    have hsplit := List.takeWhile_append_dropWhile (p := (·.2 < r.1)) (l := other)
    have hlater := ho.sublist (List.dropWhile_sublist (·.2 < r.1))
    intro q hq s hs
    rw [← hsplit] at hs
    rcases List.mem_append.mp hs with hs | hs
    -- What is dropped for `r` lies before `r`, hence before all that follow it in the table.
    · have hbefore : s.2 < r.1 := by simpa using List.mem_takeWhile_imp hs
      rcases List.mem_cons.mp hq with rfl | hq
      · exact .inl hbefore
      · exact .inl (Nat.lt_of_lt_of_le hbefore (hfirst q hq))
    · rcases List.mem_cons.mp hq with rfl | hq
      · right
        cases hd : other.dropWhile (·.2 < q.1) with
        | nil => simp [hd] at hs
        | cons t more =>
          rw [hd] at hs hlater hhead
          have hnext : q.2 < t.1 := of_decide_eq_true hhead
          rcases List.mem_cons.mp hs with rfl | hs
          · exact hnext
          · exact Nat.lt_of_lt_of_le hnext ((List.pairwise_cons.mp hlater).1 s hs)
      · exact ih ht hlater h q hq s hs

theorem not_covers_of_apart (ht : Ascending table) (ho : Ascending other)
    (h : apart table other = true) (hc : covers table c = true) : covers other c = false := by
  obtain ⟨r, hr, hrc⟩ := covers_iff.mp hc
  rw [Bool.eq_false_iff]
  intro hother
  obtain ⟨s, hs, hsc⟩ := covers_iff.mp hother
  have := apart_sound ht.pairwise ho.pairwise h r hr s hs
  omega

def isScalar (r : Range) : Bool :=
  r.2 < 0xD800 || 0xDFFF < r.1 && r.2 < 0x110000

theorem isValidChar_of_covers (h : table.all isScalar = true) (hc : covers table c = true) :
    c.isValidChar := by
  obtain ⟨r, hr, hrc⟩ := covers_iff.mp hc
  have hscalar := List.all_eq_true.mp h r hr
  simp only [isScalar, Bool.or_eq_true, Bool.and_eq_true, decide_eq_true_eq] at hscalar
  simp only [Nat.isValidChar]
  omega

end Range

namespace Shift

variable {table : List Shift} {ranges : List Range} {s : Shift} {c : Nat}

def move (s : Shift) (c : Nat) : Nat :=
  (c + s.distance).toNat

def span (s : Shift) : Range :=
  (s.first, s.last)

def points (s : Shift) : List Nat :=
  (List.range ((s.last - s.first) / s.step + 1)).map fun i => s.first + i * s.step

theorem mem_points (h : s.covers c = true) : c ∈ s.points := by
  simp only [covers, Bool.and_eq_true, decide_eq_true_eq, beq_iff_eq] at h
  obtain ⟨⟨hfirst, hlast⟩, hstep⟩ := h
  have hindex : (c - s.first) / s.step ≤ (s.last - s.first) / s.step :=
    Nat.div_le_div_right (by omega)
  have hback := Nat.div_mul_cancel (Nat.dvd_of_mod_eq_zero hstep)
  exact List.mem_map.mpr ⟨_, List.mem_range.mpr (Nat.lt_succ_of_le hindex), by omega⟩

theorem bounds_of_covers (h : s.covers c = true) : s.first ≤ c ∧ c ≤ s.last := by
  simp only [covers, Bool.and_eq_true, decide_eq_true_eq] at h
  exact h.1

theorem apply_cases (table : List Shift) (c : Nat) :
    apply table c = c ∨ ∃ s ∈ table, s.covers c = true ∧ apply table c = s.move c := by
  rw [apply]
  cases h : table.find? (·.covers c) with
  | none => exact .inl rfl
  | some s =>
    have hcovers : s.covers c = true := by simpa using List.find?_some h
    exact .inr ⟨s, List.mem_of_find?_eq_some h, hcovers, rfl⟩

theorem apply_eq_self (h : Range.covers (table.map span) c = false) : apply table c = c := by
  rcases apply_cases table c with h' | ⟨s, hs, hc, -⟩
  · exact h'
  · have hspan : Range.covers (table.map span) c = true :=
      Range.covers_iff.mpr ⟨s.span, List.mem_map_of_mem hs, bounds_of_covers hc⟩
    rw [h] at hspan
    cases hspan

/-- Whether a run takes the code points of a table to code points of it: into the first range that
its image can reach, or one by one, unless none of them is in the table. -/
def staysIn (ranges : List Range) (s : Shift) : Bool :=
  -- `ble`, which the kernel computes, since it passes along the table once for each run.
  (ranges.find? fun r => (s.move s.first).ble r.2).any
      (fun r => r.1 ≤ s.move s.first && s.move s.last ≤ r.2) ||
    Range.apart [s.span] ranges || s.points.all fun c => Range.covers ranges (s.move c)

theorem covers_move (ho : Range.Ascending ranges) (h : s.staysIn ranges = true)
    (hs : s.covers c = true) (hc : Range.covers ranges c = true) :
    Range.covers ranges (s.move c) = true := by
  have hspan := bounds_of_covers hs
  simp only [staysIn, Bool.or_eq_true, Option.any_eq_true, Bool.and_eq_true,
    decide_eq_true_eq] at h
  rcases h with (⟨r, hr, hlo, hhi⟩ | hapart) | hpoints
  · refine Range.covers_iff.mpr ⟨r, List.mem_of_find?_eq_some hr, ?_⟩
    simp only [move] at hlo hhi ⊢
    omega
  · have hone : Range.covers [s.span] c = true :=
      Range.covers_iff.mpr ⟨s.span, List.mem_singleton_self _, hspan⟩
    have hnot := Range.not_covers_of_apart (Range.ascending_singleton _) ho hapart hone
    rw [hc] at hnot
    cases hnot
  · exact List.all_eq_true.mp hpoints c (mem_points hs)

theorem covers_apply (ho : Range.Ascending ranges) (h : table.all (staysIn ranges) = true)
    (hc : Range.covers ranges c = true) : Range.covers ranges (apply table c) = true := by
  rcases apply_cases table c with heq | ⟨s, hs, hcovers, heq⟩
  · rwa [heq]
  · rw [heq]
    exact covers_move ho (List.all_eq_true.mp h s hs) hcovers hc

end Shift

theorem tables_checked :
    Range.Ascending letterRanges ∧ Range.Ascending digitRanges ∧ Range.Ascending blankRanges ∧
      Range.apart digitRanges letterRanges = true ∧ Range.apart letterRanges blankRanges = true ∧
      Range.apart digitRanges blankRanges = true ∧
      letterRanges.all Range.isScalar = true ∧ digitRanges.all Range.isScalar = true := by
  decide +kernel

section

variable {c : Nat}

theorem not_isLetter_of_isDigit (h : isDigit c = true) : isLetter c = false := by
  obtain ⟨hletters, hdigits, -, hapart, -⟩ := tables_checked
  exact Range.not_covers_of_apart hdigits hletters hapart h

theorem not_isDigit_of_isLetter (h : isLetter c = true) : isDigit c = false := by
  rw [Bool.eq_false_iff]
  intro hdigit
  rw [not_isLetter_of_isDigit hdigit] at h
  cases h

theorem not_isBlank_of_isLetter (h : isLetter c = true) : isBlank c = false := by
  obtain ⟨hletters, -, hblanks, -, hapart, -⟩ := tables_checked
  exact Range.not_covers_of_apart hletters hblanks hapart h

theorem not_isBlank_of_isDigit (h : isDigit c = true) : isBlank c = false := by
  obtain ⟨-, hdigits, hblanks, -, -, hapart, -⟩ := tables_checked
  exact Range.not_covers_of_apart hdigits hblanks hapart h

theorem isValidChar_of_isLetter (h : isLetter c = true) : c.isValidChar := by
  obtain ⟨-, -, -, -, -, -, hscalar, -⟩ := tables_checked
  exact Range.isValidChar_of_covers hscalar h

theorem isValidChar_of_isDigit (h : isDigit c = true) : c.isValidChar := by
  obtain ⟨-, -, -, -, -, -, -, hscalar⟩ := tables_checked
  exact Range.isValidChar_of_covers hscalar h

end

structure KeepsClasses (f : Nat → Nat) : Prop where
  letter : ∀ {c}, isLetter c = true → isLetter (f c) = true
  digit : ∀ {c}, isDigit c = true → f c = c

def Shift.keepClasses (table : List Shift) : Bool :=
  Range.Ascending (table.map span) && table.all (staysIn letterRanges) &&
    Range.apart digitRanges (table.map span)

theorem Shift.keepsClasses_apply {table : List Shift} (h : keepClasses table = true) :
    KeepsClasses (apply table) := by
  simp only [keepClasses, Bool.and_eq_true, decide_eq_true_eq] at h
  obtain ⟨⟨hascending, hinto⟩, hoff⟩ := h
  obtain ⟨hletters, hdigits, -⟩ := tables_checked
  constructor
  · exact covers_apply hletters hinto
  · intro c hc
    exact apply_eq_self (Range.not_covers_of_apart hdigits hascending hoff hc)

theorem casings_keepClasses :
    Shift.keepClasses upperShifts = true ∧ Shift.keepClasses lowerShifts = true := by
  decide +kernel

theorem keepsClasses_upper : KeepsClasses upper :=
  Shift.keepsClasses_apply casings_keepClasses.1

theorem keepsClasses_lower : KeepsClasses lower :=
  Shift.keepsClasses_apply casings_keepClasses.2

end Stencil.Text
