import Mathlib.Data.Nat.Find
import Stencil.Disk.Directory
import Stencil.Proofs.Disk.Following

namespace Stencil

open Ascii Text

namespace Disk

variable {d e e' a : Disk} {copies : List Disk} {root here : Location} {p : Text}

/-- Each place is as it was if no copy changes it, and else as a copy that changes it has it. -/
def Blends (d : Disk) (copies : List Disk) (e : Disk) : Prop :=
  ∀ l, (e.find? l = d.find? l ∧ ∀ a ∈ copies, a.find? l = d.find? l) ∨
    ∃ a ∈ copies, a.find? l ≠ d.find? l ∧ e.find? l = a.find? l

theorem walk_congr {parts : List Text} (hparts : ∀ part ∈ parts, Path.isValidPart part = true)
    (h : ∀ upper, upper <+: parts → e.find? (here ++ upper) = d.find? (here ++ upper)) :
    e.walk here parts = d.walk here parts := by
  induction parts generalizing here with
  | nil => rfl
  | cons part parts ih =>
    obtain ⟨hpart, hrest⟩ := List.forall_mem_cons.mp hparts
    obtain ⟨hne, hdot, hdots⟩ := Path.isValidPart_iff.mp hpart
    have hhere := h [] List.nil_prefix
    rw [List.append_nil] at hhere
    have hnext : e.walk (here ++ [part]) parts = d.walk (here ++ [part]) parts := by
      apply ih hrest
      intro upper hupper
      rw [List.append_assoc, List.singleton_append]
      exact h (part :: upper) (List.cons_prefix_cons.mpr ⟨rfl, hupper⟩)
    rw [walk, walk, hhere, hnext]
    simp [hne, hdot, hdots]

theorem readBelow_congr (h : ∀ upper, upper <+: splitOn slash p →
    e.find? (root ++ upper) = d.find? (root ++ upper)) :
    e.readBelow root p = d.readBelow root p := by
  unfold readBelow
  by_cases hvalid : Path.isValid p = true
  · have hfrom : e.readFrom root p = d.readFrom root p := by
      rw [Path.isValid, Bool.and_eq_true, Bool.or_eq_true, decide_eq_true_eq] at hvalid
      rcases hvalid.2 with rfl | hparts
      · -- the path `.` stands for the directory itself
        have hroot := h [] List.nil_prefix
        rw [List.append_nil] at hroot
        rw [readFrom, readFrom, show splitOn slash [dot] = [[dot]] from rfl]
        cases hfind : d.find? root with
        | none => simp [walk, hroot, hfind]
        | some entry => cases entry <;> simp [walk, hroot, hfind]
      · have hwalk := walk_congr (List.all_eq_true.mp hparts) h
        rw [readFrom, readFrom, hwalk]
        cases hloc : d.walk root (splitOn slash p) with
        | error f => rfl
        | ok loc =>
          rw [eq_append_of_walk hparts hloc]
          dsimp only
          rw [h _ List.prefix_rfl]
    rw [hfrom]
  · rw [Bool.not_eq_true] at hvalid
    simp [hvalid]

namespace Blends

theorem start (d : Disk) : d.Blends [] d :=
  fun _ => .inl ⟨rfl, List.forall_mem_nil _⟩

theorem add (h : d.Blends copies e)
    (he : ∀ l, e'.find? l = if a.find? l = d.find? l then e.find? l else a.find? l) :
    d.Blends (a :: copies) e' := by
  intro l
  rw [he]
  split
  next hkept =>
    rcases h l with ⟨hsame, hcopies⟩ | ⟨other, hother, hchanged, hplace⟩
    · exact .inl ⟨hsame, List.forall_mem_cons.mpr ⟨hkept, hcopies⟩⟩
    · exact .inr ⟨other, List.mem_cons_of_mem _ hother, hchanged, hplace⟩
  next hchanged => exact .inr ⟨a, List.mem_cons_self, hchanged, rfl⟩

theorem within (h : d.Blends copies e) (hcopies : ∀ a ∈ copies, d.Within a) : d.Within e := by
  intro l hl
  rcases h l with ⟨hsame, -⟩ | ⟨a, ha, -, hplace⟩
  · rw [hsame, hl]
  · rw [hplace, hcopies a ha l hl]

theorem unique {others : List Disk} (h : d.Blends copies e) (h' : d.Blends others e')
    (hmem : ∀ a, a ∈ copies ↔ a ∈ others) {l : Location}
    (hagree : ∀ a ∈ copies, ∀ a' ∈ copies, a.find? l ≠ d.find? l → a'.find? l ≠ d.find? l →
      a.find? l = a'.find? l) : e.find? l = e'.find? l := by
  rcases h l with ⟨hsame, hkept⟩ | ⟨a, ha, hchanged, hplace⟩
  · rcases h' l with ⟨hsame', -⟩ | ⟨a', ha', hchanged', -⟩
    · rw [hsame, hsame']
    · exact absurd (hkept a' ((hmem a').mpr ha')) hchanged'
  · rcases h' l with ⟨-, hkept'⟩ | ⟨a', ha', hchanged', hplace'⟩
    · exact absurd (hkept' a ((hmem a).mp ha)) hchanged
    · rw [hplace, hplace', hagree a ha a' ((hmem a').mpr ha') hchanged hchanged']

theorem readBelow (h : d.Blends copies e) (he : e.Sound)
    (hcopies : ∀ a ∈ copies, a.Sound ∧ ∀ l, a.find? l ≠ d.find? l → (a.find? l).isSome = true)
    (hsame : ∀ a ∈ copies, a.readBelow root p = d.readBelow root p) :
    e.readBelow root p = d.readBelow root p := by
  classical
  let parts := splitOn slash p
  let differs (k : Nat) : Prop :=
    e.find? (root ++ parts.take k) ≠ d.find? (root ++ parts.take k)
  have htake {upper : List Text} (hupper : upper <+: parts) : upper = parts.take upper.length :=
    List.prefix_iff_eq_take.mp hupper
  by_cases hany : ∃ k, k ≤ parts.length ∧ differs k
  · -- the last place along the path that is changed: the copy that changes it has all of the way
    obtain ⟨k, hk, hdiffers⟩ := hany
    let last := Nat.findGreatest differs parts.length
    have hlast : differs last := Nat.findGreatest_spec hk hdiffers
    rcases h (root ++ parts.take last) with ⟨hkept, -⟩ | ⟨a, ha, hchanged, hplace⟩
    · exact absurd hkept hlast
    have hthere := (hcopies a ha).2 _ hchanged
    have hall : ∀ upper, upper <+: parts → e.find? (root ++ upper) = a.find? (root ++ upper) := by
      intro upper hupper
      rcases Nat.lt_trichotomy upper.length last with hlt | heq | hgt
      · obtain ⟨rest, hrest⟩ := List.prefix_take_iff.mpr ⟨hupper, Nat.le_of_lt hlt⟩
        have hway : root ++ parts.take last = root ++ upper ++ rest := by
          rw [← hrest, List.append_assoc]
        have hmore : rest ≠ [] := by
          rintro rfl
          have hle : last ≤ parts.length := Nat.findGreatest_le _
          have hlength := congrArg List.length hrest
          rw [List.append_nil, List.length_take] at hlength
          omega
        have habove := ((hcopies a ha).1 _ hthere).above hway hmore
        have habove' := (he _ (hplace ▸ hthere)).above hway hmore
        rw [habove, habove']
      · rw [htake hupper, heq]
        exact hplace
      · have hkept : e.find? (root ++ upper) = d.find? (root ++ upper) := by
          have hnot := Nat.findGreatest_is_greatest hgt hupper.length_le
          rw [htake hupper]
          exact not_not.mp hnot
        rcases h (root ++ upper) with ⟨-, hothers⟩ | ⟨a', -, hchanged', hplace'⟩
        · rw [hkept, hothers a ha]
        · exact absurd (hplace'.symm.trans hkept) hchanged'
    rw [readBelow_congr hall, hsame a ha]
  · apply readBelow_congr
    intro upper hupper
    rw [htake hupper]
    exact not_not.mp fun hdiffers => hany ⟨upper.length, hupper.length_le, hdiffers⟩

end Blends

end Disk

end Stencil
