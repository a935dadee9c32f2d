import Stencil.Cache.Fields
import Stencil.Proofs.Text.Rune

namespace Stencil

open Ascii Text

namespace Text

theorem isDigit_bounds {c : Char} (h : c.isDigit = true) : 48 ≤ c.toNat ∧ c.toNat ≤ 57 := by
  simp only [Char.isDigit, Bool.and_eq_true, decide_eq_true_eq] at h
  exact ⟨UInt32.le_iff_toNat_le.mp h.1, UInt32.le_iff_toNat_le.mp h.2⟩

theorem ofNat_eq (n : Nat) :
    ofNat n = (Nat.toDigits 10 n).map fun c => UInt8.ofNat c.toNat := by
  have hbytes : ofNat n = (Nat.toDigits 10 n).flatMap String.utf8EncodeChar := by
    rw [ofNat, utf8, String.toUTF8_eq_toByteArray]
    change (Nat.repr n).toByteArray.data.toList = _
    rw [Nat.repr_eq_ofList_toDigits, String.toByteArray_ofList, List.utf8Encode]
    simp
  rw [hbytes, List.map_eq_flatMap]
  refine congrArg List.flatten (List.map_congr_left fun c hc => ?_)
  have hbounds := isDigit_bounds (Nat.isDigit_of_mem_toDigits (by omega) (by omega) hc)
  exact encodeChar_of_toNat rfl (by omega)

theorem hexValue?_digit {n : Nat} (hlow : 48 ≤ n) (hhigh : n ≤ 57) :
    hexValue? (UInt8.ofNat n) = some (n - 48) := by
  have hdigits : ∀ m < 10, hexValue? (UInt8.ofNat (48 + m)) = some m := by decide
  have h := hdigits (n - 48) (by omega)
  rwa [Nat.add_sub_cancel' hlow] at h

theorem toNat?_ofNat (n : Nat) : toNat? (ofNat n) = some n := by
  have hfold : ∀ (digits : List Char) (start : Nat), (∀ c ∈ digits, c.isDigit = true) →
      (digits.map fun c => UInt8.ofNat c.toNat).foldl (fun n c => do
        let n ← n
        let v ← hexValue? c
        if v < 10 then some (n * 10 + v) else none) (some start) =
          some (Nat.ofDigitChars 10 digits start) := by
    intro digits
    induction digits with
    | nil => simp
    | cons c digits ih =>
      intro start hdigits
      obtain ⟨hc, hdigits⟩ := List.forall_mem_cons.mp hdigits
      obtain ⟨hlow, hhigh⟩ := isDigit_bounds hc
      have hstep : (do
          let n ← some start
          let v ← hexValue? (UInt8.ofNat c.toNat)
          if v < 10 then some (n * 10 + v) else none) =
            some (10 * start + (c.toNat - '0'.toNat)) := by
        rw [hexValue?_digit hlow hhigh]
        change (if c.toNat - 48 < 10 then some (start * 10 + (c.toNat - 48)) else none) = _
        rw [if_pos (by omega), Nat.mul_comm]
        rfl
      rw [List.map_cons, List.foldl_cons, hstep, ih _ hdigits, Nat.ofDigitChars_cons]
  rw [toNat?, digits?, ofNat_eq, if_neg (by simp [Nat.toDigits_ne_nil])]
  rw [hfold _ 0 fun c hc => Nat.isDigit_of_mem_toDigits (by omega) (by omega) hc,
    Nat.ofDigitChars_toDigits (by omega) (by omega)]

theorem not_mem_ofNat {b : UInt8} (hb : b.toNat < 48 ∨ 57 < b.toNat) (n : Nat) :
    b ∉ ofNat n := by
  rw [ofNat_eq]
  intro h
  obtain ⟨c, hc, rfl⟩ := List.mem_map.mp h
  have hbounds := isDigit_bounds (Nat.isDigit_of_mem_toDigits (by omega) (by omega) hc)
  rw [UInt8.toNat_ofNat'] at hb
  omega

theorem cut?_of_not_mem {b : UInt8} {s : Text} (h : b ∉ s) (t : Text) :
    cut? [b] (s ++ b :: t) = some (s, t) := by
  induction s with
  | nil => simp [cut?, cutPrefix?]
  | cons c s ih =>
    rw [List.mem_cons, not_or] at h
    have hne : (b == c) = false := by simpa using h.1
    simp [cut?, cutPrefix?, hne, ih h.2]

end Text

namespace Fields

theorem first?_append (s t : Text) :
    first? (ofNat s.length ++ colon :: (s ++ t)) = some (s, t) := by
  rw [first?, cut?_of_not_mem (not_mem_ofNat (by decide) _)]
  simp [toNat?_ofNat]

theorem encode_cons (s : Text) (fields : List Text) :
    encode (s :: fields) = ofNat s.length ++ colon :: (s ++ encode fields) := by
  simp [encode]

theorem decodeWithin_encode (fields : List Text) {fuel : Nat} (h : fields.length ≤ fuel) :
    decodeWithin fuel (encode fields) = some fields := by
  induction fields generalizing fuel with
  | nil => cases fuel <;> rfl
  | cons s fields ih =>
    cases fuel with
    | zero => simp at h
    | succ fuel =>
      have hne : encode (s :: fields) ≠ [] := by simp [encode_cons]
      rw [decodeWithin, encode_cons, first?_append]
      · simp [ih (Nat.le_of_succ_le_succ h)]
      · exact hne

theorem length_le_encode (fields : List Text) : fields.length ≤ (encode fields).length := by
  induction fields with
  | nil => simp
  | cons s fields ih =>
    simp only [encode_cons, List.length_append, List.length_cons]
    omega

theorem decode?_encode (fields : List Text) : decode? (encode fields) = some fields :=
  decodeWithin_encode fields (length_le_encode fields)

end Fields

end Stencil
