import Stencil.Text.Rune

namespace Stencil.Text

theorem toNat_bounds (c : Char) :
    c.toNat < 0x110000 ∧ ¬ (0xD800 ≤ c.toNat ∧ c.toNat ≤ 0xDFFF) := by
  have h := c.valid
  simp only [UInt32.isValidChar, Nat.isValidChar] at h
  change (c.toNat < 0xD800) ∨ (0xDFFF < c.toNat ∧ c.toNat < 0x110000) at h
  omega

theorem encodeChar_eq (c : Char) :
    String.utf8EncodeChar c =
      if c.toNat ≤ 0x7F then [UInt8.ofNat c.toNat]
      else if c.toNat ≤ 0x7FF then
        [UInt8.ofNat (c.toNat / 64 % 0x20 + 0xC0), UInt8.ofNat (c.toNat % 0x40 + 0x80)]
      else if c.toNat ≤ 0xFFFF then
        [UInt8.ofNat (c.toNat / 4096 % 0x10 + 0xE0), UInt8.ofNat (c.toNat / 64 % 0x40 + 0x80),
          UInt8.ofNat (c.toNat % 0x40 + 0x80)]
      else
        [UInt8.ofNat (c.toNat / 262144 % 0x08 + 0xF0), UInt8.ofNat (c.toNat / 4096 % 0x40 + 0x80),
          UInt8.ofNat (c.toNat / 64 % 0x40 + 0x80), UInt8.ofNat (c.toNat % 0x40 + 0x80)] := by
  rfl

theorem firstChar?_encode (c : Char) (t : Text) :
    firstChar? (String.utf8EncodeChar c ++ t) = some (c, (String.utf8EncodeChar c).length) := by
  obtain ⟨hmax, hgap⟩ := toNat_bounds c
  have hc : ∀ n, n = c.toNat → Char.ofNat n = c := fun n hn => hn ▸ Char.ofNat_toNat c
  rw [encodeChar_eq]
  generalize c.toNat = v at hmax hgap hc
  -- The conditions on bytes become conditions on the code point.
  by_cases h1 : v ≤ 0x7F
  · simp only [if_pos h1, List.cons_append, firstChar?, UInt8.lt_iff_toNat_lt, UInt8.toNat_ofNat']
    rw [if_pos (by simp; omega), hc _ (by omega)]
    rfl
  by_cases h2 : v ≤ 0x7FF
  · simp only [if_neg h1, if_pos h2, List.cons_append, firstChar?, continues, payload,
      UInt8.lt_iff_toNat_lt, UInt8.le_iff_toNat_le, UInt8.toNat_ofNat']
    rw [if_neg (by simp; omega), if_pos (by simp; omega), if_pos (by simp; omega),
      hc _ (by omega)]
    rfl
  by_cases h3 : v ≤ 0xFFFF
  · simp only [if_neg h1, if_neg h2, if_pos h3, List.cons_append, firstChar?, continues, payload,
      UInt8.lt_iff_toNat_lt, UInt8.le_iff_toNat_le, beq_iff_eq, ← UInt8.toNat_inj,
      UInt8.toNat_ofNat']
    rw [if_neg (by simp; omega), if_neg (by simp; omega), if_pos (by simp; omega),
      if_pos (by simp; split <;> split <;> simp <;> omega), hc _ (by omega)]
    rfl
  · simp only [if_neg h1, if_neg h2, if_neg h3, List.cons_append, firstChar?, continues, payload,
      UInt8.lt_iff_toNat_lt, UInt8.le_iff_toNat_le, beq_iff_eq, ← UInt8.toNat_inj,
      UInt8.toNat_ofNat']
    rw [if_neg (by simp; omega), if_neg (by simp; omega), if_neg (by simp; omega),
      if_pos (by simp; omega), if_pos (by simp; split <;> split <;> simp <;> omega),
      hc _ (by omega)]
    rfl

theorem toNat_ofNat_of_bounds {v : Nat} (hmax : v < 0x110000)
    (hgap : ¬ (0xD800 ≤ v ∧ v ≤ 0xDFFF)) : (Char.ofNat v).toNat = v := by
  have hv : v.isValidChar := by simp only [Nat.isValidChar]; omega
  rw [Char.ofNat, dif_pos hv]
  rfl

theorem ofNat_eq_of_toNat {n : Nat} {b : UInt8} (h : n = b.toNat) : UInt8.ofNat n = b := by
  rw [h, UInt8.ofNat_toNat]

theorem continues_iff {lo hi b : UInt8} :
    continues lo hi b = true ↔ lo.toNat ≤ b.toNat ∧ b.toNat ≤ hi.toNat := by
  simp only [continues, Bool.and_eq_true, decide_eq_true_eq, UInt8.le_iff_toNat_le]

theorem encodeChar_one {b : UInt8} (hb : b.toNat < 0x80) :
    String.utf8EncodeChar (Char.ofNat b.toNat) = [b] := by
  rw [encodeChar_eq, toNat_ofNat_of_bounds (by omega) (by omega), if_pos (by omega),
    UInt8.ofNat_toNat]

theorem encodeChar_two {b d : UInt8} (hb : continues 0xC2 0xDF b) (hd : continues 0x80 0xBF d) :
    String.utf8EncodeChar (Char.ofNat ((b.toNat - 0xC0) * 64 + payload d)) = [b, d] := by
  have hb := continues_iff.mp hb
  have hd := continues_iff.mp hd
  simp only [UInt8.reduceToNat] at hb hd
  rw [payload, encodeChar_eq, toNat_ofNat_of_bounds (by omega) (by omega), if_neg (by omega),
    if_pos (by omega), ofNat_eq_of_toNat (b := b) (by omega), ofNat_eq_of_toNat (b := d) (by omega)]

theorem encodeChar_three {b d e : UInt8} (hb : continues 0xE0 0xEF b)
    (hd : continues (if b == 0xE0 then 0xA0 else 0x80) (if b == 0xED then 0x9F else 0xBF) d)
    (he : continues 0x80 0xBF e) :
    String.utf8EncodeChar
      (Char.ofNat ((b.toNat - 0xE0) * 4096 + payload d * 64 + payload e)) = [b, d, e] := by
  have hb := continues_iff.mp hb
  have hd := continues_iff.mp hd
  have he := continues_iff.mp he
  simp only [beq_iff_eq, ← UInt8.toNat_inj, apply_ite UInt8.toNat, UInt8.reduceToNat] at hb hd he
  have hlo : b.toNat = 0xE0 → 0xA0 ≤ d.toNat := fun h => by simpa [h] using hd.1
  have hhi : b.toNat = 0xED → d.toNat ≤ 0x9F := fun h => by simpa [h] using hd.2
  have hany : 0x80 ≤ d.toNat ∧ d.toNat ≤ 0xBF := by split at hd <;> split at hd <;> omega
  clear hd
  rw [payload, payload, encodeChar_eq, toNat_ofNat_of_bounds (by omega) (by omega),
    if_neg (by omega), if_neg (by omega), if_pos (by omega), ofNat_eq_of_toNat (b := b) (by omega),
    ofNat_eq_of_toNat (b := d) (by omega), ofNat_eq_of_toNat (b := e) (by omega)]

theorem encodeChar_four {b d e f : UInt8} (hb : continues 0xF0 0xF4 b)
    (hd : continues (if b == 0xF0 then 0x90 else 0x80) (if b == 0xF4 then 0x8F else 0xBF) d)
    (he : continues 0x80 0xBF e) (hf : continues 0x80 0xBF f) :
    String.utf8EncodeChar (Char.ofNat
      ((b.toNat - 0xF0) * 262144 + payload d * 4096 + payload e * 64 + payload f)) =
        [b, d, e, f] := by
  have hb := continues_iff.mp hb
  have hd := continues_iff.mp hd
  have he := continues_iff.mp he
  have hf := continues_iff.mp hf
  simp only [beq_iff_eq, ← UInt8.toNat_inj, apply_ite UInt8.toNat, UInt8.reduceToNat] at hb hd he hf
  have hlo : b.toNat = 0xF0 → 0x90 ≤ d.toNat := fun h => by simpa [h] using hd.1
  have hhi : b.toNat = 0xF4 → d.toNat ≤ 0x8F := fun h => by simpa [h] using hd.2
  have hany : 0x80 ≤ d.toNat ∧ d.toNat ≤ 0xBF := by split at hd <;> split at hd <;> omega
  clear hd
  rw [payload, payload, payload, encodeChar_eq, toNat_ofNat_of_bounds (by omega) (by omega),
    if_neg (by omega), if_neg (by omega), if_neg (by omega), ofNat_eq_of_toNat (b := b) (by omega),
    ofNat_eq_of_toNat (b := d) (by omega), ofNat_eq_of_toNat (b := e) (by omega),
    ofNat_eq_of_toNat (b := f) (by omega)]

theorem encode_of_firstChar? {s : Text} {c : Char} {n : Nat} (h : firstChar? s = some (c, n)) :
    ∃ t, s = String.utf8EncodeChar c ++ t ∧ n = (String.utf8EncodeChar c).length := by
  cases s with
  | nil => cases h
  | cons b rest =>
    rw [firstChar?.eq_def] at h
    dsimp only at h
    split at h
    next h1 =>
      cases h
      exact ⟨rest, by rw [encodeChar_one (UInt8.lt_iff_toNat_lt.mp h1)]; simp⟩
    next h1 =>
    split at h
    next h2 =>
      split at h
      next d rest =>
        obtain ⟨h3, h⟩ := Option.ite_none_right_eq_some.mp h
        cases h
        exact ⟨rest, by rw [encodeChar_two h2 h3]; simp⟩
      next => cases h
    next h2 =>
    split at h
    next h3 =>
      split at h
      next d e rest =>
        obtain ⟨h4, h⟩ := Option.ite_none_right_eq_some.mp h
        cases h
        obtain ⟨hd, he⟩ := (Bool.and_eq_true _ _).mp h4
        exact ⟨rest, by rw [encodeChar_three h3 hd he]; simp⟩
      next => cases h
    next h3 =>
    split at h
    next h4 =>
      split at h
      next d e f rest =>
        obtain ⟨h5, h⟩ := Option.ite_none_right_eq_some.mp h
        cases h
        simp only [Bool.and_eq_true] at h5
        exact ⟨rest, by rw [encodeChar_four h4 h5.1.1 h5.1.2 h5.2]; simp⟩
      next => cases h
    next => cases h

theorem encodeChar_ne_nil (c : Char) : String.utf8EncodeChar c ≠ [] := by
  rw [encodeChar_eq]
  split
  · simp
  · split
    · simp
    · split <;> simp

theorem runesAfter_eq (skip : Nat) (s : Text) : runesAfter skip s = runes (s.drop skip) := by
  induction s generalizing skip with
  | nil => cases skip <;> rfl
  | cons b rest ih =>
    cases skip with
    | zero => rfl
    | succ skip => rw [runesAfter, ih, List.drop_succ_cons]

theorem runes_encode_append (c : Char) (t : Text) :
    runes (String.utf8EncodeChar c ++ t) = .char c :: runes t := by
  have h := firstChar?_encode c t
  obtain ⟨b, rest, hs⟩ := List.exists_cons_of_ne_nil (encodeChar_ne_nil c)
  rw [hs] at h ⊢
  rw [List.cons_append] at h ⊢
  rw [runes, runesAfter, h]
  simp [runesAfter_eq]

theorem firstChar?_ascii {b : UInt8} (hb : b.toNat < 0x80) (t : Text) :
    firstChar? (b :: t) = some (Char.ofNat b.toNat, 1) := by
  rw [firstChar?.eq_def]
  exact if_pos (UInt8.lt_iff_toNat_lt.mpr hb)

theorem runes_ascii_cons {b : UInt8} (hb : b.toNat < 0x80) (t : Text) :
    runes (b :: t) = .char (Char.ofNat b.toNat) :: runes t := by
  have h := runes_encode_append (Char.ofNat b.toNat) t
  rwa [encodeChar_one hb] at h

theorem runes_stray_cons {b : UInt8} {t : Text} (h : firstChar? (b :: t) = none) :
    runes (b :: t) = .stray b :: runes t := by
  rw [runes, runesAfter, h]
  rfl

theorem runes_cons_cases (b : UInt8) (t : Text) :
    (∃ c rest, b :: t = String.utf8EncodeChar c ++ rest) ∨ firstChar? (b :: t) = none := by
  cases h : firstChar? (b :: t) with
  | none => exact .inr rfl
  | some p =>
    obtain ⟨rest, hs, -⟩ := encode_of_firstChar? h
    exact .inl ⟨p.1, rest, hs⟩

theorem flatMap_bytes_runes (s : Text) : (runes s).flatMap Rune.bytes = s := by
  induction hn : s.length using Nat.strongRecOn generalizing s with
  | ind n ih =>
    cases s with
    | nil => rfl
    | cons b t =>
      rcases runes_cons_cases b t with ⟨c, rest, hs⟩ | hstray
      · have hlen := congrArg List.length hs
        have hpos := List.length_pos_iff.mpr (encodeChar_ne_nil c)
        simp only [List.length_append] at hlen
        rw [hs, runes_encode_append, List.flatMap_cons, ih rest.length (by omega) rest rfl,
          Rune.bytes]
      · rw [runes_stray_cons hstray, List.flatMap_cons, ih t.length (by simp at hn; omega) t rfl]
        rfl

theorem encodeChar_of_toNat {c : Char} {n : Nat} (h : c.toNat = n) (hn : n < 0x80) :
    String.utf8EncodeChar c = [UInt8.ofNat n] := by
  rw [encodeChar_eq, h, if_pos (by omega)]

theorem encode_toNat (c : Char) : encode c.toNat = String.utf8EncodeChar c := by
  have hv : c.toNat.isValidChar := c.valid
  rw [encode, dif_pos hv]
  rfl

theorem toNat_of_mem_encodeChar {c : Char} {b : UInt8} (h : b ∈ String.utf8EncodeChar c)
    (hb : b.toNat < 0x80) : c.toNat = b.toNat := by
  rw [encodeChar_eq] at h
  split at h
  · rw [List.mem_singleton.mp h, UInt8.toNat_ofNat']
    omega
  · split at h
    · simp only [List.mem_cons, List.not_mem_nil, or_false] at h
      rcases h with rfl | rfl <;> simp at hb <;> omega
    · split at h
      · simp only [List.mem_cons, List.not_mem_nil, or_false] at h
        rcases h with rfl | rfl | rfl <;> simp at hb <;> omega
      · simp only [List.mem_cons, List.not_mem_nil, or_false] at h
        rcases h with rfl | rfl | rfl | rfl <;> simp at hb <;> omega

theorem firstChar?_append_ascii {a b : UInt8} {s : Text} (hb : b.toNat < 0x80)
    (h : firstChar? (a :: s) = none) (t : Text) : firstChar? (a :: (s ++ b :: t)) = none := by
  rcases runes_cons_cases a (s ++ b :: t) with ⟨c, rest, hs⟩ | hnone
  · rw [← List.cons_append] at hs
    rcases List.append_eq_append_iff.mp hs with ⟨more, hc, hrest⟩ | ⟨more, hs', -⟩
    · cases more with
      | nil =>
        rw [List.append_nil] at hc
        have hfirst := firstChar?_encode c []
        rw [List.append_nil, hc, h] at hfirst
        cases hfirst
      | cons x more =>
        cases (List.cons.inj hrest).1
        have hmem : b ∈ String.utf8EncodeChar c := by simp [hc]
        have hone := encodeChar_of_toNat (toNat_of_mem_encodeChar hmem hb) hb
        have hlen := congrArg List.length (hc.symm.trans hone)
        simp at hlen
    · rw [hs', firstChar?_encode] at h
      cases h
  · exact hnone

theorem runes_append_ascii {b : UInt8} (hb : b.toNat < 0x80) (s t : Text) :
    runes (s ++ b :: t) = runes s ++ runes (b :: t) := by
  induction hn : s.length using Nat.strongRecOn generalizing s with
  | ind n ih =>
    cases s with
    | nil => rfl
    | cons a s =>
      rcases runes_cons_cases a s with ⟨c, rest, hs⟩ | hstray
      · have hlen := congrArg List.length hs
        have hpos := List.length_pos_iff.mpr (encodeChar_ne_nil c)
        simp only [List.length_append] at hlen
        rw [hs, List.append_assoc, runes_encode_append, runes_encode_append,
          ih rest.length (by omega) rest rfl]
        rfl
      · rw [List.cons_append, runes_stray_cons (firstChar?_append_ascii hb hstray t),
          runes_stray_cons hstray, ih s.length (by simp at hn; omega) s rfl]
        rfl

theorem isValidUtf8_append_ascii {b : UInt8} (hb : b.toNat < 0x80) (s t : Text) :
    isValidUtf8 (s ++ b :: t) = (isValidUtf8 s && isValidUtf8 t) := by
  rw [isValidUtf8, runes_append_ascii hb, runes_ascii_cons hb, List.all_append, List.all_cons]
  rfl

theorem mapRunes_id_of_valid {s : Text} (h : isValidUtf8 s = true) : mapRunes id s = s := by
  refine Eq.trans ?_ (flatMap_bytes_runes s)
  refine congrArg List.flatten (List.map_congr_left fun r hr => ?_)
  have hchar := List.all_eq_true.mp h r hr
  cases r with
  | char c => exact encode_toNat c
  | stray b => cases hchar

theorem mem_mapRunes_id {b : UInt8} (hb : b.toNat < 0x80) {s : Text} (h : b ∈ s) :
    b ∈ mapRunes id s := by
  obtain ⟨before, after, rfl⟩ := List.append_of_mem h
  rw [mapRunes, runes_append_ascii hb, runes_ascii_cons hb, List.flatMap_append,
    List.flatMap_cons]
  have hcode : encode (id (Rune.char (Char.ofNat b.toNat)).code) = [b] :=
    (encode_toNat _).trans (encodeChar_one hb)
  rw [hcode]
  simp

end Stencil.Text
