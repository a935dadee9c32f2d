import Mathlib.Algebra.Group.Nat.Defs
import Stencil.Unit.Lexeme
import Stencil.Text.Quoted
import Stencil.Proofs.Text.Rune

namespace Stencil

open Ascii Text

namespace Text

theorem hexValue?_hexDigit {d : Nat} (h : d < 16) : hexValue? (hexDigit d) = some d := by
  have all : ∀ d : Fin 16, hexValue? (hexDigit d.val) = some d.val := by decide
  exact all ⟨d, h⟩

theorem hexDigit_bounds {d : Nat} (h : d < 16) :
    32 ≤ (hexDigit d).toNat ∧ (hexDigit d).toNat < 127 := by
  have all : ∀ d : Fin 16, 32 ≤ (hexDigit d.val).toNat ∧ (hexDigit d.val).toNat < 127 := by decide
  exact all ⟨d, h⟩

@[simp] theorem length_hexFill (width n : Nat) : (hexFill width n).length = width := by
  induction width generalizing n with
  | zero => rfl
  | succ width ih => simp [hexFill, ih]

theorem mem_hexFill {width n : Nat} {b : UInt8} (h : b ∈ hexFill width n) :
    ∃ d < 16, b = hexDigit d := by
  induction width generalizing n with
  | zero => cases h
  | succ width ih =>
    rcases List.mem_append.mp h with h | h
    · exact ih h
    · exact ⟨n % 16, Nat.mod_lt _ (by decide), List.mem_singleton.mp h⟩

theorem foldl_hexFill {β : Type} {step : β → UInt8 → β} {g : Nat → β}
    (hstep : ∀ q d, d < 16 → step (g q) (hexDigit d) = g (q * 16 + d)) (width n : Nat) :
    (hexFill width n).foldl step (g 0) = g (n % 16 ^ width) := by
  induction width generalizing n with
  | zero => simp [hexFill, Nat.mod_one]
  | succ width ih =>
    rw [hexFill, List.foldl_append, ih, List.foldl_cons, List.foldl_nil,
      hstep _ _ (Nat.mod_lt n (by decide)), Nat.pow_succ, Nat.mul_comm (16 ^ width) 16, Nat.mod_mul]
    congr 1
    omega

theorem hexNumber_hexFill (width n : Nat) :
    hexNumber (hexFill width n) = some (n % 16 ^ width) :=
  foldl_hexFill (g := some) (fun q d hd => by simp [hexValue?_hexDigit hd]) width n

end Text

namespace Lexeme

theorem codeFits_hexFill {width n limit : Nat} (hn : n < 16 ^ width) (hl : n ≤ limit)
    (hs : 255 < limit → ¬ (0xD800 ≤ n ∧ n ≤ 0xDFFF)) :
    codeFits 16 limit (hexFill width n) = true := by
  have hfold : (hexFill width n).foldl (fun n c => n * 16 + ((hexValue? c).getD 0)) 0 =
      n % 16 ^ width :=
    foldl_hexFill (g := fun q => q) (fun q d hd => by simp [hexValue?_hexDigit hd]) width n
  have hdigits : (hexFill width n).all (fun c => (hexValue? c).any (· < 16)) = true := by
    rw [List.all_eq_true]
    intro c hc
    obtain ⟨d, hd, rfl⟩ := mem_hexFill hc
    simp [hexValue?_hexDigit hd, hd]
  simp only [codeFits, hdigits, hfold, Nat.mod_eq_of_lt hn, Bool.true_and, Bool.and_eq_true,
    decide_eq_true_eq, Bool.not_eq_true', Bool.and_eq_false_imp, decide_eq_false_iff_not]
  refine ⟨hl, fun h => ?_⟩
  have := hs h.1
  omega

structure Escapes (mark bytes : Text) : Prop where
  value : ∀ t, escapeValue? quote (mark ++ t) = some (bytes, mark.length)
  size : ∀ t, escapeSize? quote (mark ++ t) = some mark.length
  plain : ∀ b ∈ mark, 32 ≤ b.toNat ∧ b.toNat < 127

theorem Escapes.letter {letter code : UInt8}
    (hvalue : ∀ t, escapeValue? quote (letter :: t) = some ([code], 1))
    (hsize : ∀ t, escapeSize? quote (letter :: t) = some 1)
    (hplain : 32 ≤ letter.toNat ∧ letter.toNat < 127) : Escapes [letter] [code] :=
  ⟨hvalue, hsize, List.forall_mem_singleton.mpr hplain⟩

theorem escapeValue?_hexFill_two {n : Nat} (hn : n < 16 ^ 2) (t : Text) :
    escapeValue? quote (120 :: (hexFill 2 n ++ t)) = some ([UInt8.ofNat n], 3) := by
  have h : escapeValue? quote (120 :: (hexFill 2 n ++ t)) =
      if ((hexFill 2 n ++ t).take 2).length == 2 then
        (hexNumber ((hexFill 2 n ++ t).take 2)).map fun n => ([UInt8.ofNat n], 3)
      else none := rfl
  rw [h, List.take_left' (length_hexFill 2 n), hexNumber_hexFill, Nat.mod_eq_of_lt hn]
  simp

theorem escapeValue?_hexFill_wide {letter : UInt8} {width n : Nat}
    (hw : letter = 117 ∧ width = 4 ∨ letter = 85 ∧ width = 8) (hn : n < 16 ^ width)
    (hv : n.isValidChar) (t : Text) :
    escapeValue? quote (letter :: (hexFill width n ++ t)) = some (encode n, width + 1) := by
  have h : escapeValue? quote (letter :: (hexFill width n ++ t)) =
      if ((hexFill width n ++ t).take width).length == width then
        (hexNumber ((hexFill width n ++ t).take width)).bind fun n =>
          if n.isValidChar then some (encode n, width + 1) else none
      else none := by
    rcases hw with ⟨rfl, rfl⟩ | ⟨rfl, rfl⟩ <;> rfl
  rw [h, List.take_left' (length_hexFill width n), hexNumber_hexFill, Nat.mod_eq_of_lt hn]
  simp [hv]

theorem escapeSize?_hexFill {letter : UInt8} {width limit n : Nat}
    (hw : letter = 120 ∧ width = 2 ∧ limit = 255 ∨ letter = 117 ∧ width = 4 ∧ limit = 0x10FFFF ∨
      letter = 85 ∧ width = 8 ∧ limit = 0x10FFFF)
    (hn : n < 16 ^ width) (hl : n ≤ limit) (hs : 255 < limit → ¬ (0xD800 ≤ n ∧ n ≤ 0xDFFF))
    (t : Text) :
    escapeSize? quote (letter :: (hexFill width n ++ t)) = some (width + 1) := by
  have h : escapeSize? quote (letter :: (hexFill width n ++ t)) =
      if ((hexFill width n ++ t).take width).length = width &&
        codeFits 16 limit ((hexFill width n ++ t).take width) then some (width + 1) else none := by
    rw [escapeSize?]
    rcases hw with ⟨rfl, rfl, rfl⟩ | ⟨rfl, rfl, rfl⟩ | ⟨rfl, rfl, rfl⟩
    · rw [if_neg (by decide), if_pos rfl]
    · rw [if_neg (by decide), if_neg (by decide), if_pos rfl]
    · rw [if_neg (by decide), if_neg (by decide), if_neg (by decide), if_pos rfl]
  rw [h, List.take_left' (length_hexFill width n), codeFits_hexFill hn hl hs]
  simp

theorem plain_hexFill {letter : UInt8} {width n : Nat}
    (h : 32 ≤ letter.toNat ∧ letter.toNat < 127) :
    ∀ b ∈ letter :: hexFill width n, 32 ≤ b.toNat ∧ b.toNat < 127 := by
  intro b hb
  rcases List.mem_cons.mp hb with rfl | hb
  · exact h
  · obtain ⟨d, hd, rfl⟩ := mem_hexFill hb
    exact hexDigit_bounds hd

theorem escapes_hex_byte {n : Nat} (hn : n < 256) :
    Escapes (120 :: hexFill 2 n) [UInt8.ofNat n] where
  value t := by simpa using escapeValue?_hexFill_two hn t
  size t := by
    simpa using escapeSize?_hexFill (.inl ⟨rfl, rfl, rfl⟩) hn (by omega) (by omega) t
  plain := plain_hexFill (by decide)

theorem escapes_hex_code {letter : UInt8} {width n : Nat}
    (hw : letter = 117 ∧ width = 4 ∨ letter = 85 ∧ width = 8) (hn : n < 16 ^ width)
    (hv : n.isValidChar) : Escapes (letter :: hexFill width n) (encode n) where
  value t := by simpa using escapeValue?_hexFill_wide hw hn hv t
  size t := by
    have hv : n < 0xD800 ∨ 0xDFFF < n ∧ n < 0x110000 := hv
    have hw : letter = 117 ∧ width = 4 ∧ 0x10FFFF = 0x10FFFF ∨
        letter = 85 ∧ width = 8 ∧ 0x10FFFF = 0x10FFFF := by simpa using hw
    simpa using escapeSize?_hexFill (.inr hw) hn (by omega) (by omega) t
  plain := plain_hexFill (by rcases hw with ⟨rfl, -⟩ | ⟨rfl, -⟩ <;> decide)

theorem escapeRune_cases (r : Rune) :
    (∃ c, r = .char c ∧ escapeRune r = String.utf8EncodeChar c ∧ isPrintable c.toNat = true ∧
      c ≠ '"' ∧ c ≠ '\\') ∨
    ∃ mark, escapeRune r = backslash :: mark ∧ Escapes mark r.bytes := by
  cases r with
  | stray b =>
    refine .inr ⟨_, rfl, ?_⟩
    have h := escapes_hex_byte b.toNat_lt
    rwa [UInt8.ofNat_toNat] at h
  | char c =>
    by_cases hq : c = '"' ∨ c = '\\'
    · refine .inr ⟨String.utf8EncodeChar c, ?_, ?_⟩
      · simp [escapeRune, hq]
      · rcases hq with rfl | rfl
        · exact Escapes.letter (fun _ => rfl) (fun _ => rfl) (by decide)
        · exact Escapes.letter (fun _ => rfl) (fun _ => rfl) (by decide)
    by_cases hp : isPrintable c.toNat = true
    · obtain ⟨h1, h2⟩ := not_or.mp hq
      exact .inl ⟨c, rfl, by simp [escapeRune, h1, h2, hp], hp, h1, h2⟩
    right
    have short (letter code : UInt8) (hc : c.toNat = code.toNat) (hlt : code.toNat < 0x80)
        (hvalue : ∀ t, escapeValue? quote (letter :: t) = some ([code], 1))
        (hsize : ∀ t, escapeSize? quote (letter :: t) = some 1)
        (hplain : 32 ≤ letter.toNat ∧ letter.toNat < 127) :
        Escapes [letter] (Rune.char c).bytes := by
      rw [Rune.bytes, encodeChar_of_toNat hc hlt, UInt8.ofNat_toNat]
      exact .letter hvalue hsize hplain
    simp only [escapeRune]
    rw [if_neg (by simpa using hq), if_neg hp]
    split
    next hn => exact ⟨_, rfl, short 97 7 hn (by decide) (fun _ => rfl) (fun _ => rfl) (by decide)⟩
    next hn => exact ⟨_, rfl, short 98 8 hn (by decide) (fun _ => rfl) (fun _ => rfl) (by decide)⟩
    next hn => exact ⟨_, rfl, short 102 12 hn (by decide) (fun _ => rfl) (fun _ => rfl) (by decide)⟩
    next hn => exact ⟨_, rfl, short 110 10 hn (by decide) (fun _ => rfl) (fun _ => rfl) (by decide)⟩
    next hn => exact ⟨_, rfl, short 114 13 hn (by decide) (fun _ => rfl) (fun _ => rfl) (by decide)⟩
    next hn => exact ⟨_, rfl, short 116 9 hn (by decide) (fun _ => rfl) (fun _ => rfl) (by decide)⟩
    next hn => exact ⟨_, rfl, short 118 11 hn (by decide) (fun _ => rfl) (fun _ => rfl) (by decide)⟩
    next =>
      have hv : c.toNat.isValidChar := c.valid
      obtain ⟨hmax, -⟩ := toNat_bounds c
      split
      next hn =>
        have hn : c.toNat < 0x80 := by simp at hn; omega
        refine ⟨_, rfl, ?_⟩
        rw [Rune.bytes, encodeChar_of_toNat rfl hn]
        exact escapes_hex_byte (by omega)
      next =>
      rw [Rune.bytes, ← encode_toNat]
      split
      next hn => exact ⟨_, rfl, escapes_hex_code (.inl ⟨rfl, rfl⟩) hn hv⟩
      next => exact ⟨_, rfl, escapes_hex_code (.inr ⟨rfl, rfl⟩) (by omega) hv⟩

theorem readQuoted_skip (d : UInt8) (n : Nat) (s : Text) :
    readQuoted d n s = readQuoted d 0 (s.drop n) := by
  induction s generalizing n with
  | nil => cases n <;> rfl
  | cons b rest ih =>
    cases n with
    | zero => rfl
    | succ n => rw [readQuoted, ih, List.drop_succ_cons]

theorem quotedEnd?_skip (d : UInt8) (n count : Nat) (s : Text) :
    quotedEnd? d n count s = quotedEnd? d 0 count (s.drop n) := by
  induction s generalizing n with
  | nil => cases n <;> rfl
  | cons b rest ih =>
    cases n with
    | zero => rfl
    | succ n => rw [quotedEnd?, ih, List.drop_succ_cons]

theorem toNat_ne_of_isPrintable {c : Char} (h : isPrintable c.toNat = true) :
    c.toNat ≠ 0 ∧ c.toNat ≠ 10 ∧ c.toNat ≠ 0xFEFF := by
  have absent : isPrintable 0 = false ∧ isPrintable 10 = false ∧ isPrintable 0xFEFF = false := by
    decide +kernel
  refine ⟨?_, ?_, ?_⟩ <;> intro hc <;> simp [hc, absent] at h

theorem ne_of_mem_encodeChar {c : Char} {b : UInt8} (hb : b ∈ String.utf8EncodeChar c)
    (hp : isPrintable c.toNat = true) (hq : c ≠ '"') (hs : c ≠ '\\') :
    b ≠ quote ∧ b ≠ newline ∧ b ≠ backslash := by
  refine ⟨?_, ?_, ?_⟩
  · rintro rfl
    exact hq (Char.toNat_inj.mp (toNat_of_mem_encodeChar hb (by decide)))
  · rintro rfl
    exact (toNat_ne_of_isPrintable hp).2.1 (toNat_of_mem_encodeChar hb (by decide))
  · rintro rfl
    exact hs (Char.toNat_inj.mp (toNat_of_mem_encodeChar hb (by decide)))

theorem readQuoted_append {w : Text} (hw : ∀ b ∈ w, b ≠ quote ∧ b ≠ newline ∧ b ≠ backslash)
    (t : Text) : readQuoted quote 0 (w ++ t) = (readQuoted quote 0 t).map (w ++ ·) := by
  induction w with
  | nil => simp
  | cons b w ih =>
    obtain ⟨hq, hn, hs⟩ := hw b (by simp)
    rw [List.cons_append, readQuoted]
    simp [hq, hn, hs, ih fun b hb => hw b (by simp [hb]), Function.comp_def]

theorem readQuoted_escapeRune (r : Rune) (t : Text) :
    readQuoted quote 0 (escapeRune r ++ t) = (readQuoted quote 0 t).map (r.bytes ++ ·) := by
  rcases escapeRune_cases r with ⟨c, rfl, he, hp, hq, hs⟩ | ⟨mark, he, h⟩
  · rw [he, readQuoted_append fun b hb => ne_of_mem_encodeChar hb hp hq hs, Rune.bytes]
  · rw [he, List.cons_append, readQuoted]
    simp only [h.value]
    rw [readQuoted_skip, List.drop_left]
    rfl

theorem unquoted?_quoted (s : Text) : unquoted? (quoted s) = some s := by
  have hread : ∀ rs : List Rune,
      readQuoted quote 0 (rs.flatMap escapeRune ++ [quote]) = some (rs.flatMap Rune.bytes) := by
    intro rs
    induction rs with
    | nil => rfl
    | cons r rs ih => rw [List.flatMap_cons, List.append_assoc, readQuoted_escapeRune, ih]; rfl
  change readQuoted quote 0 ((runes s).flatMap escapeRune ++ [quote]) = some s
  rw [hread, flatMap_bytes_runes]

theorem quotedEnd?_escapeRune (r : Rune) (count : Nat) (t : Text) :
    quotedEnd? quote 0 count (escapeRune r ++ t) = quotedEnd? quote 0 (count + 1) t := by
  rcases escapeRune_cases r with ⟨c, rfl, he, hp, hq, hs⟩ | ⟨mark, he, h⟩
  · obtain ⟨b, w, hw⟩ := List.exists_cons_of_ne_nil (encodeChar_ne_nil c)
    have hb : b ∈ String.utf8EncodeChar c := by simp [hw]
    obtain ⟨h1, h2, h3⟩ := ne_of_mem_encodeChar hb hp hq hs
    have hfirst := firstChar?_encode c t
    rw [hw, List.cons_append] at hfirst
    rw [he, hw, List.cons_append, quotedEnd?, if_neg h1, if_neg h2, if_neg h3, hfirst]
    dsimp only
    rw [quotedEnd?_skip]
    simp
  · rw [he, List.cons_append, quotedEnd?, if_neg (by decide), if_neg (by decide), if_pos rfl,
      h.size]
    dsimp only
    rw [quotedEnd?_skip, List.drop_left]

theorem quotedEnd?_quoted (s rest : Text) :
    quotedEnd? quote 0 0 ((runes s).flatMap escapeRune ++ quote :: rest) =
      some (rest, (runes s).length) := by
  have hread : ∀ (rs : List Rune) (count : Nat),
      quotedEnd? quote 0 count (rs.flatMap escapeRune ++ quote :: rest) =
        some (rest, count + rs.length) := by
    intro rs
    induction rs with
    | nil => intro count; rfl
    | cons r rs ih =>
      intro count
      rw [List.flatMap_cons, List.append_assoc, quotedEnd?_escapeRune, ih, List.length_cons]
      simp; omega
  rw [hread, Nat.zero_add]

theorem isSound_ascii_cons {b : UInt8} (hb : 0 < b.toNat ∧ b.toNat < 0x80) (t : Text) :
    isSound (b :: t) = isSound t := by
  have hc : (Char.ofNat b.toNat).toNat = b.toNat :=
    toNat_ofNat_of_bounds (by omega) (by omega)
  rw [isSound, runes_ascii_cons hb.2, List.all_cons]
  simp only [hc]
  rw [isSound, decide_eq_true (by omega), decide_eq_true (by omega), Bool.true_and, Bool.true_and]

theorem isSound_plain_append {w : Text} (hw : ∀ b ∈ w, 32 ≤ b.toNat ∧ b.toNat < 127) (t : Text) :
    isSound (w ++ t) = isSound t := by
  induction w with
  | nil => rfl
  | cons b w ih =>
    have hb := hw b (by simp)
    rw [List.cons_append, isSound_ascii_cons ⟨by omega, by omega⟩]
    exact ih fun b hb => hw b (by simp [hb])

theorem isSound_escapeRune (r : Rune) (t : Text) : isSound (escapeRune r ++ t) = isSound t := by
  rcases escapeRune_cases r with ⟨c, rfl, he, hp, -, -⟩ | ⟨mark, he, h⟩
  · obtain ⟨h0, -, hm⟩ := toNat_ne_of_isPrintable hp
    rw [he, isSound, runes_encode_append, List.all_cons]
    simp [h0, hm, isSound]
  · rw [he, List.cons_append, isSound_ascii_cons (by decide), isSound_plain_append h.plain]

theorem isSound_quoted (s : Text) : isSound (quoted s) = true := by
  have hall : ∀ rs : List Rune, isSound (rs.flatMap escapeRune ++ [quote]) = true := by
    intro rs
    induction rs with
    | nil => decide
    | cons r rs ih => rw [List.flatMap_cons, List.append_assoc, isSound_escapeRune, ih]
  rw [quoted, isSound_ascii_cons (by decide), hall]

theorem startsWith_cons_of_ne {a b : UInt8} (h : b ≠ a) (s p : Text) :
    startsWith (a :: s) (b :: p) = false := by
  simp [startsWith, cutPrefix?, h]

theorem not_startsWith_comment {c : UInt8} (h : c ≠ slash) (rest : Text) :
    ¬ startsWith (c :: rest) (utf8 "//") = true ∧ ¬ startsWith (c :: rest) (utf8 "/*") = true := by
  have hslash : startsWith (c :: rest) (utf8 "//") = false :=
    startsWith_cons_of_ne (Ne.symm h) rest [slash]
  have hstar : startsWith (c :: rest) (utf8 "/*") = false :=
    startsWith_cons_of_ne (Ne.symm h) rest [asterisk]
  simp [hslash, hstar]

theorem not_startsNumber {c : UInt8} (hd : Ascii.isDigit c = false) (hdot : c ≠ dot) (rest : Text) :
    ¬ (Ascii.isDigit c || (c = dot && (rest.head?.any Ascii.isDigit))) = true := by
  simp [hd, hdot]

theorem read_quote {fuel : Nat} {ends : Bool} {body after : Text} {count : Nat}
    (h : quotedEnd? quote 0 0 body = some (after, count)) {lit : Text}
    (hlit : (quote :: body).take ((quote :: body).length - after.length) = lit)
    (hs : isSound lit = true) :
    read (fuel + 1) ends (quote :: body) = .string lit :: read fuel true after := by
  have hstart : (firstRune? (quote :: body)).any isNameStart = false := by
    rw [firstRune?, firstChar?_ascii (by decide)]
    decide +kernel
  obtain ⟨hslash, hstar⟩ := not_startsWith_comment (by decide : quote ≠ slash) body
  rw [read]
  dsimp only
  rw [if_neg (by decide), if_neg (by decide), if_neg hslash, if_neg hstar, hstart,
    if_neg (by decide), if_neg (not_startsNumber rfl (by decide) body), if_pos rfl, h]
  dsimp only
  rw [hlit, sound, if_pos hs]
  rfl

theorem read_quoted (fuel : Nat) (ends : Bool) (s rest : Text) :
    read (fuel + 1) ends (quoted s ++ rest) = .string (quoted s) :: read fuel true rest := by
  have hend : quotedEnd? quote 0 0 ((runes s).flatMap escapeRune ++ [quote] ++ rest) =
      some (rest, (runes s).length) := by
    simpa using quotedEnd?_quoted s rest
  have htake : (quoted s ++ rest).take ((quoted s ++ rest).length - rest.length) = quoted s := by
    rw [List.length_append, Nat.add_sub_cancel, List.take_left]
  exact read_quote hend htake (isSound_quoted s)

end Lexeme

end Stencil
