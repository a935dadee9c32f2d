import Stencil.Proofs.Text.Classes
import Stencil.Proofs.Unit.Lexing

namespace Stencil.Name

open Text

def isIdentifier (s : Text) : Bool :=
  (runes s).head?.any Lexeme.isNameStart && (runes s).tail.all Lexeme.isNamePart

def HasNameParts (s : Text) : Prop :=
  s ≠ [] ∧ ∀ r ∈ runes s, Lexeme.isNamePart r = true

def isKept (code : Nat) : Bool :=
  Text.isLetter code || Text.isDigit code

def opensForeign (name : Text) : Bool :=
  (((runes name).map Rune.code).find? isKept).any fun c => Text.isDigit c && 0x80 ≤ c

def spell (codes : List Nat) : Text :=
  codes.flatMap encode

section

variable {c : Nat} {codes : List Nat}

theorem spell_cons (c : Nat) (codes : List Nat) : spell (c :: codes) = encode c ++ spell codes :=
  List.flatMap_cons

theorem spell_append (codes more : List Nat) : spell (codes ++ more) = spell codes ++ spell more :=
  List.flatMap_append

theorem encode_ne_nil (c : Nat) : encode c ≠ [] := by
  by_cases h : c.isValidChar
  · rw [encode, dif_pos h]
    exact encodeChar_ne_nil _
  · rw [encode, dif_neg h]
    exact encodeChar_ne_nil _

theorem isKept_cases (h : isKept c = true) : Text.isLetter c = true ∨ Text.isDigit c = true :=
  (Bool.or_eq_true _ _).mp h

theorem isKept_ascii (hc : c < 0x80) :
    isKept c = Range.covers [(0x41, 0x5A), (0x61, 0x7A), (0x30, 0x39)] c := by
  obtain ⟨hl, hd⟩ := Lexeme.isLetter_isDigit_ascii hc
  rw [isKept, hl, hd]
  simp [Range.covers, Bool.or_assoc]

theorem isValidChar_of_isKept (h : isKept c = true) : c.isValidChar :=
  (isKept_cases h).elim isValidChar_of_isLetter isValidChar_of_isDigit

theorem toNat_ofNat_of_isKept (h : isKept c = true) : (Char.ofNat c).toNat = c := by
  have hc := isValidChar_of_isKept h
  simp only [Nat.isValidChar] at hc
  exact toNat_ofNat_of_bounds (by omega) (by omega)

theorem encode_of_isKept (h : isKept c = true) :
    encode c = String.utf8EncodeChar (Char.ofNat c) := by
  rw [← encode_toNat, toNat_ofNat_of_isKept h]

theorem runes_spell (h : ∀ c ∈ codes, isKept c = true) :
    runes (spell codes) = codes.map fun c => .char (Char.ofNat c) := by
  induction codes with
  | nil => rfl
  | cons c codes ih =>
    obtain ⟨hc, hcodes⟩ := List.forall_mem_cons.mp h
    rw [spell_cons, encode_of_isKept hc, runes_encode_append, ih hcodes, List.map_cons]

theorem mapRunes_spell (f : Nat → Nat) (h : ∀ c ∈ codes, isKept c = true) :
    mapRunes f (spell codes) = spell (codes.map f) := by
  rw [mapRunes, runes_spell h, spell, List.flatMap_map, List.flatMap_map]
  refine congrArg List.flatten (List.map_congr_left fun c hc => ?_)
  rw [Rune.code, toNat_ofNat_of_isKept (h c hc)]

theorem spell_ne_nil (h : codes ≠ []) : spell codes ≠ [] := by
  obtain ⟨c, codes, rfl⟩ := List.exists_cons_of_ne_nil h
  rw [spell_cons]
  exact List.append_ne_nil_of_left_ne_nil (encode_ne_nil c) _

theorem isNameStart_of_isKept (h : isKept c = true) :
    Lexeme.isNameStart (.char (Char.ofNat c)) = Text.isLetter c := by
  have hne : Char.ofNat c ≠ '_' := by
    intro heq
    have hcode := toNat_ofNat_of_isKept h
    rw [heq] at hcode
    rw [← hcode, isKept_ascii (by decide)] at h
    cases h
  simp [Lexeme.isNameStart, toNat_ofNat_of_isKept h, hne]

theorem isNamePart_of_isKept (h : isKept c = true) :
    Lexeme.isNamePart (.char (Char.ofNat c)) = true := by
  rw [Lexeme.isNamePart, isNameStart_of_isKept h]
  simpa only [toNat_ofNat_of_isKept h, isKept] using h

theorem hasNameParts_spell (h : ∀ c ∈ codes, isKept c = true) (hne : codes ≠ []) :
    HasNameParts (spell codes) := by
  refine ⟨spell_ne_nil hne, ?_⟩
  rw [runes_spell h]
  exact List.forall_mem_map.mpr fun c hc => isNamePart_of_isKept (h c hc)

theorem isIdentifier_spell (h : ∀ c ∈ codes, isKept c = true) :
    isIdentifier (spell codes) = codes.head?.any Text.isLetter := by
  rw [isIdentifier, runes_spell h]
  cases codes with
  | nil => rfl
  | cons c codes =>
    obtain ⟨hc, hcodes⟩ := List.forall_mem_cons.mp h
    have hrest : (codes.map fun c => Rune.char (Char.ofNat c)).all Lexeme.isNamePart = true :=
      List.all_eq_true.mpr (List.forall_mem_map.mpr fun c hc => isNamePart_of_isKept (hcodes c hc))
    rw [List.map_cons, List.head?_cons, Option.any_some, List.tail_cons, hrest, Bool.and_true,
      isNameStart_of_isKept hc, List.head?_cons, Option.any_some]

end

def exportCodes (start : Bool) : List Rune → List Nat
  | [] => []
  | r :: rest =>
    if isBreak r.code then exportCodes true rest
    else if isKept r.code then
      (if start then upper r.code else r.code) :: exportCodes false rest
    else exportCodes start rest

def exportedCodes (name : Text) : List Nat :=
  let codes := exportCodes true (runes name)
  if codes.head?.all fun c => Text.isDigit c && c < 0x80 then 0x54 :: codes else codes

theorem exportRunes_eq_spell (start : Bool) (rs : List Rune) :
    exportRunes start rs = spell (exportCodes start rs) := by
  induction rs generalizing start with
  | nil => rfl
  | cons r rest ih =>
    have hdropped : (!Text.isLetter r.code && !Text.isDigit r.code) = !isKept r.code :=
      (Bool.not_or _ _).symm
    rw [exportRunes, exportCodes, hdropped]
    by_cases hbreak : isBreak r.code = true
    · rw [if_pos hbreak, if_pos hbreak, ih]
    · rw [if_neg hbreak, if_neg hbreak]
      by_cases hkept : isKept r.code = true
      · rw [if_neg (by simp [hkept]), if_pos hkept, ih]
        rfl
      · rw [if_pos (by simp [hkept]), if_neg hkept, ih]

theorem isKept_map {f : Nat → Nat} (hf : KeepsClasses f) {c : Nat} (h : isKept c = true) :
    isKept (f c) = true := by
  rcases isKept_cases h with hc | hc
  · simp [isKept, hf.letter hc]
  · rwa [hf.digit hc]

theorem isLetter_map {f : Nat → Nat} (hf : KeepsClasses f) {c : Nat} (h : isKept c = true) :
    Text.isLetter (f c) = Text.isLetter c := by
  rcases isKept_cases h with hc | hc
  · rw [hf.letter hc, hc]
  · rw [hf.digit hc]

theorem not_isBreak_of_isKept {c : Nat} (h : isKept c = true) : isBreak c = false := by
  have hblank : isBlank c = false :=
    (isKept_cases h).elim not_isBlank_of_isLetter not_isBlank_of_isDigit
  have hmark : ∀ m < 0x80, Range.covers [(0x41, 0x5A), (0x61, 0x7A), (0x30, 0x39)] m = false →
      c ≠ m := by
    rintro m hm hnot rfl
    rw [isKept_ascii hm, hnot] at h
    cases h
  simp [isBreak, hblank, hmark 0x5F (by decide) rfl, hmark 0x2D (by decide) rfl,
    hmark 0x2E (by decide) rfl]

theorem isKept_exportCodes (start : Bool) (rs : List Rune) :
    ∀ c ∈ exportCodes start rs, isKept c = true := by
  induction rs generalizing start with
  | nil => simp [exportCodes]
  | cons r rest ih =>
    rw [exportCodes]
    split
    · exact ih true
    · split
      next hkept =>
        refine List.forall_mem_cons.mpr ⟨?_, ih false⟩
        split
        · exact isKept_map keepsClasses_upper hkept
        · exact hkept
      · exact ih start

theorem head?_exportCodes (rs : List Rune) :
    (exportCodes true rs).head? = ((rs.map Rune.code).find? isKept).map upper := by
  induction rs with
  | nil => rfl
  | cons r rest ih =>
    rw [exportCodes, List.map_cons, List.find?_cons]
    cases hkept : isKept r.code with
    | true => simp [not_isBreak_of_isKept hkept]
    | false => simpa using ih

theorem isDigit_head_encode {c : Nat} (h : isKept c = true) {b : UInt8} {bytes : Text}
    (hb : encode c = b :: bytes) : Ascii.isDigit b = (Text.isDigit c && c < 0x80) := by
  rw [encode_of_isKept h] at hb
  have hcode := toNat_ofNat_of_isKept h
  by_cases hc : c < 0x80
  · rw [encodeChar_of_toNat hcode hc] at hb
    cases hb
    have hbyte : (UInt8.ofNat c).toNat = c := by
      rw [UInt8.toNat_ofNat']
      omega
    simp [Ascii.isDigit, UInt8.le_iff_toNat_le, hbyte, (Lexeme.isLetter_isDigit_ascii hc).2,
      Range.covers, hc]
  · have hhigh : ¬ b.toNat < 0x80 := by
      intro hlow
      have := toNat_of_mem_encodeChar (c := Char.ofNat c) (hb ▸ List.mem_cons_self) hlow
      omega
    have hnot : Ascii.isDigit b = false := by
      simp only [Ascii.isDigit, Bool.and_eq_false_iff, decide_eq_false_iff_not,
        UInt8.le_iff_toNat_le, UInt8.reduceToNat]
      omega
    simp [hnot, hc]

theorem exported_eq_spell (name : Text) : exported name = spell (exportedCodes name) := by
  have hkept := isKept_exportCodes true (runes name)
  rw [exported, exportedCodes, exportRunes_eq_spell]
  have hcapital : encode 0x54 = utf8 "T" := rfl
  cases hcodes : exportCodes true (runes name) with
  | nil => exact hcapital.symm
  | cons c codes =>
    rw [hcodes] at hkept
    obtain ⟨b, bytes, hb⟩ := List.exists_cons_of_ne_nil (encode_ne_nil c)
    have hfirst := isDigit_head_encode (hkept c List.mem_cons_self) hb
    have hspell : spell (c :: codes) = b :: (bytes ++ spell codes) := by
      rw [spell_cons, hb, List.cons_append]
    rw [hspell, List.head?_cons, Option.all_some, ← hfirst]
    dsimp only
    split
    · rw [spell_cons, hspell, hcapital]
    · rw [hspell]

theorem isKept_exportedCodes (name : Text) : ∀ c ∈ exportedCodes name, isKept c = true := by
  have hkept := isKept_exportCodes true (runes name)
  rw [exportedCodes]
  split
  · exact List.forall_mem_cons.mpr ⟨isKept_ascii (by decide), hkept⟩
  · exact hkept

theorem exportedCodes_ne_nil (name : Text) : exportedCodes name ≠ [] := by
  rw [exportedCodes]
  split
  next => simp
  next h =>
    intro hnil
    simp [hnil] at h

theorem any_isLetter_exportedCodes (name : Text) :
    (exportedCodes name).head?.any Text.isLetter = !opensForeign name := by
  have hcapital : Text.isLetter 0x54 = true := (Lexeme.isLetter_isDigit_ascii (by decide)).1
  have hhead := head?_exportCodes (runes name)
  rw [exportedCodes, opensForeign]
  cases hfirst : ((runes name).map Rune.code).find? isKept with
  | none => simp [hhead, hfirst, hcapital]
  | some c =>
    rw [hfirst, Option.map_some] at hhead
    rcases isKept_cases (List.find?_some hfirst) with hletter | hdigit
    · have hupper := keepsClasses_upper.letter hletter
      simp [hhead, hupper, not_isDigit_of_isLetter hupper, not_isDigit_of_isLetter hletter]
    -- A digit has no capital, so it is tested itself: below 128 it gets the `T`.
    · rw [keepsClasses_upper.digit hdigit] at hhead
      by_cases hlow : c < 0x80
      · simp [hhead, hdigit, hlow, hcapital]
      · simp [hhead, hdigit, hlow, Nat.le_of_not_lt hlow, not_isLetter_of_isDigit hdigit]

def packageStem (dir module : Text) : Text :=
  if dir = [Ascii.dot] || dir = [Ascii.slash] then module else Path.base dir

theorem toLower_exported (stem : Text) :
    toLower (exported stem) = spell ((exportedCodes stem).map lower) := by
  rw [exported_eq_spell, toLower, mapRunes_spell lower (isKept_exportedCodes stem)]

theorem packageOf_eq (dir module : Text) :
    packageOf dir module =
      if keywords.contains (toLower (exported (packageStem dir module))) then
        toLower (exported (packageStem dir module)) ++ utf8 "pkg"
      else toLower (exported (packageStem dir module)) :=
  rfl

theorem packageOf_eq_spell (dir module : Text) :
    ∃ ending, (∀ c ∈ ending, isKept c = true) ∧
      packageOf dir module =
        spell ((exportedCodes (packageStem dir module)).map lower ++ ending) := by
  rw [packageOf_eq, toLower_exported]
  split
  · have hending : spell [0x70, 0x6B, 0x67] = utf8 "pkg" := rfl
    have hkept : ∀ c ∈ [0x70, 0x6B, 0x67], isKept c = true := by
      simp [isKept_ascii, Range.covers]
    exact ⟨[0x70, 0x6B, 0x67], hkept, by rw [spell_append, hending]⟩
  · exact ⟨[], by simp, by rw [List.append_nil]⟩

theorem packageOf_not_keyword (dir module : Text) : packageOf dir module ∉ keywords := by
  have hlonger : ∀ k ∈ keywords, k ++ utf8 "pkg" ∉ keywords := by decide
  rw [packageOf_eq]
  split
  next h => exact hlonger _ (List.contains_iff_mem.mp h)
  next h => exact fun hmem => h (List.contains_iff_mem.mpr hmem)

theorem isIdentifier_exported (name : Text) :
    isIdentifier (exported name) = !opensForeign name := by
  rw [exported_eq_spell, isIdentifier_spell (isKept_exportedCodes name),
    any_isLetter_exportedCodes]

theorem hasNameParts_exported (name : Text) : HasNameParts (exported name) := by
  rw [exported_eq_spell]
  exact hasNameParts_spell (isKept_exportedCodes name) (exportedCodes_ne_nil name)

theorem lowered_name (stem : Text) {ending : List Nat} (h : ∀ c ∈ ending, isKept c = true) :
    HasNameParts (spell ((exportedCodes stem).map lower ++ ending)) ∧
      isIdentifier (spell ((exportedCodes stem).map lower ++ ending)) = !opensForeign stem := by
  have hkept := isKept_exportedCodes stem
  have hletter := any_isLetter_exportedCodes stem
  obtain ⟨c, codes, hcodes⟩ := List.exists_cons_of_ne_nil (exportedCodes_ne_nil stem)
  rw [hcodes] at hkept hletter ⊢
  have hall : ∀ d ∈ (c :: codes).map lower ++ ending, isKept d = true :=
    List.forall_mem_append.mpr
      ⟨List.forall_mem_map.mpr fun d hd => isKept_map keepsClasses_lower (hkept d hd), h⟩
  refine ⟨hasNameParts_spell hall (by simp), ?_⟩
  have hsame := isLetter_map keepsClasses_lower (hkept c List.mem_cons_self)
  rw [isIdentifier_spell hall, ← hletter, List.map_cons, List.cons_append, List.head?_cons,
    List.head?_cons, Option.any_some, Option.any_some, hsame]

/-- Exported names and package names hold nothing that an identifier cannot hold, and no package
name is a keyword. Either is an identifier exactly where the first letter or digit of what it is
named after is not a decimal digit beyond ASCII. -/
theorem generated_names_identifier_iff (name dir module : Text) :
    (HasNameParts (exported name) ∧
      (isIdentifier (exported name) = true ↔ opensForeign name = false)) ∧
    (HasNameParts (packageOf dir module) ∧
      (isIdentifier (packageOf dir module) = true ↔
        opensForeign (packageStem dir module) = false)) ∧
    packageOf dir module ∉ keywords := by
  refine ⟨⟨hasNameParts_exported name, ?_⟩, ?_, packageOf_not_keyword dir module⟩
  · rw [isIdentifier_exported, Bool.not_eq_true']
  · obtain ⟨ending, hending, hspell⟩ := packageOf_eq_spell dir module
    obtain ⟨hparts, hidentifier⟩ := lowered_name (packageStem dir module) hending
    rw [hspell, hidentifier, Bool.not_eq_true']
    exact ⟨hparts, Iff.rfl⟩

/-- An Arabic-Indic three is a decimal digit and no ASCII one, so it stays in front. -/
theorem foreign_digit_not_identifier :
    isIdentifier (exported (utf8 "\u0663x")) = false ∧
      isIdentifier (packageOf (utf8 "views/\u0663x") (utf8 "page")) = false := by
  decide +kernel

end Stencil.Name
