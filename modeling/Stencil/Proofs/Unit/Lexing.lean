import Stencil.Proofs.Unit.Literal

namespace Stencil.Lexeme

open Ascii Text

theorem covers_filter {table : List Range} {bound c : Nat} (hc : c < bound) :
    Range.covers (table.filter (·.1 < bound)) c = Range.covers table c := by
  simp only [Range.covers, List.any_filter]
  congr 1
  funext r
  by_cases h : r.1 < bound
  · simp [h]
  · simp [h, show ¬ r.1 ≤ c by omega]

theorem isLetter_isDigit_ascii {c : Nat} (hc : c < 0x80) :
    Text.isLetter c = Range.covers [(0x41, 0x5A), (0x61, 0x7A)] c ∧
      Text.isDigit c = Range.covers [(0x30, 0x39)] c := by
  have hl : letterRanges.filter (·.1 < 0x80) = [(0x41, 0x5A), (0x61, 0x7A)] := by decide +kernel
  have hd : digitRanges.filter (·.1 < 0x80) = [(0x30, 0x39)] := by decide +kernel
  constructor
  · rw [Text.isLetter, ← covers_filter hc, hl]
  · rw [Text.isDigit, ← covers_filter hc, hd]

def isWordByte (b : UInt8) : Bool :=
  Ascii.isAlphanumeric b || b == underscore

def isWord : Text → Bool
  | [] => false
  | b :: rest => isWordByte b && !Ascii.isDigit b && rest.all isWordByte

theorem isName_ascii (b : UInt8) (hb : b.toNat < 0x80) :
    isNamePart (.char (Char.ofNat b.toNat)) = isWordByte b ∧
      isNameStart (.char (Char.ofNat b.toNat)) = (isWordByte b && !Ascii.isDigit b) := by
  have hc : (Char.ofNat b.toNat).toNat = b.toNat := toNat_ofNat_of_bounds (by omega) (by omega)
  obtain ⟨hl, hd⟩ := isLetter_isDigit_ascii hb
  simp only [isNamePart, isNameStart, hc, hl, hd]
  have all : ∀ n : Fin 0x80,
      ((Range.covers [(0x41, 0x5A), (0x61, 0x7A)] n.val || decide (Char.ofNat n.val = '_')) ||
        Range.covers [(0x30, 0x39)] n.val) = isWordByte (UInt8.ofNat n.val) ∧
      (Range.covers [(0x41, 0x5A), (0x61, 0x7A)] n.val || decide (Char.ofNat n.val = '_')) =
        (isWordByte (UInt8.ofNat n.val) && !Ascii.isDigit (UInt8.ofNat n.val)) := by
    decide
  have h := all ⟨b.toNat, hb⟩
  simpa only [UInt8.ofNat_toNat] using h

theorem forall_byte {p : UInt8 → Prop} (h : ∀ n : Fin 256, p (UInt8.ofNat n.val)) (b : UInt8) :
    p b := by
  have hb := h ⟨b.toNat, b.toNat_lt⟩
  rwa [UInt8.ofNat_toNat] at hb

set_option maxRecDepth 4096 in
theorem toNat_lt_of_isWordByte {b : UInt8} (h : isWordByte b = true) : b.toNat < 0x80 :=
  forall_byte (p := fun b => isWordByte b = true → b.toNat < 0x80) (by decide) b h

def Stops : Text → Prop
  | [] => True
  | b :: _ => b.toNat < 0x80 ∧ isWordByte b = false

theorem stops_append {s : Text} (h : s.head?.any (fun b => b < 0x80 && !isWordByte b) = true)
    (rest : Text) : Stops (s ++ rest) := by
  cases s with
  | nil => cases h
  | cons b s =>
    simp only [List.head?_cons, Option.any_some, Bool.and_eq_true, decide_eq_true_eq,
      Bool.not_eq_true'] at h
    exact ⟨UInt8.lt_iff_toNat_lt.mp h.1, h.2⟩

theorem takeAfter_of_stops {rest : Text} (h : Stops rest) : takeAfter isNamePart 0 rest = [] := by
  cases rest with
  | nil => rfl
  | cons b rest =>
    rw [takeAfter, firstChar?_ascii h.1]
    simp [(isName_ascii b h.1).1, h.2]

theorem nameAt_append {w rest : Text} (hw : w.all isWordByte = true) (h : Stops rest) :
    nameAt (w ++ rest) = w := by
  induction w with
  | nil => exact takeAfter_of_stops h
  | cons b w ih =>
    rw [List.all_cons, Bool.and_eq_true] at hw
    have hb := toNat_lt_of_isWordByte hw.1
    have hread : nameAt (b :: (w ++ rest)) = b :: nameAt (w ++ rest) := by
      rw [nameAt, takeRunesWhile, takeAfter, firstChar?_ascii hb]
      simp [(isName_ascii b hb).1, hw.1, nameAt, takeRunesWhile]
    rw [List.cons_append, hread, ih hw.2]

def ofWord (w : Text) : Lexeme :=
  if Name.keywords.contains w then .keyword w else .name w

theorem read_word {w : Text} (hw : isWord w = true) {rest : Text} (h : Stops rest) (fuel : Nat)
    (ends : Bool) :
    read (fuel + 1) ends (w ++ rest) = ofWord w :: read fuel (ofWord w).endsStatement rest := by
  cases w with
  | nil => cases hw
  | cons b w =>
    simp only [isWord, Bool.and_eq_true] at hw
    have hb := toNat_lt_of_isWordByte hw.1.1
    have hname : nameAt (b :: (w ++ rest)) = b :: w := by
      rw [← List.cons_append]
      exact nameAt_append (by simp [hw.1.1, hw.2]) h
    have hstart : (firstRune? (b :: (w ++ rest))).any isNameStart = true := by
      rw [firstRune?, firstChar?_ascii hb]
      simp [(isName_ascii b hb).2, hw.1]
    have hbyte : ∀ c : UInt8, isWordByte c = false → b ≠ c := by
      rintro c hc rfl
      simp [hc] at hw
    obtain ⟨hslash, hstar⟩ := not_startsWith_comment (hbyte slash rfl) (w ++ rest)
    have hbad : ofWord (b :: w) ≠ .bad := by
      unfold ofWord
      split <;> simp
    rw [List.cons_append, read]
    dsimp only
    rw [if_neg (hbyte _ rfl),
      if_neg (by simp [hbyte space rfl, hbyte tab rfl, hbyte carriageReturn rfl]), if_neg hslash,
      if_neg hstar, if_pos hstart, hname]
    change (if ofWord (b :: w) = .bad then _ else _ :: read fuel _ ((b :: w ++ rest).drop _)) = _
    rw [if_neg hbad, List.drop_left]
    rfl

def isMarkByte (b : UInt8) : Bool :=
  (utf8 "()[]\x7b\x7d,.:+*=").contains b

theorem startsWith_iff {s p : Text} : startsWith s p = true ↔ p <+: s := by
  induction p generalizing s with
  | nil => simp [startsWith, cutPrefix?]
  | cons a p ih =>
    cases s with
    | nil => simp [startsWith, cutPrefix?]
    | cons b s =>
      rw [List.cons_prefix_cons, ← ih]
      by_cases h : a = b <;> simp [startsWith, cutPrefix?, h]

/-- No longer mark begins where `m` stands, when the byte `next` follows it, or whatever follows. -/
def standsBefore (m : Text) (next : Option UInt8) : Bool :=
  marks.find? (fun k => startsWith m k || startsWith k (m ++ next.toList)) = some m

theorem find?_marks {m : Text} {next : Option UInt8} (h : standsBefore m next = true) {rest : Text}
    (hnext : ∀ b ∈ next, rest.head? = some b) :
    marks.find? (startsWith (m ++ rest)) = some m := by
  simp only [standsBefore, decide_eq_true_eq] at h
  obtain ⟨-, before, after, hmarks, hbefore⟩ := List.find?_eq_some_iff_append.mp h
  refine List.find?_eq_some_iff_append.mpr ⟨?_, before, after, hmarks, ?_⟩
  · exact startsWith_iff.mpr (List.prefix_append _ _)
  · intro k hk
    have hk := hbefore k hk
    simp only [Bool.not_eq_true', Bool.eq_false_iff, Ne, Bool.or_eq_true, not_or, startsWith_iff]
      at hk ⊢
    intro hp
    cases next with
    | none =>
      rw [Option.toList_none, List.append_nil] at hk
      rcases List.prefix_or_prefix_of_prefix hp (List.prefix_append m rest) with hp | hp
      · exact hk.1 hp
      · exact hk.2 hp
    | some b =>
      obtain ⟨rest, rfl⟩ : ∃ tail, rest = b :: tail := by
        cases rest with
        | nil => cases hnext b rfl
        | cons c tail => cases hnext b rfl; exact ⟨tail, rfl⟩
      rw [List.append_cons] at hp
      rcases List.prefix_or_prefix_of_prefix hp (List.prefix_append (m ++ [b]) rest) with hp | hp
      · rcases List.prefix_concat_iff.mp hp with hp | hp
        · exact hk.2 (hp ▸ List.prefix_rfl)
        · exact hk.1 hp
      · exact hk.2 hp

theorem read_mark {m : Text} {next : Option UInt8} (hm : m.head?.any isMarkByte = true)
    (h : standsBefore m next = true) {rest : Text} (hnext : ∀ b ∈ next, rest.head? = some b)
    (hdot : m.head? = some dot → m = [dot] ∧ next.any (!Ascii.isDigit ·) = true) (fuel : Nat)
    (ends : Bool) :
    read (fuel + 1) ends (m ++ rest) = .mark m :: read fuel (mark m).endsStatement rest := by
  cases m with
  | nil => cases hm
  | cons b m =>
    have all : ∀ b ∈ utf8 "()[]\x7b\x7d,.:+*=",
        b.toNat < 0x80 ∧ isWordByte b = false ∧ b ≠ newline ∧
        ¬ (decide (b = space) || decide (b = tab) || decide (b = carriageReturn)) = true ∧
        b ≠ slash ∧ Ascii.isDigit b = false ∧ b ≠ quote ∧ b ≠ apostrophe ∧ b ≠ backquote := by
      decide +kernel
    have hb : b ∈ utf8 "()[]\x7b\x7d,.:+*=" := by simpa [isMarkByte] using hm
    obtain ⟨hascii, hword, hline, hblank, hs, hdigit, hq, ha, hbq⟩ := all b hb
    obtain ⟨hslash, hstar⟩ := not_startsWith_comment hs (m ++ rest)
    have hstart : ¬ (firstRune? (b :: (m ++ rest))).any isNameStart = true := by
      rw [firstRune?, firstChar?_ascii hascii]
      simp [(isName_ascii b hascii).2, hword]
    have hnumber : ¬ (Ascii.isDigit b || (b = dot && ((m ++ rest).head?.any Ascii.isDigit))) := by
      intro hn
      simp only [hdigit, Bool.false_or, Bool.and_eq_true, decide_eq_true_eq] at hn
      obtain ⟨rfl, hn⟩ := hn
      obtain ⟨hm, hnext'⟩ := hdot rfl
      cases hm
      cases next with
      | none => cases hnext'
      | some c =>
        rw [List.nil_append, hnext c rfl] at hn
        simp at hn hnext'
        simp [hn] at hnext'
    have hfind := find?_marks h hnext
    rw [List.cons_append] at hfind ⊢
    rw [read]
    dsimp only
    rw [if_neg hline, if_neg hblank, if_neg hslash, if_neg hstar, if_neg hstart, if_neg hnumber,
      if_neg hq, if_neg ha, if_neg hbq, hfind]
    dsimp only
    rw [if_neg (by simp), ← List.cons_append, List.drop_left]

/-- Before `rest`, the piece `s` is read as the lexemes `ts`. The flags say whether a statement may
end before the piece and after it. -/
def Reads (before : Bool) (s : Text) (ts : List Lexeme) (after : Bool) (rest : Text) : Prop :=
  ∃ n ≤ s.length, ∀ fuel, read (fuel + n) before (s ++ rest) = ts ++ read fuel after rest

theorem Reads.append {before between after : Bool} {s s' : Text} {ts ts' : List Lexeme}
    {rest : Text} (h : Reads before s ts between (s' ++ rest))
    (h' : Reads between s' ts' after rest) : Reads before (s ++ s') (ts ++ ts') after rest := by
  obtain ⟨n, hn, h⟩ := h
  obtain ⟨n', hn', h'⟩ := h'
  refine ⟨n' + n, by rw [List.length_append]; omega, fun fuel => ?_⟩
  rw [List.append_assoc, ← Nat.add_assoc, h, h', List.append_assoc]

theorem reads_nil (before : Bool) (rest : Text) : Reads before [] [] before rest :=
  ⟨0, Nat.le_refl _, fun _ => rfl⟩

theorem reads_quoted (before : Bool) (s rest : Text) :
    Reads before (quoted s) [.string (quoted s)] true rest :=
  ⟨1, by simp [quoted], fun fuel => read_quoted fuel before s rest⟩

theorem reads_word {w : Text} (hw : isWord w = true) {rest : Text} (h : Stops rest)
    (before : Bool) : Reads before w [ofWord w] (ofWord w).endsStatement rest := by
  refine ⟨1, ?_, fun fuel => read_word hw h fuel before⟩
  cases w with
  | nil => cases hw
  | cons => simp

inductive Piece where
  | word (w : Text)
  | mark (m : Text)
  | space
  | line

def Piece.text : Piece → Text
  | .word w => w
  | .mark m => m
  | .space => [Ascii.space]
  | .line => [newline]

def Piece.fits (next : Option UInt8) : Piece → Bool
  | .word w => isWord w && next.any fun b => b < 0x80 && !isWordByte b
  | .mark m =>
    m.head?.any isMarkByte && standsBefore m next &&
      (m.head? ≠ some dot || m = [dot] && next.any (!Ascii.isDigit ·))
  | .space | .line => true

def fitting : List Piece → Bool
  | [] => true
  | p :: ps => p.fits (ps.flatMap Piece.text).head? && fitting ps

def lexemesOf : Bool → List Piece → List Lexeme
  | _, [] => []
  | _, .word w :: ps => ofWord w :: lexemesOf (ofWord w).endsStatement ps
  | _, .mark m :: ps => .mark m :: lexemesOf (mark m).endsStatement ps
  | ends, .space :: ps => lexemesOf ends ps
  | ends, .line :: ps => if ends then semicolonMark :: lexemesOf false ps else lexemesOf false ps

def endsAfter : Bool → List Piece → Bool
  | ends, [] => ends
  | _, .word w :: ps => endsAfter (ofWord w).endsStatement ps
  | _, .mark m :: ps => endsAfter (mark m).endsStatement ps
  | ends, .space :: ps => endsAfter ends ps
  | _, .line :: ps => endsAfter false ps

theorem reads_space (before : Bool) (rest : Text) : Reads before [Ascii.space] [] before rest :=
  ⟨1, Nat.le_refl _, fun _ => rfl⟩

theorem reads_line (before : Bool) (rest : Text) :
    Reads before [newline] (if before then [semicolonMark] else []) false rest := by
  refine ⟨1, Nat.le_refl _, fun fuel => ?_⟩
  cases before <;> rfl

theorem reads_pieces {ps : List Piece} (h : fitting ps = true) (before : Bool) (rest : Text) :
    Reads before (ps.flatMap Piece.text) (lexemesOf before ps) (endsAfter before ps) rest := by
  induction ps generalizing before with
  | nil => exact reads_nil before rest
  | cons p ps ih =>
    rw [fitting, Bool.and_eq_true] at h
    have ih := fun before => ih h.2 before
    have hhead : ∀ b ∈ (ps.flatMap Piece.text).head?,
        (ps.flatMap Piece.text ++ rest).head? = some b := by
      intro b hb
      rw [List.head?_append, hb, Option.some_or]
    have hfits := h.1
    cases p with
    | word w =>
      rw [Piece.fits, Bool.and_eq_true, Option.any_eq_true] at hfits
      obtain ⟨hw, b, hb, hstop⟩ := hfits
      have hrest : Stops (ps.flatMap Piece.text ++ rest) := by
        refine stops_append ?_ rest
        rw [hb]
        exact hstop
      exact (reads_word hw hrest before).append (ih _)
    | mark m =>
      -- The first byte of the next piece decides whether a longer mark begins here.
      simp only [Piece.fits, Bool.and_eq_true] at hfits
      obtain ⟨⟨hm, hstands⟩, hdot⟩ := hfits
      have hread : Reads before m [.mark m] (mark m).endsStatement
          (ps.flatMap Piece.text ++ rest) := by
        refine ⟨1, ?_, fun fuel => read_mark hm hstands hhead ?_ fuel before⟩
        · cases m with
          | nil => cases hm
          | cons => simp
        · intro h
          simpa [h] using hdot
      exact hread.append (ih _)
    | space => exact (reads_space before _).append (ih before)
    | line =>
      have hline := (reads_line before _).append (ih false)
      cases before <;> exact hline

theorem reads_fixed (ps : List Piece) {before after : Bool} {s : Text} {ts : List Lexeme}
    (hs : ps.flatMap Piece.text = s) (hfit : fitting ps = true) (hts : lexemesOf before ps = ts)
    (hafter : endsAfter before ps = after) (rest : Text) : Reads before s ts after rest := by
  subst hs hts hafter
  exact reads_pieces hfit before rest

theorem numberAt_zero (rest : Text) :
    numberAt (48 :: Ascii.space :: rest) = (Ascii.space :: rest, true) := by
  have hlead : numberLead (48 :: Ascii.space :: rest) = (10, [], 48 :: Ascii.space :: rest) := rfl
  have hwhole : (48 :: Ascii.space :: rest).takeWhile (isDigitOf 10) = [48] := rfl
  have hdrop : (48 :: Ascii.space :: rest).drop [(48 : UInt8)].length = Ascii.space :: rest := rfl
  have hfraction : fractionAt 10 (Ascii.space :: rest) = ([], Ascii.space :: rest, false) := rfl
  have hlower : lowerAt (Ascii.space :: rest) = Ascii.space := rfl
  have hexponent : (decide (Ascii.space = 101) || decide (Ascii.space = 112)) = false := rfl
  simp only [numberAt, hlead, hwhole, hdrop, hfraction, hlower, hexponent, exponentAt]
  rfl

theorem reads_zero (before : Bool) (rest : Text) :
    Reads before (utf8 "0") [.number (utf8 "0")] true (Ascii.space :: rest) := by
  refine ⟨1, by decide, fun fuel => ?_⟩
  have hstart : ¬ (firstRune? (48 :: Ascii.space :: rest)).any isNameStart = true := by
    have hzero := (isName_ascii 48 (by decide)).2
    rw [firstRune?, firstChar?_ascii (by decide)]
    dsimp only [Option.any]
    rw [hzero]
    decide
  obtain ⟨hslash, hstar⟩ :=
    not_startsWith_comment (by decide : (48 : UInt8) ≠ slash) (Ascii.space :: rest)
  have hdigit : (Ascii.isDigit 48 ||
      (48 = dot && (Ascii.space :: rest).head?.any Ascii.isDigit)) = true := rfl
  have htake : (48 :: Ascii.space :: rest).take
      ((48 :: Ascii.space :: rest).length - (Ascii.space :: rest).length) = utf8 "0" := by
    rw [List.length_cons, Nat.add_sub_cancel_left]
    rfl
  change read (fuel + 1) before (48 :: Ascii.space :: rest) = _
  rw [read]
  dsimp only
  rw [if_neg (by decide), if_neg (by decide), if_neg hslash, if_neg hstar, if_neg hstart,
    if_pos hdigit, numberAt_zero]
  dsimp only
  rw [htake]
  rfl

theorem ofText_of_reads {s : Text} {ts : List Lexeme} (hs : s.head?.any (·.toNat < 0x80) = true)
    (h : Reads false s ts true []) : ofText s = ts ++ [semicolonMark] := by
  have hmark : cutPrefix? (encode 0xFEFF) s = none := by
    cases s with
    | nil => cases hs
    | cons b s =>
      have hb : (0xEF : UInt8) ≠ b := by
        rintro rfl
        cases hs
      have hhead : encode 0xFEFF = [0xEF, 0xBB, 0xBF] := by decide
      simp [hhead, cutPrefix?, hb]
  obtain ⟨n, hn, h⟩ := h
  have hfuel : s.length + 1 = s.length - n + 1 + n := by omega
  rw [ofText, hmark, Option.getD_none]
  have h := h (s.length - n + 1)
  rw [List.append_nil] at h
  rw [hfuel, h]
  rfl

end Stencil.Lexeme
