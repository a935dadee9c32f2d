import Stencil.Proofs.Template.Words
import Mathlib.Data.List.TakeWhile

namespace Stencil.Words

open Ascii

structure Bare (w : Text) : Prop where
  ne_nil : w ≠ []
  space_free : ∀ c ∈ w, isSpace c = false
  head : w.head? ≠ some quote

def Unclosed (s : Text) : Prop :=
  ∀ before after, s = before ++ quote :: after → before.getLast? = some backslash

structure Quotable (w : Text) : Prop where
  unclosed : Unclosed w
  head : w.head? ≠ some quote
  last : w.getLast? ≠ some backslash

inductive Piece where
  | blank (run : Text)
  | bare (w : Text)
  | quoted (w : Text)

namespace Piece

def text : Piece → Text
  | .blank run => run
  | .bare w => w
  | .quoted w => quote :: w ++ [quote]

def word? : Piece → Option Text
  | .blank _ => none
  | .bare w | .quoted w => some w

/-- Whether a piece reaches as far as it can where `rest` follows: white space to the next byte that
is none, a bare word to the next white space or the end, and a quoted word to the next quote without
a backslash before it. -/
def Fits (rest : Text) : Piece → Prop
  | .blank run => run ≠ [] ∧ (∀ c ∈ run, isSpace c = true) ∧ ∀ c ∈ rest.head?, isSpace c = false
  | .bare w => Bare w ∧ ∀ c ∈ rest.head?, isSpace c = true
  | .quoted w => Quotable w

def textOf (pieces : List Piece) : Text :=
  pieces.flatMap text

def wordsOf (pieces : List Piece) : List Text :=
  pieces.filterMap word?

def Lead (rest : Text) : List Piece → Prop
  | [] => True
  | p :: pieces => p.Fits (textOf pieces ++ rest) ∧ Lead rest pieces

end Piece

theorem isBare_iff (w : Text) : isBare w = true ↔ Bare w := by
  cases w with
  | nil => exact ⟨fun h => Bool.noConfusion h, fun h => absurd rfl h.ne_nil⟩
  | cons c w =>
    rw [isBare_cons]
    exact ⟨fun ⟨hc, hall⟩ => ⟨by simp, hall, by simpa using hc⟩,
      fun h => ⟨by simpa using h.head, h.space_free⟩⟩

def Escapes (previous : UInt8) : Text → Prop
  | [] => True
  | c :: rest => (c = quote → previous = backslash) ∧ Escapes c rest

theorem closes_iff_escapes {previous : UInt8} {w : Text} :
    Closes previous w ↔ Escapes previous w ∧ (previous :: w).getLast? ≠ some backslash := by
  induction w generalizing previous with
  | nil => simp [Closes, Escapes]
  | cons c w ih => simp [Closes, Escapes, ih, and_assoc]

theorem escapes_iff {previous : UInt8} {s : Text} :
    Escapes previous s ↔
      ∀ before after, s = before ++ quote :: after →
        (previous :: before).getLast? = some backslash := by
  induction s generalizing previous with
  | nil => simp [Escapes]
  | cons c s ih =>
    rw [Escapes, ih]
    constructor
    · rintro ⟨hc, hs⟩ (_ | ⟨d, before⟩) after h
      · obtain ⟨rfl, -⟩ := List.cons.inj h
        simpa using hc rfl
      · obtain ⟨rfl, hrest⟩ := List.cons.inj h
        rw [List.getLast?_cons_cons]
        exact hs before after hrest
    · intro h
      refine ⟨fun hc => ?_, fun before after hs => ?_⟩
      · simpa using h [] s (by rw [hc]; rfl)
      · have hlast := h (c :: before) after (by rw [hs]; rfl)
        rwa [List.getLast?_cons_cons] at hlast

theorem getLast?_quote_cons (s : Text) :
    (quote :: s).getLast? = some backslash ↔ s.getLast? = some backslash := by
  cases s with
  | nil => decide
  | cons c s => rw [List.getLast?_cons_cons]

theorem unclosed_iff_escapes {s : Text} : Unclosed s ↔ Escapes quote s := by
  simp only [escapes_iff, getLast?_quote_cons, Unclosed]

theorem quotable_iff_closes {w : Text} : Quotable w ↔ Closes quote w := by
  rw [closes_iff_escapes, ← unclosed_iff_escapes, Ne, getLast?_quote_cons]
  refine ⟨fun h => ⟨h.unclosed, h.last⟩, fun ⟨hu, hl⟩ => ⟨hu, fun hq => ?_, hl⟩⟩
  cases w with
  | nil => cases hq
  | cons c w =>
    cases Option.some.inj hq
    cases hu [] w rfl

instance decidableEscapes : (previous : UInt8) → (s : Text) → Decidable (Escapes previous s)
  | _, [] => inferInstanceAs (Decidable True)
  | previous, c :: rest =>
    have := decidableEscapes c rest
    inferInstanceAs (Decidable ((c = quote → previous = backslash) ∧ Escapes c rest))

instance (s : Text) : Decidable (Unclosed s) :=
  decidable_of_iff _ unclosed_iff_escapes.symm

instance (w : Text) : Decidable (Bare w) :=
  decidable_of_iff _ (isBare_iff w)

instance (w : Text) : Decidable (Quotable w) :=
  decidable_of_iff _ (quotable_iff_closes.trans closes_iff_escapes).symm

theorem writable_iff {w : Text} : Writable w ↔ Bare w ∨ Quotable w := by
  rw [Writable, isBare_iff, quotable_iff_closes]

theorem read_blanks {run : Text} (h : ∀ c ∈ run, isSpace c = true) (rest : Text) :
    read .between (run ++ rest) = read .between rest := by
  induction run with
  | nil => rfl
  | cons c run ih =>
    obtain ⟨hc, hrun⟩ := List.forall_mem_cons.mp h
    rw [List.cons_append, read, if_pos hc, ih hrun]

theorem stops_of_head {rest : Text} (h : ∀ c ∈ rest.head?, isSpace c = true) : Stops rest := by
  cases rest with
  | nil => exact .inl rfl
  | cons c rest => exact .inr ⟨c, rest, rfl, h c rfl⟩

theorem read_piece {p : Piece} {rest : Text} (h : p.Fits rest) :
    read .between (p.text ++ rest) = (read .between rest).map (p.word?.toList ++ ·) := by
  cases p with
  | blank run =>
    rw [Piece.text, read_blanks h.2.1]
    simp [Piece.word?]
  | bare w =>
    obtain ⟨hw, hrest⟩ := h
    have hwrite : write w = w := if_pos ((isBare_iff w).mpr hw)
    have hread := read_write (writable_iff.mpr (.inl hw)) (stops_of_head hrest)
    rw [hwrite] at hread
    exact hread
  | quoted w =>
    have htext : (Piece.quoted w).text ++ rest = quote :: (w ++ quote :: rest) := by
      simp [Piece.text]
    have hspace : ¬ isSpace quote = true := by decide
    rw [htext, read, if_neg hspace, if_pos rfl, read_quoted (quotable_iff_closes.mp h)]
    rfl

theorem read_lead {pieces : List Piece} {rest : Text} (h : Piece.Lead rest pieces) :
    read .between (Piece.textOf pieces ++ rest) =
      (read .between rest).map (Piece.wordsOf pieces ++ ·) := by
  induction pieces with
  | nil => simp [Piece.textOf, Piece.wordsOf]
  | cons p pieces ih =>
    have htext : Piece.textOf (p :: pieces) ++ rest = p.text ++ (Piece.textOf pieces ++ rest) := by
      simp [Piece.textOf]
    have hwords : Piece.wordsOf (p :: pieces) = p.word?.toList ++ Piece.wordsOf pieces := by
      simp only [Piece.wordsOf, List.filterMap_cons]
      cases p.word? <;> rfl
    rw [htext, read_piece h.1, ih h.2, Option.map_map, hwords]
    simp [Function.comp_def]

theorem read_unclosed {previous : UInt8} {s : Text} (h : Escapes previous s) (taken : Text) :
    read (.quoted previous taken) s = none := by
  induction s generalizing previous taken with
  | nil => rfl
  | cons c s ih =>
    obtain ⟨hc, hs⟩ := h
    have hopen : ¬ (c = quote ∧ previous ≠ backslash) := fun hclose => hclose.2 (hc hclose.1)
    rw [read, if_neg hopen, ih hs]

theorem split?_lead {pieces : List Piece} (h : Piece.Lead [] pieces) :
    split? (Piece.textOf pieces) = some (Piece.wordsOf pieces) := by
  have hread := read_lead h
  rw [List.append_nil] at hread
  rw [split?, hread]
  simp [read]

theorem split?_unclosed {pieces : List Piece} {tail : Text} (h : Piece.Lead (quote :: tail) pieces)
    (ht : Unclosed tail) : split? (Piece.textOf pieces ++ quote :: tail) = none := by
  have hspace : ¬ isSpace quote = true := by decide
  rw [split?, read_lead h, read, if_neg hspace, if_pos rfl,
    read_unclosed (unclosed_iff_escapes.mp ht), Option.map_none]

theorem escapes_or_closes (previous : UInt8) (s : Text) :
    Escapes previous s ∨ ∃ w rest, s = w ++ quote :: rest ∧ Closes previous w := by
  induction s generalizing previous with
  | nil => exact .inl trivial
  | cons c s ih =>
    by_cases hc : c = quote ∧ previous ≠ backslash
    · exact .inr ⟨[], s, by rw [hc.1]; rfl, hc.2⟩
    · have hescape : c = quote → previous = backslash := fun hq =>
        Classical.not_not.mp fun hp => hc ⟨hq, hp⟩
      obtain hs | ⟨w, rest, rfl, hw⟩ := ih c
      · exact .inl ⟨hescape, hs⟩
      · exact .inr ⟨c :: w, rest, rfl, hescape, hw⟩

theorem head?_dropWhile_not {p : UInt8 → Bool} (s : Text) :
    ∀ c ∈ (s.dropWhile p).head?, p c = false := by
  intro c hc
  have hnot := List.head?_dropWhile_not p s
  rw [Option.mem_def.mp hc] at hnot
  simpa using hnot

theorem exists_piece {s : Text} (h : s ≠ []) :
    (∃ tail, s = quote :: tail ∧ Unclosed tail) ∨
      ∃ (p : Piece) (rest : Text), s = p.text ++ rest ∧ p.Fits rest ∧ rest.length < s.length := by
  obtain ⟨c, s, rfl⟩ := List.exists_cons_of_ne_nil h
  by_cases hspace : isSpace c = true
  · refine .inr ⟨.blank (c :: s.takeWhile isSpace), s.dropWhile isSpace, ?_, ⟨by simp, ?_, ?_⟩, ?_⟩
    · simp [Piece.text]
    · exact List.forall_mem_cons.mpr ⟨hspace, fun d hd => List.mem_takeWhile_imp hd⟩
    · exact head?_dropWhile_not s
    · exact Nat.lt_succ_of_le (List.dropWhile_suffix isSpace).length_le
  by_cases hquote : c = quote
  · subst hquote
    obtain hs | ⟨w, rest, rfl, hw⟩ := escapes_or_closes quote s
    · exact .inl ⟨s, rfl, unclosed_iff_escapes.mpr hs⟩
    · refine .inr ⟨.quoted w, rest, by simp [Piece.text], quotable_iff_closes.mpr hw, ?_⟩
      simp only [List.length_cons, List.length_append]
      omega
  · refine .inr ⟨.bare (c :: s.takeWhile (!isSpace ·)), s.dropWhile (!isSpace ·), ?_,
      ⟨⟨by simp, ?_, by simpa using hquote⟩, ?_⟩, ?_⟩
    · simp [Piece.text]
    · refine List.forall_mem_cons.mpr ⟨by simpa using hspace, fun d hd => ?_⟩
      simpa using List.mem_takeWhile_imp hd
    · intro d hd
      simpa using head?_dropWhile_not s d hd
    · exact Nat.lt_succ_of_le (List.dropWhile_suffix _).length_le

theorem exists_lead (s : Text) :
    (∃ pieces, Piece.Lead [] pieces ∧ s = Piece.textOf pieces) ∨
      ∃ pieces tail, Piece.Lead (quote :: tail) pieces ∧ s = Piece.textOf pieces ++ quote :: tail ∧
        Unclosed tail := by
  induction hn : s.length using Nat.strongRecOn generalizing s with
  | ind n ih =>
    by_cases hs : s = []
    · exact .inl ⟨[], trivial, hs⟩
    obtain ⟨tail, rfl, htail⟩ | ⟨p, rest, rfl, hp, hlt⟩ := exists_piece hs
    · exact .inr ⟨[], tail, trivial, rfl, htail⟩
    obtain ⟨pieces, hlead, rfl⟩ | ⟨pieces, tail, hlead, rfl, htail⟩ := ih _ (hn ▸ hlt) rest rfl
    · refine .inl ⟨p :: pieces, ⟨?_, hlead⟩, by simp [Piece.textOf]⟩
      rwa [List.append_nil]
    · exact .inr ⟨p :: pieces, tail, ⟨hp, hlead⟩, by simp [Piece.textOf], htail⟩

theorem append_inj_of_boundary {p : UInt8 → Bool} {v w s t : Text} (h : v ++ s = w ++ t)
    (hv : ∀ c ∈ v, p c = true) (hw : ∀ c ∈ w, p c = true) (hs : ∀ c ∈ s.head?, p c = false)
    (ht : ∀ c ∈ t.head?, p c = false) : v = w ∧ s = t := by
  have hspan : ∀ {u r : Text}, (∀ c ∈ u, p c = true) → (∀ c ∈ r.head?, p c = false) →
      (u ++ r).takeWhile p = u := by
    intro u r hu hr
    rw [List.takeWhile_append_of_pos hu]
    cases r with
    | nil => simp
    | cons c r => simp [hr c rfl]
  have hvw : v = w := by rw [← hspan hv hs, h, hspan hw ht]
  exact ⟨hvw, List.append_cancel_left (hvw ▸ h)⟩

theorem closes_append_inj {previous : UInt8} {v w s t : Text} (hv : Closes previous v)
    (hw : Closes previous w) (h : v ++ quote :: s = w ++ quote :: t) : v = w ∧ s = t := by
  induction v generalizing previous w with
  | nil =>
    cases w with
    | nil => exact ⟨rfl, (List.cons.inj h).2⟩
    | cons d w =>
      obtain ⟨rfl, -⟩ := List.cons.inj h
      exact absurd (hw.1 rfl) hv
  | cons c v ih =>
    cases w with
    | nil =>
      obtain ⟨rfl, -⟩ := List.cons.inj h
      exact absurd (hv.1 rfl) hw
    | cons d w =>
      obtain ⟨rfl, hrest⟩ := List.cons.inj h
      obtain ⟨rfl, rfl⟩ := ih hv.2 hw.2 hrest
      exact ⟨rfl, rfl⟩

theorem fits_head {p : Piece} {rest : Text} (h : p.Fits rest) : ∃ c s, p.text = c :: s ∧
    (isSpace c = true ↔ ∃ run, p = .blank run) ∧ (c = quote ↔ ∃ w, p = .quoted w) := by
  cases p with
  | blank run =>
    obtain ⟨c, run, rfl⟩ := List.exists_cons_of_ne_nil h.1
    have hc : isSpace c = true := h.2.1 c List.mem_cons_self
    refine ⟨c, run, rfl, by simp [hc], ?_⟩
    have hne : c ≠ quote := by
      rintro rfl
      exact absurd hc (by decide)
    simp [hne]
  | bare w =>
    obtain ⟨c, w, rfl⟩ := List.exists_cons_of_ne_nil h.1.ne_nil
    have hc : isSpace c = false := h.1.space_free c List.mem_cons_self
    have hne : c ≠ quote := by simpa using h.1.head
    exact ⟨c, w, rfl, by simp [hc], by simp [hne]⟩
  | quoted w => exact ⟨quote, w ++ [quote], rfl, by simp; decide, by simp⟩

theorem fits_unique {p q : Piece} {rest rest' : Text} (hp : p.Fits rest) (hq : q.Fits rest')
    (h : p.text ++ rest = q.text ++ rest') : p = q ∧ rest = rest' := by
  obtain ⟨c, s, hpc, hpblank, hpquoted⟩ := fits_head hp
  obtain ⟨d, t, hqd, hqblank, hqquoted⟩ := fits_head hq
  have hcd : c = d := by
    rw [hpc, hqd] at h
    exact (List.cons.inj h).1
  subst hcd
  have hblank : (∃ run, p = .blank run) ↔ ∃ run, q = .blank run := hpblank.symm.trans hqblank
  have hquoted : (∃ w, p = .quoted w) ↔ ∃ w, q = .quoted w := hpquoted.symm.trans hqquoted
  cases p with
  | blank run =>
    obtain ⟨run', rfl⟩ := hblank.mp ⟨run, rfl⟩
    obtain ⟨rfl, rfl⟩ := append_inj_of_boundary h hp.2.1 hq.2.1 hp.2.2 hq.2.2
    exact ⟨rfl, rfl⟩
  | quoted w =>
    obtain ⟨w', rfl⟩ := hquoted.mp ⟨w, rfl⟩
    have hrest : w ++ quote :: rest = w' ++ quote :: rest' := by simpa [Piece.text] using h
    obtain ⟨rfl, rfl⟩ :=
      closes_append_inj (quotable_iff_closes.mp hp) (quotable_iff_closes.mp hq) hrest
    exact ⟨rfl, rfl⟩
  | bare w =>
    cases q with
    | blank run => cases (hblank.mpr ⟨run, rfl⟩).choose_spec
    | quoted w' => cases (hquoted.mpr ⟨w', rfl⟩).choose_spec
    | bare w' =>
      obtain ⟨rfl, rfl⟩ := append_inj_of_boundary (p := (!isSpace ·)) h
        (by simpa [Piece.text] using hp.1.space_free) (by simpa [Piece.text] using hq.1.space_free)
        (by simpa using hp.2) (by simpa using hq.2)
      exact ⟨rfl, rfl⟩

theorem lead_unique {pieces pieces' : List Piece} (h : Piece.Lead [] pieces)
    (h' : Piece.Lead [] pieces') (ht : Piece.textOf pieces = Piece.textOf pieces') :
    pieces = pieces' := by
  have hne : ∀ {p : Piece} {rest : List Piece}, Piece.Lead [] (p :: rest) →
      Piece.textOf (p :: rest) ≠ [] := by
    intro p rest hlead
    obtain ⟨c, s, hp, -⟩ := fits_head hlead.1
    simp [Piece.textOf, hp]
  induction pieces generalizing pieces' with
  | nil =>
    cases pieces' with
    | nil => rfl
    | cons q pieces' => exact absurd ht.symm (hne h')
  | cons p pieces ih =>
    cases pieces' with
    | nil => exact absurd ht (hne h)
    | cons q pieces' =>
      have hpq : p.text ++ (Piece.textOf pieces ++ []) =
          q.text ++ (Piece.textOf pieces' ++ []) := by
        simpa [Piece.textOf] using ht
      obtain ⟨rfl, hrest⟩ := fits_unique h.1 h'.1 hpq
      rw [List.append_nil, List.append_nil] at hrest
      rw [ih h.2 h'.2 hrest]

theorem split?_eq_some_iff {s : Text} {words : List Text} :
    split? s = some words ↔
      ∃ pieces, Piece.Lead [] pieces ∧ s = Piece.textOf pieces ∧ words = Piece.wordsOf pieces := by
  constructor
  · intro h
    obtain ⟨pieces, hlead, rfl⟩ | ⟨pieces, tail, hlead, rfl, htail⟩ := exists_lead s
    · rw [split?_lead hlead] at h
      exact ⟨pieces, hlead, rfl, (Option.some.inj h).symm⟩
    · rw [split?_unclosed hlead htail] at h
      cases h
  · rintro ⟨pieces, hlead, rfl, rfl⟩
    exact split?_lead hlead

theorem split?_eq_none_iff {s : Text} :
    split? s = none ↔ ∃ pieces tail, Piece.Lead (quote :: tail) pieces ∧
      s = Piece.textOf pieces ++ quote :: tail ∧ Unclosed tail := by
  constructor
  · intro h
    obtain ⟨pieces, hlead, rfl⟩ | hbroken := exists_lead s
    · rw [split?_lead hlead] at h
      cases h
    · exact hbroken
  · rintro ⟨pieces, tail, hlead, rfl, htail⟩
    exact split?_unclosed hlead htail

/-- A text splits exactly if it is a row of white space and written words, which it is in at most
one way, and then into those words in order; it fails to split exactly if some quote that opens a
word is never closed. All words that come out are bare or quotable, and all lists of such words are
read back from what they are written as. -/
theorem split?_accepts_grammar :
    (∀ s words, split? s = some words ↔
      ∃ pieces, Piece.Lead [] pieces ∧ s = Piece.textOf pieces ∧ words = Piece.wordsOf pieces) ∧
    (∀ pieces pieces', Piece.Lead [] pieces → Piece.Lead [] pieces' →
      Piece.textOf pieces = Piece.textOf pieces' → pieces = pieces') ∧
    (∀ s, split? s = none ↔ ∃ pieces tail, Piece.Lead (quote :: tail) pieces ∧
      s = Piece.textOf pieces ++ quote :: tail ∧ Unclosed tail) ∧
    (∀ s words, split? s = some words → ∀ w ∈ words, Bare w ∨ Quotable w) ∧
    ∀ words : List Text, (∀ w ∈ words, Bare w ∨ Quotable w) → split? (join words) = some words := by
  refine ⟨fun s words => split?_eq_some_iff, fun _ _ => lead_unique, fun s => split?_eq_none_iff,
    fun s words h w hw => ?_, fun words h => ?_⟩
  · exact writable_iff.mp (@writable_of_read .between s words trivial h w hw)
  · exact split?_join fun w hw => writable_iff.mpr (h w hw)

theorem split?_accepts_grammar_mixed :
    split? (join [utf8 "x\"y", utf8 "a \\\" b", []]) =
      some [utf8 "x\"y", utf8 "a \\\" b", []] ∧
    split? (utf8 "\"a b\"c ") = some [utf8 "a b", utf8 "c"] ∧
    split? (utf8 "c \"a b\\\"") = none := by
  obtain ⟨haccepts, -, hrefuses, -, hback⟩ := split?_accepts_grammar
  refine ⟨hback _ (by decide), (haccepts _ _).mpr ?_, (hrefuses _).mpr ?_⟩
  · have hblank : Piece.Fits [] (.blank [space]) :=
      ⟨by decide, List.forall_mem_singleton.mpr rfl, nofun⟩
    refine ⟨[.quoted (utf8 "a b"), .bare (utf8 "c"), .blank [space]], ?_, by decide, by decide⟩
    exact ⟨(by decide : Quotable _), ⟨by decide, by rintro c ⟨⟩; rfl⟩, hblank, trivial⟩
  · have hblank : Piece.Fits (quote :: utf8 "a b\\\"") (.blank [space]) :=
      ⟨by decide, List.forall_mem_singleton.mpr rfl, by rintro c ⟨⟩; rfl⟩
    refine ⟨[.bare (utf8 "c"), .blank [space]], utf8 "a b\\\"", ?_, by decide, by decide⟩
    exact ⟨⟨by decide, by rintro c ⟨⟩; rfl⟩, hblank, trivial⟩

end Stencil.Words
