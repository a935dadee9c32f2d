import Stencil.Text.Basic

namespace Stencil.Text

open Ascii

theorem splitOn_cons_ne {sep b : UInt8} (h : b ≠ sep) (s : Text) :
    ∃ piece more, splitOn sep s = piece :: more ∧ splitOn sep (b :: s) = (b :: piece) :: more := by
  obtain ⟨piece, more, hs⟩ := List.exists_cons_of_ne_nil (splitOn_ne_nil sep s)
  refine ⟨piece, more, hs, ?_⟩
  rw [splitOn, if_neg (by simpa using h), hs]

theorem exists_splitOn_eq_concat (sep : UInt8) (s : Text) :
    ∃ pieces last, splitOn sep s = pieces ++ [last] := by
  obtain hnil | ⟨pieces, last, hs⟩ := List.eq_nil_or_concat (splitOn sep s)
  · exact absurd hnil (splitOn_ne_nil sep s)
  · exact ⟨pieces, last, hs.trans List.concat_eq_append⟩

theorem splitOn_sep_cons (sep : UInt8) (s : Text) :
    splitOn sep (sep :: s) = [] :: splitOn sep s := by
  rw [splitOn, if_pos (by simp)]

theorem splitOn_append (sep : UInt8) (s t : Text) :
    splitOn sep (s ++ sep :: t) = splitOn sep s ++ splitOn sep t := by
  induction s with
  | nil => exact splitOn_sep_cons sep t
  | cons b s ih =>
    by_cases hb : b = sep
    · rw [hb, List.cons_append, splitOn_sep_cons, splitOn_sep_cons, ih]
      rfl
    · obtain ⟨piece, more, hs, hbs⟩ := splitOn_cons_ne hb s
      obtain ⟨piece', more', hst, hbst⟩ := splitOn_cons_ne hb (s ++ sep :: t)
      rw [ih, hs] at hst
      cases hst
      rw [List.cons_append, hbst, hbs]
      rfl

theorem splitOn_of_not_mem {sep : UInt8} {s : Text} (h : sep ∉ s) : splitOn sep s = [s] := by
  induction s with
  | nil => rfl
  | cons b s ih =>
    rw [List.mem_cons, not_or] at h
    obtain ⟨piece, more, hs, hbs⟩ := splitOn_cons_ne (Ne.symm h.1) s
    rw [ih h.2] at hs
    cases hs
    exact hbs

theorem joinWith_cons (sep part : Text) {parts : List Text} (h : parts ≠ []) :
    joinWith sep (part :: parts) = part ++ sep ++ joinWith sep parts := by
  cases parts with
  | nil => exact absurd rfl h
  | cons next parts => rfl

theorem joinWith_concat (sep last : Text) {parts : List Text} (h : parts ≠ []) :
    joinWith sep (parts ++ [last]) = joinWith sep parts ++ sep ++ last := by
  induction parts with
  | nil => exact absurd rfl h
  | cons part parts ih =>
    by_cases hparts : parts = []
    · rw [hparts]
      rfl
    · rw [List.cons_append, joinWith_cons _ _ (by simp), joinWith_cons _ _ hparts, ih hparts]
      simp only [List.append_assoc]

theorem mem_joinWith {sep c : UInt8} {parts : List Text} (h : c ∈ joinWith [sep] parts) :
    c = sep ∨ ∃ part ∈ parts, c ∈ part := by
  induction parts with
  | nil => cases h
  | cons part parts ih =>
    by_cases hlast : parts = []
    · rw [hlast] at h
      exact .inr ⟨part, by simp, h⟩
    · rw [joinWith_cons _ _ hlast, List.mem_append, List.mem_append, List.mem_singleton] at h
      rcases h with (h | h) | h
      · exact .inr ⟨part, by simp, h⟩
      · exact .inl h
      · obtain hsep | ⟨other, hother, hc⟩ := ih h
        · exact .inl hsep
        · exact .inr ⟨other, by simp [hother], hc⟩

theorem splitOn_joinWith {sep : UInt8} {parts : List Text} (hne : parts ≠ [])
    (h : ∀ part ∈ parts, sep ∉ part) : splitOn sep (joinWith [sep] parts) = parts := by
  induction parts with
  | nil => exact absurd rfl hne
  | cons part parts ih =>
    obtain ⟨hpart, hparts⟩ := List.forall_mem_cons.mp h
    by_cases hlast : parts = []
    · rw [hlast]
      exact splitOn_of_not_mem hpart
    · rw [joinWith_cons _ _ hlast, List.append_assoc, List.singleton_append, splitOn_append,
        splitOn_of_not_mem hpart, ih hlast hparts]
      rfl

theorem joinWith_injective {sep : UInt8} {parts parts' : List Text} (hne : parts ≠ [])
    (hne' : parts' ≠ []) (h : ∀ part ∈ parts, sep ∉ part) (h' : ∀ part ∈ parts', sep ∉ part)
    (heq : joinWith [sep] parts = joinWith [sep] parts') : parts = parts' := by
  rw [← splitOn_joinWith hne h, heq, splitOn_joinWith hne' h']

theorem not_mem_of_mem_splitOn {sep : UInt8} {s piece : Text} (h : piece ∈ splitOn sep s) :
    sep ∉ piece := by
  induction s generalizing piece with
  | nil =>
    rw [splitOn, List.mem_singleton] at h
    simp [h]
  | cons b s ih =>
    by_cases hb : b = sep
    · rw [hb, splitOn_sep_cons] at h
      rcases List.mem_cons.mp h with rfl | h
      · simp
      · exact ih h
    · obtain ⟨first, more, hs, hbs⟩ := splitOn_cons_ne hb s
      rw [hbs] at h
      rcases List.mem_cons.mp h with rfl | h
      · rw [List.mem_cons, not_or]
        exact ⟨Ne.symm hb, ih (by simp [hs])⟩
      · exact ih (by simp [hs, h])

theorem mem_of_mem_splitOn {sep c : UInt8} {s piece : Text} (h : piece ∈ splitOn sep s)
    (hc : c ∈ piece) : c ∈ s := by
  rw [← joinWith_splitOn sep s]
  generalize splitOn sep s = parts at h
  induction parts with
  | nil => cases h
  | cons part parts ih =>
    by_cases hlast : parts = []
    · rw [hlast, List.mem_singleton] at h
      rw [hlast]
      exact h ▸ hc
    · rw [joinWith_cons _ _ hlast]
      rcases List.mem_cons.mp h with rfl | h
      · simp [hc]
      · simp [ih h]

theorem cutPrefix?_eq_some_iff {p s rest : Text} : cutPrefix? p s = some rest ↔ s = p ++ rest := by
  induction p generalizing s with
  | nil => simp [cutPrefix?]
  | cons a p ih =>
    cases s with
    | nil => simp [cutPrefix?]
    | cons b s =>
      by_cases hab : a = b
      · simp [cutPrefix?, hab, ih]
      · simp [cutPrefix?, hab, Ne.symm hab]

theorem startsWith_append (p rest : Text) : startsWith (p ++ rest) p = true := by
  rw [startsWith, cutPrefix?_eq_some_iff.mpr rfl]
  rfl

theorem cutSuffix?_eq_some_iff {p s rest : Text} : cutSuffix? p s = some rest ↔ s = rest ++ p := by
  rw [cutSuffix?, Option.map_eq_some_iff]
  constructor
  · rintro ⟨back, hback, rfl⟩
    rw [cutPrefix?_eq_some_iff] at hback
    simpa using congrArg List.reverse hback
  · rintro rfl
    exact ⟨rest.reverse, cutPrefix?_eq_some_iff.mpr (by simp), List.reverse_reverse rest⟩

theorem endsWith_iff {s p : Text} : endsWith s p = true ↔ ∃ rest, s = rest ++ p := by
  simp only [endsWith, Option.isSome_iff_exists, cutSuffix?_eq_some_iff]

theorem dropSuffix_append (s p : Text) : dropSuffix p (s ++ p) = s := by
  rw [dropSuffix, cutSuffix?_eq_some_iff.mpr rfl]
  rfl

theorem dropSuffix_of_not_endsWith {s p : Text} (h : endsWith s p = false) :
    dropSuffix p s = s := by
  rw [endsWith, Option.isSome_eq_false_iff, Option.isNone_iff_eq_none] at h
  rw [dropSuffix, h]
  rfl

theorem dropEndWhile_eq (c : UInt8) (s : Text) :
    ∃ k, s = dropEndWhile (· = c) s ++ List.replicate k c ∧
      (dropEndWhile (· = c) s).getLast? ≠ some c := by
  have htail : ∀ b ∈ s.reverse.takeWhile (· = c), b = c := by
    intro b hb
    have hall := List.all_takeWhile (p := (· = c)) (l := s.reverse)
    exact of_decide_eq_true (List.all_eq_true.mp hall b hb)
  refine ⟨(s.reverse.takeWhile (· = c)).length, ?_, ?_⟩
  · have hsplit := List.takeWhile_append_dropWhile (p := (· = c)) (l := s.reverse)
    have hrev := congrArg List.reverse hsplit
    rw [List.reverse_append, List.reverse_reverse, List.eq_replicate_of_mem htail,
      List.reverse_replicate] at hrev
    exact hrev.symm
  · rw [dropEndWhile, List.getLast?_reverse]
    intro hhead
    have hnot := List.head?_dropWhile_not (p := (· = c)) s.reverse
    rw [hhead] at hnot
    simp at hnot

end Stencil.Text
