import Stencil.Proofs.Text.Pattern
import Stencil.Proofs.Text.Split
import Stencil.Unit.Trailer

namespace Stencil

open Ascii Text Pattern

namespace Text

theorem length_splitOn (sep : UInt8) (s : Text) : (splitOn sep s).length = s.count sep + 1 := by
  induction s with
  | nil => rfl
  | cons b s ih =>
    by_cases hb : b = sep
    · rw [hb, splitOn_sep_cons, List.length_cons, ih, List.count_cons_self]
    · obtain ⟨piece, more, hs, hbs⟩ := splitOn_cons_ne hb s
      rw [hs, List.length_cons] at ih
      rw [hbs, List.length_cons, ih, List.count_cons_of_ne hb]

end Text

namespace Trailer

def Blank (s : Text) : Prop :=
  ∀ c ∈ s, c = space ∨ c = tab

def Marks (line name : Text) : Prop :=
  ∃ indent gap rest, line = indent ++ utf8 "//mltemplate:hide" ++ gap ++ name ++ rest ∧
    Blank indent ∧ Blank gap ∧ gap ≠ [] ∧ Blank rest ∧ isHoleName name = true

theorem isBlankByte_iff {c : UInt8} : isBlankByte c = true ↔ c = space ∨ c = tab := by
  simp [isBlankByte]

theorem blank_iff {s : Text} : Blank s ↔ ∀ c ∈ s, isBlankByte c = true :=
  forall₂_congr fun _ _ => isBlankByte_iff.symm

theorem newline_not_mem_of_blank {s : Text} (h : Blank s) : newline ∉ s :=
  fun hs => (h newline hs).elim (by decide) (by decide)

theorem isHoleName_cons (c : UInt8) (word : Text) :
    isHoleName (c :: word) = (isLower c && word.all isWordByte) := rfl

theorem newline_not_mem_of_holeName {name : Text} (h : isHoleName name = true) : newline ∉ name := by
  cases name with
  | nil => cases h
  | cons c word =>
    rw [isHoleName_cons, Bool.and_eq_true, List.all_eq_true] at h
    intro hmem
    rcases List.mem_cons.mp hmem with rfl | hmem
    · exact absurd h.1 (by decide)
    · exact absurd (h.2 _ hmem) (by decide)

theorem Marks.newline_not_mem {line name : Text} (h : Marks line name) : newline ∉ line := by
  obtain ⟨indent, gap, rest, rfl, hindent, hgap, -, hrest, hname⟩ := h
  have hkeyword : newline ∉ utf8 "//mltemplate:hide" := by decide
  simp [newline_not_mem_of_blank hindent, newline_not_mem_of_blank hgap,
    newline_not_mem_of_blank hrest, newline_not_mem_of_holeName hname, hkeyword]

theorem not_marks_nil (name : Text) : ¬ Marks [] name := by
  rintro ⟨indent, gap, rest, hline, -⟩
  have hkeyword : utf8 "//mltemplate:hide" ≠ [] := by decide
  simp [hkeyword] at hline

theorem marks_of_matchAt? {before : Option UInt8} {s : Text} {m : Match}
    (h : matchAt? hideMarker before s = some m) :
    Marks m.text m.group ∧ ∃ rest, s = m.text ++ rest ∧ rest.head?.all (· == newline) = true := by
  rw [hideMarker, matchAt?] at h
  -- one step of the pattern after the other, with what is left of the text after each
  obtain ⟨-, h⟩ := Option.ite_none_right_eq_some.mp h
  obtain ⟨indent, s₁, _, m₁, rfl, hindent, h₁, rfl⟩ := matchAt?_many_eq_some h
  obtain ⟨s₂, _, m₂, rfl, h₂, rfl⟩ := matchAt?_literal_eq_some h₁
  obtain ⟨b, s₃, m₃, rfl, hb, h₃, rfl⟩ := matchAt?_one_eq_some h₂
  obtain ⟨gap, s₄, _, m₄, rfl, hgap, h₄, rfl⟩ := matchAt?_many_eq_some h₃
  obtain ⟨c, s₅, m₅, rfl, hc, h₅, rfl⟩ := matchAt?_one_eq_some h₄
  obtain ⟨word, s₆, _, m₆, rfl, hword, h₆, rfl⟩ := matchAt?_many_eq_some h₅
  obtain ⟨rest, s₇, _, m₇, rfl, hrest, h₇, rfl⟩ := matchAt?_many_eq_some h₆
  obtain ⟨hend, h₇⟩ := Option.ite_none_right_eq_some.mp h₇
  cases h₇
  have hname : isHoleName (c :: word) = true := by
    rw [isHoleName_cons, hc, List.all_eq_true.mpr hword]
    rfl
  have hblanks : Blank (b :: gap) := blank_iff.mpr (List.forall_mem_cons.mpr ⟨hb, hgap⟩)
  constructor
  · refine ⟨indent, b :: gap, rest, ?_, blank_iff.mpr hindent, hblanks, List.cons_ne_nil _ _,
      blank_iff.mpr hrest, ?_⟩
    · simp [Match.prepend]
    · simpa [Match.prepend] using hname
  · exact ⟨s₇, by simp [Match.prepend], hend⟩

theorem isBlankByte_of_isLower {c : UInt8} (h : isLower c = true) : isBlankByte c = false := by
  refine Bool.eq_false_iff.mpr fun hc => ?_
  rcases isBlankByte_iff.mp hc with rfl | rfl <;> exact absurd h (by decide)

theorem isWordByte_of_isBlankByte {c : UInt8} (h : isBlankByte c = true) : isWordByte c = false := by
  rcases isBlankByte_iff.mp h with rfl | rfl <;> decide

theorem head?_all_of_lineEnd {p : UInt8 → Bool} (hp : p newline = true) {s : Text}
    (h : s.head?.all (· == newline) = true) : s.head?.all p = true := by
  cases s with
  | nil => rfl
  | cons c s =>
    cases eq_of_beq (by simpa using h : (c == newline) = true)
    exact hp

theorem matchAt?_of_marks {before : Option UInt8} (hbefore : before.all (· == newline) = true)
    {line name tail : Text} (h : Marks line name) (htail : tail.head?.all (· == newline) = true) :
    matchAt? hideMarker before (line ++ tail) = some ⟨line, name⟩ := by
  obtain ⟨indent, gap, rest, rfl, hindent, hgap, hne, hrest, hname⟩ := h
  obtain ⟨b, gap, rfl⟩ := List.exists_cons_of_ne_nil hne
  obtain ⟨hb, hgap⟩ := List.forall_mem_cons.mp (blank_iff.mp hgap)
  obtain ⟨c, word, rfl⟩ : ∃ c word, name = c :: word := by
    cases name with
    | nil => cases hname
    | cons c word => exact ⟨c, word, rfl⟩
  rw [isHoleName_cons, Bool.and_eq_true, List.all_eq_true] at hname
  obtain ⟨hc, hword⟩ := hname
  -- from the last step to the first, each run ends where its class does
  have hend (before : Option UInt8) : matchAt? [.lineEnd] before tail = some {} := if_pos htail
  have hstop : (rest ++ tail).head?.all (!isWordByte ·) = true := by
    cases rest with
    | nil => exact head?_all_of_lineEnd rfl htail
    | cons d rest =>
      simpa using isWordByte_of_isBlankByte (blank_iff.mp hrest d List.mem_cons_self)
  have h₁ := matchAt?_many_append (blank_iff.mp hrest) (head?_all_of_lineEnd rfl htail) hend false
  have h₂ := matchAt?_many_append hword hstop h₁ true
  have h₃ := matchAt?_one_cons hc (h₂ (some c)) true
  have h₄ := matchAt?_many_append hgap (by simpa using isBlankByte_of_isLower hc) h₃ false
  have h₅ := matchAt?_one_cons hb (h₄ (some b)) false
  have h₆ := matchAt?_literal_append (utf8 "//mltemplate:hide") h₅
  have h₇ := matchAt?_many_append (blank_iff.mp hindent) (by rfl) h₆ false before
  have hmatch : matchAt? hideMarker before
      (indent ++ (utf8 "//mltemplate:hide" ++ (b :: (gap ++ (c :: (word ++ (rest ++ tail))))))) =
        _ := (if_pos hbefore).trans h₇
  simpa [Match.prepend] using hmatch

theorem takeWhile_line {line rest : Text} (hline : newline ∉ line)
    (hrest : rest.head?.all (· == newline) = true) :
    (line ++ rest).takeWhile (· != newline) = line := by
  have hin : ∀ c ∈ line, (c != newline) = true := fun c hc =>
    bne_iff_ne.mpr fun he => hline (he ▸ hc)
  rw [List.takeWhile_append_of_pos hin]
  cases rest with
  | nil => simp
  | cons c rest =>
    rw [List.takeWhile_cons_of_neg (by simpa using hrest), List.append_nil]

theorem matchAt?_line {before : Option UInt8} {line tail : Text} {m : Match}
    (hline : newline ∉ line) (htail : tail.head?.all (· == newline) = true)
    (h : matchAt? hideMarker before (line ++ tail) = some m) :
    m.text = line ∧ Marks line m.group := by
  obtain ⟨hmarks, rest, heq, hrest⟩ := marks_of_matchAt? h
  have htext : m.text = line := by
    rw [← takeWhile_line hmarks.newline_not_mem hrest, ← heq, takeWhile_line hline htail]
  exact ⟨htext, htext ▸ hmarks⟩

-- A carriage return is no blank, so it belongs to no marker.
example : matchAt? hideMarker none (utf8 "//mltemplate:hide title\r") = none := by decide

theorem matchAt?_inside {b : UInt8} (hb : b ≠ newline) (s : Text) :
    matchAt? hideMarker (some b) s = none :=
  if_neg (by simpa using hb)

theorem matchAt?_newline (before : Option UInt8) (s : Text) :
    matchAt? hideMarker before (newline :: s) = none := by
  cases h : matchAt? hideMarker before (newline :: s) with
  | none => rfl
  | some m => exact absurd (@matchAt?_line before [] _ m (by simp) rfl h).2 (not_marks_nil _)

theorem exists_scan_inside {b : UInt8} (hb : b ≠ newline) {line : Text} (hline : newline ∉ line)
    (tail : Text) : ∃ before', scan hideMarker 0 (some b) (line ++ tail) =
      line.map .byte ++ scan hideMarker 0 before' tail := by
  induction line generalizing b with
  | nil => exact ⟨some b, rfl⟩
  | cons c line ih =>
    rw [List.mem_cons, not_or] at hline
    obtain ⟨before', hrest⟩ := ih (Ne.symm hline.1) hline.2
    refine ⟨before', ?_⟩
    rw [List.cons_append, scan_cons_of_none (matchAt?_inside hb _), hrest]
    rfl

theorem exists_scan_line {before : Option UInt8} (hbefore : before.all (· == newline) = true)
    {line : Text} (hline : newline ∉ line) (tail : Text)
    (htail : tail.head?.all (· == newline) = true) :
    ∃ pieces before', scan hideMarker 0 before (line ++ tail) =
        pieces ++ scan hideMarker 0 before' tail ∧
      ((∃ name, Marks line name ∧ pieces = [.found ⟨line, name⟩]) ∨
        (∀ name, ¬ Marks line name) ∧ pieces = line.map .byte) := by
  by_cases hmarks : ∃ name, Marks line name
  · obtain ⟨name, hname⟩ := hmarks
    have hne : line ≠ [] := fun he => not_marks_nil name (he ▸ hname)
    have hmatch := matchAt?_of_marks hbefore hname htail
    obtain ⟨before', hscan⟩ := @exists_scan_of_some hideMarker before ⟨line, name⟩ tail hne hmatch
    exact ⟨_, before', hscan, .inl ⟨name, hname, rfl⟩⟩
  · cases line with
    | nil => exact ⟨[], before, rfl, .inr ⟨not_exists.mp hmarks, rfl⟩⟩
    | cons c line =>
      have hnone : matchAt? hideMarker before (c :: (line ++ tail)) = none := by
        cases h : matchAt? hideMarker before (c :: (line ++ tail)) with
        | none => rfl
        | some m => exact absurd ⟨_, (matchAt?_line hline htail h).2⟩ hmarks
      rw [List.mem_cons, not_or] at hline
      obtain ⟨before', hscan⟩ := exists_scan_inside (Ne.symm hline.1) hline.2 tail
      refine ⟨_, before', ?_, .inr ⟨not_exists.mp hmarks, rfl⟩⟩
      rw [List.cons_append, scan_cons_of_none hnone, hscan]
      rfl

/-- Line by line: the markers are left empty and their names are listed, and every other line
stays. -/
inductive Blanks : (lines lines' names : List Text) → Prop where
  | nil : Blanks [] [] []
  | marker {line name : Text} {rest rest' names : List Text} : Marks line name →
      Blanks rest rest' names → Blanks (line :: rest) ([] :: rest') (name :: names)
  | other {line : Text} {rest rest' names : List Text} : (∀ name, ¬ Marks line name) →
      Blanks rest rest' names → Blanks (line :: rest) (line :: rest') names

namespace Blanks

variable {list list' names : List Text}

theorem length_eq (h : Blanks list list' names) : list'.length = list.length := by
  induction h with
  | nil => rfl
  | marker _ _ ih | other _ _ ih => rw [List.length_cons, List.length_cons, ih]

theorem newline_not_mem (h : Blanks list list' names) (hlist : ∀ line ∈ list, newline ∉ line) :
    ∀ line ∈ list', newline ∉ line := by
  induction h with
  | nil => exact hlist
  | marker _ _ ih =>
    exact List.forall_mem_cons.mpr ⟨List.not_mem_nil, ih (List.forall_mem_cons.mp hlist).2⟩
  | other _ _ ih =>
    obtain ⟨hline, hrest⟩ := List.forall_mem_cons.mp hlist
    exact List.forall_mem_cons.mpr ⟨hline, ih hrest⟩

theorem not_marks (h : Blanks list list' names) : ∀ line ∈ list', ∀ name, ¬ Marks line name := by
  induction h with
  | nil => simp
  | marker _ _ ih => exact List.forall_mem_cons.mpr ⟨not_marks_nil, ih⟩
  | other hline _ ih => exact List.forall_mem_cons.mpr ⟨hline, ih⟩

theorem eq_of_not_marks (h : Blanks list list' names)
    (hlist : ∀ line ∈ list, ∀ name, ¬ Marks line name) :
    list' = list ∧ names = [] := by
  induction h with
  | nil => exact ⟨rfl, rfl⟩
  | marker hline _ _ => exact absurd hline ((List.forall_mem_cons.mp hlist).1 _)
  | other _ _ ih =>
    obtain ⟨rfl, hnames⟩ := ih (List.forall_mem_cons.mp hlist).2
    exact ⟨rfl, hnames⟩

theorem eq_of_names_nil (h : Blanks list list' names) (hnames : names = []) : list' = list := by
  induction h with
  | nil => rfl
  | marker _ _ _ => cases hnames
  | other _ _ ih => rw [ih hnames]

end Blanks

def namesIn (pieces : List Piece) : List Text :=
  (pieces.filterMap Piece.match?).map Match.group

def leftOf (pieces : List Piece) : Text :=
  pieces.flatMap Piece.left

theorem bytes_left (line : Text) :
    namesIn (line.map .byte) = [] ∧ leftOf (line.map .byte) = line := by
  induction line with
  | nil => exact ⟨rfl, rfl⟩
  | cons c line ih => exact ⟨ih.1, congrArg (c :: ·) ih.2⟩

theorem Blanks.cons {line : Text} {pieces : List Piece}
    (hline : (∃ name, Marks line name ∧ pieces = [.found ⟨line, name⟩]) ∨
      (∀ name, ¬ Marks line name) ∧ pieces = line.map .byte)
    {rest rest' names : List Text} (h : Blanks rest rest' names) :
    Blanks (line :: rest) (leftOf pieces :: rest') (namesIn pieces ++ names) := by
  rcases hline with ⟨name, hmarks, rfl⟩ | ⟨hother, rfl⟩
  · exact .marker hmarks h
  · rw [(bytes_left line).1, (bytes_left line).2]
    exact .other hother h

theorem exists_blanks_scan {parts : List Text} (hne : parts ≠ [])
    (hparts : ∀ line ∈ parts, newline ∉ line) (before : Option UInt8)
    (hbefore : before.all (· == newline) = true) :
    ∃ parts', parts' ≠ [] ∧
      Blanks parts parts' (namesIn (scan hideMarker 0 before (joinWith [newline] parts))) ∧
      leftOf (scan hideMarker 0 before (joinWith [newline] parts)) = joinWith [newline] parts' := by
  induction parts generalizing before with
  | nil => exact absurd rfl hne
  | cons line parts ih =>
    obtain ⟨hline, hparts⟩ := List.forall_mem_cons.mp hparts
    by_cases hlast : parts = []
    · subst hlast
      obtain ⟨pieces, before', hscan, hpieces⟩ := exists_scan_line hbefore hline [] rfl
      rw [List.append_nil, scan, List.append_nil] at hscan
      rw [joinWith, hscan]
      refine ⟨[leftOf pieces], List.cons_ne_nil _ _, ?_, rfl⟩
      have hblanks := Blanks.nil.cons hpieces
      rwa [List.append_nil] at hblanks
    · obtain ⟨parts', hne', hblanks, hleft⟩ := ih hlast hparts (some newline) rfl
      obtain ⟨pieces, before', hscan, hpieces⟩ := exists_scan_line hbefore hline
        (newline :: joinWith [newline] parts) rfl
      rw [scan_cons_of_none (matchAt?_newline before' _)] at hscan
      rw [joinWith_cons _ _ hlast, List.append_assoc, List.singleton_append, hscan]
      refine ⟨leftOf pieces :: parts', List.cons_ne_nil _ _, ?_, ?_⟩
      · rw [namesIn, List.filterMap_append, List.map_append]
        exact hblanks.cons hpieces
      · rw [joinWith_cons _ _ hne', ← hleft]
        simp [leftOf, Piece.left]

theorem blanks_ofText (path s : Text) :
    Blanks (lines s) (lines (ofText path s).text) (ofText path s).hidden := by
  obtain ⟨parts', hne, hblanks, hleft⟩ := exists_blanks_scan (splitOn_ne_nil newline s)
    (fun line => not_mem_of_mem_splitOn) none rfl
  rw [joinWith_splitOn] at hblanks hleft
  have hlines : lines (removeAll hideMarker s) = parts' := by
    rw [lines, removeAll, ← leftOf, hleft]
    exact splitOn_joinWith hne (hblanks.newline_not_mem fun line => not_mem_of_mem_splitOn)
  have hhidden : (ofText path s).hidden = namesIn (scan hideMarker 0 none s) := rfl
  rw [hhidden]
  by_cases hnone : (ofText path s).hidden.isEmpty
  · have htext : (ofText path s).text = s := if_pos hnone
    have hnil := hblanks.eq_of_names_nil (List.isEmpty_iff.mp hnone)
    rw [htext]
    rwa [hnil] at hblanks
  · have htext : (ofText path s).text = removeAll hideMarker s := if_neg hnone
    rwa [htext, hlines]

theorem count_newline_ofText (path s : Text) :
    (ofText path s).text.count newline = s.count newline := by
  have hlength := (blanks_ofText path s).length_eq
  rw [lines, lines, length_splitOn, length_splitOn] at hlength
  exact Nat.succ.inj hlength

theorem ofText_ofText (path s : Text) :
    ofText path (ofText path s).text = ⟨path, (ofText path s).text, []⟩ := by
  obtain ⟨hlines, hhidden⟩ := (blanks_ofText path (ofText path s).text).eq_of_not_marks
    (blanks_ofText path s).not_marks
  have htext : (ofText path (ofText path s).text).text = (ofText path s).text := by
    rw [← joinWith_splitOn newline (ofText path (ofText path s).text).text]
    exact (congrArg (joinWith [newline]) hlines).trans (joinWith_splitOn newline _)
  calc ofText path (ofText path s).text
      = ⟨path, (ofText path (ofText path s).text).text,
          (ofText path (ofText path s).text).hidden⟩ := rfl
    _ = ⟨path, (ofText path s).text, []⟩ := by rw [htext, hhidden]

def note (path : Text) : Text :=
  utf8 "//line " ++ Path.base path ++ utf8 ":1"

theorem prefix_closeLine (s : Text) : s <+: closeLine s := by
  unfold closeLine
  split
  · exact List.prefix_refl s
  · exact List.prefix_append s _

theorem getElem?_lines_closeLine {s line : Text} {k : Nat} (h : (lines s)[k]? = some line) :
    (lines (closeLine s))[k]? = some line := by
  unfold closeLine
  split
  · exact h
  · have happend : lines (s ++ [newline]) = lines s ++ [[]] := splitOn_append newline s []
    rw [happend, List.getElem?_append_left (List.getElem?_eq_some_iff.mp h).1, h]

theorem getElem?_lines_append (s t : Text) (k : Nat) :
    (lines (s ++ newline :: t))[s.count newline + 1 + k]? = (lines t)[k]? := by
  rw [lines, splitOn_append, ← length_splitOn newline s,
    List.getElem?_append_right (Nat.le_add_right _ _), Nat.add_sub_cancel_left]
  rfl

theorem joinTo_eq (t : Trailer) (head : Text) :
    t.joinTo head true =
      closeLine head ++ [newline] ++ note t.path ++ newline :: closeLine t.text := by
  have hnote : utf8 "//line " ++ Path.base t.path ++ utf8 ":1\n" = note t.path ++ [newline] := by
    rw [note, List.append_assoc _ _ [newline]]
    rfl
  rw [joinTo, if_pos rfl, hnote]
  simp only [List.append_assoc, List.cons_append, List.nil_append]

theorem getElem?_lines_note {path above below : Text} (h : newline ∉ note path) :
    (lines (above ++ [newline] ++ note path ++ newline :: below))[(above ++ [newline]).count
      newline]? = some (note path) := by
  have happend : above ++ [newline] ++ note path ++ newline :: below =
      above ++ newline :: (note path ++ newline :: below) := by simp
  have hcount : (above ++ [newline]).count newline = above.count newline + 1 + 0 := by simp
  rw [happend, hcount, getElem?_lines_append, lines, splitOn_append, splitOn_of_not_mem h]
  rfl

/-- A trailer that is read keeps its lines: the markers among them are left empty, with their names
listed in order, and reading it once more finds none. Put after a unit, it goes on line by line after
the note, which stands in a line of its own unless its name has a newline. -/
theorem trailer_keeps_lines (path s head : Text) :
    (ofText path s).text.count newline = s.count newline ∧
      Blanks (lines s) (lines (ofText path s).text) (ofText path s).hidden ∧
      ofText path (ofText path s).text = ⟨path, (ofText path s).text, []⟩ ∧
      ∃ above below, (ofText path s).joinTo head true = above ++ note path ++ newline :: below ∧
        head <+: above ∧ above.getLast? = some newline ∧
        (newline ∉ note path →
          (lines ((ofText path s).joinTo head true))[above.count newline]? = some (note path)) ∧
        ∀ k line, (lines (ofText path s).text)[k]? = some line →
          (lines ((ofText path s).joinTo head true))[(above ++ note path).count newline + 1 + k]? =
            some line := by
  have hhead : head <+: closeLine head ++ [newline] :=
    (prefix_closeLine head).trans (List.prefix_append _ _)
  refine ⟨count_newline_ofText path s, blanks_ofText path s, ofText_ofText path s,
    closeLine head ++ [newline], closeLine (ofText path s).text, joinTo_eq _ head, hhead, by simp,
    fun hnote => ?_, fun k line hline => ?_⟩
  · rw [joinTo_eq]
    exact getElem?_lines_note hnote
  · rw [joinTo_eq]
    exact (getElem?_lines_append _ _ k).trans (getElem?_lines_closeLine hline)

theorem trailer_keeps_lines_marked :
    ∃ path s head above : Text, (ofText path s).hidden = [utf8 "title", utf8 "body"] ∧
      newline ∉ note path ∧ (lines (ofText path s).text)[2]? = some (utf8 "b") ∧ head <+: above ∧
      (lines ((ofText path s).joinTo head true))[above.count newline]? =
        some (utf8 "//line page.ml.ext:1") ∧
      (lines ((ofText path s).joinTo head true))[(above ++ note path).count newline + 1 + 2]? =
        some (utf8 "b") := by
  let path := utf8 "parts/page.ml.ext"
  let s := utf8 "a\n  //mltemplate:hide title\nb\n//mltemplate:hide\tbody "
  have hname : note path = utf8 "//line page.ml.ext:1" := by decide
  have hnote : newline ∉ note path := hname ▸ by decide
  have hline : (lines (ofText path s).text)[2]? = some (utf8 "b") := by decide
  obtain ⟨-, -, -, above, -, -, habove, -, hat, hafter⟩ :=
    trailer_keeps_lines path s (utf8 "package p")
  rw [hname] at hat
  exact ⟨path, s, utf8 "package p", above, by decide, hnote, hline, habove,
    hat (hname ▸ hnote), hafter 2 _ hline⟩

end Trailer

end Stencil
