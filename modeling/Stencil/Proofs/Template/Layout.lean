import Stencil.Template.Segment

namespace Stencil

open Ascii Text

def opening : Text :=
  [dollar, openBrace]

def Plain (l : Text) : Prop :=
  ¬ opening <:+: l

theorem plain_nil : Plain [] := by
  intro h
  cases List.infix_nil.mp h

theorem exists_plain_append {s : Text} (h : opening <:+: s) :
    ∃ l rest, s = l ++ opening ++ rest ∧ Plain l := by
  induction s with
  | nil => exact absurd h plain_nil
  | cons c s ih =>
    by_cases hp : opening <+: c :: s
    · obtain ⟨rest, hrest⟩ := hp
      exact ⟨[], rest, hrest.symm, plain_nil⟩
    · obtain ⟨l, rest, hs, hl⟩ := ih ((List.infix_cons_iff.mp h).resolve_left hp)
      refine ⟨c :: l, rest, by simp [hs], ?_⟩
      intro hopen
      rcases List.infix_cons_iff.mp hopen with hfirst | hlater
      · apply hp
        rw [hs, List.append_assoc, ← List.cons_append]
        exact hfirst.trans (List.prefix_append _ _)
      · exact hl hlater

namespace Stretch

theorem read_plain {taken l : Text} {c : UInt8} (h : Plain (taken.reverse ++ c :: l))
    (rest : Text) : read false taken (c :: rest) = read false (c :: taken) rest := by
  cases taken with
  | nil => rfl
  | cons d before =>
    have hno : ¬ (d = dollar ∧ c = openBrace) := by
      rintro ⟨rfl, rfl⟩
      exact h ⟨before.reverse, l, by simp [opening]⟩
    rw [read, if_neg (by decide), if_neg hno]

theorem read_literal {taken l : Text} (h : Plain (taken.reverse ++ l)) :
    read false taken l = literals (l.reverse ++ taken) [] := by
  induction l generalizing taken with
  | nil => rfl
  | cons c l ih =>
    rw [read_plain h, ih (by simpa using h)]
    simp

theorem read_opening {taken l : Text} (h : Plain (taken.reverse ++ l)) (rest : Text) :
    read false taken (l ++ opening ++ rest) =
      literals (l.reverse ++ taken) (read true [] rest) := by
  induction l generalizing taken with
  | nil =>
    have hne : ¬ dollar = openBrace := by decide
    cases taken with
    | nil => rfl
    | cons d before => simp [opening, read, hne]
  | cons c l ih =>
    rw [List.cons_append, List.cons_append, read_plain h, ih (by simpa using h)]
    simp

theorem ofText_plain {l : Text} (h : Plain l) : ofText l = literals l.reverse [] := by
  have hplain : Plain ([].reverse ++ l) := h
  have hread := read_literal hplain
  rwa [List.append_nil] at hread

theorem ofText_opening {l : Text} (h : Plain l) (rest : Text) :
    ofText (l ++ opening ++ rest) = literals l.reverse (read true [] rest) := by
  have hplain : Plain ([].reverse ++ l) := h
  have hread := read_opening hplain rest
  rwa [List.append_nil] at hread

theorem read_inside {c : UInt8} (h : c ≠ closeBrace) (taken rest : Text) :
    read true taken (c :: rest) = read true (c :: taken) rest := by
  simp [read, h]

theorem read_closed {p : Text} (h : closeBrace ∉ p) (taken rest : Text) :
    read true taken (p ++ closeBrace :: rest) =
      .placeholder (taken.reverse ++ p) :: ofText rest := by
  induction p generalizing taken with
  | nil => simp [read, ofText]
  | cons c p ih =>
    rw [List.cons_append, read_inside (List.ne_of_not_mem_cons h).symm,
      ih (List.not_mem_of_not_mem_cons h)]
    simp

theorem read_unclosed {p : Text} (h : closeBrace ∉ p) (taken : Text) :
    read true taken p = [.unclosed (taken.reverse ++ p)] := by
  induction p generalizing taken with
  | nil => simp [read]
  | cons c p ih =>
    rw [read_inside (List.ne_of_not_mem_cons h).symm, ih (List.not_mem_of_not_mem_cons h)]
    simp

theorem literals_append (l : Text) (first rest : List Stretch) :
    literals l first ++ rest = literals l (first ++ rest) := by
  unfold literals
  split <;> rfl

def Apart (list : List Stretch) : Prop :=
  ∀ text, list.head? ≠ some (.literal text)

theorem literals_inj {l m : Text} {first second : List Stretch} (hf : Apart first)
    (hs : Apart second) (h : literals l first = literals m second) : l = m ∧ first = second := by
  unfold literals at h
  cases l with
  | nil =>
    cases m with
    | nil => exact ⟨rfl, h⟩
    | cons d m => exact absurd (congrArg List.head? h) (hf _)
  | cons c l =>
    cases m with
    | nil => exact absurd (congrArg List.head? h.symm) (hs _)
    | cons d m =>
      obtain ⟨htext, hrest⟩ := List.cons.inj h
      exact ⟨List.reverse_inj.mp (Stretch.literal.inj htext), hrest⟩

end Stretch

inductive Layout where
  | last (literal : Text)
  | next (literal inner : Text) (rest : Layout)

namespace Layout

def text : Layout → Text
  | .last l => l
  | .next l p rest => l ++ opening ++ (p ++ closeBrace :: rest.text)

def Fits : Layout → Prop
  | .last l => Plain l
  | .next l p rest => Plain l ∧ closeBrace ∉ p ∧ rest.Fits

def stretches : Layout → List Stretch
  | .last l => Stretch.literals l.reverse []
  | .next l p rest => Stretch.literals l.reverse (.placeholder p :: rest.stretches)

theorem ofText_text {layout : Layout} (h : layout.Fits) :
    Stretch.ofText layout.text = layout.stretches := by
  induction layout with
  | last l => exact Stretch.ofText_plain h
  | next l p rest ih =>
    obtain ⟨hl, hp, hrest⟩ := h
    rw [text, Stretch.ofText_opening hl, Stretch.read_closed hp, ih hrest]
    rfl

theorem ofText_append {layout : Layout} (h : layout.Fits) (tail : Text) :
    Stretch.ofText (layout.text ++ opening ++ tail) =
      layout.stretches ++ Stretch.read true [] tail := by
  induction layout with
  | last l =>
    rw [text, Stretch.ofText_opening h, stretches, Stretch.literals_append]
    rfl
  | next l p rest ih =>
    obtain ⟨hl, hp, hrest⟩ := h
    have htext : (next l p rest).text ++ opening ++ tail =
        l ++ opening ++ (p ++ closeBrace :: (rest.text ++ opening ++ tail)) := by simp [text]
    rw [htext, Stretch.ofText_opening hl, Stretch.read_closed hp, ih hrest, stretches,
      Stretch.literals_append]
    rfl

theorem stretches_injective {a b : Layout} (h : a.stretches = b.stretches) : a = b := by
  have hnil : Stretch.Apart [] := by simp [Stretch.Apart]
  have hcons : ∀ p rest, Stretch.Apart (.placeholder p :: rest) := by simp [Stretch.Apart]
  induction a generalizing b with
  | last l =>
    cases b with
    | last m =>
      obtain ⟨hl, -⟩ := Stretch.literals_inj hnil hnil h
      rw [List.reverse_inj.mp hl]
    | next m q other => cases (Stretch.literals_inj hnil (hcons _ _) h).2
  | next l p rest ih =>
    cases b with
    | last m => cases (Stretch.literals_inj (hcons _ _) hnil h).2
    | next m q other =>
      obtain ⟨hl, htail⟩ := Stretch.literals_inj (hcons _ _) (hcons _ _) h
      obtain ⟨hp, hrest⟩ := List.cons.inj htail
      rw [List.reverse_inj.mp hl, Stretch.placeholder.inj hp, ih hrest]

theorem unique {a b : Layout} (ha : a.Fits) (hb : b.Fits) (h : a.text = b.text) : a = b := by
  apply stretches_injective
  rw [← ofText_text ha, ← ofText_text hb, h]

theorem exists_text (s : Text) : ∃ layout : Layout, layout.Fits ∧
    (s = layout.text ∨ ∃ p, closeBrace ∉ p ∧ s = layout.text ++ opening ++ p) := by
  -- the text after the first closed placeholder is shorter
  by_cases hplain : Plain s
  · exact ⟨.last s, hplain, .inl rfl⟩
  · obtain ⟨l, tail, hs, hl⟩ := exists_plain_append (Classical.not_not.mp hplain)
    by_cases hclose : closeBrace ∈ tail
    · obtain ⟨p, rest, htail, hp⟩ := List.eq_append_cons_of_mem hclose
      have hshort : rest.length < s.length := by simp [hs, htail]; omega
      obtain ⟨layout, hfits, hrest⟩ := exists_text rest
      subst hs htail
      refine ⟨.next l p layout, ⟨hl, hp, hfits⟩, ?_⟩
      rcases hrest with rfl | ⟨q, hq, rfl⟩
      · exact .inl rfl
      · exact .inr ⟨q, hq, by simp [text]⟩
    · exact ⟨.last l, hl, .inr ⟨tail, hclose, hs⟩⟩
termination_by s.length

end Layout

end Stencil
