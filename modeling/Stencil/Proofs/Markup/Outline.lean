import Stencil.Markup.Render
import Stencil.Proofs.Result

namespace Stencil.Markup

open Ascii Text

def brackets (s : Text) : Text :=
  s.filter fun c => c = less || c = greater

theorem brackets_append (s t : Text) : brackets (s ++ t) = brackets s ++ brackets t :=
  List.filter_append s t

theorem brackets_less (s : Text) : brackets (less :: s) = less :: brackets s :=
  rfl

theorem brackets_greater (s : Text) : brackets (greater :: s) = greater :: brackets s :=
  rfl

theorem brackets_space (s : Text) : brackets (space :: s) = brackets s :=
  rfl

theorem brackets_brackets (s : Text) : brackets (brackets s) = brackets s := by
  simp [brackets]

theorem brackets_escapeByte (c : UInt8) : brackets (escapeByte c) = [] := by
  unfold escapeByte
  split
  case h_7 hless hgreater _ _ =>
    have hno : ¬ (c = less ∨ c = greater) := fun h => h.elim hless hgreater
    simp [brackets, hno]
  all_goals rfl

theorem brackets_escape (s : Text) : brackets (escape s) = [] := by
  unfold escape
  induction s with
  | nil => rfl
  | cons c s ih => rw [List.flatMap_cons, brackets_append, ih, brackets_escapeByte, List.append_nil]

theorem brackets_newline (p : Prop) [Decidable p] :
    brackets (if p then [newline] else []) = [] := by
  split <;> rfl

def Attribute.outline (a : Attribute) : Attribute :=
  { a with value := [] }

theorem brackets_renderAttribute (a : Attribute) :
    brackets (renderAttribute a.outline) = brackets (renderAttribute a) := by
  unfold renderAttribute Attribute.outline
  simp only [brackets_space, brackets_append, brackets_escape]

theorem brackets_attributes (attrs : List Attribute) :
    brackets ((attrs.map Attribute.outline).flatMap renderAttribute) =
      brackets (attrs.flatMap renderAttribute) := by
  induction attrs with
  | nil => rfl
  | cons a attrs ih =>
    simp only [List.map_cons, List.flatMap_cons, brackets_append, brackets_renderAttribute, ih]

def holdsLiteralText (ns tag : Text) : Bool :=
  ns.isEmpty && literalTextTags.contains tag

namespace Node

mutual

def outline (literal : Bool) : Node → Node
  | .element ns tag attrs children =>
    .element ns tag (attrs.map Attribute.outline) (outlines (holdsLiteralText ns tag) children)
  | .text data => .text (if literal then brackets data else [])
  | n => n

def outlines (literal : Bool) : List Node → List Node
  | [] => []
  | n :: rest => n.outline literal :: outlines literal rest

end

theorem outlines_append (literal : Bool) (first second : List Node) :
    outlines literal (first ++ second) = outlines literal first ++ outlines literal second := by
  induction first with
  | nil => rfl
  | cons n first ih => rw [List.cons_append, outlines, ih, outlines, List.cons_append]

theorem outlines_isEmpty (literal : Bool) (list : List Node) :
    (outlines literal list).isEmpty = list.isEmpty := by
  cases list <;> rfl

end Node

namespace Written

def marks (w : Written) : Text × Bool :=
  (brackets w.out, w.closed)

end Written

section

variable {literal : Bool} {n : Node} {rest : List Node}

theorem renderSiblings_error {e : RenderError} (h : renderNode literal n = .error e) :
    renderSiblings literal (n :: rest) = .error e := by
  rw [renderSiblings, h]
  rfl

theorem renderSiblings_closed {w : Written} (h : renderNode literal n = .ok w)
    (hc : w.closed = true) : renderSiblings literal (n :: rest) = .ok w := by
  rw [renderSiblings, h]
  exact if_pos hc

theorem renderSiblings_open {w : Written} (h : renderNode literal n = .ok w)
    (hc : w.closed = false) :
    renderSiblings literal (n :: rest) =
      (renderSiblings literal rest).map fun more => ⟨w.out ++ more.out, more.closed⟩ := by
  rw [renderSiblings, h]
  refine (if_neg (by simp [hc])).trans ?_
  cases renderSiblings literal rest <;> rfl

end

section

variable {ns tag : Text} {attrs : List Attribute} {children : List Node} {literal : Bool}

theorem renderNode_void (h : voidTags.contains tag = true) :
    renderNode literal (.element ns tag attrs children) =
      if children.isEmpty then
        .ok ⟨less :: (tag ++ attrs.flatMap renderAttribute) ++ utf8 "/>", false⟩
      else .error (.voidWithChildren tag) := by
  rw [renderNode]
  exact if_pos h

theorem renderNode_element_error {e : RenderError} (h : voidTags.contains tag = false)
    (hc : renderSiblings (holdsLiteralText ns tag) children = .error e) :
    renderNode literal (.element ns tag attrs children) = .error e := by
  unfold holdsLiteralText at hc
  rw [renderNode]
  refine (if_neg (Bool.eq_false_iff.mp h)).trans ?_
  rw [hc]
  rfl

theorem renderNode_element_marks {inner : Written} (h : voidTags.contains tag = false)
    (hc : renderSiblings (holdsLiteralText ns tag) children = .ok inner) :
    (renderNode literal (.element ns tag attrs children)).map Written.marks =
      let last := inner.closed || (ns.isEmpty && tag == utf8 "plaintext")
      .ok (less :: (brackets tag ++ brackets (attrs.flatMap renderAttribute)) ++ [greater] ++
        brackets inner.out ++ (if last then [] else less :: brackets tag ++ [greater]), last) := by
  have hnil : brackets [] = [] := rfl
  have hend : brackets (utf8 "</") = [less] := by decide
  unfold holdsLiteralText at hc
  rw [renderNode]
  refine (congrArg (Except.map Written.marks) (if_neg (Bool.eq_false_iff.mp h))).trans ?_
  rw [hc]
  dsimp only [bind, Except.bind]
  cases inner.closed <;> cases ns.isEmpty && tag == utf8 "plaintext" <;>
    simp [Except.map, Written.marks, brackets_append, brackets_less, brackets_greater,
      brackets_newline, hnil, hend]

end

mutual

theorem renderNode_outline (literal : Bool) (n : Node) :
    (renderNode literal (n.outline literal)).map Written.marks =
      (renderNode literal n).map Written.marks := by
  match n with
  | .text data =>
    rw [Node.outline, renderNode, renderNode]
    cases literal <;> simp [Except.map, Written.marks, brackets_escape, brackets_brackets]
  | .element ns tag attrs children =>
    rw [Node.outline]
    cases hvoid : voidTags.contains tag with
    | true =>
      rw [renderNode_void hvoid, renderNode_void hvoid, Node.outlines_isEmpty]
      split
      · simp only [Except.map, Written.marks, List.cons_append, brackets_less, brackets_append,
          brackets_attributes]
      · rfl
    | false =>
      obtain ⟨e, he, he'⟩ | ⟨w, w', hw, hw', hm⟩ :=
        map_eq_map_cases (renderSiblings_outlines (holdsLiteralText ns tag) children)
      · rw [renderNode_element_error hvoid he, renderNode_element_error hvoid he']
      · obtain ⟨hout, hclosed⟩ := Prod.mk.inj hm
        rw [renderNode_element_marks hvoid hw, renderNode_element_marks hvoid hw', hout, hclosed,
          brackets_attributes]
  | .comment data => rfl
  | .doctype name attrs => rfl
  | .document children => rfl
  | .raw data => rfl
  | .error data => rfl

theorem renderSiblings_outlines (literal : Bool) (list : List Node) :
    (renderSiblings literal (Node.outlines literal list)).map Written.marks =
      (renderSiblings literal list).map Written.marks := by
  match list with
  | [] => rfl
  | n :: rest =>
    rw [Node.outlines]
    obtain ⟨e, he, he'⟩ | ⟨w, w', hw, hw', hm⟩ := map_eq_map_cases (renderNode_outline literal n)
    · rw [renderSiblings_error he, renderSiblings_error he']
    · obtain ⟨hout, hclosed⟩ := Prod.mk.inj hm
      cases hc : w.closed with
      | true =>
        rw [renderSiblings_closed hw hc, renderSiblings_closed hw' (hclosed ▸ hc)]
        exact congrArg Except.ok hm
      | false =>
        rw [renderSiblings_open hw hc, renderSiblings_open hw' (hclosed ▸ hc)]
        obtain ⟨e, he, he'⟩ | ⟨v, v', hv, hv', hm'⟩ :=
          map_eq_map_cases (renderSiblings_outlines literal rest)
        · rw [he, he']
          rfl
        · obtain ⟨hout', hclosed'⟩ := Prod.mk.inj hm'
          rw [hv, hv']
          simp only [Except.map, Written.marks, brackets_append, hout, hout', hclosed']

end

theorem render_outlines (list : List Node) :
    (render (Node.outlines false list)).map brackets = (render list).map brackets := by
  induction list with
  | nil => rfl
  | cons n rest ih =>
    rw [Node.outlines, render, render]
    obtain ⟨e, he, he'⟩ | ⟨w, w', hw, hw', hm⟩ := map_eq_map_cases (renderNode_outline false n)
    · rw [he, he']
      rfl
    · rw [hw, hw']
      obtain ⟨e, he, he'⟩ | ⟨s, s', hs, hs', hb⟩ := map_eq_map_cases ih
      · rw [he, he']
        rfl
      · rw [hs, hs']
        have hout : brackets w.out = brackets w'.out := congrArg Prod.fst hm
        have happend : brackets (w.out ++ s) = brackets (w'.out ++ s') := by
          rw [brackets_append, brackets_append, hout, hb]
        exact congrArg Except.ok happend

end Stencil.Markup
