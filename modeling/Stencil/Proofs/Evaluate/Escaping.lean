import Stencil.Proofs.Evaluate.Checking
import Stencil.Proofs.Markup.Outline

namespace Stencil

open Ascii Text

open Markup (brackets holdsLiteralText)

def Strip.literalInside (strip : Strip) (literal : Bool) (ns tag : Text) : Bool :=
  if strip = .always then literal else holdsLiteralText ns tag

namespace Tree

mutual

def bareHoles (literal : Bool) : Tree → List Text
  | .data segments => if literal then (Segments.occurrences segments).map Occurrence.hole else []
  | .comment _ => []
  | .doctype _ _ => []
  | .element ns tag _ strip children => bareHolesIn (strip.literalInside literal ns tag) children
  | .hole ns tag _ strip name _ _ => if strip.literalInside literal ns tag then [name] else []

def bareHolesIn (literal : Bool) : List Tree → List Text
  | [] => []
  | t :: rest => bareHoles literal t ++ bareHolesIn literal rest

end

end Tree

namespace BindingTable

/-- The tables bind the same, but for the contents of strings that are not empty. -/
def Varies (table other : BindingTable) : Prop :=
  ∀ hole, table.lookup hole = other.lookup hole ∨
    ∃ s t, s ≠ [] ∧ t ≠ [] ∧ table.lookup hole = some (some (.string s)) ∧
      other.lookup hole = some (some (.string t))

def SameBrackets (table other : BindingTable) (hole : Text) : Prop :=
  ∀ s t, table.lookup hole = some (some (.string s)) → other.lookup hole = some (some (.string t)) →
    brackets s = brackets t

end BindingTable

namespace Evaluate

def Pairs {α : Type} (R : α → α → Prop) (x y : Evaluation α) : Prop :=
  ∀ trace, ∃ a b next, x.run trace = (a, next) ∧ y.run trace = (b, next) ∧ R a b

namespace Pairs

variable {α β : Type} {R : α → α → Prop} {S : β → β → Prop}

theorem pure {a b : α} (h : R a b) : Pairs R (Pure.pure a) (Pure.pure b) :=
  fun trace => ⟨a, b, trace, rfl, rfl, h⟩

theorem refl (x : Evaluation α) (h : ∀ a, R a a) : Pairs R x x :=
  fun _ => ⟨_, _, _, rfl, rfl, h _⟩

theorem bind {x y : Evaluation α} {f g : α → Evaluation β} (h : Pairs R x y)
    (hf : ∀ a b, R a b → Pairs S (f a) (g b)) : Pairs S (x >>= f) (y >>= g) := by
  intro trace
  obtain ⟨a, b, next, hx, hy, hab⟩ := h trace
  obtain ⟨c, d, last, hc, hd, hcd⟩ := hf a b hab next
  refine ⟨c, d, last, ?_, ?_, hcd⟩
  · rw [StateT.run_bind, hx]
    exact hc
  · rw [StateT.run_bind, hy]
    exact hd

end Pairs

structure Alike (literal : Bool) (s t : Text) : Prop where
  empty : s = [] ↔ t = []
  same : literal = true → brackets s = brackets t

def SameOutline (literal : Bool) (a b : List Markup.Node) : Prop :=
  Markup.Node.outlines literal a = Markup.Node.outlines literal b

namespace SameOutline

variable {literal : Bool} {a b c d : List Markup.Node}

theorem isEmpty_eq (h : SameOutline literal a b) : a.isEmpty = b.isEmpty := by
  rw [← Markup.Node.outlines_isEmpty literal a, h, Markup.Node.outlines_isEmpty]

theorem append (h : SameOutline literal a b) (h' : SameOutline literal c d) :
    SameOutline literal (a ++ c) (b ++ d) := by
  unfold SameOutline at h h' ⊢
  rw [Markup.Node.outlines_append, Markup.Node.outlines_append, h, h']

theorem render_eq (h : SameOutline false a b) :
    (Markup.render a).map brackets = (Markup.render b).map brackets := by
  rw [← Markup.render_outlines, h, Markup.render_outlines]

end SameOutline

namespace Alike

variable {literal : Bool}

theorem refl (s : Text) : Alike literal s s :=
  ⟨Iff.rfl, fun _ => rfl⟩

theorem isEmpty_eq {s t : Text} (h : Alike literal s t) : s.isEmpty = t.isEmpty := by
  rw [Bool.eq_iff_iff, List.isEmpty_iff, List.isEmpty_iff]
  exact h.empty

theorem append {s t s' t' : Text} (h : Alike literal s t) (h' : Alike literal s' t') :
    Alike literal (s ++ s') (t ++ t') := by
  refine ⟨?_, fun hl => ?_⟩
  · rw [List.append_eq_nil_iff, List.append_eq_nil_iff, h.empty, h'.empty]
  · rw [Markup.brackets_append, Markup.brackets_append, h.same hl, h'.same hl]

theorem textNodes {s t : Text} (h : Alike literal s t) :
    SameOutline literal (textNodes s) (textNodes t) := by
  unfold SameOutline Markup.textNodes
  by_cases hs : s = []
  · rw [hs, h.empty.mp hs]
  · have ht : t ≠ [] := mt h.empty.mpr hs
    rw [if_neg (by simpa using hs), if_neg (by simpa using ht)]
    cases hl : literal with
    | false => rfl
    | true => simp [Markup.Node.outlines, Markup.Node.outline, h.same hl]

end Alike

section

variable {table other : BindingTable}

theorem lookup_cases (hv : table.Varies other) (hole : Text) :
    table.bindings.lookup hole = other.bindings.lookup hole ∨
      ∃ s t, table.bindings.lookup hole = some (.string s) ∧
        other.bindings.lookup hole = some (.string t) ∧
        ∀ literal, (literal = true → table.SameBrackets other hole) → Alike literal s t := by
  simp only [BindingTable.lookup_bindings]
  obtain heq | ⟨s, t, hs, ht, hl, hl'⟩ := hv hole
  · exact .inl (congrArg Option.join heq)
  · refine .inr ⟨s, t, by rw [hl]; rfl, by rw [hl']; rfl, fun literal hsame => ⟨?_, ?_⟩⟩
    · simp [hs, ht]
    · exact fun hliteral => hsame hliteral s t hl hl'

theorem placeholder_pairs (hv : table.Varies other) (page : List Markup.Node) {literal : Bool}
    {hole : Text} (args : List Text) (h : literal = true → table.SameBrackets other hole) :
    Pairs (Alike literal) (placeholder page table.bindings hole args)
      (placeholder page other.bindings hole args) := by
  obtain heq | ⟨s, t, hs, ht, halike⟩ := lookup_cases hv hole
  · rw [placeholder, placeholder, heq]
    exact .refl _ .refl
  · rw [placeholder, placeholder, hs, ht]
    exact .pure (halike literal h)

theorem segment_pairs (hv : table.Varies other) (page : List Markup.Node) {literal : Bool}
    {s : Segment}
    (h : literal = true → ∀ o ∈ s.occurrences, table.SameBrackets other o.hole) :
    Pairs (Alike literal) (segment page table.bindings s) (segment page other.bindings s) := by
  match s with
  | .literal s => exact .pure (.refl s)
  | .variable hole => exact placeholder_pairs hv page [] fun hl => h hl _ List.mem_cons_self
  | .call hole args => exact placeholder_pairs hv page args fun hl => h hl _ List.mem_cons_self

theorem text_pairs (hv : table.Varies other) (page : List Markup.Node) {literal : Bool}
    {segments : Segments}
    (h : literal = true → ∀ o ∈ Segments.occurrences segments, table.SameBrackets other o.hole) :
    Pairs (Alike literal) (text page table.bindings segments)
      (text page other.bindings segments) := by
  induction segments with
  | nil => exact .pure (.refl [])
  | cons s rest ih =>
    have hs := fun hl => (List.forall_mem_append.mp (h hl)).1
    have hrest := fun hl => (List.forall_mem_append.mp (h hl)).2
    rw [text_cons, text_cons]
    refine (segment_pairs hv page hs).bind fun a b hab => ?_
    exact (ih hrest).bind fun c d hcd => .pure (hab.append hcd)

theorem attrs_pairs (hv : table.Varies other) (page : List Markup.Node) (list : List Attr) :
    Pairs (fun a b => a.map Markup.Attribute.outline = b.map Markup.Attribute.outline)
      (attrs page table.bindings list) (attrs page other.bindings list) := by
  induction list with
  | nil => exact .pure rfl
  | cons a list ih =>
    unfold attrs at ih ⊢
    rw [List.mapM_cons, List.mapM_cons, bind_assoc, bind_assoc]
    -- an attribute value is written with escapes wherever it stands
    have hfalse : false = true →
        ∀ o ∈ Segments.occurrences a.value, table.SameBrackets other o.hole := Bool.noConfusion
    refine (text_pairs hv page hfalse).bind fun s t _ => ?_
    simp only [pure_bind]
    refine ih.bind fun c d hcd => .pure ?_
    rw [List.map_cons, List.map_cons, hcd]
    rfl

theorem content_pairs (hv : table.Varies other) (page : List Markup.Node) {literal : Bool}
    {hole : Text} (replaced : List Markup.Node) (args : List Text)
    (h : literal = true → table.SameBrackets other hole) :
    Pairs (fun a b => SameOutline literal a.1 b.1 ∧ a.2 = b.2)
      (content page table.bindings replaced hole args)
      (content page other.bindings replaced hole args) := by
  obtain heq | ⟨s, t, hs, ht, halike⟩ := lookup_cases hv hole
  · rw [content, content, heq]
    exact .refl _ fun _ => ⟨rfl, rfl⟩
  · have hst := halike literal h
    rw [content, content, hs, ht]
    exact .pure ⟨hst.textNodes, hst.isEmpty_eq⟩

theorem element_pairs (hv : table.Varies other) (page : List Markup.Node) {literal : Bool}
    {ns tag : Text} (attributes : List Attr) {a b : List Markup.Node}
    (h : SameOutline (holdsLiteralText ns tag) a b) :
    Pairs (SameOutline literal)
      (do return [.element ns tag (← attrs page table.bindings attributes) a])
      (do return [.element ns tag (← attrs page other.bindings attributes) b]) := by
  refine (attrs_pairs hv page attributes).bind fun c d hcd => .pure ?_
  unfold SameOutline at h ⊢
  simp only [Markup.Node.outlines, Markup.Node.outline, hcd, h]

mutual

theorem node_pairs (hv : table.Varies other) (page : List Markup.Node) {literal : Bool} {t : Tree}
    (h : ∀ hole ∈ t.bareHoles literal, table.SameBrackets other hole) :
    Pairs (SameOutline literal)
      (node page table.bindings t) (node page other.bindings t) := by
  match t with
  | .data segments =>
    have hbare : literal = true →
        ∀ o ∈ Segments.occurrences segments, table.SameBrackets other o.hole := by
      intro hl o ho
      refine h o.hole ?_
      rw [Tree.bareHoles, if_pos hl]
      exact List.mem_map_of_mem ho
    exact (text_pairs hv page hbare).bind fun s t hst => .pure hst.textNodes
  | .comment s => exact .pure rfl
  | .doctype name attrs => exact .pure rfl
  | .element ns tag attributes strip children =>
    have hinner : ∀ hole ∈ Tree.bareHolesIn (strip.literalInside literal ns tag) children,
        table.SameBrackets other hole := h
    -- `hab` is about the content where it will stand: inside the element, or in its place
    refine (nodes_pairs hv page hinner).bind fun a b hab => ?_
    rw [hab.isEmpty_eq]
    cases strip with
    | none => exact element_pairs hv page attributes hab
    | always => exact .pure hab
    | ifEmpty =>
      cases hb : b.isEmpty with
      | true =>
        rw [List.isEmpty_iff.mp (hab.isEmpty_eq.trans hb), List.isEmpty_iff.mp hb]
        exact .pure rfl
      | false => exact element_pairs hv page attributes hab
  | .hole ns tag attributes strip name args replaced =>
    have hbare : strip.literalInside literal ns tag = true → table.SameBrackets other name := by
      intro hl
      refine h name ?_
      rw [Tree.bareHoles, if_pos hl]
      exact List.mem_singleton_self name
    refine (content_pairs hv page replaced args hbare).bind ?_
    rintro ⟨a, isEmpty⟩ ⟨b, _⟩ ⟨hab, rfl⟩
    cases strip with
    | none => exact element_pairs hv page attributes hab
    | always => exact .pure hab
    | ifEmpty =>
      cases isEmpty with
      | true => exact .pure rfl
      | false => exact element_pairs hv page attributes hab

theorem nodes_pairs (hv : table.Varies other) (page : List Markup.Node) {literal : Bool}
    {list : List Tree}
    (h : ∀ hole ∈ Tree.bareHolesIn literal list, table.SameBrackets other hole) :
    Pairs (SameOutline literal)
      (nodes page table.bindings list) (nodes page other.bindings list) := by
  match list with
  | [] => exact .pure rfl
  | t :: rest =>
    obtain ⟨ht, hrest⟩ := List.forall_mem_append.mp h
    refine (node_pairs hv page ht).bind fun a b hab => ?_
    exact (nodes_pairs hv page hrest).bind fun c d hcd => .pure (hab.append hcd)

end

theorem check_varies (hv : table.Varies other) (path : Text) (entries : List (Text × HoleType)) :
    check path table.bindings entries = check path other.bindings entries := by
  induction entries with
  | nil => rfl
  | cons entry rest ih =>
    obtain ⟨name, used⟩ := entry
    rw [check, check, ih]
    obtain heq | ⟨s, t, hs, ht, -⟩ := lookup_cases hv name
    · rw [heq]
    · rw [hs, ht]
      rfl

end

/-- Two renderings of one template whose bindings differ in nothing but the contents of strings fail
alike before any call, or make the same calls and show documents whose HTML has the same angle
brackets, as long as the strings that are written without escapes have the same. -/
theorem strings_add_no_brackets {o : Origin} {table other : BindingTable} (hv : table.Varies other)
    (hbare : ∀ doc, o.document = .ok doc →
      ∀ hole ∈ Tree.bareHolesIn false doc.tree, table.SameBrackets other hole) :
    (∃ fault, renderRead o.document table.bindings = (.error fault, {}) ∧
      renderRead o.document other.bindings = (.error fault, {})) ∨
    ∃ out out' trace, renderRead o.document table.bindings = (.ok out, trace) ∧
      renderRead o.document other.bindings = (.ok out', trace) ∧
      (Markup.render out).map brackets = (Markup.render out').map brackets := by
  cases hdoc : o.document with
  | error e => exact .inl ⟨.template e, rfl, rfl⟩
  | ok doc =>
    have hcheck := check_varies hv doc.path doc.symbols.entries
    rw [renderRead, renderRead, render, render, hcheck]
    cases check doc.path other.bindings doc.symbols.entries with
    | some fault => exact .inl ⟨fault, rfl, rfl⟩
    | none =>
      obtain ⟨out, out', trace, hrun, hrun', hout⟩ := nodes_pairs hv doc.page (hbare doc hdoc) {}
      exact .inr ⟨out, out', trace, by rw [hrun], by rw [hrun'], hout.render_eq⟩

def captioned : Origin :=
  .nodes none [] [.element [] (utf8 "p") [⟨[], utf8 "title", utf8 "$\x7ba\x7d"⟩]
      [.text (utf8 "$\x7ba\x7d")],
    .element [] (utf8 "script") [] [.text (utf8 "$\x7bb\x7d")]]

def strings (a b : Text) : BindingTable :=
  [(utf8 "a", some (.string a)), (utf8 "b", some (.string b))]

theorem strings_varies {a b c d : Text} (ha : a ≠ []) (hb : b ≠ []) (hc : c ≠ []) (hd : d ≠ []) :
    (strings a b).Varies (strings c d) := by
  intro hole
  unfold strings
  simp only [lookup_cons_ite]
  split
  · exact .inr ⟨a, c, ha, hc, rfl, rfl⟩
  · split
    · exact .inr ⟨b, d, hb, hd, rfl, rfl⟩
    · exact .inl rfl

theorem strings_add_no_brackets_captioned :
    (strings (utf8 "x") (utf8 "1>0")).Varies (strings (utf8 "</p><b>") (utf8 "2>1")) ∧
    ∃ out out' trace,
      renderRead captioned.document (strings (utf8 "x") (utf8 "1>0")).bindings = (.ok out, trace) ∧
      renderRead captioned.document (strings (utf8 "</p><b>") (utf8 "2>1")).bindings =
        (.ok out', trace) ∧
      (Markup.render out).map brackets = (Markup.render out').map brackets := by
  have hv : (strings (utf8 "x") (utf8 "1>0")).Varies (strings (utf8 "</p><b>") (utf8 "2>1")) :=
    strings_varies (by decide) (by decide) (by decide) (by decide)
  refine ⟨hv, ?_⟩
  refine (strings_add_no_brackets (o := captioned) hv ?_).resolve_left ?_
  · intro doc hdoc hole hhole
    obtain rfl := Except.ok.inj hdoc
    obtain rfl : hole = utf8 "b" := List.mem_singleton.mp hhole
    rintro s t ⟨rfl⟩ ⟨rfl⟩
    decide
  · rintro ⟨fault, herror, -⟩
    cases herror

/-- In a script a string is written as it is, so it can end the script and go on with markup. -/
theorem script_string_adds_brackets :
    ∃ out out',
      (strings (utf8 "x") (utf8 "x")).Varies (strings (utf8 "</script><b>") (utf8 "x")) ∧
      substitute none [] [.element [] (utf8 "script") [] [.text (utf8 "$\x7ba\x7d")]]
        (strings (utf8 "x") (utf8 "x")).bindings = (.ok out, {}) ∧
      substitute none [] [.element [] (utf8 "script") [] [.text (utf8 "$\x7ba\x7d")]]
        (strings (utf8 "</script><b>") (utf8 "x")).bindings = (.ok out', {}) ∧
      Markup.render out = .ok (utf8 "<script>x</script>") ∧
      Markup.render out' = .ok (utf8 "<script></script><b></script>") ∧
      (Markup.render out).map brackets ≠ (Markup.render out').map brackets := by
  have hne : brackets (utf8 "<script>x</script>") ≠
      brackets (utf8 "<script></script><b></script>") := by decide
  have hv : (strings (utf8 "x") (utf8 "x")).Varies (strings (utf8 "</script><b>") (utf8 "x")) :=
    strings_varies (by decide) (by decide) (by decide) (by decide)
  exact ⟨_, _, hv, rfl, rfl, rfl, rfl, fun h => hne (Except.ok.inj h)⟩

end Evaluate

end Stencil
