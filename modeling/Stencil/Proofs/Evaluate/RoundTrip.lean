import Stencil.Proofs.Evaluate.Rules
import Stencil.Proofs.Template.Inclusion
import Stencil.Proofs.Template.Scanning
import Stencil.Proofs.Unit.Lexing

namespace Stencil

open Ascii Text

def Markup.Attribute.HoleFree (a : Markup.Attribute) : Prop :=
  (a.ns = [] → ¬ Directive.lead <+: a.key) ∧ Plain a.value

inductive Markup.Node.HoleFree : Markup.Node → Prop where
  | element {ns tag attrs children} : (∀ a ∈ attrs, a.HoleFree) → (∀ c ∈ children, HoleFree c) →
      HoleFree (.element ns tag attrs children)
  | text {data} : data ≠ [] → Plain data → HoleFree (.text data)
  | comment {data} : HoleFree (.comment data)
  | doctype {name attrs} : HoleFree (.doctype name attrs)

theorem Page.expandAll_append (included : Site → Text → Expand (List PageNode)) (site : Site)
    (first second : List Markup.Node) :
    expandAll included site (first ++ second) = do
      let a ← expandAll included site first
      let b ← expandAll included site second
      return a ++ b := by
  induction first with
  | nil => simp [expandAll]
  | cons n first ih =>
    simp only [List.cons_append, expandAll, ih, bind_assoc, pure_bind, List.append_assoc]

theorem Reading.nodes?_append (first second : List PageNode) :
    nodes? (first ++ second) = do
      let a ← nodes? first
      let b ← nodes? second
      return a ++ b := by
  induction first with
  | nil => simp [nodes?]
  | cons n first ih =>
    simp only [List.cons_append, nodes?, ih, bind_assoc, pure_bind, List.append_assoc]

theorem Evaluate.nodes_append (page : List Markup.Node) (bindings : Bindings)
    (first second : List Tree) :
    nodes page bindings (first ++ second) = do
      let a ← nodes page bindings first
      let b ← nodes page bindings second
      return a ++ b := by
  induction first with
  | nil => simp [nodes]
  | cons n first ih =>
    simp only [List.cons_append, nodes, ih, bind_assoc, pure_bind, List.append_assoc]

theorem Reading.text?_plain {s : Text} (h : Plain s) : text? s = some (Segments.ofLiteral s) := by
  rw [text?, Stretch.ofText_plain h]
  cases s with
  | nil => rfl
  | cons c s => simp [Stretch.literals, Segments.ofLiteral, stretch?]

theorem Segments.occurrences_ofLiteral (s : Text) : occurrences (ofLiteral s) = [] := by
  unfold ofLiteral
  split <;> rfl

theorem Evaluate.text_ofLiteral (page : List Markup.Node) (bindings : Bindings) (s : Text) :
    text page bindings (Segments.ofLiteral s) = pure s := by
  cases s with
  | nil => rfl
  | cons c s => simp [text, Segments.ofLiteral, segment]

def Markup.Attribute.toAttr (a : Markup.Attribute) : Attr :=
  ⟨a.ns, a.key, Segments.ofLiteral a.value⟩

theorem Directive.read_holeFree {attrs : List Markup.Attribute} (h : ∀ a ∈ attrs, a.HoleFree) :
    read attrs = .ok ({}, attrs) := by
  refine readFrom_of_nameOf? {} fun a ha => ?_
  unfold nameOf?
  split
  · rename_i hns
    have hkey : ¬ lead <+: a.key := (h a ha).1 (List.isEmpty_iff.mp hns)
    rw [← Lexeme.startsWith_iff, startsWith] at hkey
    simpa using hkey
  · rfl

theorem Reading.attrs?_holeFree {attrs : List Markup.Attribute} (h : ∀ a ∈ attrs, a.HoleFree) :
    attrs? attrs = some (attrs.map Markup.Attribute.toAttr) := by
  induction attrs with
  | nil => rfl
  | cons a attrs ih =>
    obtain ⟨ha, hrest⟩ := List.forall_mem_cons.mp h
    have hattr : attr? a = some a.toAttr := by
      rw [attr?, text?_plain ha.2]
      rfl
    unfold attrs? at ih ⊢
    rw [List.mapM_cons, hattr, ih hrest]
    rfl

theorem Markup.Attribute.occurrences_toAttr (attrs : List Markup.Attribute) :
    (attrs.map toAttr).flatMap Attr.occurrences = [] := by
  induction attrs with
  | nil => rfl
  | cons a attrs ih =>
    rw [List.map_cons, List.flatMap_cons, ih, List.append_nil]
    exact Segments.occurrences_ofLiteral a.value

theorem Evaluate.attrs_toAttr (page : List Markup.Node) (bindings : Bindings)
    (list : List Markup.Attribute) :
    attrs page bindings (list.map Markup.Attribute.toAttr) = pure list := by
  induction list with
  | nil => rfl
  | cons a list ih =>
    unfold attrs at ih ⊢
    rw [List.map_cons, List.mapM_cons, ih, Markup.Attribute.toAttr, text_ofLiteral]
    rfl

/-- The nodes come out of every stage as they went in: as `page` with its files put in, as `trees`
without an occurrence of a hole, and as themselves when the holes are filled. -/
structure Kept (site : Page.Site) (list : List Markup.Node) (page : List PageNode)
    (trees : List Tree) : Prop where
  expanded : ∀ included, Page.expandAll included site list = pure page
  read : Reading.nodes? page = some trees
  silent : Tree.occurrencesIn trees = []
  evaluated : ∀ whole bindings, Evaluate.nodes whole bindings trees = pure list

namespace Kept

variable {site : Page.Site} {list second : List Markup.Node} {page page' : List PageNode}
  {trees trees' : List Tree}

theorem nil : Kept site [] [] [] :=
  ⟨fun _ => by simp [Page.expandAll], by simp [Reading.nodes?], rfl,
    fun _ _ => by simp [Evaluate.nodes]⟩

theorem append (h : Kept site list page trees) (h' : Kept site second page' trees') :
    Kept site (list ++ second) (page ++ page') (trees ++ trees') where
  expanded := by
    intro included
    rw [Page.expandAll_append, h.expanded, h'.expanded, pure_bind, pure_bind]
  read := by
    rw [Reading.nodes?_append, h.read, h'.read]
    rfl
  silent := by rw [Tree.occurrencesIn_append, h.silent, h'.silent, List.append_nil]
  evaluated := by
    intro whole bindings
    rw [Evaluate.nodes_append, h.evaluated, h'.evaluated, pure_bind, pure_bind]

theorem comment (data : Text) :
    Kept site [.comment data] [.leaf none (.comment data)] [.comment data] :=
  ⟨fun _ => rfl, rfl, rfl, fun _ _ => rfl⟩

theorem doctype (name : Text) (attrs : List Markup.Attribute) :
    Kept site [.doctype name attrs] [.leaf none (.doctype name attrs)]
      [.doctype name attrs] :=
  ⟨fun _ => rfl, rfl, rfl, fun _ _ => rfl⟩

theorem text {data : Text} (hne : data ≠ []) (hplain : Plain data) :
    Kept site [.text data] [.text none data] [.data (Segments.ofLiteral data)] where
  expanded _ := rfl
  read := by
    simp [Reading.nodes?, Reading.node?, Reading.text?_plain hplain]
  silent := by
    simp [Tree.occurrencesIn, Tree.occurrences, Segments.occurrences_ofLiteral]
  evaluated := by
    intro whole bindings
    simp [Evaluate.nodes, Evaluate.node, Evaluate.text_ofLiteral, Markup.textNodes, hne]

theorem element {ns tag : Text} {attrs : List Markup.Attribute} (ha : ∀ a ∈ attrs, a.HoleFree)
    (h : Kept site list page trees) :
    Kept site [.element ns tag attrs list] [.element none ns tag attrs page]
      [.element ns tag (attrs.map Markup.Attribute.toAttr) .none trees] where
  expanded := by
    intro included
    have hno : ¬ (none : Option Text) = some Directive.includeHole := by simp
    rw [Page.expandAll, Page.expandNode, Directive.read_holeFree ha]
    dsimp only
    rw [if_neg hno, h.expanded]
    rfl
  read := by
    simp [Reading.nodes?, Reading.node?, Reading.head?, Directive.read_holeFree ha,
      Reading.attrs?_holeFree ha, h.read, Except.toOption]
  silent := by
    simp [Tree.occurrencesIn, Tree.occurrences, Markup.Attribute.occurrences_toAttr, h.silent]
  evaluated := by
    intro whole bindings
    simp [Evaluate.nodes, Evaluate.node, h.evaluated, Evaluate.attrs_toAttr]

end Kept

mutual

theorem kept_of_holeFree (site : Page.Site) (n : Markup.Node) (h : n.HoleFree) :
    ∃ page trees, Kept site [n] page trees := by
  match n with
  | .element ns tag attrs children =>
    cases h with
    | element ha hc =>
      obtain ⟨page, trees, hkept⟩ := kept_all_of_holeFree site children hc
      exact ⟨_, _, hkept.element ha⟩
  | .text data =>
    cases h with
    | text hne hplain => exact ⟨_, _, .text hne hplain⟩
  | .comment data => exact ⟨_, _, .comment data⟩
  | .doctype name attrs => exact ⟨_, _, .doctype name attrs⟩

theorem kept_all_of_holeFree (site : Page.Site) (list : List Markup.Node)
    (h : ∀ n ∈ list, n.HoleFree) : ∃ page trees, Kept site list page trees := by
  match list with
  | [] => exact ⟨_, _, .nil⟩
  | n :: rest =>
    obtain ⟨hn, hrest⟩ := List.forall_mem_cons.mp h
    obtain ⟨page, trees, hkept⟩ := kept_of_holeFree site n hn
    obtain ⟨page', trees', hkept'⟩ := kept_all_of_holeFree site rest hrest
    exact ⟨_, _, hkept.append hkept'⟩

end

namespace Evaluate

theorem expand_kept {fs : Option FileSystem} {active : List Text} {site : Page.Site}
    {list : List Markup.Node} {page : List PageNode} {trees : List Tree}
    (h : Kept site list page trees) : Page.expand fs active site list = pure page := by
  cases fs with
  | none => exact h.expanded _
  | some fs => exact h.expanded _

/-- Nodes without holes come out equal to themselves, whatever is bound and wherever files would be
read from, and nothing is called. -/
theorem substitute_holeFree (fs : Option FileSystem) (dir : Text) {list : List Markup.Node}
    (h : ∀ n ∈ list, n.HoleFree) (bindings : Bindings) :
    ∃ out, substitute fs dir list bindings = (.ok out, {}) ∧
      Markup.Node.equalAll out list = true := by
  refine ⟨list, ?_, Markup.Node.equalAll_refl list⟩
  obtain ⟨page, trees, hkept⟩ :=
    kept_all_of_holeFree ⟨[], if dir.isEmpty then [dot] else dir⟩ list h
  have hscan : ∀ sources,
      (Scan.nodes sources [] page).run Symbols.empty = (.ok trees, Symbols.empty) := by
    intro sources
    refine (Scan.nodes_follows sources [] page).done hkept.read ?_
    rw [hkept.silent]
    rfl
  have hdoc : Document.ofNodes fs dir list =
      .ok ⟨[], PageNode.toNodes page, trees, Symbols.empty, []⟩ := by
    rw [Document.ofNodes, expand_kept hkept]
    simp only [StateT.run_pure, pure_bind, Document.ofPage, hscan]
    rfl
  rw [substitute, hdoc, renderRead, render]
  simp only [Symbols.empty, check, hkept.evaluated]
  rfl

theorem substitute_holeFree_foreign :
    ∃ out, substitute none [] [.doctype (utf8 "html")
          [⟨[], utf8 "system", utf8 "about:legacy-compat"⟩],
        .comment (utf8 "$\x7ba\x7d"),
        .element (utf8 "svg") (utf8 "svg") [⟨utf8 "xlink", utf8 "ml:content", utf8 "$a"⟩]
          [.text (utf8 "$")]]
        [(utf8 "a", .stringFunction fun _ _ _ => .panic [])] = (.ok out, {}) ∧
      Markup.Node.equalAll out [.doctype (utf8 "html")
          [⟨[], utf8 "system", utf8 "about:legacy-compat"⟩],
        .comment (utf8 "$\x7ba\x7d"),
        .element (utf8 "svg") (utf8 "svg") [⟨utf8 "xlink", utf8 "ml:content", utf8 "$a"⟩]
          [.text (utf8 "$")]] = true := by
  refine substitute_holeFree none [] ?_ _
  have hvalue : Plain (utf8 "$a") := by unfold Plain; decide
  have htext : Plain (utf8 "$") := by unfold Plain; decide
  have hattr : Markup.Attribute.HoleFree ⟨utf8 "xlink", utf8 "ml:content", utf8 "$a"⟩ :=
    ⟨fun hns => absurd hns (by decide), hvalue⟩
  intro n hn
  simp only [List.mem_cons, List.not_mem_nil, or_false] at hn
  rcases hn with rfl | rfl | rfl
  · exact .doctype
  · exact .comment
  · refine .element (List.forall_mem_singleton.mpr hattr) (List.forall_mem_singleton.mpr ?_)
    exact .text (by decide) htext

end Evaluate

end Stencil
