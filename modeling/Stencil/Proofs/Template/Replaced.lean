import Stencil.Proofs.Template.Including
import Stencil.Proofs.Template.Inference
import Stencil.Unit.Compile

namespace Stencil

open Ascii Text

def Directive.replaces (attrs : List Markup.Attribute) : Bool :=
  match read attrs with
  | .ok (d, _) => d.hole.isSome
  | .error _ => false

namespace Markup.Node

mutual

def hollow : Node → Node
  | .element ns tag attrs children =>
    .element ns tag attrs (if Directive.replaces attrs then [] else hollowAll children)
  | .document children => .document (hollowAll children)
  | n => n

def hollowAll : List Node → List Node
  | [] => []
  | n :: rest => hollow n :: hollowAll rest

end

end Markup.Node

namespace PageNode

mutual

def hollow : PageNode → PageNode
  | .element origin ns tag attrs children =>
    .element origin ns tag attrs (if Directive.replaces attrs then [] else hollowAll children)
  | n => n

def hollowAll : List PageNode → List PageNode
  | [] => []
  | n :: rest => hollow n :: hollowAll rest

end

theorem hollowAll_append (first second : List PageNode) :
    hollowAll (first ++ second) = hollowAll first ++ hollowAll second := by
  induction first with
  | nil => rfl
  | cons n first ih => simp [hollowAll, ih]

end PageNode

namespace Tree

mutual

def shown : Tree → Tree
  | .element ns tag attrs strip children => .element ns tag attrs strip (shownAll children)
  | .hole ns tag attrs strip name args _ => .hole ns tag attrs strip name args []
  | t => t

def shownAll : List Tree → List Tree
  | [] => []
  | t :: rest => shown t :: shownAll rest

end

theorem shownAll_append (first second : List Tree) :
    shownAll (first ++ second) = shownAll first ++ shownAll second := by
  induction first with
  | nil => rfl
  | cons t first ih => simp [shownAll, ih]

mutual

theorem occurrences_shown (t : Tree) : t.shown.occurrences = t.occurrences := by
  cases t with
  | element ns tag attrs strip children =>
    simp [shown, occurrences, occurrencesIn_shownAll children]
  | data | comment | doctype | hole => simp [shown, occurrences]

theorem occurrencesIn_shownAll (list : List Tree) :
    occurrencesIn (shownAll list) = occurrencesIn list := by
  cases list with
  | nil => rfl
  | cons t rest =>
    simp [shownAll, occurrencesIn, occurrences_shown t, occurrencesIn_shownAll rest]

end

end Tree

namespace Expr

mutual

theorem ofTree_shown (symbols : Symbols) (t : Tree) :
    ofTree symbols t.shown = ofTree symbols t := by
  cases t with
  | element ns tag attrs strip children =>
    simp only [Tree.shown, ofTree]
    rw [ofTrees_shownAll symbols children]
  | data | comment | doctype | hole => simp only [Tree.shown, ofTree]

theorem ofTrees_shownAll (symbols : Symbols) (list : List Tree) :
    ofTrees symbols (Tree.shownAll list) = ofTrees symbols list := by
  cases list with
  | nil => rfl
  | cons t rest =>
    simp [Tree.shownAll, ofTrees, ofTree_shown symbols t, ofTrees_shownAll symbols rest]

end

end Expr

/-! Putting in files. -/

namespace Page

def Steady (α : Type) (x y : Expand α) : Prop :=
  ∀ s a t, x.run s = .ok (a, t) → ∀ s', ∃ t', y.run s' = .ok (a, t')

theorem run_bind_ok {α β : Type} {x : Expand α} {f : α → Expand β} {s t : Sources} {b : β} :
    (x >>= f).run s = .ok (b, t) ↔ ∃ a s₁, x.run s = .ok (a, s₁) ∧ (f a).run s₁ = .ok (b, t) := by
  rw [run_bind]
  rcases x.run s with e | ⟨a, s₁⟩
  · simp
  · simp

theorem compatible_steady : Compatible Steady where
  pure := by
    rintro α a s _ _ ⟨rfl⟩ s'
    exact ⟨s', rfl⟩
  bind := by
    intro α β x y f g hx hf s b t hrun s'
    obtain ⟨a, s₁, hrun, hrest⟩ := run_bind_ok.mp hrun
    obtain ⟨s₂, hy⟩ := hx s a s₁ hrun s'
    obtain ⟨t', hg⟩ := hf a s₁ b t hrest s₂
    exact ⟨t', run_bind_ok.mpr ⟨a, s₂, hy, hg⟩⟩
  fault := by
    intro α file e s a t hrun
    cases hrun

theorem openFile_steady {fs : FileSystem} {active : List Text} {site : Site} {arg : Text}
    {next : Text → Text → Expand (List PageNode)}
    (h : ∀ target content, Steady _ (next target content) (next target content)) :
    Steady _ (openFile fs active site arg next) (openFile fs active site arg next) := by
  intro s page t hrun s'
  obtain ⟨hvalid, hnew, content, hread, hnext⟩ := openFile_run_ok.mp hrun
  obtain ⟨t', hagain⟩ := h _ content _ page t hnext (s'.record (targetOf site.dir arg) content)
  exact ⟨t', openFile_run_ok.mpr ⟨hvalid, hnew, content, hread, hagain⟩⟩

theorem includeFile_steady (fs : FileSystem) (fuel : Nat) (active : List Text) (site : Site)
    (arg : Text) : Steady _ (includeFile fs fuel active site arg)
      (includeFile fs fuel active site arg) := by
  induction fuel generalizing active site arg with
  | zero =>
    apply openFile_steady
    intro target content
    apply contentNodes_related compatible_steady
    intro nodes s page t hrun
    cases hrun
  | succ fuel ih =>
    apply openFile_steady
    intro target content
    apply contentNodes_related compatible_steady
    intro nodes
    exact expandAll_related compatible_steady (fun arg' => ih _ _ arg') nodes

section Hollow

variable {included : Site → Text → Expand (List PageNode)} {site : Site}

def SameHollow (x y : Expand (List PageNode)) : Prop :=
  ∀ s page t, x.run s = .ok (page, t) → ∀ s', ∃ page' t', y.run s' = .ok (page', t') ∧
    PageNode.hollowAll page' = PageNode.hollowAll page

theorem Steady.sameHollow {x y : Expand (List PageNode)} (h : Steady _ x y) : SameHollow x y := by
  intro s page t hrun s'
  obtain ⟨t', hy⟩ := h s page t hrun s'
  exact ⟨page, t', hy, rfl⟩

theorem sameHollow_pure (page : List PageNode) : SameHollow (pure page) (pure page) :=
  (compatible_steady.pure page).sameHollow

theorem SameHollow.bind {x y : Expand (List PageNode)}
    {f g : List PageNode → Expand (List PageNode)} (hx : SameHollow x y)
    (hf : ∀ page page', PageNode.hollowAll page' = PageNode.hollowAll page →
      SameHollow (f page) (g page')) : SameHollow (x >>= f) (y >>= g) := by
  intro s page t hrun s'
  obtain ⟨first, s₁, hrun, hrest⟩ := run_bind_ok.mp hrun
  obtain ⟨first', s₂, hy, heq⟩ := hx s first s₁ hrun s'
  obtain ⟨page', t', hg, hsame⟩ := hf first first' heq s₁ page t hrest s₂
  exact ⟨page', t', run_bind_ok.mpr ⟨first', s₂, hy, hg⟩, hsame⟩

theorem SameHollow.map {x y : Expand (List PageNode)} {f g : List PageNode → List PageNode}
    (hx : SameHollow x y)
    (hf : ∀ page page', PageNode.hollowAll page' = PageNode.hollowAll page →
      PageNode.hollowAll (g page') = PageNode.hollowAll (f page)) :
    SameHollow (x >>= fun page => pure (f page)) (y >>= fun page => pure (g page)) := by
  refine hx.bind fun page page' heq => ?_
  rintro s _ _ ⟨rfl⟩ s'
  exact ⟨g page', s', rfl, hf page page' heq⟩

mutual

theorem expandNode_hollow (h : ∀ arg, Steady _ (included site arg) (included site arg))
    (n : Markup.Node) :
    SameHollow (expandNode included site n) (expandNode included site n.hollow) := by
  match n with
  | .document children =>
    rw [Markup.Node.hollow, expandNode, expandNode]
    exact expandAll_hollow h children
  | .element ns tag attrs children =>
    rw [Markup.Node.hollow, expandNode, expandNode]
    cases hread : Directive.read attrs with
    | error e =>
      intro s page t hrun
      cases hrun
    | ok p =>
      obtain ⟨d, ordinary⟩ := p
      dsimp only
      by_cases hinclude : d.hole = some Directive.includeHole
      · rw [if_pos hinclude, if_pos hinclude]
        apply Steady.sameHollow
        refine compatible_steady.bind (includeAll_related compatible_steady h _) fun content => ?_
        cases d.strip <;> exact compatible_steady.pure _
      · rw [if_neg hinclude, if_neg hinclude]
        have hreplaces : Directive.replaces attrs = d.hole.isSome := by
          rw [Directive.replaces, hread]
        by_cases hhole : d.hole.isSome
        · -- the children come to nothing that is left
          intro s page t hrun s'
          obtain ⟨content, s₁, -, hpage⟩ := run_bind_ok.mp hrun
          cases hpage
          refine ⟨[.element none ns tag attrs []], s', ?_, ?_⟩
          · rw [hreplaces, if_pos hhole]
            rfl
          · simp [PageNode.hollowAll, PageNode.hollow, hreplaces, hhole]
        · rw [hreplaces, if_neg hhole]
          refine (expandAll_hollow h children).map fun content content' heq => ?_
          simp [PageNode.hollowAll, PageNode.hollow, hreplaces, hhole, heq]
  | .text data => exact sameHollow_pure _
  | .comment data => exact sameHollow_pure _
  | .doctype name attrs => exact sameHollow_pure _
  | .raw data => exact sameHollow_pure _
  | .error data => exact sameHollow_pure _

theorem expandAll_hollow (h : ∀ arg, Steady _ (included site arg) (included site arg))
    (nodes : List Markup.Node) :
    SameHollow (expandAll included site nodes)
      (expandAll included site (Markup.Node.hollowAll nodes)) := by
  match nodes with
  | [] => exact sameHollow_pure []
  | n :: rest =>
    rw [Markup.Node.hollowAll, expandAll, expandAll]
    refine (expandNode_hollow h n).bind fun first first' hfirst => ?_
    refine (expandAll_hollow h rest).map fun others others' hothers => ?_
    rw [PageNode.hollowAll_append, PageNode.hollowAll_append, hfirst, hothers]

end

end Hollow

theorem expand_hollow (fs : Option FileSystem) (active : List Text) (site : Site)
    (nodes : List Markup.Node) :
    SameHollow (expand fs active site nodes)
      (expand fs active site (Markup.Node.hollowAll nodes)) := by
  cases fs with
  | some fs => exact expandAll_hollow (fun arg => includeFile_steady fs _ active site arg) nodes
  | none =>
    apply expandAll_hollow
    intro arg s page t hrun
    cases hrun

end Page

/-! Reading a page. -/

namespace Reading

mutual

theorem node?_hollow {n : PageNode} {trees : List Tree} (h : node? n = some trees) :
    node? n.hollow = some (Tree.shownAll trees) := by
  match n with
  | .text origin data =>
    obtain ⟨segments, hsegments, heq⟩ := Option.bind_eq_some_iff.mp h
    cases heq
    exact h
  | .verbatim origin data =>
    cases h
    rfl
  | .leaf origin node => cases node <;> cases h <;> rfl
  | .element origin ns tag attributes children =>
    rw [node?] at h
    obtain ⟨⟨d, attrs⟩, hhead, h⟩ := Option.bind_eq_some_iff.mp h
    have hreplaces : Directive.replaces attributes = d.hole.isSome := by
      obtain ⟨⟨d', ordinary⟩, hread, hattrs⟩ := Option.bind_eq_some_iff.mp hhead
      obtain ⟨attrs', -, heq⟩ := Option.bind_eq_some_iff.mp hattrs
      cases heq
      rw [Directive.replaces, toOption_eq_some_iff.mp hread]
    rw [PageNode.hollow, hreplaces, node?, hhead]
    dsimp only [Option.bind_eq_bind, Option.bind_some] at h ⊢
    cases hhole : d.hole with
    | some name =>
      rw [hhole] at h
      cases h
      rfl
    | none =>
      rw [hhole] at h
      obtain ⟨inner, hinner, heq⟩ := Option.bind_eq_some_iff.mp h
      cases heq
      rw [Option.isSome_none, if_neg (by simp)]
      dsimp only
      rw [nodes?_hollow hinner]
      rfl

theorem nodes?_hollow {page : List PageNode} {trees : List Tree} (h : nodes? page = some trees) :
    nodes? (PageNode.hollowAll page) = some (Tree.shownAll trees) := by
  match page with
  | [] =>
    cases h
    rfl
  | n :: rest =>
    obtain ⟨first, hfirst, h⟩ := Option.bind_eq_some_iff.mp h
    obtain ⟨others, hothers, h⟩ := Option.bind_eq_some_iff.mp h
    cases h
    rw [PageNode.hollowAll, nodes?, node?_hollow hfirst, nodes?_hollow hothers,
      Tree.shownAll_append]
    rfl

end

end Reading

/-! What is generated from a document. -/

namespace Component

theorem renderMethod_shown (c : Component) :
    renderMethod { c with tree := Tree.shownAll c.tree } = c.renderMethod := by
  simp only [renderMethod, Expr.ofDocument, Expr.ofTrees_shownAll]

theorem methods_shown (c : Component) :
    methods { c with tree := Tree.shownAll c.tree } = c.methods := by
  rw [methods, methods, renderMethod_shown]
  rfl

theorem implementation_shown (c : Component) :
    implementation { c with tree := Tree.shownAll c.tree } = c.implementation := by
  funext imports
  rw [implementation, methods_shown]
  rfl

theorem implementation_congr (c : Component) {tree : List Tree}
    (h : Tree.shownAll c.tree = Tree.shownAll tree) :
    c.implementation = implementation { c with tree := tree } := by
  rw [← implementation_shown c, h]
  exact implementation_shown { c with tree := tree }

theorem interface_congr (c : Component) (tree : List Tree) :
    c.interface = interface { c with tree := tree } := rfl

end Component

namespace Compile

theorem document_units {doc doc' : Document} (hsymbols : doc.symbols = doc'.symbols)
    (htree : Tree.shownAll doc.tree = Tree.shownAll doc'.tree) (name module package : Text)
    (trailers : Option Trailer × Option Trailer) :
    (document doc name module package trailers).map (fun r => (r.implementation, r.interface)) =
      (document doc' name module package trailers).map
        fun r => (r.implementation, r.interface) := by
  obtain ⟨path, page, tree, symbols, files⟩ := doc
  obtain ⟨path', page', tree', symbols', files'⟩ := doc'
  dsimp only at hsymbols htree
  subst hsymbols
  unfold document
  dsimp only
  rw [Component.implementation_congr _ htree, Component.interface_congr _ tree']
  cases unitText (module ++ utf8 ".ml.go") _ Component.implementationImports trailers.1 with
  | error e => simp only [bind, Except.bind, Except.map]
  | ok impl =>
    cases unitText (module ++ utf8 ".mli.go") _ Component.interfaceImports trailers.2 with
    | error e => simp only [bind, Except.bind, Except.map]
    | ok iface => simp only [bind, Except.bind, pure, Except.pure, Except.map]

end Compile

namespace Document

theorem ofNodes_eq_ok_iff {fs : Option FileSystem} {dir : Text} {nodes : List Markup.Node}
    {doc : Document} :
    ofNodes fs dir nodes = .ok doc ↔ ∃ page sources,
      (Page.expand fs [] ⟨[], if dir.isEmpty then [dot] else dir⟩ nodes).run {} =
        .ok (page, sources) ∧ ofPage [] page sources = .ok doc := by
  rw [ofNodes, bind_eq_ok_iff, Prod.exists]

/-- Lists of nodes that differ only in children that directives replace give, where both give a
document, the same holes, the same tree as far as a rendering shows it, and the same units. -/
theorem replaced_children_inert {fs : Option FileSystem} {dir : Text}
    {nodes nodes' : List Markup.Node} {doc doc' : Document}
    (hsame : Markup.Node.hollowAll nodes = Markup.Node.hollowAll nodes')
    (h : ofNodes fs dir nodes = .ok doc) (h' : ofNodes fs dir nodes' = .ok doc') :
    doc.symbols = doc'.symbols ∧ Tree.shownAll doc.tree = Tree.shownAll doc'.tree ∧
      (∀ source package typeName hidden imports,
        Component.implementation ⟨source, package, typeName, doc.symbols, doc.tree, hidden⟩
            imports =
          Component.implementation ⟨source, package, typeName, doc'.symbols, doc'.tree, hidden⟩
            imports ∧
        Component.interface ⟨source, package, typeName, doc.symbols, doc.tree, hidden⟩ imports =
          Component.interface ⟨source, package, typeName, doc'.symbols, doc'.tree, hidden⟩
            imports) ∧
      ∀ name module package trailers,
        (Compile.document doc name module package trailers).map
            (fun r => (r.implementation, r.interface)) =
          (Compile.document doc' name module package trailers).map
            fun r => (r.implementation, r.interface) := by
  obtain ⟨page, sources, hexpand, hpage⟩ := ofNodes_eq_ok_iff.mp h
  obtain ⟨page', sources', hexpand', hpage'⟩ := ofNodes_eq_ok_iff.mp h'
  -- both lists expand as the hollow one does
  have hpages : PageNode.hollowAll page = PageNode.hollowAll page' := by
    obtain ⟨first, t, hfirst, hhollow⟩ := Page.expand_hollow fs [] _ nodes _ page _ hexpand {}
    obtain ⟨second, t', hsecond, hhollow'⟩ :=
      Page.expand_hollow fs [] _ nodes' _ page' _ hexpand' {}
    rw [hsame, hsecond] at hfirst
    cases hfirst
    rw [← hhollow, hhollow']
  obtain ⟨tree, symbols, hread, hsymbols, rfl⟩ := ofPage_eq_ok_iff.mp hpage
  obtain ⟨tree', symbols', hread', hsymbols', rfl⟩ := ofPage_eq_ok_iff.mp hpage'
  have htrees : Tree.shownAll tree = Tree.shownAll tree' := by
    have hhollow := Reading.nodes?_hollow hread
    rw [hpages, Reading.nodes?_hollow hread'] at hhollow
    exact (Option.some.inj hhollow).symm
  have heq : symbols = symbols' := by
    rw [← Tree.occurrencesIn_shownAll, htrees, Tree.occurrencesIn_shownAll, hsymbols'] at hsymbols
    exact (Except.ok.inj hsymbols).symm
  subst heq
  refine ⟨rfl, htrees, fun source package typeName hidden imports => ⟨?_, rfl⟩,
    Compile.document_units rfl htrees⟩
  rw [Component.implementation_congr _ htrees]

def filled (children : List Markup.Node) : List Markup.Node :=
  [.element [] (utf8 "p") [⟨[], utf8 "ml:content", utf8 "x"⟩] children]

theorem replaced_children_inert_clashing :
    ∃ doc doc',
      ofNodes none [] (filled [.text (utf8 "$\x7b")]) = .ok doc ∧
      ofNodes none [] (filled [.element [] (utf8 "i") [⟨[], utf8 "ml:replace", utf8 "x y"⟩] []]) =
        .ok doc' ∧
      doc.symbols = doc'.symbols ∧ Tree.shownAll doc.tree = Tree.shownAll doc'.tree ∧
      ∀ name module package trailers,
        (Compile.document doc name module package trailers).map
            (fun r => (r.implementation, r.interface)) =
          (Compile.document doc' name module package trailers).map
            fun r => (r.implementation, r.interface) := by
  obtain ⟨doc, h⟩ : ∃ doc, ofNodes none [] (filled [.text (utf8 "$\x7b")]) = .ok doc := ⟨_, rfl⟩
  obtain ⟨doc', h'⟩ : ∃ doc, ofNodes none []
    (filled [.element [] (utf8 "i") [⟨[], utf8 "ml:replace", utf8 "x y"⟩] []]) = .ok doc := ⟨_, rfl⟩
  have hsame : Markup.Node.hollowAll (filled [.text (utf8 "$\x7b")]) = Markup.Node.hollowAll
    (filled [.element [] (utf8 "i") [⟨[], utf8 "ml:replace", utf8 "x y"⟩] []]) := rfl
  obtain ⟨hsymbols, htrees, -, hunits⟩ := replaced_children_inert hsame h h'
  exact ⟨doc, doc', h, h', hsymbols, htrees, hunits⟩

end Document

end Stencil
