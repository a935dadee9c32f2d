import Stencil.Proofs.Template.Inference
import Stencil.Proofs.Unit.Syntax
import Stencil.Unit.Component

namespace Stencil

inductive CodeType where
  | string
  | nodes
  | attribute
  | attributes
  | fragmentFunction
  | stringFunction
  deriving DecidableEq, Repr

namespace CodeType

def written : CodeType → Text
  | .string => utf8 "string"
  | .nodes => utf8 "[]*html.Node"
  | .attribute => utf8 "html.Attribute"
  | .attributes => utf8 "[]html.Attribute"
  | .fragmentFunction => utf8 "runtime.HTMLFunc"
  | .stringFunction => utf8 "runtime.StringFunc"

def hasNil : CodeType → Bool
  | .nodes | .attributes | .fragmentFunction | .stringFunction => true
  | .string | .attribute => false

def hasEmptyTest (isString : Bool) : CodeType → Bool
  | .string => true
  | .nodes | .attributes => !isString
  | .attribute | .fragmentFunction | .stringFunction => false

end CodeType

structure Scope where
  methods : List Signature
  locals : Local → Option CodeType

namespace Scope

def method? (scope : Scope) (name : Text) : Option Signature :=
  scope.methods.find? (·.name = name)

def bind (scope : Scope) (name : Local) (type : CodeType) : Scope :=
  { scope with locals := fun other => if other = name then some type else scope.locals other }

end Scope

mutual

inductive HasType : Scope → Expr → CodeType → Prop where
  | quoted {scope} (s : Text) : HasType scope (.quoted s) .string
  | add {scope l r} : HasType scope l .string → HasType scope r .string →
      HasType scope (.add l r) .string
  | read {scope hole signature type} :
      scope.method? (utf8 "Get" ++ Expr.holeName hole) = some signature →
      signature.params = [] → signature.result = CodeType.written type →
      HasType scope (.read hole) type
  | callString {scope f} (args : List Text) : Assignable scope f .stringFunction →
      HasType scope (.callString f args) .string
  | callFragment {scope f} (args : List Text) : Assignable scope f .fragmentFunction →
      HasType scope (.callFragment f args) .nodes
  | text {scope e} : Assignable scope e .string → HasType scope (.text e) .nodes
  | comment {scope} (data : Text) : HasType scope (.comment data) .nodes
  | doctype {scope attrs} (name : Text) : Assignable scope attrs .attributes →
      HasType scope (.doctype name attrs) .nodes
  | element {scope attrs children} (ns tag : Text) : Assignable scope attrs .attributes →
      (∀ e ∈ children, Assignable scope e .nodes) →
      HasType scope (.element ns tag attrs children) .nodes
  | concat {scope parts} : (∀ e ∈ parts, Assignable scope e .nodes) →
      HasType scope (.concat parts) .nodes
  | cloneAll {scope e} : Assignable scope e .nodes → HasType scope (.cloneAll e) .nodes
  | attributes {scope items} : (∀ e ∈ items, HasType scope e .attribute) →
      HasType scope (.attributes items) .attributes
  | item {scope e} (ns key : Text) : Assignable scope e .string →
      HasType scope (.item ns key e) .attribute
  | bound {scope name type} : scope.locals name = some type → HasType scope (.bound name) type
  | unlessEmpty {scope name e type isString result} : HasType scope e type →
      type.hasEmptyTest isString = true → Assignable (scope.bind name type) result .nodes →
      HasType scope (.unlessEmpty name e isString result) .nodes

inductive Assignable : Scope → Expr → CodeType → Prop where
  | typed {scope e type} : HasType scope e type → Assignable scope e type
  | nil {scope type} : CodeType.hasNil type = true → Assignable scope .nil type

end

theorem not_hasType_nil {scope : Scope} {type : CodeType} : ¬ HasType scope .nil type := by
  rintro ⟨⟩

theorem Assignable.hasType {scope : Scope} {e : Expr} {type : CodeType}
    (h : Assignable scope e type) (he : e ≠ .nil) : HasType scope e type := by
  cases h with
  | typed h => exact h
  | nil => exact absurd rfl he

namespace Component

def scope (c : Component) : Scope :=
  ⟨c.methods.map Method.signature, fun _ => none⟩

inductive TypeChecks (c : Component) : Row → Prop where
  | pass {depth signature} : c.scope.method? (utf8 "pass") = some signature →
      signature.params = [] → signature.result = utf8 "*" ++ c.typeName →
      TypeChecks c (.line depth (utf8 "s = s.pass()"))
  | give {depth e type} : c.renderMethod.signature.result = CodeType.written type →
      Assignable c.scope e type → TypeChecks c (.build depth (utf8 "return ") e)

def RenderTypeChecks (c : Component) : Prop :=
  ∀ row ∈ c.renderMethod.body, c.TypeChecks row

end Component

namespace Tree

mutual

def within : Tree → List Tree
  | .element ns tag attrs strip children =>
    .element ns tag attrs strip children :: withinAll children
  | .data text => [.data text]
  | .comment text => [.comment text]
  | .doctype name attrs => [.doctype name attrs]
  | .hole ns tag attrs strip name args replaced => [.hole ns tag attrs strip name args replaced]

def withinAll : List Tree → List Tree
  | [] => []
  | t :: rest => within t ++ withinAll rest

end

mutual

theorem occurrences_of_within {t u : Tree} (h : u ∈ t.within) :
    ∀ o ∈ u.occurrences, o ∈ t.occurrences := by
  cases t with
  | element ns tag attrs strip children =>
    rcases List.mem_cons.mp h with rfl | h
    · exact fun o ho => ho
    · intro o ho
      exact List.mem_append_right _ (occurrences_of_withinAll h o ho)
  | data text => rw [List.mem_singleton.mp h]; exact fun o ho => ho
  | comment text => rw [List.mem_singleton.mp h]; exact fun o ho => ho
  | doctype name attrs => rw [List.mem_singleton.mp h]; exact fun o ho => ho
  | hole ns tag attrs strip name args replaced =>
    rw [List.mem_singleton.mp h]; exact fun o ho => ho

theorem occurrences_of_withinAll {list : List Tree} {u : Tree} (h : u ∈ withinAll list) :
    ∀ o ∈ u.occurrences, o ∈ occurrencesIn list := by
  cases list with
  | nil => cases h
  | cons t rest =>
    intro o ho
    rcases List.mem_append.mp h with h | h
    · exact List.mem_append_left _ (occurrences_of_within h o ho)
    · exact List.mem_append_right _ (occurrences_of_withinAll h o ho)

end

/-- Siblings that come to nothing before any hole is filled: there are none, or there is only one
element that its own such content takes the place of. -/
inductive Vacant : List Tree → Prop where
  | nil : Vacant []
  | stripped {ns tag attrs children} : Vacant children →
      Vacant [.element ns tag attrs .always children]

def Binds : Tree → Prop
  | .element _ _ _ .ifEmpty children => ¬ Vacant children
  | _ => True

theorem forall_binds_iff (list : List Tree) :
    (∀ u ∈ list, u.Binds) ↔
      ∀ ns tag attrs children, .element ns tag attrs .ifEmpty children ∈ list →
        ¬ Vacant children := by
  constructor
  · intro h ns tag attrs children hmem
    exact h _ hmem
  · intro h u hmem
    match u with
    | .element ns tag attrs .ifEmpty children => exact h ns tag attrs children hmem
    | .element _ _ _ .none _ | .element _ _ _ .always _ | .data _ | .comment _ | .doctype _ _
    | .hole _ _ _ _ _ _ _ => trivial

end Tree

namespace Expr

theorem ofTree_eq_nil_iff (symbols : Symbols) (t : Tree) :
    ofTree symbols t = .nil ↔
      ∃ ns tag attrs children, t = .element ns tag attrs .always children ∧
        siblings (ofTrees symbols children) = .nil := by
  cases t with
  | data text => simp [ofTree]
  | comment text => simp [ofTree]
  | doctype name attrs => simp [ofTree]
  | element ns tag attrs strip children =>
    cases strip with
    | none => simp [ofTree]
    | ifEmpty => simp [ofTree]
    | always =>
      constructor
      · intro h
        exact ⟨ns, tag, attrs, children, rfl, by simpa [ofTree] using h⟩
      · rintro ⟨ns, tag, attrs, children, ht, h⟩
        cases ht
        simpa [ofTree] using h
  | hole ns tag attrs strip name args replaced =>
    have hne : ∀ b, asNodes (content symbols name args).1 b ≠ .nil := by
      intro b
      unfold content
      cases b <;> split <;> simp [asNodes]
    cases strip <;> simp [ofTree, hne]

theorem siblings_ofTrees_eq_nil_iff (symbols : Symbols) (children : List Tree) :
    siblings (ofTrees symbols children) = .nil ↔ Tree.Vacant children := by
  constructor
  · intro h
    match children with
    | [] => exact .nil
    | [t] =>
      have ht : ofTree symbols t = .nil := by simpa [ofTrees, siblings] using h
      obtain ⟨ns, tag, attrs, inner, rfl, hinner⟩ := (ofTree_eq_nil_iff symbols t).mp ht
      exact .stripped ((siblings_ofTrees_eq_nil_iff symbols inner).mp hinner)
    | t :: t' :: rest => simp [ofTrees, siblings] at h
  · intro h
    induction h with
    | nil => rfl
    | stripped hv ih => simpa [ofTrees, siblings, ofTree] using ih

end Expr

/-! The expressions of a document in a scope that has a getter for every hole. -/

def HoleType.code : HoleType → CodeType
  | .fragment => .nodes
  | .fragmentFunction => .fragmentFunction
  | .stringFunction => .stringFunction
  | _ => .string

theorem HoleType.written_code (t : HoleType) : t.code.written = t.codeType := by
  cases t <;> rfl

def Scope.Serves (scope : Scope) (symbols : Symbols) : Prop :=
  ∀ hole type, symbols.lookup? hole = some type → HasType scope (.read hole) type.code

namespace Expr

variable {scope : Scope} {symbols : Symbols}

theorem segment_hasType (hs : scope.Serves symbols) {s : Segment}
    (ho : ∀ o ∈ s.occurrences, o.Typed symbols) : HasType scope (segment s) .string := by
  match s with
  | .literal s => exact .quoted s
  | .variable hole =>
    have h : symbols.lookup? hole = some .string := ho (.value hole) (by simp [Segment.occurrences])
    exact hs hole .string h
  | .call hole args =>
    have h := (ho (.call hole args) (by simp [Segment.occurrences])).2
    exact .callString args (.typed (hs hole .stringFunction h))

theorem foldl_add_hasType {rest : List Expr} {first : Expr} (hf : HasType scope first .string)
    (hr : ∀ e ∈ rest, HasType scope e .string) : HasType scope (rest.foldl .add first) .string := by
  induction rest generalizing first with
  | nil => exact hf
  | cons e rest ih =>
    obtain ⟨he, hrest⟩ := List.forall_mem_cons.mp hr
    exact ih (.add hf he) hrest

theorem segments_hasType (hs : scope.Serves symbols) {list : Segments}
    (ho : ∀ o ∈ Segments.occurrences list, o.Typed symbols) :
    HasType scope (segments list) .string := by
  have hall : ∀ s ∈ list, HasType scope (segment s) .string := fun s hmem =>
    segment_hasType hs fun o h => ho o (List.mem_flatMap.mpr ⟨s, hmem, h⟩)
  cases list with
  | nil => exact .quoted []
  | cons first rest =>
    obtain ⟨hfirst, hrest⟩ := List.forall_mem_cons.mp hall
    refine foldl_add_hasType hfirst ?_
    intro e he
    obtain ⟨s, hmem, rfl⟩ := List.mem_map.mp he
    exact hrest s hmem

theorem attrs_assignable (hs : scope.Serves symbols) {list : List Attr}
    (ho : ∀ o ∈ list.flatMap Attr.occurrences, o.Typed symbols) :
    Assignable scope (attrs list) .attributes := by
  unfold attrs
  split
  · exact .nil rfl
  · refine .typed (.attributes ?_)
    intro e he
    obtain ⟨a, ha, rfl⟩ := List.mem_map.mp he
    refine .item a.ns a.key (.typed (segments_hasType hs ?_))
    intro o h
    exact ho o (List.mem_flatMap.mpr ⟨a, ha, h⟩)

theorem literalAttrs_assignable (list : List Markup.Attribute) :
    Assignable scope (literalAttrs list) .attributes := by
  unfold literalAttrs
  split
  · exact .nil rfl
  · refine .typed (.attributes ?_)
    intro e he
    obtain ⟨a, -, rfl⟩ := List.mem_map.mp he
    exact .item a.ns a.key (.typed (.quoted a.value))

def contentCode (isString : Bool) : CodeType :=
  if isString then .string else .nodes

theorem contentCode_hasEmptyTest (isString : Bool) :
    (contentCode isString).hasEmptyTest isString = true := by
  cases isString <;> rfl

theorem content_hasType (hs : scope.Serves symbols) {hole : Text} {args : List Text}
    (ho : (Occurrence.content hole args).Typed symbols) :
    HasType scope (content symbols hole args).1 (contentCode (content symbols hole args).2) := by
  cases args with
  | nil =>
    rcases ho with h | h
    · simp only [content, h]
      exact .cloneAll (.typed (hs hole _ h))
    · simp only [content, h]
      exact hs hole _ h
  | cons arg args =>
    rcases ho with h | h
    · simp only [content, h]
      exact .cloneAll (.typed (.callFragment _ (.typed (hs hole _ h))))
    · simp only [content, h]
      exact .callString _ (.typed (hs hole _ h))

theorem asNodes_hasType {e : Expr} {isString : Bool} (h : HasType scope e (contentCode isString)) :
    HasType scope (asNodes e isString) .nodes := by
  cases isString with
  | true => exact .text (.typed h)
  | false => exact h

theorem siblings_assignable_iff (parts : List Expr) :
    Assignable scope (siblings parts) .nodes ↔ ∀ e ∈ parts, Assignable scope e .nodes := by
  match parts with
  | [] => exact ⟨fun _ => by simp, fun _ => .nil rfl⟩
  | [e] => simp [siblings]
  | e :: e' :: rest =>
    constructor
    · intro h
      cases h with
      | typed h =>
        cases h with
        | concat h => exact h
    · exact fun h => .typed (.concat h)

theorem serves_bind (hs : scope.Serves symbols) (name : Local) (type : CodeType) :
    (scope.bind name type).Serves symbols := by
  intro hole t hl
  cases hs hole t hl with
  | read hm hp hr => exact .read hm hp hr

theorem bound_hasType (name : Local) (type : CodeType) :
    HasType (scope.bind name type) (.bound name) type :=
  .bound (by simp [Scope.bind])

theorem element_hasType_iff {list : List Attr} (ha : Assignable scope (attrs list) .attributes)
    (ns tag : Text) (children : List Expr) :
    HasType scope (.element ns tag (attrs list) children) .nodes ↔
      ∀ e ∈ children, Assignable scope e .nodes := by
  constructor
  · intro h
    cases h with
    | element _ _ _ hc => exact hc
  · exact fun h => .element ns tag ha h

theorem unlessEmpty_children_iff (content : Expr) {list : List Attr}
    (ha : ∀ type, Assignable (scope.bind .children type) (attrs list) .attributes) (ns tag : Text) :
    HasType scope (.unlessEmpty .children content false
        (.element ns tag (attrs list) [.bound .children])) .nodes ↔
      HasType scope content .nodes := by
  constructor
  · intro h
    cases h with
    | @unlessEmpty _ _ _ type _ _ hc ht hr =>
      cases hr with
      | typed hr =>
        cases hr with
        | element _ _ _ hb =>
          cases hb (.bound .children) (by simp) with
          | typed hb =>
            cases hb with
            | bound hb =>
              simp only [Scope.bind, if_true, Option.some.injEq] at hb
              exact hb ▸ hc
  · intro h
    refine .unlessEmpty h rfl (.typed (.element ns tag (ha .nodes) ?_))
    simp only [List.forall_mem_singleton]
    exact .typed (bound_hasType _ _)

mutual

theorem ofTree_assignable_iff (hs : scope.Serves symbols) (t : Tree)
    (ho : ∀ o ∈ t.occurrences, o.Typed symbols) :
    Assignable scope (ofTree symbols t) .nodes ↔ ∀ u ∈ t.within, u.Binds := by
  cases t with
  | data list =>
    simp only [Tree.within, List.forall_mem_singleton, Tree.Binds, iff_true, ofTree]
    exact .typed (.text (.typed (segments_hasType hs ho)))
  | comment data =>
    simp only [Tree.within, List.forall_mem_singleton, Tree.Binds, iff_true, ofTree]
    exact .typed (.comment data)
  | doctype name list =>
    simp only [Tree.within, List.forall_mem_singleton, Tree.Binds, iff_true, ofTree]
    exact .typed (.doctype name (literalAttrs_assignable list))
  | element ns tag list strip children =>
    simp only [Tree.occurrences, List.forall_mem_append] at ho
    have hattrs := attrs_assignable hs ho.1
    have hchildren := ofTrees_assignable_iff hs children ho.2
    simp only [Tree.within, List.forall_mem_cons]
    rw [← hchildren]
    cases strip with
    | none =>
      simp only [ofTree, Tree.Binds, true_and]
      rw [← element_hasType_iff hattrs ns tag]
      exact ⟨fun h => h.hasType (by simp), .typed⟩
    | always =>
      simp only [ofTree, Tree.Binds, true_and]
      exact siblings_assignable_iff _
    | ifEmpty =>
      simp only [ofTree, Tree.Binds]
      rw [← siblings_ofTrees_eq_nil_iff symbols, ← siblings_assignable_iff]
      have hbind := unlessEmpty_children_iff (siblings (ofTrees symbols children))
        (fun type => attrs_assignable (serves_bind hs .children type) ho.1) ns tag
      -- A bare `nil` could be returned, but it cannot be given a name.
      constructor
      · intro h
        have hc := hbind.mp (h.hasType (by simp))
        exact ⟨fun he => not_hasType_nil (he ▸ hc), .typed hc⟩
      · rintro ⟨hne, hc⟩
        exact .typed (hbind.mpr (hc.hasType hne))
  | hole ns tag list strip name args replaced =>
    simp only [Tree.within, List.forall_mem_singleton, Tree.Binds, iff_true]
    simp only [Tree.occurrences, List.forall_mem_append, List.forall_mem_singleton] at ho
    have hvalue := content_hasType hs ho.2
    cases strip with
    | none =>
      refine .typed (.element ns tag (attrs_assignable hs ho.1) ?_)
      simp only [List.forall_mem_singleton]
      exact .typed (asNodes_hasType hvalue)
    | always => exact .typed (asNodes_hasType hvalue)
    | ifEmpty =>
      refine .typed (.unlessEmpty hvalue ?_ (.typed (.element ns tag ?_ ?_)))
      · exact contentCode_hasEmptyTest _
      · exact attrs_assignable (serves_bind hs _ _) ho.1
      · simp only [List.forall_mem_singleton]
        exact .typed (asNodes_hasType (bound_hasType _ _))

theorem ofTrees_assignable_iff (hs : scope.Serves symbols) (list : List Tree)
    (ho : ∀ o ∈ Tree.occurrencesIn list, o.Typed symbols) :
    (∀ e ∈ ofTrees symbols list, Assignable scope e .nodes) ↔
      ∀ u ∈ Tree.withinAll list, u.Binds := by
  cases list with
  | nil => simp [ofTrees, Tree.withinAll]
  | cons t rest =>
    simp only [Tree.occurrencesIn, List.forall_mem_append] at ho
    simp only [ofTrees, Tree.withinAll, List.forall_mem_cons, List.forall_mem_append]
    rw [ofTree_assignable_iff hs t ho.1, ofTrees_assignable_iff hs rest ho.2]

end

end Expr

/-! The methods of a component. -/

namespace Component

variable {c : Component}

theorem signature_of_getter_name (hn : ∀ hole ∈ c.symbols.names, isHoleName hole = true)
    {hole : Text} {type : HoleType} (ha : c.symbols.Ascending)
    (hl : (hole, type) ∈ c.symbols.entries) {m : Method} (hm : m ∈ c.methods)
    (hname : m.signature.name = (getter hole type).name) : m.signature = getter hole type := by
  have hhole := hn hole (List.mem_map_of_mem hl)
  simp only [methods, List.mem_append, List.mem_flatMap] at hm
  rcases hm with ⟨⟨other, t⟩, hmem, hm⟩ | hm
  · simp only [List.mem_cons, List.not_mem_nil, or_false] at hm
    rcases hm with rfl | rfl | rfl
    · simp only [setMethod, setter, setterName, getter] at hname
      split at hname <;> cases hname
    · cases hname
    · have hsame := List.append_cancel_left hname
      have he := Expr.holeName_injective (hn other (List.mem_map_of_mem hmem)) hhole hsame
      subst he
      have ht := (Symbols.lookup?_of_mem ha hmem).symm.trans (Symbols.lookup?_of_mem ha hl)
      cases ht
      rfl
  · simp only [List.mem_cons, List.not_mem_nil, or_false] at hm
    rcases hm with rfl | rfl <;> cases hname

theorem find?_eq_of_unique {α : Type} {p : α → Bool} {list : List α} {a : α} (ha : a ∈ list)
    (hp : p a = true) (hu : ∀ b ∈ list, p b = true → b = a) : list.find? p = some a := by
  cases hf : list.find? p with
  | none => exact absurd hp (List.find?_eq_none.mp hf a ha)
  | some b => rw [hu b (List.mem_of_find?_eq_some hf) (List.find?_some hf)]

theorem scope_serves (hn : ∀ hole ∈ c.symbols.names, isHoleName hole = true)
    (ha : c.symbols.Ascending) : c.scope.Serves c.symbols := by
  intro hole type hl
  have hmem := Symbols.mem_entries_of_lookup? hl
  have hfind : c.scope.method? (utf8 "Get" ++ Expr.holeName hole) = some (getter hole type) := by
    apply find?_eq_of_unique
    · refine List.mem_map.mpr ⟨c.getMethod hole type, ?_, rfl⟩
      simp only [methods, List.mem_append, List.mem_flatMap]
      exact .inl ⟨(hole, type), hmem, by simp⟩
    · simp [getter]
    · intro signature hs hname
      obtain ⟨m, hm, rfl⟩ := List.mem_map.mp hs
      exact signature_of_getter_name hn ha hmem hm (of_decide_eq_true hname)
  exact .read hfind rfl type.written_code.symm

theorem pass_resolves (c : Component) :
    c.scope.method? (utf8 "pass") = some c.passMethod.signature := by
  apply find?_eq_of_unique
  · exact List.mem_map.mpr ⟨c.passMethod, by simp [methods], rfl⟩
  · simp [passMethod]
  · intro signature hs hname
    obtain ⟨m, hm, rfl⟩ := List.mem_map.mp hs
    have hname : m.signature.name = utf8 "pass" := by simpa using hname
    simp only [methods, List.mem_append, List.mem_flatMap] at hm
    rcases hm with ⟨⟨other, t⟩, -, hm⟩ | hm
    · simp only [List.mem_cons, List.not_mem_nil, or_false] at hm
      rcases hm with rfl | rfl | rfl
      · simp only [setMethod, setter, setterName] at hname
        split at hname <;> cases hname
      · cases hname
      · cases hname
    · simp only [List.mem_cons, List.not_mem_nil, or_false] at hm
      rcases hm with rfl | rfl
      · rfl
      · cases hname

theorem renderTypeChecks_iff_assignable (c : Component) :
    c.RenderTypeChecks ↔ Assignable c.scope (Expr.ofDocument c.symbols c.tree) .nodes := by
  constructor
  · intro h
    have hrow := h (.build 1 (utf8 "return ") (Expr.ofDocument c.symbols c.tree))
      (by simp [renderMethod])
    cases hrow with
    | @give _ _ type hresult he =>
      cases type with
      | nodes => exact he
      | _ => cases hresult
  · intro h row hrow
    simp only [renderMethod, List.mem_append, List.mem_singleton] at hrow
    rcases hrow with hrow | rfl
    · split at hrow
      · cases hrow
      · rw [List.mem_singleton.mp hrow]
        exact .pass c.pass_resolves rfl rfl
    · exact .give rfl h

/-- The render code of a document is well typed exactly if no element that is dropped when empty has
vacant content; and so is the code of every node in it. -/
theorem renderTypeChecks_iff {o : Origin} {doc : Document} (h : o.document = .ok doc)
    (c : Component) (hs : c.symbols = doc.symbols) (ht : c.tree = doc.tree) :
    (c.RenderTypeChecks ↔
      ∀ ns tag attrs children, .element ns tag attrs .ifEmpty children ∈ Tree.withinAll doc.tree →
        ¬ Tree.Vacant children) ∧
    ∀ t ∈ Tree.withinAll doc.tree,
      (Assignable c.scope (Expr.ofTree doc.symbols t) .nodes ↔
        ∀ ns tag attrs children, .element ns tag attrs .ifEmpty children ∈ t.within →
          ¬ Tree.Vacant children) := by
  have hscan := Document.scanned h
  have hnames : ∀ hole ∈ c.symbols.names, isHoleName hole = true := by
    intro hole hmem
    obtain ⟨u, hu, rfl⟩ := (hscan.mem_names_iff hole).mp (hs ▸ hmem)
    exact (hscan.wellFormed u hu).hole
  have hserves : c.scope.Serves doc.symbols :=
    hs ▸ scope_serves hnames (hs ▸ hscan.records.ascending)
  constructor
  · rw [renderTypeChecks_iff_assignable, hs, ht, Expr.ofDocument, Expr.siblings_assignable_iff,
      Expr.ofTrees_assignable_iff hserves doc.tree fun u hu => hscan.typed hu]
    exact Tree.forall_binds_iff _
  · intro t hmem
    rw [Expr.ofTree_assignable_iff hserves t fun u hu =>
      hscan.typed (Tree.occurrences_of_withinAll hmem u hu)]
    exact Tree.forall_binds_iff _

theorem renderTypeChecks_iff_label :
    ∃ doc, (Origin.nodes none [] [.element [] (utf8 "p") [⟨[], utf8 "ml:strip", utf8 "ifempty"⟩]
        [.text (utf8 "$\x7ba\x7d")]]).document = .ok doc ∧
      (Component.mk [] (utf8 "pages") (utf8 "Page") doc.symbols doc.tree []).RenderTypeChecks := by
  have hdoc : (Origin.nodes none [] [.element [] (utf8 "p") [⟨[], utf8 "ml:strip", utf8 "ifempty"⟩]
      [.text (utf8 "$\x7ba\x7d")]]).document = .ok ⟨[],
        [.element [] (utf8 "p") [⟨[], utf8 "ml:strip", utf8 "ifempty"⟩] [.text (utf8 "$\x7ba\x7d")]],
        [.element [] (utf8 "p") [] .ifEmpty [.data [.variable (utf8 "a")]]],
        ⟨[(utf8 "a", .string)]⟩, []⟩ := rfl
  refine ⟨_, hdoc, (renderTypeChecks_iff hdoc _ rfl rfl).1.mpr ?_⟩
  intro ns tag attrs children hmem hv
  simp only [Tree.withinAll, Tree.within, List.append_nil, List.mem_cons, List.not_mem_nil, or_false,
    Tree.element.injEq, reduceCtorEq] at hmem
  obtain ⟨-, -, -, -, rfl⟩ := hmem
  cases hv

/-- An element dropped when empty that has no content at all: its name for the content is declared
with a bare `nil`. -/
theorem render_not_typeChecks_empty_element :
    ∃ doc, (Origin.nodes none [] [.element [] (utf8 "div") [⟨[], utf8 "ml:strip", utf8 "ifempty"⟩]
        []]).document = .ok doc ∧
      ¬ (Component.mk [] (utf8 "pages") (utf8 "Page") doc.symbols doc.tree []).RenderTypeChecks := by
  refine ⟨_, rfl, ?_⟩
  rw [renderTypeChecks_iff_assignable]
  intro h
  cases h with
  | typed h =>
    cases h with
    | unlessEmpty h => exact not_hasType_nil h

end Component

end Stencil
