import Stencil.Component.Value
import Stencil.Evaluate
import Stencil.Proofs.Template.Inference
import Stencil.Proofs.Unit.Source

namespace Stencil

open Ascii Text

inductive Filling where
  | fragment (nodes : List Markup.Node)
  | string (text : Text)
  | fragmentFunction (f : List Text → List Markup.Node)
  | stringFunction (f : List Text → Text)

namespace Filling

def type : Filling → HoleType
  | .fragment _ => .fragment
  | .string _ => .string
  | .fragmentFunction _ => .fragmentFunction
  | .stringFunction _ => .stringFunction

def value : Filling → Value
  | .fragment nodes => .nodes nodes
  | .string s => .text s
  | .fragmentFunction f => .fragmentFunction (some f)
  | .stringFunction f => .stringFunction (some f)

def binding : Filling → Binding
  | .fragment nodes => .fragment nodes
  | .string s => .string s
  | .fragmentFunction f => .fragmentFunction fun _ _ args => .value (f args)
  | .stringFunction f => .stringFunction fun _ _ args => .value (f args)

theorem binding_type (v : Filling) : v.binding.type = v.type := by
  cases v <;> rfl

end Filling

namespace Expr

def denote (env : Text → Filling) (locals : Locals) (e : Expr) : Value :=
  Id.run (e.value (fun hole => pure (env hole).value) locals)

section

variable (env : Text → Filling) (locals : Locals)

theorem denote_values (es : List Expr) :
    Id.run (values (fun hole => pure (env hole).value) locals es) = es.map (denote env locals) := by
  induction es with
  | nil => rfl
  | cons e es ih => rw [List.map_cons, ← ih]; rfl

theorem denote_element (ns tag : Text) (attrs : Expr) (children : List Expr) :
    denote env locals (.element ns tag attrs children) =
      .nodes [.element ns tag (denote env locals attrs).asAttributes
        ((children.map (denote env locals)).flatMap Value.asNodes)] := by
  rw [← denote_values]
  rfl

theorem denote_concat (es : List Expr) :
    denote env locals (.concat es) =
      .nodes ((es.map (denote env locals)).flatMap Value.asNodes) := by
  rw [← denote_values]
  rfl

theorem denote_attributes (items : List Expr) :
    denote env locals (.attributes items) =
      .attributes ((items.map (denote env locals)).flatMap Value.asAttributes) := by
  rw [← denote_values]
  rfl

theorem denote_item (ns key : Text) (e : Expr) :
    denote env locals (.item ns key e) =
      .attributes [{ ns := ns, key := key, value := (denote env locals e).asText }] :=
  rfl

theorem denote_unlessEmpty (name : Local) (e : Expr) (isString : Bool) (result : Expr) :
    denote env locals (.unlessEmpty name e isString result) =
      if (denote env locals e).isEmpty isString then .nodes []
      else denote env (locals.bind name (denote env locals e)) result :=
  rfl

theorem flatMap_asNodes (lists : List (List Markup.Node)) :
    (lists.map Value.nodes).flatMap Value.asNodes = lists.flatten := by
  rw [List.flatMap_map]
  exact List.flatMap_id

theorem denote_siblings {es : List Expr} {lists : List (List Markup.Node)}
    (h : es.map (denote env locals) = lists.map .nodes) :
    denote env locals (siblings es) = .nodes lists.flatten := by
  match es with
  | [] =>
    cases lists with
    | nil => rfl
    | cons => cases h
  | [e] =>
    match lists with
    | [] => cases h
    | [list] => simpa [siblings] using h
    | _ :: _ :: _ => simp at h
  | e :: e' :: es => rw [siblings, denote_concat, h, flatMap_asNodes] <;> simp

end

end Expr

namespace Evaluate

def Gives {α : Type} (action : Evaluation α) (a : α) : Prop :=
  ∀ trace, ∃ trace', action.run trace = (a, trace') ∧ trace'.failures = trace.failures

theorem gives_pure {α : Type} (a : α) : Gives (pure a) a :=
  fun trace => ⟨trace, rfl, rfl⟩

theorem Gives.bind {α β : Type} {action : Evaluation α} {a : α} {next : α → Evaluation β} {b : β}
    (h : Gives action a) (hn : Gives (next a) b) : Gives (action >>= next) b := by
  intro trace
  obtain ⟨trace', hrun, hfail⟩ := h trace
  obtain ⟨trace'', hrun', hfail'⟩ := hn trace'
  refine ⟨trace'', ?_, hfail'.trans hfail⟩
  rw [StateT.run_bind, hrun]
  exact hrun'

theorem gives_mapM {α β : Type} {f : α → Evaluation β} {g : α → β} {list : List α}
    (h : ∀ a ∈ list, Gives (f a) (g a)) : Gives (list.mapM f) (list.map g) := by
  induction list with
  | nil => exact gives_pure []
  | cons a list ih =>
    rw [List.mapM_cons, List.map_cons]
    exact (h a List.mem_cons_self).bind
      ((ih fun b hb => h b (List.mem_cons_of_mem a hb)).bind (gives_pure _))

theorem gives_call {α : Type} (f : List Text → α) (context : Context) (args : List Text) :
    Gives (call (fun _ _ args => .value (f args)) context args) (.ok (f args)) :=
  fun trace => ⟨{ trace with calls := trace.calls ++ [context.hole] }, rfl, rfl⟩

end Evaluate

structure Serves (symbols : Symbols) (env : Text → Filling) (bindings : Bindings) : Prop where
  typed : ∀ hole type, symbols.lookup? hole = some type → (env hole).type = type
  bound : ∀ hole ∈ symbols.names, bindings.lookup hole = some (env hole).binding

namespace Serves

open Stencil.Expr Evaluate

variable {symbols : Symbols} {env : Text → Filling} {bindings : Bindings}

theorem lookup (h : Serves symbols env bindings) {hole : Text} {type : HoleType}
    (hl : symbols.lookup? hole = some type) : bindings.lookup hole = some (env hole).binding :=
  h.bound hole ((Symbols.mem_names_iff symbols hole).mpr ⟨type, hl⟩)

def segmentText (env : Text → Filling) : Segment → Text
  | .literal s => s
  | .variable hole => (env hole).value.asText
  | .call hole args => (env hole).value.callString args

def segmentsText (env : Text → Filling) (list : Segments) : Text :=
  (list.map (segmentText env)).flatten

theorem denote_segment (h : Serves symbols env bindings) {s : Segment}
    (ho : ∀ o ∈ s.occurrences, o.Typed symbols) (locals : Locals) :
    denote env locals (Expr.segment s) = .text (segmentText env s) :=
  match s with
  | .literal s => rfl
  | .variable hole => by
    have ht := h.typed _ _ (ho (.value hole) (by simp [Segment.occurrences]))
    change (env hole).value = .text (env hole).value.asText
    cases hv : env hole with
    | string => rfl
    | fragment | fragmentFunction | stringFunction => rw [hv] at ht; cases ht
  | .call hole args => rfl

theorem gives_segment (h : Serves symbols env bindings) (page : List Markup.Node) {s : Segment}
    (ho : ∀ o ∈ s.occurrences, o.Typed symbols) :
    Gives (Evaluate.segment page bindings s) (segmentText env s) :=
  match s with
  | .literal s => gives_pure s
  | .variable hole => by
    have hl := ho (.value hole) (by simp [Segment.occurrences])
    have ht := h.typed _ _ hl
    have hb := h.lookup hl
    rw [Evaluate.segment, placeholder, hb, segmentText]
    cases hv : env hole with
    | string s => exact gives_pure s
    | fragment | fragmentFunction | stringFunction => rw [hv] at ht; cases ht
  | .call hole args => by
    have hl := (ho (.call hole args) (by simp [Segment.occurrences])).2
    have ht := h.typed _ _ hl
    have hb := h.lookup hl
    rw [Evaluate.segment, placeholder, hb, segmentText]
    cases hv : env hole with
    | stringFunction f => exact (gives_call f _ args).bind (gives_pure _)
    | fragment | fragmentFunction | string => rw [hv] at ht; cases ht

theorem denote_segments (h : Serves symbols env bindings) {list : Segments}
    (ho : ∀ o ∈ Segments.occurrences list, o.Typed symbols) (locals : Locals) :
    denote env locals (segments list) = .text (segmentsText env list) := by
  have hseg : ∀ s ∈ list, denote env locals (Expr.segment s) = .text (segmentText env s) :=
    fun s hs => h.denote_segment (fun o hs' => ho o (List.mem_flatMap.mpr ⟨s, hs, hs'⟩)) locals
  have hfold : ∀ (rest : Segments) (first : Expr) (s : Text), denote env locals first = .text s →
      (∀ s ∈ rest, denote env locals (Expr.segment s) = .text (segmentText env s)) →
      denote env locals ((rest.map Expr.segment).foldl .add first) =
        .text (s ++ segmentsText env rest) := by
    intro rest
    induction rest with
    | nil => intro first s hfirst _; rw [segmentsText]; simpa using hfirst
    | cons t rest ih =>
      intro first s hfirst hrest
      have hadd : denote env locals (.add first (Expr.segment t)) =
          .text (s ++ segmentText env t) := by
        change Value.text ((denote env locals first).asText ++ (denote env locals _).asText) = _
        rw [hfirst, hrest t List.mem_cons_self]
        rfl
      have := ih _ _ hadd fun u hu => hrest u (List.mem_cons_of_mem t hu)
      simpa [segmentsText] using this
  cases list with
  | nil => rfl
  | cons first rest =>
    exact hfold rest _ _ (hseg first List.mem_cons_self)
      fun t ht => hseg t (List.mem_cons_of_mem first ht)

theorem gives_text (h : Serves symbols env bindings) (page : List Markup.Node) {list : Segments}
    (ho : ∀ o ∈ Segments.occurrences list, o.Typed symbols) :
    Gives (Evaluate.text page bindings list) (segmentsText env list) := by
  have hmap := gives_mapM fun s hs => h.gives_segment page (s := s)
    fun o ho' => ho o (List.mem_flatMap.mpr ⟨s, hs, ho'⟩)
  exact hmap.bind (gives_pure _)

def attributes (env : Text → Filling) (list : List Attr) : List Markup.Attribute :=
  list.map fun a => { ns := a.ns, key := a.key, value := segmentsText env a.value }

theorem denote_items {α : Type} (locals : Locals) (item : α → Expr) (filled : α → Markup.Attribute)
    (list : List α) (h : ∀ a ∈ list, denote env locals (item a) = .attributes [filled a]) :
    (denote env locals (if list.isEmpty then .nil else .attributes (list.map item))).asAttributes =
      list.map filled := by
  cases list with
  | nil => rfl
  | cons a list =>
    have hmap : ((a :: list).map item).map (denote env locals) =
        (a :: list).map fun b => .attributes [filled b] := by
      rw [List.map_map]
      exact List.map_congr_left h
    rw [List.isEmpty_cons, if_neg Bool.false_ne_true, denote_attributes, hmap, List.flatMap_map]
    exact List.map_eq_flatMap.symm

theorem denote_attrs (h : Serves symbols env bindings) {list : List Attr}
    (ho : ∀ o ∈ list.flatMap Attr.occurrences, o.Typed symbols) (locals : Locals) :
    (denote env locals (Expr.attrs list)).asAttributes = attributes env list := by
  refine denote_items locals _ _ list fun a ha => ?_
  rw [denote_item, h.denote_segments fun o ho' => ho o (List.mem_flatMap.mpr ⟨a, ha, ho'⟩)]
  rfl

theorem denote_literalAttrs (env : Text → Filling) (locals : Locals)
    (list : List Markup.Attribute) :
    (denote env locals (literalAttrs list)).asAttributes = list := by
  refine (denote_items locals _ id list fun a _ => ?_).trans (List.map_id list)
  rfl

theorem gives_attrs (h : Serves symbols env bindings) (page : List Markup.Node) {list : List Attr}
    (ho : ∀ o ∈ list.flatMap Attr.occurrences, o.Typed symbols) :
    Gives (Evaluate.attrs page bindings list) (attributes env list) :=
  gives_mapM fun a ha =>
    (h.gives_text page fun o ho' => ho o (List.mem_flatMap.mpr ⟨a, ha, ho'⟩)).bind (gives_pure _)

def contentNodes (isString : Bool) (v : Value) : List Markup.Node :=
  if isString then Markup.textNodes v.asText else v.asNodes

theorem denote_asNodes {locals : Locals} {e : Expr} {v : Value} (he : denote env locals e = v)
    {isString : Bool} (hv : isString = false → v = .nodes v.asNodes) :
    denote env locals (asNodes e isString) = .nodes (contentNodes isString v) := by
  subst he
  cases isString with
  | true => rfl
  | false => exact hv rfl

theorem content_agrees (h : Serves symbols env bindings) (page replaced : List Markup.Node)
    {hole : Text} {args : List Text} (ho : (Occurrence.content hole args).Typed symbols) :
    ∃ v, (∀ locals, denote env locals (Expr.content symbols hole args).1 = v) ∧
      ((Expr.content symbols hole args).2 = false → v = .nodes v.asNodes) ∧
      Gives (Evaluate.content page bindings replaced hole args)
        (contentNodes (Expr.content symbols hole args).2 v,
          v.isEmpty (Expr.content symbols hole args).2) := by
  have hl : ∃ type, symbols.lookup? hole = some type := by
    cases args with
    | nil => rcases ho with ho | ho <;> exact ⟨_, ho⟩
    | cons => rcases ho with ho | ho <;> exact ⟨_, ho⟩
  obtain ⟨type, hl⟩ := hl
  have ht := h.typed _ _ hl
  have hb := h.lookup hl
  cases hv : env hole with
  | fragment list =>
    rw [hv] at ht hb
    subst ht
    simp only [Expr.content, hl, Evaluate.content, hb, Filling.type, Filling.binding]
    exact ⟨.nodes list, fun _ => congrArg Filling.value hv, fun _ => rfl, gives_pure _⟩
  | string s =>
    rw [hv] at ht hb
    subst ht
    simp only [Expr.content, hl, Evaluate.content, hb, Filling.type, Filling.binding]
    exact ⟨.text s, fun _ => congrArg Filling.value hv, fun hs => absurd hs (by decide),
      gives_pure _⟩
  | fragmentFunction f =>
    rw [hv] at ht hb
    subst ht
    simp only [Expr.content, hl, Evaluate.content, hb, Filling.type, Filling.binding]
    refine ⟨.nodes (f args), fun _ => ?_, fun _ => rfl, (gives_call f _ args).bind (gives_pure _)⟩
    change Value.nodes ((env hole).value.callFragment args) = _
    rw [hv]
    rfl
  | stringFunction f =>
    rw [hv] at ht hb
    subst ht
    simp only [Expr.content, hl, Evaluate.content, hb, Filling.type, Filling.binding]
    refine ⟨.text (f args), fun _ => ?_, fun hs => absurd hs (by decide),
      (gives_call f _ args).bind (gives_pure _)⟩
    change Value.text ((env hole).value.callString args) = _
    rw [hv]
    rfl

mutual

theorem node_agrees (h : Serves symbols env bindings) (page : List Markup.Node) (t : Tree)
    (ho : ∀ o ∈ t.occurrences, o.Typed symbols) :
    ∃ list, Gives (Evaluate.node page bindings t) list ∧
      ∀ locals, denote env locals (ofTree symbols t) = .nodes list := by
  cases t with
  | data list =>
    refine ⟨_, (h.gives_text page ho).bind (gives_pure _), fun locals => ?_⟩
    change Value.nodes (Markup.textNodes (denote env locals (segments list)).asText) = _
    rw [h.denote_segments ho]
    rfl
  | comment data => exact ⟨_, gives_pure _, fun _ => rfl⟩
  | doctype name list =>
    refine ⟨_, gives_pure _, fun locals => ?_⟩
    change Value.nodes [.doctype name (denote env locals (literalAttrs list)).asAttributes] = _
    rw [denote_literalAttrs]
  | element ns tag list strip children =>
    simp only [Tree.occurrences, List.forall_mem_append] at ho
    obtain ⟨lists, hgives, hdenote⟩ := nodes_agree h page children ho.2
    have hattrs := h.gives_attrs page ho.1
    cases strip with
    | none =>
      refine ⟨_, hgives.bind (hattrs.bind (gives_pure _)), fun locals => ?_⟩
      rw [ofTree, denote_element, h.denote_attrs ho.1, hdenote, flatMap_asNodes]
    | always =>
      refine ⟨_, hgives.bind (gives_pure _), fun locals => ?_⟩
      rw [ofTree, denote_siblings env locals (hdenote locals)]
    | ifEmpty =>
      -- Both sides look at the rendered content before they decide.
      have hinner (locals : Locals) := denote_siblings env locals (hdenote locals)
      cases hempty : lists.flatten with
      | nil =>
        refine ⟨[], hgives.bind ?_, fun locals => ?_⟩
        · rw [hempty]
          exact gives_pure []
        · rw [ofTree, denote_unlessEmpty, hinner, hempty]
          rfl
      | cons first rest =>
        refine ⟨[.element ns tag (attributes env list) (first :: rest)], hgives.bind ?_,
          fun locals => ?_⟩
        · rw [hempty]
          exact hattrs.bind (gives_pure _)
        · have hbound : denote env (locals.bind .children (.nodes (first :: rest)))
              (.bound .children) = .nodes (first :: rest) := rfl
          rw [ofTree, denote_unlessEmpty, hinner, hempty]
          refine (denote_element ..).trans ?_
          rw [h.denote_attrs ho.1]
          simp [hbound, Value.asNodes]
  | hole ns tag list strip name args replaced =>
    simp only [Tree.occurrences, List.forall_mem_append] at ho
    obtain ⟨v, hdenote, hkind, hgives⟩ := h.content_agrees page replaced (ho.2 _ List.mem_cons_self)
    have hattrs := h.gives_attrs page ho.1
    cases strip with
    | none =>
      refine ⟨_, hgives.bind (hattrs.bind (gives_pure _)), fun locals => ?_⟩
      rw [ofTree, denote_element, h.denote_attrs ho.1]
      simp [denote_asNodes (hdenote locals) hkind, Value.asNodes]
    | always =>
      refine ⟨_, hgives.bind (gives_pure _), fun locals => ?_⟩
      rw [ofTree]
      exact denote_asNodes (hdenote locals) hkind
    | ifEmpty =>
      cases hempty : v.isEmpty (Expr.content symbols name args).2 with
      | true =>
        refine ⟨[], hgives.bind ?_, fun locals => ?_⟩
        · rw [hempty]
          exact gives_pure []
        · rw [ofTree, denote_unlessEmpty, hdenote, hempty]
          rfl
      | false =>
        refine ⟨[.element ns tag (attributes env list)
          (contentNodes (Expr.content symbols name args).2 v)], hgives.bind ?_, fun locals => ?_⟩
        · rw [hempty]
          exact hattrs.bind (gives_pure _)
        · have hbound : denote env (locals.bind .value v) (.bound .value) = v := rfl
          rw [ofTree, denote_unlessEmpty, hdenote, hempty]
          refine (denote_element ..).trans ?_
          rw [h.denote_attrs ho.1]
          simp [denote_asNodes hbound hkind, Value.asNodes]

theorem nodes_agree (h : Serves symbols env bindings) (page : List Markup.Node) (list : List Tree)
    (ho : ∀ o ∈ Tree.occurrencesIn list, o.Typed symbols) :
    ∃ lists : List (List Markup.Node), Gives (Evaluate.nodes page bindings list) lists.flatten ∧
      ∀ locals, (ofTrees symbols list).map (denote env locals) = lists.map .nodes := by
  cases list with
  | nil => exact ⟨[], gives_pure [], fun _ => rfl⟩
  | cons t rest =>
    simp only [Tree.occurrencesIn, List.forall_mem_append] at ho
    obtain ⟨first, hfirst, hdenote⟩ := node_agrees h page t ho.1
    obtain ⟨lists, hrest, hdenotes⟩ := nodes_agree h page rest ho.2
    refine ⟨first :: lists, hfirst.bind (hrest.bind (gives_pure _)), fun locals => ?_⟩
    rw [ofTrees, List.map_cons, hdenote, hdenotes, List.map_cons]

end

theorem check_eq_none (h : Serves symbols env bindings) (path : Text)
    {entries : List (Text × HoleType)}
    (hentries : ∀ entry ∈ entries, symbols.lookup? entry.1 = some entry.2) :
    Evaluate.check path bindings entries = none := by
  induction entries with
  | nil => rfl
  | cons entry entries ih =>
    have hl := hentries entry List.mem_cons_self
    have hsat : (env entry.1).binding.type.satisfies entry.2 = true := by
      rw [Filling.binding_type, ← h.typed _ _ hl]
      cases env entry.1 <;> rfl
    rw [Evaluate.check, h.lookup hl]
    dsimp only
    rw [if_pos hsat, ih fun entry he => hentries entry (List.mem_cons_of_mem _ he)]

end Serves

namespace Markup.Node

mutual

theorem equal_refl : ∀ a : Node, equal a a = true
  | .element ns tag attrs children => by simp [equal, equalAll_refl children]
  | .text data => by simp [equal]
  | .comment data => by simp [equal]
  | .doctype name attrs => by simp [equal]
  | .document children => by simp [equal, equalAll_refl children]
  | .raw data => by simp [equal]
  | .error data => by simp [equal]

theorem equalAll_refl : ∀ list : List Node, equalAll list list = true
  | [] => rfl
  | a :: list => by simp [equalAll, equal_refl a, equalAll_refl list]

end

end Markup.Node

namespace Document

open Stencil.Expr

/-- The source that is generated for a document parses as exactly one expression, and its value is
equal to what direct rendering returns, which succeeds. -/
theorem source_agrees_render {o : Origin} {doc : Document} (h : o.document = .ok doc)
    (env : Text → Filling)
    (henv : ∀ hole type, doc.symbols.lookup? hole = some type → (env hole).type = type)
    (bindings : Bindings)
    (hbind : ∀ hole ∈ doc.symbols.names, bindings.lookup hole = some (env hole).binding) :
    ∃ e list nodes trace,
      (∀ e', Parses (source (ofDocument doc.symbols doc.tree)) e' ↔ e' = e) ∧
      denote env {} e = .nodes list ∧
      Evaluate.render doc bindings = (.ok nodes, trace) ∧ trace.failures = [] ∧
      Markup.Node.equalAll list nodes = true := by
  have hscan := scanned h
  have hserves : Serves doc.symbols env bindings := ⟨henv, hbind⟩
  obtain ⟨lists, hgives, hdenote⟩ :=
    hserves.nodes_agree doc.page doc.tree fun o ho => hscan.typed ho
  obtain ⟨trace, hrun, hfailures⟩ := hgives {}
  have hcheck := hserves.check_eq_none doc.path fun entry he =>
    Symbols.lookup?_of_mem hscan.records.ascending he
  refine ⟨ofDocument doc.symbols doc.tree, lists.flatten, lists.flatten, trace, ?_, ?_, ?_,
    hfailures, Markup.Node.equalAll_refl _⟩
  · exact parses_source_iff doc.symbols fun o ho => (hscan.wellFormed o ho).hole
  · exact denote_siblings env {} (hdenote {})
  · rw [Evaluate.render, hcheck]
    dsimp only
    rw [hrun]

theorem source_agrees_render_quoted :
    ∃ doc e list nodes trace,
      (Origin.nodes none [] [.element [] (utf8 "p") [⟨[], utf8 "ml:content", utf8 "f a"⟩,
        ⟨[], utf8 "ml:strip", utf8 "ifempty"⟩, ⟨[], utf8 "title", utf8 "\"$\x7bn\x7d\""⟩] []]).document =
          .ok doc ∧
      (∀ e', Parses (source (ofDocument doc.symbols doc.tree)) e' ↔ e' = e) ∧
      denote (fun hole => if hole = utf8 "f" then .fragmentFunction fun args => args.map .text
        else .string (utf8 "\n")) {} e = .nodes list ∧
      Evaluate.render doc [(utf8 "f", .fragmentFunction fun _ _ args => .value (args.map .text)),
        (utf8 "n", .string (utf8 "\n"))] = (.ok nodes, trace) ∧
      trace.failures = [] ∧ Markup.Node.equalAll list nodes = true := by
  have hdoc : ∃ doc, (Origin.nodes none [] [.element [] (utf8 "p")
      [⟨[], utf8 "ml:content", utf8 "f a"⟩, ⟨[], utf8 "ml:strip", utf8 "ifempty"⟩,
        ⟨[], utf8 "title", utf8 "\"$\x7bn\x7d\""⟩] []]).document = .ok doc ∧
      doc.symbols.entries = [(utf8 "f", .fragmentFunction), (utf8 "n", .string)] := ⟨_, rfl, rfl⟩
  obtain ⟨doc, hdoc, hentries⟩ := hdoc
  have henv : ∀ hole type, doc.symbols.lookup? hole = some type →
      (if hole = utf8 "f" then Filling.fragmentFunction fun args => args.map .text
        else .string (utf8 "\n")).type = type := by
    intro hole type hl
    have hmem := Symbols.mem_entries_of_lookup? hl
    simp only [hentries, List.mem_cons, List.not_mem_nil, or_false, Prod.mk.injEq] at hmem
    rcases hmem with ⟨rfl, rfl⟩ | ⟨rfl, rfl⟩ <;> rfl
  have hbind : ∀ hole ∈ doc.symbols.names,
      List.lookup hole [(utf8 "f", Binding.fragmentFunction fun _ _ args => .value (args.map .text)),
        (utf8 "n", .string (utf8 "\n"))] =
      some (if hole = utf8 "f" then Filling.fragmentFunction fun args => args.map .text
        else .string (utf8 "\n")).binding := by
    intro hole hmem
    rw [Symbols.names, hentries] at hmem
    simp only [List.map_cons, List.map_nil, List.mem_cons, List.not_mem_nil, or_false] at hmem
    rcases hmem with rfl | rfl <;> rfl
  obtain ⟨e, list, nodes, trace, h⟩ := source_agrees_render hdoc _ henv _ hbind
  exact ⟨doc, e, list, nodes, trace, hdoc, h⟩

end Document

end Stencil
