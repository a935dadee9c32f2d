import Stencil.Evaluate
import Stencil.Proofs.Template.Inference

/-!
What a rendering shows and which calls it makes, as rules. The occurrences of holes are counted in
the order of reading, and every call stands under the number of its occurrence. There is no rule for
a hole that is not bound, and none for document nodes in a text or an attribute.
-/

namespace Stencil

open Ascii Text

def Occurrence.args : Occurrence → List Text
  | .value _ => []
  | .call _ args | .content _ args => args

namespace Evaluate

inductive Reply where
  | text (s : Text)
  | nodes (list : List Markup.Node)
  | failed (cause : Text)

namespace Reply

def of {α : Type} (wrap : α → Reply) : Outcome α → Reply
  | .value a => wrap a
  | .error message => .failed message
  -- a panic is a failure that says so
  | .panic message => .failed (utf8 "panic: " ++ message)

def cause? : Reply → Option Text
  | .failed cause => some cause
  | _ => none

end Reply

structure Call where
  place : Nat
  occurrence : Occurrence
  replaced : List Markup.Node
  reply : Reply

namespace Call

def hole (c : Call) : Text :=
  c.occurrence.hole

def failure? (c : Call) : Option CallFailure :=
  c.reply.cause?.map fun cause => ⟨c.hole, c.occurrence.args, cause⟩

end Call

def failureText (hole : Text) (args : List Text) (cause : Text) : Text :=
  utf8 "hole " ++ quoted hole ++ utf8 " (" ++ joinWith (utf8 " ") args ++ utf8 "): " ++ cause

def shownText : Text → List Markup.Node
  | [] => []
  | s => [.text s]

inductive FillsSegment (bindings : Bindings) (k : Nat) : Segment → List Call → Text → Prop where
  | literal {s} : FillsSegment bindings k (.literal s) [] s
  | string {hole s} : bindings.lookup hole = some (.string s) →
      FillsSegment bindings k (.variable hole) [] s
  | returned {hole args f s} : args ≠ [] → bindings.lookup hole = some (.stringFunction f) →
      FillsSegment bindings k (.call hole args) [⟨k, .call hole args, [], .text s⟩] s
  | failed {hole args f cause} : args ≠ [] → bindings.lookup hole = some (.stringFunction f) →
      FillsSegment bindings k (.call hole args) [⟨k, .call hole args, [], .failed cause⟩]
        (utf8 "[" ++ failureText hole args cause ++ utf8 "]")

inductive FillsText (bindings : Bindings) : Nat → Segments → List Call → Text → Prop where
  | nil {k} : FillsText bindings k [] [] []
  | cons {k s rest calls others first text} : FillsSegment bindings k s calls first →
      FillsText bindings (k + s.occurrences.length) rest others text →
      FillsText bindings k (s :: rest) (calls ++ others) (first ++ text)

inductive FillsAttrs (bindings : Bindings) :
    Nat → List Attr → List Call → List Markup.Attribute → Prop where
  | nil {k} : FillsAttrs bindings k [] [] []
  | cons {k a rest calls others value list} : FillsText bindings k a.value calls value →
      FillsAttrs bindings (k + a.occurrences.length) rest others list →
      FillsAttrs bindings k (a :: rest) (calls ++ others)
        ({ ns := a.ns, key := a.key, value := value } :: list)

inductive FillsContent (bindings : Bindings) (k : Nat) (replaced : List Markup.Node) (hole : Text) :
    List Text → List Call → List Markup.Node → Bool → Prop where
  | fragment {nodes} : bindings.lookup hole = some (.fragment nodes) →
      FillsContent bindings k replaced hole [] [] nodes nodes.isEmpty
  | string {s} : bindings.lookup hole = some (.string s) →
      FillsContent bindings k replaced hole [] [] (shownText s) s.isEmpty
  | nodesReturned {args f nodes} : args ≠ [] →
      bindings.lookup hole = some (.fragmentFunction f) →
      FillsContent bindings k replaced hole args [⟨k, .content hole args, replaced, .nodes nodes⟩]
        nodes nodes.isEmpty
  | textReturned {args f s} : args ≠ [] → bindings.lookup hole = some (.stringFunction f) →
      FillsContent bindings k replaced hole args [⟨k, .content hole args, replaced, .text s⟩]
        (shownText s) s.isEmpty
  | failed {args binding cause} : args ≠ [] → bindings.lookup hole = some binding →
      binding.type.isFunction = true →
      FillsContent bindings k replaced hole args [⟨k, .content hole args, replaced, .failed cause⟩]
        [.element [] (utf8 "code") [⟨[], utf8 "class", utf8 "ml-error"⟩]
          [.text (failureText hole args cause)]] false

def attrCount (attrs : List Attr) : Nat :=
  (attrs.flatMap Attr.occurrences).length

def Wraps (strip : Strip) (isEmpty : Bool) : Prop :=
  strip = .none ∨ strip = .ifEmpty ∧ isEmpty = false

mutual

/-- A node whose first occurrence is number `k`: the calls in their order, the occurrences that are
passed over because their element is not shown, and the nodes that are. -/
inductive FillsNode (bindings : Bindings) :
    Nat → Tree → List Call → List Nat → List Markup.Node → Prop where
  | data {k segments calls text} : FillsText bindings k segments calls text →
      FillsNode bindings k (.data segments) calls [] (shownText text)
  | comment {k text} : FillsNode bindings k (.comment text) [] [] [.comment text]
  | doctype {k name attrs} : FillsNode bindings k (.doctype name attrs) [] [] [.doctype name attrs]
  | element {k ns tag attrs strip children calls others skipped inner list} :
      FillsNodes bindings (k + attrCount attrs) children calls skipped inner →
      Wraps strip inner.isEmpty → FillsAttrs bindings k attrs others list →
      FillsNode bindings k (.element ns tag attrs strip children) (calls ++ others) skipped
        [.element ns tag list inner]
  | bareElement {k ns tag attrs strip children calls skipped inner} :
      FillsNodes bindings (k + attrCount attrs) children calls skipped inner →
      ¬ Wraps strip inner.isEmpty →
      FillsNode bindings k (.element ns tag attrs strip children) calls
        (List.range' k (attrCount attrs) ++ skipped) inner
  | hole {k ns tag attrs strip name args replaced calls others isEmpty inner list} :
      FillsContent bindings (k + attrCount attrs) replaced name args calls inner isEmpty →
      Wraps strip isEmpty → FillsAttrs bindings k attrs others list →
      FillsNode bindings k (.hole ns tag attrs strip name args replaced) (calls ++ others) []
        [.element ns tag list inner]
  | bareHole {k ns tag attrs name args replaced calls isEmpty inner} :
      FillsContent bindings (k + attrCount attrs) replaced name args calls inner isEmpty →
      FillsNode bindings k (.hole ns tag attrs .always name args replaced) calls
        (List.range' k (attrCount attrs)) inner
  | droppedHole {k ns tag attrs name args replaced calls inner} :
      FillsContent bindings (k + attrCount attrs) replaced name args calls inner true →
      FillsNode bindings k (.hole ns tag attrs .ifEmpty name args replaced) calls
        (List.range' k (attrCount attrs)) []

inductive FillsNodes (bindings : Bindings) :
    Nat → List Tree → List Call → List Nat → List Markup.Node → Prop where
  | nil {k} : FillsNodes bindings k [] [] [] []
  | cons {k t rest calls others skipped passed first nodes} :
      FillsNode bindings k t calls skipped first →
      FillsNodes bindings (k + t.occurrences.length) rest others passed nodes →
      FillsNodes bindings k (t :: rest) (calls ++ others) (skipped ++ passed) (first ++ nodes)

end

/-- The reply of a call is what the callback of its hole gives when it is called for the time with
this number. -/
inductive Call.Replied (page : List Markup.Node) (bindings : Bindings) (number : Nat) (c : Call) :
    Prop where
  | string {f} : bindings.lookup c.hole = some (.stringFunction f) →
      c.reply = .of .text (f number ⟨page, c.replaced, c.hole⟩ c.occurrence.args) →
      Replied page bindings number c
  | fragment {f} : bindings.lookup c.hole = some (.fragmentFunction f) →
      c.reply = .of .nodes (f number ⟨page, c.replaced, c.hole⟩ c.occurrence.args) →
      Replied page bindings number c

def Answered (page : List Markup.Node) (bindings : Bindings) : List Text → List Call → Prop
  | _, [] => True
  | before, c :: rest =>
    c.Replied page bindings ((before ++ [c.hole]).count c.hole) ∧
      Answered page bindings (before ++ [c.hole]) rest

theorem answered_append {page : List Markup.Node} {bindings : Bindings} {before : List Text}
    {calls others : List Call} :
    Answered page bindings before (calls ++ others) ↔
      Answered page bindings before calls ∧
        Answered page bindings (before ++ calls.map Call.hole) others := by
  induction calls generalizing before with
  | nil => simp [Answered]
  | cons c calls ih =>
    rw [List.cons_append, Answered, Answered, ih, List.map_cons, and_assoc, List.append_assoc]
    rfl

def Trace.add (trace : Trace) (calls : List Call) : Trace :=
  ⟨trace.calls ++ calls.map Call.hole, trace.failures ++ calls.filterMap Call.failure?⟩

theorem Trace.add_nil (trace : Trace) : trace.add [] = trace := by
  simp [add]

theorem Trace.add_append (trace : Trace) (calls others : List Call) :
    trace.add (calls ++ others) = (trace.add calls).add others := by
  simp [add]

def Does {α : Type} (page : List Markup.Node) (bindings : Bindings) (action : Evaluation α)
    (spec : List Call → α → Prop) : Prop :=
  ∀ trace, ∃ calls a, action.run trace = (a, trace.add calls) ∧ spec calls a ∧
    Answered page bindings trace.calls calls

theorem textNodes_eq (s : Text) : Markup.textNodes s = shownText s := by
  cases s <;> rfl

theorem message_eq {args : List Text} (hargs : args ≠ []) (hole cause : Text) :
    CallFailure.message ⟨hole, args, cause⟩ = failureText hole args cause := by
  rw [CallFailure.message, failureText, if_neg (by simpa using hargs)]
  simp only [List.append_assoc]
  rfl

theorem failureMark_eq {args : List Text} (hargs : args ≠ []) (hole cause : Text) :
    failureMark ⟨hole, args, cause⟩ = [.element [] (utf8 "code")
      [⟨[], utf8 "class", utf8 "ml-error"⟩] [.text (failureText hole args cause)]] := by
  rw [failureMark, message_eq hargs]
  rfl

theorem FillsSegment.bracketed {bindings : Bindings} {k : Nat} {hole : Text} {args : List Text}
    {f : Callback Text} {cause : Text} (hargs : args ≠ [])
    (hb : bindings.lookup hole = some (.stringFunction f)) :
    FillsSegment bindings k (.call hole args) [⟨k, .call hole args, [], .failed cause⟩]
      (openBracket :: CallFailure.message ⟨hole, args, cause⟩ ++ [closeBracket]) := by
  rw [message_eq hargs]
  exact .failed hargs hb

theorem FillsContent.marked {bindings : Bindings} {k : Nat} {replaced : List Markup.Node}
    {hole : Text} {args : List Text} {binding : Binding} {cause : Text} (hargs : args ≠ [])
    (hb : bindings.lookup hole = some binding) (hf : binding.type.isFunction = true) :
    FillsContent bindings k replaced hole args [⟨k, .content hole args, replaced, .failed cause⟩]
      (failureMark ⟨hole, args, cause⟩) false := by
  rw [failureMark_eq hargs]
  exact .failed hargs hb hf

section

variable {α β : Type} {page : List Markup.Node} {bindings : Bindings}

theorem Does.pure {spec : List Call → α → Prop} {a : α} (h : spec [] a) :
    Does page bindings (Pure.pure a) spec := by
  intro trace
  exact ⟨[], a, by rw [trace.add_nil]; rfl, h, trivial⟩

theorem Does.bind {action : Evaluation α} {spec : List Call → α → Prop} {next : α → Evaluation β}
    {total : List Call → β → Prop} (h : Does page bindings action spec)
    (hn : ∀ calls a, spec calls a →
      Does page bindings (next a) fun others b => total (calls ++ others) b) :
    Does page bindings (action >>= next) total := by
  intro trace
  obtain ⟨calls, a, hrun, hspec, hanswered⟩ := h trace
  obtain ⟨others, b, hrun', htotal, hanswered'⟩ := hn calls a hspec (trace.add calls)
  refine ⟨calls ++ others, b, ?_, htotal, answered_append.mpr ⟨hanswered, hanswered'⟩⟩
  rw [StateT.run_bind, hrun, trace.add_append]
  exact hrun'

theorem Does.map {action : Evaluation α} {spec : List Call → α → Prop} {f : α → β}
    {total : List Call → β → Prop} (h : Does page bindings action spec)
    (hf : ∀ calls a, spec calls a → total calls (f a)) :
    Does page bindings (action >>= fun a => Pure.pure (f a)) total := by
  refine h.bind fun calls a hspec => .pure ?_
  rw [List.append_nil]
  exact hf calls a hspec

theorem call_does (f : Callback α) (wrap : α → Reply) (hwrap : ∀ a, (wrap a).cause? = none)
    (k : Nat) (o : Occurrence) (replaced : List Markup.Node)
    (hreplied : ∀ number reply, reply = .of wrap (f number ⟨page, replaced, o.hole⟩ o.args) →
      Call.Replied page bindings number ⟨k, o, replaced, reply⟩) :
    Does page bindings (call f ⟨page, replaced, o.hole⟩ o.args) fun calls r =>
      (∃ a, r = .ok a ∧ calls = [⟨k, o, replaced, wrap a⟩]) ∨
        ∃ cause, r = .error ⟨o.hole, o.args, cause⟩ ∧
          calls = [⟨k, o, replaced, .failed cause⟩] := by
  intro trace
  have hanswer := hreplied ((trace.calls ++ [o.hole]).count o.hole) _ rfl
  cases hout : f ((trace.calls ++ [o.hole]).count o.hole) ⟨page, replaced, o.hole⟩ o.args with
  | value a =>
    rw [hout] at hanswer
    refine ⟨_, .ok a, ?_, .inl ⟨a, rfl, rfl⟩, hanswer, trivial⟩
    rw [call, StateT.run_bind, StateT.run_get, pure_bind]
    simp only [hout]
    simp [Trace.add, Call.failure?, hwrap]
    rfl
  | error message =>
    rw [hout] at hanswer
    refine ⟨_, _, ?_, .inr ⟨message, rfl, rfl⟩, hanswer, trivial⟩
    rw [call, StateT.run_bind, StateT.run_get, pure_bind]
    simp only [hout]
    rfl
  | panic message =>
    rw [hout] at hanswer
    refine ⟨_, _, ?_, .inr ⟨_, rfl, rfl⟩, hanswer, trivial⟩
    rw [call, StateT.run_bind, StateT.run_get, pure_bind]
    simp only [hout]
    rfl

end

end Evaluate

/-! Bindings that serve every occurrence are enough for the rules to apply. -/

/-- A function serves the occurrences with arguments and a value those without, and document nodes
serve only as the content of an element. -/
def Binding.Fits (b : Binding) (o : Occurrence) : Prop :=
  b.type.isFunction = o.hasArgs ∧ (o.isContent = false → b.type.isString = true)

def Occurrence.Served (bindings : Bindings) (o : Occurrence) : Prop :=
  ∃ b, bindings.lookup o.hole = some b ∧ b.Fits o

namespace Evaluate

def AllServed (bindings : Bindings) (list : List Occurrence) : Prop :=
  ∀ o ∈ list, o.WellFormed ∧ o.Served bindings

section

variable {bindings : Bindings}

theorem allServed_append {first second : List Occurrence} :
    AllServed bindings (first ++ second) ↔ AllServed bindings first ∧ AllServed bindings second :=
  List.forall_mem_append

theorem AllServed.value {hole : Text} (h : AllServed bindings [.value hole]) :
    ∃ s, bindings.lookup hole = some (.string s) := by
  obtain ⟨b, hb, hfunction, hstring⟩ := (h _ List.mem_cons_self).2
  have hs := hstring rfl
  cases b with
  | string s => exact ⟨s, hb⟩
  | fragment | fragmentFunction => cases hs
  | stringFunction => cases hfunction

theorem AllServed.call {hole : Text} {args : List Text} (h : AllServed bindings [.call hole args]) :
    args ≠ [] ∧ ∃ f, bindings.lookup hole = some (.stringFunction f) := by
  obtain ⟨⟨-, hargs⟩, b, hb, hfunction, hstring⟩ := h _ List.mem_cons_self
  refine ⟨hargs, ?_⟩
  have hs := hstring rfl
  have hf : b.type.isFunction = true := by
    rw [hfunction]
    simpa [Occurrence.hasArgs] using hargs
  cases b with
  | stringFunction f => exact ⟨f, hb⟩
  | fragment | fragmentFunction => cases hs
  | string => cases hf

variable (page : List Markup.Node)

theorem placeholder_does {hole : Text} {args : List Text} {f : Callback Text} (hargs : args ≠ [])
    (hb : bindings.lookup hole = some (.stringFunction f)) (k : Nat) :
    Does page bindings (placeholder page bindings hole args)
      (FillsSegment bindings k (.call hole args)) := by
  rw [placeholder, hb]
  refine (call_does f .text (fun _ => rfl) k (.call hole args) []
    fun _ _ h => .string hb h).bind fun calls r hr => ?_
  obtain ⟨s, rfl, rfl⟩ | ⟨cause, rfl, rfl⟩ := hr
  · exact .pure (.returned hargs hb)
  · exact .pure (.bracketed hargs hb)

theorem segment_does {s : Segment} (h : AllServed bindings s.occurrences) (k : Nat) :
    Does page bindings (segment page bindings s) (FillsSegment bindings k s) := by
  match s with
  | .literal s => exact .pure .literal
  | .variable hole =>
    obtain ⟨s, hb⟩ := h.value
    rw [segment, placeholder, hb]
    exact .pure (.string hb)
  | .call hole args =>
    obtain ⟨hargs, f, hb⟩ := h.call
    exact placeholder_does page hargs hb k

theorem text_cons (s : Segment) (rest : Segments) :
    text page bindings (s :: rest) = do
      let first ← segment page bindings s
      let others ← text page bindings rest
      return first ++ others := by
  simp [text]

theorem text_does {segments : Segments} (h : AllServed bindings (Segments.occurrences segments))
    (k : Nat) :
    Does page bindings (text page bindings segments) (FillsText bindings k segments) := by
  induction segments generalizing k with
  | nil => exact .pure .nil
  | cons s rest ih =>
    rw [Segments.occurrences, List.flatMap_cons, allServed_append] at h
    rw [text_cons]
    refine (segment_does page h.1 k).bind fun calls first hfirst => ?_
    exact (ih h.2 _).map fun others text htext => .cons hfirst htext

theorem attrs_does {list : List Attr} (h : AllServed bindings (list.flatMap Attr.occurrences))
    (k : Nat) : Does page bindings (attrs page bindings list) (FillsAttrs bindings k list) := by
  induction list generalizing k with
  | nil => exact .pure .nil
  | cons a rest ih =>
    rw [List.flatMap_cons, allServed_append] at h
    rw [attrs, List.mapM_cons, bind_assoc]
    refine (text_does page h.1 k).bind fun calls value hvalue => ?_
    rw [pure_bind]
    exact (ih h.2 _).map fun others list hlist => .cons hvalue hlist

theorem content_does {hole : Text} {args : List Text} (h : AllServed bindings [.content hole args])
    (k : Nat) (replaced : List Markup.Node) :
    Does page bindings (content page bindings replaced hole args) fun calls r =>
      FillsContent bindings k replaced hole args calls r.1 r.2 := by
  obtain ⟨b, hlookup, hfunction, -⟩ := (h _ List.mem_cons_self).2
  have hb : bindings.lookup hole = some b := hlookup
  have hargs : b.type.isFunction = true ↔ args ≠ [] := by
    rw [hfunction]
    simp [Occurrence.hasArgs]
  rw [content, hb]
  cases b with
  | fragment nodes =>
    have hnil : args = [] := by simpa [Binding.type, HoleType.isFunction] using hargs
    subst hnil
    exact .pure (.fragment hb)
  | string s =>
    have hnil : args = [] := by simpa [Binding.type, HoleType.isFunction] using hargs
    subst hnil
    refine .pure ?_
    rw [textNodes_eq]
    exact .string hb
  | fragmentFunction f =>
    refine (call_does f .nodes (fun _ => rfl) k (.content hole args) replaced
      fun _ _ h => .fragment hb h).bind fun calls r hr => ?_
    obtain ⟨nodes, rfl, rfl⟩ | ⟨cause, rfl, rfl⟩ := hr
    · exact .pure (.nodesReturned (hargs.mp rfl) hb)
    · exact .pure (.marked (hargs.mp rfl) hb rfl)
  | stringFunction f =>
    refine (call_does f .text (fun _ => rfl) k (.content hole args) replaced
      fun _ _ h => .string hb h).bind fun calls r hr => ?_
    obtain ⟨s, rfl, rfl⟩ | ⟨cause, rfl, rfl⟩ := hr
    · refine .pure ?_
      rw [textNodes_eq]
      exact .textReturned (hargs.mp rfl) hb
    · exact .pure (.marked (hargs.mp rfl) hb rfl)

theorem wraps_iff {strip : Strip} {isEmpty : Bool} :
    Wraps strip isEmpty ↔ ¬ (strip = .always || (strip = .ifEmpty && isEmpty)) = true := by
  cases strip <;> cases isEmpty <;> simp [Wraps]

mutual

theorem node_does {t : Tree} (h : AllServed bindings t.occurrences) (k : Nat) :
    Does page bindings (node page bindings t) fun calls out =>
      ∃ skipped, FillsNode bindings k t calls skipped out := by
  match t with
  | .data segments =>
    exact (text_does page h k).map fun calls s hs => ⟨[], textNodes_eq s ▸ .data hs⟩
  | .comment s => exact .pure ⟨[], .comment⟩
  | .doctype name attrs => exact .pure ⟨[], .doctype⟩
  | .element ns tag attributes strip children =>
    obtain ⟨hattrs, hchildren⟩ := allServed_append.mp h
    refine (nodes_does hchildren (k + attrCount attributes)).bind fun calls inner hinner => ?_
    obtain ⟨skipped, hinner⟩ := hinner
    -- the attributes come first in the tree, but are evaluated only once the content is known
    by_cases hw : Wraps strip inner.isEmpty
    · rw [if_neg (wraps_iff.mp hw)]
      exact (attrs_does page hattrs k).map fun others list hlist =>
        ⟨skipped, .element hinner hw hlist⟩
    · rw [if_pos (Decidable.not_not.mp (mt wraps_iff.mpr hw))]
      exact .pure ⟨_, by rw [List.append_nil]; exact .bareElement hinner hw⟩
  | .hole ns tag attributes strip name args replaced =>
    obtain ⟨hattrs, hcontent⟩ := allServed_append.mp h
    refine (content_does page hcontent (k + attrCount attributes) replaced).bind
      fun calls r hr => ?_
    obtain ⟨inner, isEmpty⟩ := r
    have hshown : Wraps strip isEmpty → Does page bindings
        (do return [.element ns tag (← attrs page bindings attributes) inner]) fun others out =>
          ∃ skipped, FillsNode bindings k (.hole ns tag attributes strip name args replaced)
            (calls ++ others) skipped out :=
      fun hw => (attrs_does page hattrs k).map fun others list hlist => ⟨[], .hole hr hw hlist⟩
    cases strip with
    | none => exact hshown (.inl rfl)
    | always => exact .pure ⟨_, by rw [List.append_nil]; exact .bareHole hr⟩
    | ifEmpty =>
      cases isEmpty with
      | false => exact hshown (.inr ⟨rfl, rfl⟩)
      | true => exact .pure ⟨_, by rw [List.append_nil]; exact .droppedHole hr⟩

theorem nodes_does {list : List Tree} (h : AllServed bindings (Tree.occurrencesIn list)) (k : Nat) :
    Does page bindings (nodes page bindings list) fun calls out =>
      ∃ skipped, FillsNodes bindings k list calls skipped out := by
  match list with
  | [] => exact .pure ⟨[], .nil⟩
  | t :: rest =>
    obtain ⟨ht, hrest⟩ := allServed_append.mp h
    refine (node_does ht k).bind fun calls first hfirst => ?_
    obtain ⟨skipped, hfirst⟩ := hfirst
    refine (nodes_does hrest (k + t.occurrences.length)).map fun others out hout => ?_
    obtain ⟨passed, hout⟩ := hout
    exact ⟨_, .cons hfirst hout⟩

end

end

end Evaluate

end Stencil
