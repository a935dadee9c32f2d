import Stencil.Binding
import Stencil.Log

namespace Stencil

open Ascii Text

inductive RenderFault where
  | template (e : TemplateError)
  | unbound (hole : Text)
  | mismatch (e : Conflict)

def RenderFault.message : RenderFault → Text
  | .template e => e.message
  | .unbound hole => utf8 "hole " ++ quoted hole ++ utf8 " is not bound"
  | .mismatch e => e.message

def CallFailure.record (e : CallFailure) : LogRecord :=
  ⟨.error, utf8 "template callback failed",
    [(utf8 "hole", .text e.hole), (utf8 "error", .text e.cause)]⟩

namespace Evaluate

structure Trace where
  calls : List Text := []
  failures : List CallFailure := []

abbrev Evaluation := StateM Trace

def check (path : Text) (bindings : Bindings) : List (Text × HoleType) → Option RenderFault
  | [] => none
  | (name, used) :: rest =>
    match bindings.lookup name with
    | none => some (.unbound name)
    | some binding =>
      if binding.type.satisfies used then check path bindings rest
      else some (.mismatch ⟨⟨name, used, binding.type⟩, { path := path }⟩)

def call {α : Type} (f : Callback α) (context : Context) (args : List Text) :
    Evaluation (Except CallFailure α) := do
  let trace ← get
  let calls := trace.calls ++ [context.hole]
  let fail (cause : Text) : Evaluation (Except CallFailure α) := do
    let failure : CallFailure := ⟨context.hole, args, cause⟩
    set { trace with calls := calls, failures := trace.failures ++ [failure] }
    return .error failure
  match f (calls.count context.hole) context args with
  | .value a =>
    set { trace with calls := calls }
    return .ok a
  | .error message => fail message
  | .panic message => fail (utf8 "panic: " ++ message)

export Markup (textNodes)

def failureMark (e : CallFailure) : List Markup.Node :=
  [.element [] (utf8 "code") [{ key := utf8 "class", value := utf8 "ml-error" }]
    (textNodes e.message)]

def placeholder (page : List Markup.Node) (bindings : Bindings) (hole : Text) (args : List Text) :
    Evaluation Text :=
  match bindings.lookup hole with
  | some (.string s) => return s
  | some (.stringFunction f) => do
    match ← call f ⟨page, [], hole⟩ args with
    | .ok s => return s
    | .error e => return openBracket :: e.message ++ [closeBracket]
  | _ => return []

def segment (page : List Markup.Node) (bindings : Bindings) : Segment → Evaluation Text
  | .literal s => return s
  | .variable hole => placeholder page bindings hole []
  | .call hole args => placeholder page bindings hole args

def text (page : List Markup.Node) (bindings : Bindings) (segments : Segments) : Evaluation Text := do
  let parts ← segments.mapM (segment page bindings)
  return parts.flatten

def attrs (page : List Markup.Node) (bindings : Bindings) (list : List Attr) :
    Evaluation (List Markup.Attribute) :=
  list.mapM fun a => do
    return { ns := a.ns, key := a.key, value := ← text page bindings a.value }

/-- The value of a content hole: its nodes, and whether it counts as empty. The mark of a failed
call is not empty. -/
def content (page : List Markup.Node) (bindings : Bindings) (replaced : List Markup.Node)
    (hole : Text) (args : List Text) : Evaluation (List Markup.Node × Bool) :=
  match bindings.lookup hole with
  | some (.fragment nodes) => return (nodes, nodes.isEmpty)
  | some (.string s) => return (textNodes s, s.isEmpty)
  | some (.fragmentFunction f) => do
    match ← call f ⟨page, replaced, hole⟩ args with
    | .ok nodes => return (nodes, nodes.isEmpty)
    | .error e => return (failureMark e, false)
  | some (.stringFunction f) => do
    match ← call f ⟨page, replaced, hole⟩ args with
    | .ok s => return (textNodes s, s.isEmpty)
    | .error e => return (failureMark e, false)
  | none => return ([], false)

mutual

def node (page : List Markup.Node) (bindings : Bindings) : Tree → Evaluation (List Markup.Node)
  | .data segments => return textNodes (← text page bindings segments)
  | .comment s => return [.comment s]
  | .doctype name attrs => return [.doctype name attrs]
  | .element ns tag attributes strip children => do
    let inner ← nodes page bindings children
    -- attributes come after the content, and only where they are shown
    if strip = .always || (strip = .ifEmpty && inner.isEmpty) then return inner
    return [.element ns tag (← attrs page bindings attributes) inner]
  | .hole ns tag attributes strip name args replaced => do
    let (inner, isEmpty) ← content page bindings replaced name args
    if strip = .always then return inner
    if strip = .ifEmpty && isEmpty then return []
    return [.element ns tag (← attrs page bindings attributes) inner]

def nodes (page : List Markup.Node) (bindings : Bindings) :
    List Tree → Evaluation (List Markup.Node)
  | [] => return []
  | n :: rest => do
    let first ← node page bindings n
    let others ← nodes page bindings rest
    return first ++ others

end

def render (doc : Document) (bindings : Bindings) :
    Except RenderFault (List Markup.Node) × Trace :=
  match check doc.path bindings doc.symbols.entries with
  | some e => (.error e, {})
  | none =>
    let (out, trace) := (nodes doc.page bindings doc.tree).run {}
    (.ok out, trace)

def renderRead (doc : Except TemplateError Document) (bindings : Bindings) :
    Except RenderFault (List Markup.Node) × Trace :=
  match doc with
  | .error e => (.error (.template e), {})
  | .ok doc => render doc bindings

def readNodes (fs : FileSystem) (name : Text) : Except ReadError (List Markup.Node) :=
  match fs.read name with
  | .ok source => .ok (Markup.parse source)
  | .error e => .error { e with message := utf8 "failed to read " ++ name ++ utf8 ": " ++ e.message }

def substitute (fs : Option FileSystem) (dir : Text) (nodes : List Markup.Node)
    (bindings : Bindings) : Except RenderFault (List Markup.Node) × Trace :=
  renderRead (Document.ofNodes fs dir nodes) bindings

def readAndSubstitute (fs : FileSystem) (name : Text) (bindings : Bindings) :
    Except RenderFault (List Markup.Node) × Trace :=
  renderRead (Document.read fs name) bindings

end Evaluate

end Stencil
