import Stencil.Unit.Expr

/-!
The component generated for a template: a state type with a field, a setter, an update method and a
getter for every hole, and a render method; and the two interfaces that describe it.
-/

namespace Stencil

open Ascii Text

/-- A row of a generated unit. Its text as generated and its text in the final layout are both read
off it. -/
inductive Row where
  | blank
  | line (depth : Nat) (text : Text)
  | doc (text : Text)
  | field (name type : Text)
  | entry (key value : Text)
  | build (depth : Nat) (lead : Text) (e : Expr)

structure Signature where
  name : Text
  params : List (Text × Text)
  result : Text
  deriving DecidableEq, Repr

namespace Signature

def resultText (s : Signature) : Text :=
  if s.result.isEmpty then [] else space :: s.result

def opening (receiver : Text) (s : Signature) : Text :=
  let params := s.params.map fun (name, type) => name ++ [space] ++ type
  utf8 "func (s *" ++ receiver ++ utf8 ") " ++ s.name ++ utf8 "(" ++ joinWith (utf8 ", ") params ++
    utf8 ")" ++ s.resultText ++ utf8 " \x7b"

end Signature

structure Method where
  signature : Signature
  doc : List Text
  body : List Row

structure Component where
  source : Text
  package : Text
  typeName : Text
  symbols : Symbols
  tree : List Tree
  hidden : List Text

namespace HoleType

def codeType : HoleType → Text
  | .fragment => utf8 "[]*html.Node"
  | .fragmentFunction => utf8 "runtime.HTMLFunc"
  | .stringFunction => utf8 "runtime.StringFunc"
  | _ => utf8 "string"

def zeroValue : HoleType → Text
  | .fragment => utf8 "nil"
  | .fragmentFunction => utf8 "runtime.EmptyHTML"
  | .stringFunction => utf8 "runtime.EmptyString"
  | _ => utf8 "\"\""

end HoleType

namespace Component

def holeArgs (c : Component) (type : HoleType) : Text :=
  utf8 "[" ++ type.codeType ++ utf8 ", *" ++ c.typeName ++ utf8 "]"

def delayedType (c : Component) (type : HoleType) : Text :=
  utf8 "*runtime.Delayed" ++ c.holeArgs type

def fieldName (hole : Text) : Text :=
  utf8 "hole" ++ Expr.holeName hole

def isHidden (c : Component) (hole : Text) : Bool :=
  c.hidden.contains hole

def setterName (c : Component) (hole : Text) : Text :=
  (if c.isHidden hole then utf8 "set" else utf8 "Set") ++ Expr.holeName hole

def setter (c : Component) (hole : Text) (type : HoleType) : Signature :=
  ⟨c.setterName hole, [(utf8 "v", type.codeType)], []⟩

def updater (c : Component) (hole : Text) (type : HoleType) : Signature :=
  ⟨utf8 "Update" ++ Expr.holeName hole,
    [(utf8 "f", utf8 "func(*" ++ c.typeName ++ utf8 ") " ++ type.codeType)], []⟩

def getter (hole : Text) (type : HoleType) : Signature :=
  ⟨utf8 "Get" ++ Expr.holeName hole, [], type.codeType⟩

def renderer : Signature :=
  ⟨utf8 "Render", [], utf8 "[]*html.Node"⟩

def setMethod (c : Component) (hole : Text) (type : HoleType) : Method :=
  ⟨c.setter hole type,
    [c.setterName hole ++ utf8 " sets the " ++ hole ++ utf8 " hole (" ++ type.describe ++ utf8 ")."],
    [.line 1 (utf8 "s." ++ fieldName hole ++ utf8 " = runtime.Value" ++ c.holeArgs type ++ utf8 "(v)")]⟩

def updateMethod (c : Component) (hole : Text) (type : HoleType) : Method :=
  ⟨c.updater hole type,
    [(c.updater hole type).name ++ utf8 " sets the " ++ hole ++
        utf8 " hole to the result of f. f runs lazily, at most",
      utf8 "once per render pass, and sees the " ++ hole ++ utf8 " hole as it was before this call."],
    [.line 1 (utf8 "s." ++ fieldName hole ++ utf8 " = runtime.Pending(f, s." ++ fieldName hole ++
      utf8 ")")]⟩

def getMethod (c : Component) (hole : Text) (type : HoleType) : Method :=
  ⟨getter hole type,
    [(getter hole type).name ++ utf8 " returns the current value of the " ++ hole ++
        utf8 " hole. Outside a render pass,",
      utf8 "each call is a pass of its own."],
    [.line 1 (utf8 "if !s.inPass \x7b"),
      .line 2 (utf8 "s = s.pass()"),
      .line 1 (utf8 "\x7d"),
      .line 1 (utf8 "return s." ++ fieldName hole ++ utf8 ".Force(func(prev " ++ c.delayedType type ++
        utf8 ") *" ++ c.typeName ++ utf8 " \x7b"),
      .line 2 (utf8 "c := *s"),
      .line 2 (utf8 "c." ++ fieldName hole ++ utf8 " = prev"),
      .line 2 (utf8 "return &c"),
      .line 1 (utf8 "\x7d)")]⟩

def passMethod (c : Component) : Method :=
  let fresh (hole : Text) : Row :=
    .line 1 (utf8 "c." ++ fieldName hole ++ utf8 " = c." ++ fieldName hole ++ utf8 ".Fresh()")
  ⟨⟨utf8 "pass", [], utf8 "*" ++ c.typeName⟩,
    [utf8 "pass returns the state a render pass works on: pending transformations",
      utf8 "are copied so that each of them runs at most once per pass."],
    [.line 1 (utf8 "c := *s")] ++
      (if c.symbols.names.isEmpty then [] else [.line 1 (utf8 "c.inPass = true")]) ++
      c.symbols.names.map fresh ++ [.line 1 (utf8 "return &c")]⟩

def renderMethod (c : Component) : Method :=
  ⟨renderer, [utf8 "Render builds the document tree of the template."],
    (if c.symbols.names.isEmpty then [] else [.line 1 (utf8 "s = s.pass()")]) ++
      [.build 1 (utf8 "return ") (Expr.ofDocument c.symbols c.tree)]⟩

def fields (c : Component) : List (Text × Text) :=
  if c.symbols.entries.isEmpty then []
  else c.symbols.entries.map (fun (hole, type) => (fieldName hole, c.delayedType type)) ++
    [(utf8 "inPass", utf8 "bool")]

def methods (c : Component) : List Method :=
  c.symbols.entries.flatMap (fun (hole, type) =>
    [c.setMethod hole type, c.updateMethod hole type, c.getMethod hole type]) ++
    [c.passMethod, c.renderMethod]

def templateInterface (c : Component) : List Text :=
  utf8 "Render() []*html.Node" ::
    (c.symbols.entries.filter fun (hole, _) => !c.isHidden hole).map fun (hole, type) =>
      utf8 "Set" ++ Expr.holeName hole ++ utf8 "(" ++ type.codeType ++ utf8 ")"

def advancedInterface (c : Component) : List Text :=
  c.symbols.entries.flatMap fun (hole, type) =>
    [utf8 "Update" ++ Expr.holeName hole ++ utf8 "(func(*" ++ c.typeName ++ utf8 ") " ++
        type.codeType ++ utf8 ")",
      utf8 "Get" ++ Expr.holeName hole ++ utf8 "() " ++ type.codeType]

def header (c : Component) (imports : List Text) : List Row :=
  [.line 0 (utf8 "// Code generated by mltemplate from " ++ c.source ++ utf8 ". DO NOT EDIT."), .blank,
    .line 0 (utf8 "package " ++ c.package), .blank] ++
    match imports with
    | [] => []
    | [path] => [.line 0 (utf8 "import " ++ path), .blank]
    | paths =>
      [.line 0 (utf8 "import (")] ++ paths.map (Row.line 1) ++ [.line 0 (utf8 ")"), .blank]

def methodRows (c : Component) (m : Method) : List Row :=
  m.doc.map Row.doc ++ [.line 0 (m.signature.opening c.typeName)] ++ m.body ++ [.line 0 (utf8 "\x7d")]

def typeRows (c : Component) : List Row :=
  [.doc (c.typeName ++ utf8 " is the state of the " ++ c.source ++
      utf8 " template. The zero value has every hole"),
    .doc (utf8 "empty; so does the value returned by New" ++ c.typeName ++ utf8 ".")] ++
    (if c.fields.isEmpty then [.line 0 (utf8 "type " ++ c.typeName ++ utf8 " struct\x7b\x7d")]
    else [.line 0 (utf8 "type " ++ c.typeName ++ utf8 " struct \x7b")] ++
      c.fields.map (fun (name, type) => Row.field name type) ++ [.line 0 (utf8 "\x7d")]) ++ [.blank]

def constructorRows (c : Component) : List Row :=
  let entry : Text × HoleType → Row := fun (hole, type) =>
    .entry (fieldName hole)
      (utf8 "runtime.Value" ++ c.holeArgs type ++ utf8 "(" ++ type.zeroValue ++ utf8 ")")
  [.doc (utf8 "New" ++ c.typeName ++ utf8 " returns a " ++ c.typeName ++
      utf8 " with every hole set to its empty value."),
    .line 0 (utf8 "func New" ++ c.typeName ++ utf8 "() *" ++ c.typeName ++ utf8 " \x7b")] ++
    (if c.symbols.entries.isEmpty then
      [.line 1 (utf8 "return &" ++ c.typeName ++ utf8 "\x7b\x7d")]
    else [.line 1 (utf8 "return &" ++ c.typeName ++ utf8 "\x7b")] ++ c.symbols.entries.map entry ++
      [.line 1 (utf8 "\x7d")]) ++ [.line 0 (utf8 "\x7d"), .blank]

def implementation (c : Component) (imports : List Text) : List Row :=
  c.header imports ++ c.typeRows ++ c.constructorRows ++
    ((c.methods.map c.methodRows).intersperse [Row.blank]).flatten

def interface (c : Component) (imports : List Text) : List Row :=
  let template := c.typeName ++ utf8 "Template"
  let advanced := c.typeName ++ utf8 "Advanced"
  let assertion (name : Text) : Row :=
    .line 1 (utf8 "_ " ++ name ++ utf8 " = (*" ++ c.typeName ++ utf8 ")(nil)")
  c.header imports ++
    [.doc (template ++ utf8 " is the public interface of the " ++ c.source ++ utf8 " template."),
      .line 0 (utf8 "type " ++ template ++ utf8 " interface \x7b")] ++
    c.templateInterface.map (Row.line 1) ++
    [.line 0 (utf8 "\x7d"), .blank,
      .doc (advanced ++ utf8 " extends " ++ template ++ utf8 " with lazy updates and forced reads."),
      .line 0 (utf8 "type " ++ advanced ++ utf8 " interface \x7b"), .line 1 template] ++
    c.advancedInterface.map (Row.line 1) ++
    [.line 0 (utf8 "\x7d"), .blank, .line 0 (utf8 "var ("), assertion template, assertion advanced,
      .line 0 (utf8 ")")]

def implementationImports : List Text :=
  [utf8 "\"golang.org/x/net/html\"", utf8 "\"github.com/vcrobe/mltemplate/runtime\"",
    utf8 "\"github.com/vcrobe/mltemplate/vdom\""]

def interfaceImports : List Text :=
  [utf8 "\"golang.org/x/net/html\"", utf8 "\"github.com/vcrobe/mltemplate/runtime\""]

end Component

namespace Row

def source : Row → Text
  | .blank => []
  | .line _ text => text
  | .doc text => utf8 "// " ++ text
  | .field name type => name ++ [space] ++ type
  | .entry key value => key ++ utf8 ": " ++ value ++ utf8 ","
  | .build _ lead e => lead ++ e.source

def sourceOf (rows : List Row) : Text :=
  rows.flatMap fun row => row.source ++ [newline]

end Row

end Stencil
