import Stencil.Markup.Node
import Stencil.Template.Segment
import Stencil.Text.Distance

namespace Stencil

open Ascii Text

structure Directive where
  hole : Option Text := none
  args : List Text := []
  strip : Strip := .none
  deriving DecidableEq, Repr

namespace Directive

def lead : Text :=
  utf8 "ml:"

def includeHole : Text :=
  utf8 "include"

def names : List Text :=
  [utf8 "content", utf8 "replace", utf8 "strip"]

def nameOf? (a : Markup.Attribute) : Option Text :=
  if a.ns.isEmpty then cutPrefix? lead a.key else none

def fragment (a : Markup.Attribute) : Text :=
  a.key ++ [equal] ++ quoted a.value

def holeOf (a : Markup.Attribute) : Except TextError (Text × List Text) :=
  match Words.split? a.value with
  | none => .error (.malformed ⟨.unterminatedQuote, fragment a, [], {}⟩)
  | some [] => .error (.malformed ⟨.malformedDirective, fragment a, utf8 "missing hole name", {}⟩)
  | some (name :: args) =>
    if isHoleName name then .ok (name, args) else .error (Scan.invalidName (fragment a) name)

def stripOf (value : Text) : Strip :=
  if firstField? value = some (utf8 "ifempty") then .ifEmpty else .always

def update (d : Directive) (name : Text) (a : Markup.Attribute) : Except TextError Directive :=
  if name = utf8 "content" then do
    let (hole, args) ← holeOf a
    return { d with hole := some hole, args := args }
  else if name = utf8 "replace" then do
    let (hole, args) ← holeOf a
    return { d with hole := some hole, args := args, strip := .always }
  else if name = utf8 "strip" then
    return { d with strip := stripOf a.value }
  else
    .error (.malformed ⟨.malformedDirective, fragment a,
      utf8 "unknown directive " ++ quoted a.key ++ didYouMean name names lead, {}⟩)

def readFrom (d : Directive) : List Markup.Attribute →
    Except TextError (Directive × List Markup.Attribute)
  | [] => .ok (d, [])
  | a :: rest =>
    match nameOf? a with
    | none => do
      let (d, ordinary) ← readFrom d rest
      return (d, a :: ordinary)
    | some name => do
      let d ← update d name a
      readFrom d rest

def read (attrs : List Markup.Attribute) : Except TextError (Directive × List Markup.Attribute) :=
  readFrom {} attrs

end Directive

structure Attr where
  ns : Text
  key : Text
  value : Segments
  deriving DecidableEq, Repr

namespace Scan

def attr (a : Markup.Attribute) : Scan Attr := do
  let value ← text a.value
  return ⟨a.ns, a.key, value⟩

def attrs (list : List Markup.Attribute) : Scan (List Attr) :=
  list.mapM attr

end Scan

end Stencil
