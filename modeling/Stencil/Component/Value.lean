import Stencil.Unit.Expr

namespace Stencil

open Ascii Text

def callOr {α : Type} (empty : α) (f : Option (List Text → α)) (args : List Text) : α :=
  match f with
  | none => empty
  | some f => f args

inductive Value where
  | text (s : Text)
  | nodes (list : List Markup.Node)
  | attributes (list : List Markup.Attribute)
  | stringFunction (f : Option (List Text → Text))
  | fragmentFunction (f : Option (List Text → List Markup.Node))
  deriving Inhabited

namespace Value

def asText : Value → Text
  | .text s => s
  | _ => []

def asNodes : Value → List Markup.Node
  | .nodes list => list
  | _ => []

def asAttributes : Value → List Markup.Attribute
  | .attributes list => list
  | _ => []

def callString (args : List Text) : Value → Text
  | .stringFunction f => callOr [] f args
  | _ => []

def callFragment (args : List Text) : Value → List Markup.Node
  | .fragmentFunction f => callOr [] f args
  | _ => []

def zero : HoleType → Value
  | .fragment => .nodes []
  | .fragmentFunction => .fragmentFunction (some fun _ => [])
  | .stringFunction => .stringFunction (some fun _ => [])
  | _ => .text []

export Markup (textNodes)

def isEmpty (isString : Bool) (v : Value) : Bool :=
  if isString then v.asText.isEmpty else v.asNodes.isEmpty

end Value

structure Locals where
  children : Value := .nodes []
  value : Value := .nodes []

namespace Locals

def find (l : Locals) : Local → Value
  | .children => l.children
  | .value => l.value

def bind (l : Locals) (name : Local) (v : Value) : Locals :=
  match name with
  | .children => { l with children := v }
  | .value => { l with value := v }

end Locals

namespace Expr

mutual

def value {m : Type → Type} [Monad m] (read : Text → m Value) (locals : Locals) : Expr → m Value
  | .quoted s => return .text s
  | .add l r => do
    let a ← value read locals l
    let b ← value read locals r
    return .text (a.asText ++ b.asText)
  | .read hole => read hole
  | .callString f args => do return .text ((← value read locals f).callString args)
  | .callFragment f args => do return .nodes ((← value read locals f).callFragment args)
  | .text e => do return .nodes (Markup.textNodes (← value read locals e).asText)
  | .comment data => return .nodes [.comment data]
  | .doctype name attrs => do
    return .nodes [.doctype name (← value read locals attrs).asAttributes]
  | .element ns tag attrs children => do
    let attributes ← value read locals attrs
    let lists ← values read locals children
    return .nodes [.element ns tag attributes.asAttributes (lists.flatMap Value.asNodes)]
  | .concat parts => do return .nodes ((← values read locals parts).flatMap Value.asNodes)
  | .cloneAll e => value read locals e
  | .nil => return .nodes []
  | .attributes items => do
    return .attributes ((← values read locals items).flatMap Value.asAttributes)
  | .item ns key e => do
    return .attributes [{ ns := ns, key := key, value := (← value read locals e).asText }]
  | .bound name => return locals.find name
  | .unlessEmpty name e isString result => do
    let v ← value read locals e
    if v.isEmpty isString then return .nodes [] else value read (locals.bind name v) result

def values {m : Type → Type} [Monad m] (read : Text → m Value) (locals : Locals) :
    List Expr → m (List Value)
  | [] => return []
  | e :: rest => do
    let first ← value read locals e
    let others ← values read locals rest
    return first :: others

end

end Expr

end Stencil
