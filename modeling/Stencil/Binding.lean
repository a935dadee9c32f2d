import Stencil.Template.Document

namespace Stencil

open Ascii Text

structure Context where
  page : List Markup.Node
  children : List Markup.Node
  hole : Text

inductive Outcome (α : Type) where
  | value (a : α)
  | error (message : Text)
  | panic (message : Text)
  deriving Repr

/-- A callback answers a call from its number, counted from one, the context and the arguments. -/
abbrev Callback (α : Type) := Nat → Context → List Text → Outcome α

inductive Binding where
  | fragment (nodes : List Markup.Node)
  | string (text : Text)
  | fragmentFunction (f : Callback (List Markup.Node))
  | stringFunction (f : Callback Text)

def Binding.type : Binding → HoleType
  | .fragment _ => .fragment
  | .string _ => .string
  | .fragmentFunction _ => .fragmentFunction
  | .stringFunction _ => .stringFunction

abbrev Bindings := List (Text × Binding)

abbrev BindingTable := List (Text × Option Binding)

/-- The bindings of a table. A name that nothing is bound to is as if it did not stand there. -/
def BindingTable.bindings : BindingTable → Bindings
  | [] => []
  | (name, some b) :: rest => (name, b) :: bindings rest
  | (name, none) :: rest => (bindings rest).filter (·.1 ≠ name)

structure CallFailure where
  hole : Text
  args : List Text
  cause : Text
  deriving DecidableEq, Repr

def CallFailure.message (e : CallFailure) : Text :=
  utf8 "hole " ++ quoted e.hole ++
    (if e.args.isEmpty then [] else utf8 " (" ++ joinWith [space] e.args ++ utf8 ")") ++
    utf8 ": " ++ e.cause

end Stencil
