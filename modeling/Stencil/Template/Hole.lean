import Stencil.Text.Basic

namespace Stencil

open Ascii

def isHoleName : Text → Bool
  | [] => false
  | c :: rest => isLower c && rest.all fun d => isAlphanumeric d || d = underscore

/-- What a hole holds. A fragment is a list of document nodes, and a function takes strings.
Codes outside the four types are kept, and take part in unification as values. -/
inductive HoleType where
  | fragment
  | string
  | fragmentFunction
  | stringFunction
  | invalid (code : UInt8)
  deriving DecidableEq, Repr

namespace HoleType

def ofCode (code : UInt8) : HoleType :=
  if code = 1 then .fragment
  else if code = 2 then .string
  else if code = 3 then .fragmentFunction
  else if code = 4 then .stringFunction
  else .invalid code

def describe : HoleType → Text
  | .fragment => utf8 "HTML fragment"
  | .string => utf8 "string"
  | .fragmentFunction => utf8 "HTML function"
  | .stringFunction => utf8 "string function"
  | .invalid _ => utf8 "invalid hole type"

def isFunction : HoleType → Bool
  | .fragmentFunction | .stringFunction => true
  | _ => false

def isString : HoleType → Bool
  | .string | .stringFunction => true
  | _ => false

/-- The type of a hole that is used both as `a` and as `b`. A string can stand in for a fragment,
so mixed uses make a string, or a string function. -/
def unify? (a b : HoleType) : Option HoleType :=
  if a.isFunction ≠ b.isFunction then none
  else if a = b then some a
  else if a.isFunction then some .stringFunction
  else some .string

/-- Whether a value of type `bound` can serve a hole whose uses have type `used`: one more use as
`bound` would make the hole a `bound`. -/
def satisfies (bound used : HoleType) : Bool :=
  used.unify? bound = some bound

end HoleType

inductive Strip where
  | none
  | always
  | ifEmpty
  deriving DecidableEq, Repr

namespace Strip

def ofCode? (code : UInt8) : Option Strip :=
  if code = 0 then some .none
  else if code = 1 then some .always
  else if code = 2 then some .ifEmpty
  else Option.none

def describe : Strip → Text
  | .none => utf8 "none"
  | .always => utf8 "always"
  | .ifEmpty => utf8 "ifempty"

def describeCode (code : UInt8) : Text :=
  match ofCode? code with
  | some mode => mode.describe
  | Option.none => utf8 "invalid strip mode"

end Strip

structure Clash where
  name : Text
  existing : HoleType
  proposed : HoleType
  deriving DecidableEq, Repr

structure Symbols where
  entries : List (Text × HoleType) := []
  deriving DecidableEq, Repr

namespace Symbols

def empty : Symbols :=
  {}

def lookup? (table : Symbols) (name : Text) : Option HoleType :=
  table.entries.lookup name

def insertInto (name : Text) (type : HoleType) : List (Text × HoleType) → List (Text × HoleType)
  | [] => [(name, type)]
  | (n, t) :: rest =>
    if n = name then (name, type) :: rest
    else if Text.lt name n then (name, type) :: (n, t) :: rest
    else (n, t) :: insertInto name type rest

def insert (table : Symbols) (name : Text) (type : HoleType) : Symbols :=
  ⟨insertInto name type table.entries⟩

def names (table : Symbols) : List Text :=
  table.entries.map Prod.fst

def size (table : Symbols) : Nat :=
  table.entries.length

/-- Records one use of `name`. A use that clashes with the earlier ones changes nothing. -/
def register (table : Symbols) (name : Text) (type : HoleType) : Except Clash Symbols :=
  match table.lookup? name with
  | none => .ok (table.insert name type)
  | some existing =>
    match existing.unify? type with
    | none => .error ⟨name, existing, type⟩
    | some unified => .ok (table.insert name unified)

end Symbols

end Stencil
