import Stencil.Text.Number

namespace Stencil.Text

open Ascii

inductive NumberFault where
  | malformed
  | outOfRange
  deriving DecidableEq, Repr

def baseOf : Text → Nat × Text
  | 48 :: m :: c :: rest =>
    if Ascii.toLower m = 98 then (2, c :: rest)
    else if Ascii.toLower m = 111 then (8, c :: rest)
    else if Ascii.toLower m = 120 then (16, c :: rest)
    else (8, m :: c :: rest)
  | 48 :: rest => (8, rest)
  | s => (10, s)

def underscoresBetween (after : Bool) : Text → Bool
  | [] => true
  | c :: rest =>
    if c = underscore then after && !rest.isEmpty && rest.head? ≠ some underscore &&
      underscoresBetween false rest
    else underscoresBetween true rest

def magnitude (base : Nat) : (value : Nat) → Text → Except NumberFault Nat
  | n, [] => .ok n
  | n, c :: rest =>
    if c = underscore then magnitude base n rest
    else match hexValue? c with
      | none => .error .malformed
      | some v =>
        if base ≤ v then .error .malformed
        else if 0x10000000000000000 ≤ n * base + v then .error .outOfRange
        else magnitude base (n * base + v) rest

def toInteger (s : Text) : Except NumberFault Int := do
  let (negative, body) := match s with
    | hyphen :: rest => (true, rest)
    | plus :: rest => (false, rest)
    | _ => (false, s)
  if body.isEmpty then throw .malformed
  let (base, digits) := baseOf body
  let n ← magnitude base 0 digits
  if !underscoresBetween (body.head? = some 48) digits then throw .malformed
  if negative then if n ≤ 0x8000000000000000 then return -(n : Int) else throw .outOfRange
  else if n < 0x8000000000000000 then return n else throw .outOfRange

end Stencil.Text
