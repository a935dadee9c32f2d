import Stencil.Text.Number

namespace Stencil.Fields

open Ascii Text

def encode (fields : List Text) : Text :=
  fields.flatMap fun s => ofNat s.length ++ colon :: s

def first? (s : Text) : Option (Text × Text) := do
  let (size, rest) ← cut? [colon] s
  let n ← toNat? size
  if n ≤ rest.length then some (rest.take n, rest.drop n) else none

def decodeWithin : (fuel : Nat) → Text → Option (List Text)
  | _, [] => some []
  | 0, _ => none
  | fuel + 1, s => do
    let (field, rest) ← first? s
    return field :: (← decodeWithin fuel rest)

def decode? (s : Text) : Option (List Text) :=
  decodeWithin s.length s

end Stencil.Fields
