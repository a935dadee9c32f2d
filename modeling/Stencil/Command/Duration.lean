import Stencil.Text.Number

namespace Stencil.Duration

open Ascii Text

def units : List (Text × Nat) :=
  [(utf8 "ns", 1), (utf8 "us", 1000), (utf8 "µs", 1000), (utf8 "μs", 1000), (utf8 "ms", 1000000),
    (utf8 "s", 1000000000), (utf8 "m", 60000000000), (utf8 "h", 3600000000000)]

def isNumeric (c : UInt8) : Bool :=
  Ascii.isDigit c || c = dot

def first? (s : Text) : Option (Nat × Text) := do
  let whole := s.takeWhile Ascii.isDigit
  let rest := s.drop whole.length
  let (fraction, rest) := match rest with
    | dot :: more => (more.takeWhile Ascii.isDigit, more.dropWhile Ascii.isDigit)
    | _ => ([], rest)
  if whole.isEmpty && fraction.isEmpty then none
  else
    let unit ← units.lookup (rest.takeWhile (!isNumeric ·))
    let n := (toNat? whole).getD 0 * unit + (toNat? fraction).getD 0 * unit / Nat.pow 10 fraction.length
    some (n, rest.dropWhile (!isNumeric ·))

def sum? : (fuel : Nat) → Text → Option Nat
  | _, [] => some 0
  | 0, _ => none
  | fuel + 1, s => do
    let (n, rest) ← first? s
    return n + (← sum? fuel rest)

def ofText? (s : Text) : Option Int := do
  let (negative, body) := match s with
    | hyphen :: rest => (true, rest)
    | plus :: rest => (false, rest)
    | _ => (false, s)
  if body = utf8 "0" then return 0
  else if body.isEmpty then none
  else
    let n ← sum? body.length body
    if negative then if n ≤ 0x8000000000000000 then some (-(n : Int)) else none
    else if n < 0x8000000000000000 then some n else none

end Stencil.Duration
