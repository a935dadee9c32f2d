import Stencil.Text.Basic

namespace Stencil.Text

open Ascii

def digits? (base : Nat) (s : Text) : Option Nat :=
  if s.isEmpty then none
  else s.foldl (fun n c => do
    let n ← n
    let v ← hexValue? c
    if v < base then some (n * base + v) else none) (some 0)

def toNat? (s : Text) : Option Nat := digits? 10 s

def toInt? : Text → Option Int
  | hyphen :: rest => (toNat? rest).map fun n => -(n : Int)
  | s => (toNat? s).map Int.ofNat

end Stencil.Text
