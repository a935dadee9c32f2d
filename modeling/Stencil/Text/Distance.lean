import Stencil.Text.Rune

namespace Stencil.Text

/-- The two rows of the distance table that are held: one that is done, and one that is written over
next. -/
structure Rows where
  previous : Array Nat
  current : Array Nat

namespace Rows

def entry (previous current : Array Nat) (j cost : Nat) : Nat :=
  min (min (current.getD j 0 + 1) (previous.getD (j + 1) 0 + 1)) (previous.getD j 0 + cost)

def fillEntry (c : UInt8) (previous current : Array Nat) (x : UInt8) (j : Nat) : Array Nat :=
  current.setIfInBounds (j + 1) (entry previous current j (if x = c then 0 else 1))

def fill (a : Text) (c : UInt8) (previous current : Array Nat) : Array Nat :=
  a.zipIdx.foldl (fun row p => fillEntry c previous row p.1 p.2) current

def advance (a : Text) (rows : Rows) (c : UInt8) (i : Nat) : Rows :=
  ⟨fill a c rows.previous (rows.current.setIfInBounds 0 (i + 1)), rows.previous⟩

end Rows

def distance (a b : Text) : Nat :=
  if a.isEmpty then b.length
  else if b.isEmpty then a.length
  else
    let first : Rows := ⟨Array.range (a.length + 1), Array.replicate (a.length + 1) 0⟩
    let rows := b.zipIdx.foldl (fun rows p => rows.advance a p.1 p.2) first
    rows.previous.getD a.length 0

def suggest (name : Text) (candidates : List Text) : List Text :=
  let scored := candidates.map fun c => (c, distance (toLower name) (toLower c))
  let close := scored.filter (·.2 ≤ 2)
  ((close.mergeSort fun a b => a.2 ≤ b.2).map Prod.fst).take 3

def didYouMean (name : Text) (candidates : List Text) (lead : Text) : Text :=
  let similar := (suggest name candidates).map (lead ++ ·)
  if similar.isEmpty then []
  else utf8 "; did you mean " ++ joinWith (utf8 " or ") similar ++ utf8 "?"

end Stencil.Text
