import Stencil.Text.Basic

namespace Stencil.Markdown

open Ascii Text

structure Line where
  column : Nat := 0
  pending : Nat := 0
  rest : Text
  ending : Text
  deriving Repr

def isBlankByte (c : UInt8) : Bool :=
  c = space || c = tab

namespace Line

def blankWidth (column : Nat) : Text → Nat
  | c :: rest =>
    if c = space then 1 + blankWidth (column + 1) rest
    else if c = tab then
      let width := 4 - column % 4
      width + blankWidth (column + width) rest
    else 0
  | [] => 0

def indent (line : Line) : Nat :=
  line.pending + blankWidth (line.column + line.pending) line.rest

def isBlank (line : Line) : Bool :=
  line.rest.all Ascii.isSpace

def dropFrom (n column : Nat) (ending : Text) : Text → Line
  | c :: rest =>
    if n = 0 then ⟨column, 0, c :: rest, ending⟩
    else if c = space then dropFrom (n - 1) (column + 1) ending rest
    else if c = tab then
      let width := 4 - column % 4
      if width ≤ n then dropFrom (n - width) (column + width) ending rest
      else ⟨column + n, width - n, rest, ending⟩
    else ⟨column, 0, c :: rest, ending⟩
  | [] => ⟨column, 0, [], ending⟩

def dropColumns (line : Line) (n : Nat) : Line :=
  if n ≤ line.pending then
    { line with column := line.column + n, pending := line.pending - n }
  else dropFrom (n - line.pending) (line.column + line.pending) line.ending line.rest

def dropIndent (line : Line) : Line :=
  line.dropColumns line.indent

def dropBytes (line : Line) (n : Nat) : Line :=
  { line with column := line.column + n, rest := line.rest.drop n }

def text (line : Line) : Text :=
  List.replicate line.pending space ++ line.rest

def whole (line : Line) : Text :=
  line.text ++ line.ending

end Line

def linesOf (source : Text) : List Line :=
  let parts := Text.lines source
  let closed := parts.dropLast.map fun l =>
    ({ rest := dropSuffix [carriageReturn] l, ending := [newline] } : Line)
  match parts.getLast? with
  | some [] | none => closed
  | some last => closed ++ [{ rest := last, ending := [] }]

end Stencil.Markdown
