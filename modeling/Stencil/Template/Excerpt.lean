import Stencil.Text.Rune

namespace Stencil.Excerpt

open Ascii Text

def lineOf? (source part : Text) : Option Nat :=
  (lines source).findIdx? (hasPart · part) |>.map (· + 1)

def placeholderPart? (fragment : Text) : Option Text :=
  (cut? (utf8 "$\x7b") fragment).map fun (_, inner) =>
    let name := ((runes inner).takeWhile fun r => !isBlank r.code).flatMap Rune.bytes
    utf8 "$\x7b" ++ if name.isEmpty then inner else name

def directivePart? (fragment : Text) : Option Text :=
  match cut? [equal] fragment with
  | some (name, _) => if startsWith name (utf8 "ml:") then some name else none
  | none => none

def headPart? (fragment : Text) : Option Text :=
  let trimmed := trimBlank fragment
  if trimmed.length > 10 then some (trimmed.take 10) else none

/-- The line of the source that a fragment most likely stands on; the first line if no part of the
fragment is found. -/
def estimateLine (source fragment : Text) : Nat :=
  -- the most telling part first
  let tries := [some fragment, placeholderPart? fragment, directivePart? fragment, headPart? fragment]
  (tries.findSome? (·.bind (lineOf? source))).getD 1

structure Cursor where
  previous : Option UInt8
  rest : Text

namespace Cursor

def isSourceSpace (c : UInt8) : Bool :=
  c = tab || c = newline || c = formFeed || c = carriageReturn || c = space

def isWordByte (c : UInt8) : Bool :=
  isAlphanumeric c || c = underscore

def afterSpaces (previous : Option UInt8) : Text → List Cursor
  | [] => [⟨previous, []⟩]
  | c :: rest =>
    if isSourceSpace c then ⟨previous, c :: rest⟩ :: afterSpaces (some c) rest
    else [⟨previous, c :: rest⟩]

def spaces (cursor : Cursor) : List Cursor :=
  afterSpaces cursor.previous cursor.rest

def skip (word : Text) (cursor : Cursor) : List Cursor :=
  match cutPrefix? word cursor.rest with
  | some rest => [⟨word.getLast? <|> cursor.previous, rest⟩]
  | none => []

def optionalQuote (cursor : Cursor) : List Cursor :=
  skip [quote] cursor ++ skip [apostrophe] cursor ++ [cursor]

def isWordEdge (cursor : Cursor) : Bool :=
  (cursor.previous.any isWordByte) ≠ (cursor.rest.head?.any isWordByte)

def endsName (cursor : Cursor) : Bool :=
  match cursor.rest with
  | c :: _ => isSourceSpace c || c = closeBrace
  | [] => false

def usesInPlaceholder (name : Text) (cursor : Cursor) : Bool :=
  ((cursor.skip (utf8 "$\x7b")).flatMap spaces |>.flatMap (skip name)).any endsName

def usesInDirective (name : Text) (cursor : Cursor) : Bool :=
  let starts := (cursor.skip (utf8 "ml:content")) ++ (cursor.skip (utf8 "ml:replace"))
  let values := (starts.flatMap spaces |>.flatMap (skip [equal])).flatMap spaces
  ((values.flatMap optionalQuote).flatMap spaces |>.flatMap (skip name)).any isWordEdge

end Cursor

def holeLineFrom (name : Text) (line : Nat) (previous : Option UInt8) : Text → Option Nat
  | [] => none
  | c :: rest =>
    let cursor : Cursor := ⟨previous, c :: rest⟩
    if cursor.usesInPlaceholder name || cursor.usesInDirective name then some line
    else holeLineFrom name (if c = newline then line + 1 else line) (some c) rest

def holeLine? (source name : Text) : Option Nat :=
  holeLineFrom name 1 none source

def row (marked : Int) (number : Nat) (line : Text) : Text :=
  (if (number : Int) = marked then utf8 "> " else utf8 "  ") ++ padLeft 4 (ofNat number) ++
    utf8 " | " ++ line ++ [newline]

def around (source : Text) (line size : Int) : Text :=
  let all := lines source
  let first := (line - size - 1).toNat
  let last := (line + size).toNat
  let shown := ((all.zipIdx 1).take last).drop first
  newline :: shown.flatMap fun (text, number) => row line number text

end Stencil.Excerpt
