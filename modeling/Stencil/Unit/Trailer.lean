import Stencil.FileSystem
import Stencil.Template.Hole
import Stencil.Text.Pattern

namespace Stencil

open Ascii Text

structure Trailer where
  path : Text
  text : Text
  hidden : List Text
  deriving DecidableEq, Repr

namespace Trailer

def isBlankByte (c : UInt8) : Bool :=
  c = space || c = tab

def isWordByte (c : UInt8) : Bool :=
  isAlphanumeric c || c = underscore

def hideMarker : List Pattern.Step :=
  .lineStart :: .many isBlankByte false :: (Pattern.literal (utf8 "//mltemplate:hide") ++
    [.one isBlankByte false, .many isBlankByte false, .one isLower true, .many isWordByte true,
      .many isBlankByte false, .lineEnd])

def ofText (path s : Text) : Trailer :=
  let hidden := (Pattern.findAll hideMarker s).map (·.group)
  ⟨path, if hidden.isEmpty then s else Pattern.removeAll hideMarker s, hidden⟩

def isBlank (t : Trailer) : Bool :=
  (trimBlank t.text).isEmpty

def read (fs : FileSystem) (path : Text) : Except ReadError (Option Trailer) :=
  match fs.read path with
  | .ok s => .ok (some (ofText path s))
  | .error e =>
    if e.missing then .ok none
    else .error { e with message := utf8 "failed to read trailer " ++ path ++ utf8 ": " ++ e.message }

def closeLine (s : Text) : Text :=
  if s.getLast? = some newline then s else s ++ [newline]

/-- The unit that starts with `head` and goes on with the trailer after an empty line. With
`numbered` a line says that the lines of the trailer are counted on their own. -/
def joinTo (t : Trailer) (head : Text) (numbered : Bool) : Text :=
  closeLine head ++ [newline] ++
    (if numbered then utf8 "//line " ++ Path.base t.path ++ utf8 ":1\n" else []) ++ closeLine t.text

end Trailer

end Stencil
