import Stencil.Text.Rune

namespace Stencil.Path

open Ascii Text

/-- The parts kept so far, last first, after one more part: an empty part and `.` add nothing, and
`..` takes back the part before it. A rooted path has nothing above its root. -/
def push (rooted : Bool) (kept : List Text) (part : Text) : List Text :=
  if part.isEmpty || part = [dot] then kept
  else if part = [dot, dot] then
    match kept with
    | [] => if rooted then [] else [part]
    | last :: rest => if last = [dot, dot] then part :: kept else rest
  else part :: kept

def isRooted (p : Text) : Bool :=
  p.head? = some slash

def clean (p : Text) : Text :=
  let parts := ((splitOn slash p).foldl (push (isRooted p)) []).reverse
  let body := joinWith [slash] parts
  if isRooted p then slash :: body
  else if body.isEmpty then [dot]
  else body

def join (parts : List Text) : Text :=
  let parts := parts.filter (!·.isEmpty)
  if parts.isEmpty then [] else clean (joinWith [slash] parts)

def split (p : Text) : Text × Text :=
  let name := (p.reverse.takeWhile (· ≠ slash)).reverse
  (p.take (p.length - name.length), name)

def base (p : Text) : Text :=
  if p.isEmpty then [dot]
  else
    let name := (split (dropEndWhile (· = slash) p)).2
    if name.isEmpty then [slash] else name

def dir (p : Text) : Text :=
  clean (split p).1

def extension (p : Text) : Text :=
  let name := (split p).2
  let tail := (name.reverse.takeWhile (· ≠ dot)).reverse
  if tail.length < name.length then dot :: tail else []

def absolute (cwd p : Text) : Text :=
  if isRooted p then clean p else join [cwd, p]

def isValidPart (part : Text) : Bool :=
  !part.isEmpty && part ≠ [dot] && part ≠ [dot, dot]

/-- Whether the path names a place at or below a root in the one way allowed: relative, without
empty parts, `.` or `..`; the root itself is `.`. -/
def isValid (p : Text) : Bool :=
  isValidUtf8 p && (p = [dot] || (splitOn slash p).all isValidPart)

end Stencil.Path
