import Stencil.Text.Basic

namespace Stencil.Words

open Ascii

/-- Where a reader of words stands. The letters of the current word are kept last first, and
inside a quoted word the byte just before is remembered. -/
inductive State where
  | between
  | bare (taken : Text)
  | quoted (previous : UInt8) (taken : Text)

def read : State → Text → Option (List Text)
  | .between, [] => some []
  | .between, c :: rest =>
    if isSpace c then read .between rest
    else if c = quote then read (.quoted quote []) rest
    else read (.bare [c]) rest
  | .bare taken, [] => some [taken.reverse]
  | .bare taken, c :: rest =>
    if isSpace c then (read .between rest).map (taken.reverse :: ·)
    else read (.bare (c :: taken)) rest
  | .quoted _ _, [] => none
  | .quoted previous taken, c :: rest =>
    if c = quote ∧ previous ≠ backslash then (read .between rest).map (taken.reverse :: ·)
    else read (.quoted c (c :: taken)) rest

def split? (s : Text) : Option (List Text) :=
  read .between s

def isBare (w : Text) : Bool :=
  match w with
  | [] => false
  | c :: _ => c ≠ quote && w.all (!isSpace ·)

def write (w : Text) : Text :=
  if isBare w then w else quote :: w ++ [quote]

def join (words : List Text) : Text :=
  Text.joinWith [space] (words.map write)

end Stencil.Words
