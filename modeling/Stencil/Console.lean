import Stencil.Text.Basic

namespace Stencil.Console

open Ascii Text

def bold (line : Text) : Text := utf8 "\x1b[1m" ++ line ++ utf8 "\x1b[0m"

def red (line : Text) : Text := utf8 "\x1b[31m" ++ line ++ utf8 "\x1b[0m"

def emphasize (terminal : Bool) (index : Nat) (line : Text) : Text :=
  if terminal && index = 0 then bold line
  else if terminal && startsWith line (utf8 "> ") then red line
  else line

def report (terminal : Bool) (message : Text) : Text :=
  (lines (dropEndWhile (· = newline) message)).zipIdx.flatMap fun (line, i) =>
    emphasize terminal i line ++ [newline]

end Stencil.Console
