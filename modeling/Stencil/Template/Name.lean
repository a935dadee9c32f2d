import Stencil.Path
import Stencil.Text.Letter
import Stencil.Text.Digit

namespace Stencil.Name

open Ascii Text

def isBreak (code : Nat) : Bool :=
  code = 0x5F || code = 0x2D || code = 0x2E || isBlank code

def exportRunes (start : Bool) : List Rune → Text
  | [] => []
  | r :: rest =>
    if isBreak r.code then exportRunes true rest
    else if !isLetter r.code && !isDigit r.code then exportRunes start rest
    else encode (if start then upper r.code else r.code) ++ exportRunes false rest

/-- The exported name of a hole or a module: `main_menu` gives `MainMenu`. A name that would be
empty or start with a decimal digit gets a `T` in front. -/
def exported (name : Text) : Text :=
  match exportRunes true (runes name) with
  | [] => utf8 "T"
  | c :: rest => if Ascii.isDigit c then utf8 "T" ++ c :: rest else c :: rest

def moduleOf (templatePath : Text) : Text :=
  [utf8 ".html", utf8 ".htm", utf8 ".ml"].foldl (fun name ending => dropSuffix ending name)
    (Path.base templatePath)

def keywords : List Text :=
  ["break", "case", "chan", "const", "continue", "default", "defer", "else", "fallthrough", "for",
    "func", "go", "goto", "if", "import", "interface", "map", "package", "range", "return",
    "select", "struct", "switch", "type", "var"].map utf8

def packageOf (dir module : Text) : Text :=
  let name := toLower (exported (if dir = [dot] || dir = [slash] then module else Path.base dir))
  if keywords.contains name then name ++ utf8 "pkg" else name

end Stencil.Name
