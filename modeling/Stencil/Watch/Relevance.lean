import Stencil.Path

namespace Stencil.Watch

open Ascii Text

def extensions : List Text :=
  [".html", ".htm", ".md", ".markdown", ".ext", ".txt"].map utf8

def isRelevant (path : Text) : Bool :=
  let name := Path.base path
  !startsWith name [dot] && extensions.contains (toLower (Path.extension name))

end Stencil.Watch
