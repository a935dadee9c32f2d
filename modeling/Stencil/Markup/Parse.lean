import Stencil.Markup.Construction.Table

namespace Stencil.Markup

namespace Construction

def byMode (imply : Imply) (item : Option Token) : Build Outcome := do
  match (← get).mode with
  | .initial => initial item
  | .beforeHtml => beforeHtml imply item
  | .beforeHead => beforeHead imply item
  | .inHead => inHead imply item
  | .afterHead => afterHead imply item
  | .inBody => inBody imply item
  | .rawText => inRawText item
  | .inTable => inTable imply item
  | .inCaption => inCaption imply item
  | .inColumnGroup => inColumnGroup imply item
  | .inTableBody => inTableBody imply item
  | .inRow => inRow imply item
  | .inCell => inCell imply item
  | .inSelect => inSelect imply item
  | .inSelectInTable => inSelectInTable imply item
  | .inTemplate => inTemplate imply item
  | .afterBody => afterBody imply item
  | .inFrameset => inFrameset imply item
  | .afterFrameset => afterFrameset imply item
  | .afterAfterBody => afterAfterBody imply item
  | .afterAfterFrameset => afterAfterFrameset imply item
  | .ignoreRest => done

def consume : (fuel : Nat) → Option Token → Build Unit
  | 0, _ => pure ()
  | fuel + 1, item => do
    let outcome ← if ← isForeign item then inForeign (byMode (consume fuel)) item
      else byMode (consume fuel) item
    match outcome with
    | .done => pure ()
    | .again item => consume fuel item

/-- Every open element and every open template can send a token round once more; the number of
modes bounds what else can. -/
private def rounds (s : State) : Nat := 100 + 2 * s.opened.size + 2 * s.templateModes.length

private def take (item : Option Token) : Build Unit := do
  consume (rounds (← get)) item

def readAll : (fuel : Nat) → Text → Build Unit
  | 0, _ => take none
  | fuel + 1, source => do
    let s ← get
    match Token.next? (!(s.arena.ns s.top).isEmpty) s.rawTag source with
    | none => take none
    | some reading =>
      set { s with rawTag := reading.rawTag }
      take (some reading.token)
      readAll fuel reading.rest

end Construction

open Construction in
def parseDocument (source : Text) : List Node :=
  let s := ((readAll (source.length + 1) source).run {}).2
  s.arena.forest 0

open Construction in
def parseFragment (source : Text) : List Node :=
  let (root, arena) := Arena.empty.add (.element [] (utf8 "html") [])
  let start : State :=
    { arena := arena.append 0 root, opened := #[root], mode := .inBody, framesetOk := false,
      fragment := true }
  let s := ((readAll (source.length + 1) source).run start).2
  s.arena.forest root

def isDocument (source : Text) : Bool :=
  let head := Text.toLower ((source.dropWhile Token.isSpace).take 16)
  Text.startsWith head (utf8 "<!doctype") || Text.startsWith head (utf8 "<html")

def parse (source : Text) : List Node :=
  if isDocument source then parseDocument source else parseFragment source

end Stencil.Markup
