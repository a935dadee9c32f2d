import Stencil.Markup.Arena
import Stencil.Markup.Token

namespace Stencil.Markup.Construction

inductive Mode where
  | initial | beforeHtml | beforeHead | inHead | afterHead | inBody | rawText | inTable | inCaption
  | inColumnGroup | inTableBody | inRow | inCell | inSelect | inSelectInTable | inTemplate
  | afterBody | inFrameset | afterFrameset | afterAfterBody | afterAfterFrameset | ignoreRest
  deriving DecidableEq, Repr, Inhabited

structure State where
  arena : Arena := .empty
  opened : Array Nat := #[]
  /-- Open formatting elements, to be opened again where they are misnested; `none` fences off
  those outside a cell, a caption and the like. -/
  formatting : Array (Option Nat) := #[]
  mode : Mode := .initial
  afterText : Mode := .initial
  templateModes : List Mode := []
  framesetOk : Bool := true
  head : Option Nat := none
  form : Option Nat := none
  fostering : Bool := false
  quirks : Bool := false
  fragment : Bool := false
  rawTag : Text := []
  deriving Inhabited

abbrev Build := StateM State

/-- What became of a token: it is dealt with, or has to be looked at again in the new mode. `none`
is the end of the source. -/
inductive Outcome where
  | done
  | again (item : Option Token)

def done : Build Outcome := pure .done

def setMode (mode : Mode) : Build Unit := modify fun s => { s with mode }

def tags (names : List String) : List Text := names.map utf8

def State.top (s : State) : Nat := s.opened.back?.getD 0

def State.topTag (s : State) : Text := s.arena.tag s.top

def top : Build Nat := return (← get).top

def topTag : Build Text := return (← get).topTag

def topIs (names : List String) : Build Bool := return (tags names).contains (← topTag)

def pop : Build Unit := modify fun s => { s with opened := s.opened.pop }

def closeFrom (i : Nat) : Build Unit := modify fun s => { s with opened := s.opened.extract 0 i }

def position? (items : Array Nat) (n : Nat) : Option Nat :=
  (items.toList.reverse.findIdx? (· == n)).map fun i => items.size - 1 - i

def unstack (n : Nat) : Build Unit :=
  modify fun s => match position? s.opened n with
    | some i => { s with opened := s.opened.eraseIdxIfInBounds i }
    | none => s

def formattingPosition? (items : Array (Option Nat)) (n : Nat) : Option Nat :=
  (items.toList.reverse.findIdx? (· == some n)).map fun i => items.size - 1 - i

def unformat (n : Nat) : Build Unit :=
  modify fun s => match formattingPosition? s.formatting n with
    | some i => { s with formatting := s.formatting.eraseIdxIfInBounds i }
    | none => s

def fence : Build Unit := modify fun s => { s with formatting := s.formatting.push none }

def clearFormatting : Build Unit :=
  modify fun s =>
    let kept := (s.formatting.toList.reverse.dropWhile (·.isSome)).drop 1
    { s with formatting := kept.reverse.toArray }

inductive Scope where
  | default | listItem | button | table | select
  deriving DecidableEq

private def htmlFences : List Text :=
  tags ["applet", "caption", "html", "table", "td", "th", "marquee", "object", "template"]

private def mathFences : List Text := tags ["annotation-xml", "mi", "mn", "mo", "ms", "mtext"]

private def svgFences : List Text := tags ["desc", "foreignObject", "title"]

private def outerFence (ns tag : Text) : Bool :=
  if ns.isEmpty then htmlFences.contains tag
  else if ns == utf8 "math" then mathFences.contains tag
  else if ns == utf8 "svg" then svgFences.contains tag
  else false

private def Scope.stops (scope : Scope) (ns tag : Text) : Bool :=
  match scope with
  | .default => outerFence ns tag
  | .listItem => (ns.isEmpty && (tags ["ol", "ul"]).contains tag) || outerFence ns tag
  | .button => (ns.isEmpty && tag == utf8 "button") || outerFence ns tag
  | .table => ns.isEmpty && (tags ["html", "table", "template"]).contains tag
  | .select => ns.isEmpty && !(tags ["optgroup", "option"]).contains tag

private def searchScope (arena : Arena) (scope : Scope) (names : List Text) : List Nat → Option Nat
  | [] => none
  | n :: outer =>
    let ns := arena.ns n
    let tag := arena.tag n
    if ns.isEmpty && names.contains tag then some outer.length
    else if scope.stops ns tag then none
    else searchScope arena scope names outer

def inScope? (scope : Scope) (names : List Text) : Build (Option Nat) := do
  let s ← get
  return searchScope s.arena scope names s.opened.toList.reverse

def isInScope (scope : Scope) (names : List Text) : Build Bool :=
  return (← inScope? scope names).isSome

def closeThrough (scope : Scope) (names : List Text) : Build Bool := do
  match ← inScope? scope names with
  | some i => closeFrom i; return true
  | none => return false

def closeParagraph : Build Unit := do
  let _ ← closeThrough .button [utf8 "p"]

def closeInside (names : List String) : Build Unit := do
  let s ← get
  let inner := s.opened.toList.reverse.takeWhile fun n => !(tags names).contains (s.arena.tag n)
  if inner.length < s.opened.size then closeFrom (s.opened.size - inner.length)

def hasTemplate : Build Bool := do
  let s ← get
  return s.opened.any fun n => (s.arena.ns n).isEmpty && s.arena.tag n == utf8 "template"

private def impliedEnds : List Text :=
  tags ["dd", "dt", "li", "optgroup", "option", "p", "rb", "rp", "rt", "rtc"]

def closeImplied (except : Text) : Build Unit := do
  let s ← get
  let inner := s.opened.toList.reverse.takeWhile fun n =>
    let tag := s.arena.tag n
    impliedEnds.contains tag && tag != except
  closeFrom (s.opened.size - inner.length)

private def tableParts : List Text := tags ["table", "tbody", "tfoot", "thead", "tr"]

def isTablePart (tag : Text) : Bool := tableParts.contains tag

private def lastWithTag? (s : State) (tag : Text) : Option Nat :=
  let inner := s.opened.toList.reverse.takeWhile fun n => s.arena.tag n != tag
  if inner.length < s.opened.size then some (s.opened.size - 1 - inner.length) else none

def fosterParent (n : Nat) : Build Unit :=
  modify fun s =>
    let table? := lastWithTag? s (utf8 "table")
    let template? := lastWithTag? s (utf8 "template")
    let inTemplate := match template?, table? with
      | some _, none => true
      | some j, some i => i < j
      | none, _ => false
    match inTemplate, template? with
    | true, some j => { s with arena := s.arena.append ((s.opened[j]?).getD 0) n }
    | _, _ =>
      let table := table?.bind (s.opened[·]?)
      let parent := match table, table? with
        | some t, some i => ((s.arena.parent? t).orElse fun _ => s.opened[i - 1]?).getD 0
        | _, _ => (s.opened[0]?).getD 0
      let before := match table with
        | some t => s.arena.previous? t
        | none => (s.arena.children parent).getLast?
      match before, s.arena.label? n with
      | some p, some (.text data) =>
        if s.arena.isText p then { s with arena := s.arena.extendText p data }
        else match table with
          | some t => { s with arena := s.arena.insertBefore parent n t }
          | none => { s with arena := s.arena.append parent n }
      | _, _ =>
        match table with
        | some t => { s with arena := s.arena.insertBefore parent n t }
        | none => { s with arena := s.arena.append parent n }

def shouldFoster : Build Bool := do
  let s ← get
  return s.fostering && isTablePart s.topTag

def create (label : Label) : Build Nat :=
  modifyGet fun s =>
    let (n, arena) := s.arena.add label
    (n, { s with arena })

def place (n : Nat) : Build Unit := do
  if ← shouldFoster then fosterParent n
  else modify fun s => { s with arena := s.arena.append s.top n }

def openElement (ns tag : Text) (attrs : List Attribute) : Build Nat := do
  let n ← create (.element ns tag attrs)
  place n
  modify fun s => { s with opened := s.opened.push n }
  return n

def openHtml (tag : Text) (attrs : List Attribute) : Build Unit := do
  let _ ← openElement [] tag attrs

def addVoid (tag : Text) (attrs : List Attribute) : Build Unit := do
  openHtml tag attrs
  pop

def addComment (data : Text) : Build Outcome := do
  place (← create (.comment data))
  done

def addCommentTo (parent : Nat) (data : Text) : Build Outcome := do
  let n ← create (.comment data)
  modify fun s => { s with arena := s.arena.append parent n }
  done

def addText (data : Text) : Build Unit := do
  if data.isEmpty then return
  if ← shouldFoster then
    fosterParent (← create (.text data))
  else
    let s ← get
    match (s.arena.children s.top).getLast? with
    | some last =>
      if s.arena.isText last then set { s with arena := s.arena.extendText last data }
      else place (← create (.text data))
    | none => place (← create (.text data))

def openRawText (tag : Text) (attrs : List Attribute) : Build Outcome := do
  openHtml tag attrs
  modify fun s => { s with afterText := s.mode, mode := .rawText }
  done

def forbidFrameset : Build Unit := modify fun s => { s with framesetOk := false }

def readAsMarkup : Build Unit := modify fun s => { s with rawTag := [] }

def mergeAttributes (n : Nat) (more : List Attribute) : Build Unit :=
  modify fun s =>
    { s with arena := s.arena.update n fun e => match e.label with
      | .element ns tag attrs =>
        let merged := more.foldl
          (fun attrs a => if attrs.any (·.key == a.key) then attrs else attrs ++ [a]) attrs
        { e with label := .element ns tag merged }
      | _ => e }

def repeatedHtml (attrs : List Attribute) : Build Outcome := do
  if !(← hasTemplate) then mergeAttributes (((← get).opened[0]?).getD 0) attrs
  done

def splitSpace (s : Text) : Text × Text := (s.takeWhile Token.isSpace, s.dropWhile Token.isSpace)

def allSpace (s : Text) : Bool := s.all Token.isSpace

def dropNul (s : Text) : Text := s.filter (· != Ascii.nul)

def dropFirstNewline (s : Text) : Text :=
  let s := match s with
    | Ascii.carriageReturn :: rest => rest
    | s => s
  match s with
  | Ascii.newline :: rest => rest
  | s => s

private def modeFor (s : State) : List Nat → Mode
  | [] => s.mode
  | n :: outer =>
    let last := outer.isEmpty
    let tag := if last && s.fragment then utf8 "body" else s.arena.tag n
    let is (names : List String) : Bool := (tags names).contains tag
    if is ["select"] then
      let ancestors := if last then [] else outer.map s.arena.tag
      match ancestors.find? fun t => t == utf8 "template" || t == utf8 "table" with
      | some t => if t == utf8 "table" then .inSelectInTable else .inSelect
      | none => .inSelect
    else if is ["td", "th"] then .inCell
    else if is ["tr"] then .inRow
    else if is ["tbody", "thead", "tfoot"] then .inTableBody
    else if is ["caption"] then .inCaption
    else if is ["colgroup"] then .inColumnGroup
    else if is ["table"] then .inTable
    else if is ["template"] && (s.arena.ns n).isEmpty then s.templateModes.head?.getD .inTemplate
    else if is ["head"] then .inHead
    else if is ["body"] then .inBody
    else if is ["frameset"] then .inFrameset
    else if is ["html"] then if s.head.isNone then .beforeHead else .afterHead
    else if last then .inBody
    else modeFor s outer

def resetMode : Build Unit := modify fun s => { s with mode := modeFor s s.opened.toList.reverse }

private def specialTags : List Text := tags [
  "address", "applet", "area", "article", "aside", "base", "basefont", "bgsound", "blockquote",
  "body", "br", "button", "caption", "center", "col", "colgroup", "dd", "details", "dir", "div",
  "dl", "dt", "embed", "fieldset", "figcaption", "figure", "footer", "form", "frame", "frameset",
  "h1", "h2", "h3", "h4", "h5", "h6", "head", "header", "hgroup", "hr", "html", "iframe", "img",
  "input", "keygen", "li", "link", "listing", "main", "marquee", "menu", "meta", "nav", "noembed",
  "noframes", "noscript", "object", "ol", "p", "param", "plaintext", "pre", "script", "section",
  "select", "source", "style", "summary", "table", "tbody", "td", "template", "textarea", "tfoot",
  "th", "thead", "title", "tr", "track", "ul", "wbr", "xmp"]

private def specialMathTags : List Text :=
  tags ["mi", "mo", "mn", "ms", "mtext", "annotation-xml"]

def isSpecial (arena : Arena) (n : Nat) : Bool :=
  let ns := arena.ns n
  let tag := arena.tag n
  if ns.isEmpty then specialTags.contains tag
  else if ns == utf8 "math" then specialMathTags.contains tag
  else if ns == utf8 "svg" then svgFences.contains tag
  else false

end Stencil.Markup.Construction
