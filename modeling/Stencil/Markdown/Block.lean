import Stencil.Markdown.Line
import Stencil.Markdown.Reference
import Stencil.Markdown.Tag

namespace Stencil.Markdown

open Ascii Text

structure Marker where
  delimiter : UInt8
  ordered : Bool
  deriving DecidableEq, Repr

/-- A block, or the definitions at the start of a paragraph. `after` says that a blank line stands
before the block. -/
inductive Block where
  | heading (after : Bool) (level : Nat) (text : Text)
  | paragraph (after : Bool) (text : Text)
  | code (after : Bool) (info : Option Text) (text : Text)
  | html (after : Bool) (text : Text)
  | rule (after : Bool)
  | quote (after : Bool) (children : List Block)
  | list (after : Bool) (start : Option Nat) (tight : Bool) (items : List Block)
  | item (after : Bool) (children : List Block)
  | definitions (after : Bool) (alone : Bool) (list : List Definition)
  deriving Inhabited, Repr

def Block.after : Block → Bool
  | .heading a .. | .paragraph a _ | .code a .. | .html a _ | .rule a | .quote a _ | .list a ..
  | .item a _ | .definitions a .. => a

def Block.isShown : Block → Bool
  | .definitions _ alone _ => alone
  | _ => true

structure Fence where
  mark : UInt8
  size : Nat
  indent : Nat
  info : Text
  deriving Repr

inductive HtmlEnd where
  | part (closing : List Text)
  | blank
  deriving Repr

def isRule (s : Text) : Bool :=
  match s with
  | c :: _ =>
    (c = asterisk || c = hyphen || c = underscore) &&
      s.all (fun d => d = c || Ascii.isSpace d) && (s.filter (· = c)).length ≥ 3
  | [] => false

def isTrailer (s : Text) : Bool :=
  s.all Ascii.isSpace

def underline? (s : Text) : Option Nat :=
  match s with
  | c :: _ =>
    if c = equal && isTrailer (s.dropWhile (· = equal)) then some 1
    else if c = hyphen && isTrailer (s.dropWhile (· = hyphen)) then some 2
    else none
  | [] => none

def headingText (s : Text) : Text :=
  let s := trim Ascii.isSpace s
  let bare := dropEndWhile (· = hash) s
  if bare.isEmpty then []
  else if bare.length < s.length && (bare.getLast?.any Ascii.isSpace) then trim Ascii.isSpace bare
  else s

def heading? (s : Text) : Option (Nat × Text) :=
  let marks := s.takeWhile (· = hash)
  let rest := s.drop marks.length
  let divided := match rest with
    | c :: _ => Ascii.isSpace c
    | [] => true
  if 1 ≤ marks.length && marks.length ≤ 6 && divided then some (marks.length, headingText rest)
  else none

def fence? (indent : Nat) (s : Text) : Option Fence :=
  match s with
  | c :: _ =>
    if c = backquote || c = tilde then
      let marks := s.takeWhile (· = c)
      let info := trim Ascii.isSpace (s.drop marks.length)
      if marks.length < 3 || (c = backquote && info.contains backquote) then none
      else some ⟨c, marks.length, indent, info⟩
    else none
  | [] => none

def closesFence (f : Fence) (line : Line) : Bool :=
  line.indent < 4 &&
    let s := line.dropIndent.rest
    let marks := s.takeWhile (· = f.mark)
    marks.length ≥ f.size && isTrailer (s.drop marks.length)

def blockTags : List Text :=
  ["address", "article", "aside", "base", "basefont", "blockquote", "body", "caption", "center",
    "col", "colgroup", "dd", "details", "dialog", "dir", "div", "dl", "dt", "fieldset",
    "figcaption", "figure", "footer", "form", "frame", "frameset", "h1", "h2", "h3", "h4", "h5",
    "h6", "head", "header", "hr", "html", "iframe", "legend", "li", "link", "main", "menu",
    "menuitem", "meta", "nav", "noframes", "ol", "optgroup", "option", "p", "param", "search",
    "section", "summary", "table", "tbody", "td", "tfoot", "th", "thead", "title", "tr", "track",
    "ul"].map utf8

def rawTags : List Text :=
  ["script", "pre", "style", "textarea"].map utf8

def rawClosing : List Text :=
  rawTags.map fun tag => utf8 "</" ++ tag ++ [greater]

def endsTagName (s : Text) : Bool :=
  match s with
  | [] => true
  | c :: rest => Ascii.isSpace c || c = greater || (c = slash && rest.head? = some greater)

/-- The kind of HTML block that a line starts. A tag of any other name starts a block only when it
stands alone, and does not break off a paragraph. -/
def htmlStart? (inParagraph : Bool) (s : Text) : Option HtmlEnd := do
  let rest ← cutPrefix? [less] s
  let raw := match Tag.name? rest with
    | some (name, after) => rawTags.contains (lowercase name) && endsTagName after
    | none => false
  if raw then return .part rawClosing
  if startsWith rest (utf8 "!--") then return .part [utf8 "-->"]
  if startsWith rest (utf8 "?") then return .part [utf8 "?>"]
  if startsWith rest (utf8 "![CDATA[") then return .part [utf8 "]]>"]
  if let c :: d :: _ := rest then
    if c = exclamation && isUpper d then return .part [[greater]]
  let (closing, inner) := match cutPrefix? [slash] rest with
    | some inner => (true, inner)
    | none => (false, rest)
  let (name, after) ← Tag.name? inner
  if blockTags.contains (lowercase name) && endsTagName after then return .blank
  if inParagraph || rawTags.contains (lowercase name) then none
  else
    let after ← if closing then Tag.closeTag? inner else Tag.openTag? inner
    if isTrailer after then return .blank else none

def endsHtml (e : HtmlEnd) (s : Text) : Bool :=
  match e with
  | .part closing => closing.any (hasPart (lowercase s))
  | .blank => isTrailer s

structure ItemStart where
  marker : Marker
  number : Nat
  width : Nat
  rest : Line

def marker? (line : Line) : Option ItemStart := do
  let digits := line.rest.takeWhile Ascii.isDigit
  let c ← (line.rest.drop digits.length).head?
  let width := digits.length + 1
  let rest := line.dropBytes width
  let divided := match rest.rest with
    | d :: _ => Ascii.isSpace d
    | [] => true
  let ordered := !digits.isEmpty
  let number := digits.foldl (fun n d => n * 10 + (d.toNat - 48)) 0
  if divided && (if ordered then digits.length ≤ 9 && (c = dot || c = closeParen)
      else c = hyphen || c = plus || c = asterisk) then
    return ⟨⟨c, ordered⟩, number, width, rest⟩
  else none

/-- The content of an item after its marker, and the columns from the marker to the content. An item
without content, or whose content is indented code, starts one column after the marker. -/
def itemContent (start : ItemStart) : Line × Nat :=
  if start.rest.isBlank then (start.rest.dropIndent, start.width + 1)
  else
    let indent := start.rest.indent
    if indent ≤ 4 then (start.rest.dropColumns indent, start.width + indent)
    else (start.rest.dropColumns 1, start.width + 1)

def isItemStart (inParagraph : Bool) (line : Line) : Bool :=
  match marker? line with
  | some start =>
    !inParagraph || ((!start.marker.ordered || start.number = 1) && !start.rest.isBlank)
  | none => false

/-- Whether a line, its indentation taken off, breaks off a paragraph. `same` says that the
paragraph is not inside a container that the line has left. -/
def breaksParagraph (same : Bool) (line : Line) : Bool :=
  let s := line.rest
  isRule s || isItemStart same line || (heading? s).isSome || (fence? 0 s).isSome ||
    startsWith s [greater] || (htmlStart? true s).isSome

mutual

inductive Container where
  | mk (done : List Block) (blank : Bool) (tip : Tip)

inductive Tip where
  | none
  | paragraph (after : Bool) (lines : List Text)
  | fence (after : Bool) (f : Fence) (lines : List Text)
  | code (after : Bool) (lines : List Text)
  | html (after : Bool) (ending : HtmlEnd) (lines : List Text)
  | quote (after : Bool) (inner : Container)
  | list (after : Bool) (marker : Marker) (start : Nat) (items : List Block) (itemAfter : Bool)
      (offset : Nat) (inner : Container)

end

def fenceText (lines : List Text) : Text :=
  lines.reverse.flatten

def codeText (lines : List Text) : Text :=
  (lines.dropWhile isTrailer).reverse.flatten

def paragraphBlocks (after : Bool) (lines : List Text) (make : Text → Block) : List Block :=
  let text := joinWith [newline] lines.reverse
  let (defs, rest) := definitions text
  let rest := trim Ascii.isSpace rest
  (if rest.isEmpty then [] else [make rest]) ++
    (if defs.isEmpty then [] else [.definitions after rest.isEmpty defs])

def isTight (items : List Block) : Bool :=
  (items.drop 1).all (!·.after) && items.all fun
    | .item _ children => ((children.filter Block.isShown).drop 1).all (!·.after)
    | _ => true

mutual

def Container.close : Container → List Block
  | .mk done _ tip => (tip.close ++ done).reverse

def Tip.close : Tip → List Block
  | .none => []
  | .paragraph after lines => paragraphBlocks after lines (.paragraph after)
  | .fence after f lines => [.code after (some f.info) (fenceText lines)]
  | .code after lines => [.code after Option.none (codeText lines)]
  | .html after _ lines => [.html after lines.reverse.flatten]
  | .quote after inner => [.quote after inner.close]
  | .list after marker start items itemAfter _ inner =>
    let items := (.item itemAfter inner.close :: items).reverse
    [.list after (if marker.ordered then some start else Option.none) (isTight items) items]

end

mutual

def Container.endsInParagraph : Container → Bool
  | .mk _ _ tip => tip.endsInParagraph

def Tip.endsInParagraph : Tip → Bool
  | .paragraph .. => true
  | .quote _ inner => inner.endsInParagraph
  | .list _ _ _ _ _ _ inner => inner.endsInParagraph
  | _ => false

end

mutual

def Container.continueParagraph (line : Text) : Container → Container
  | .mk done _ tip => .mk done false (tip.continueParagraph line)

def Tip.continueParagraph (line : Text) : Tip → Tip
  | .paragraph after lines => .paragraph after (line :: lines)
  | .quote after inner => .quote after (inner.continueParagraph line)
  | .list after marker start items itemAfter offset inner =>
    .list after marker start items itemAfter offset (inner.continueParagraph line)
  | tip => tip

end

/-- Starts the blocks of a line in a container that has no open child. Each container that the line
opens takes a byte of it at least. -/
def openTip (after : Bool) : (fuel : Nat) → List Block → Line → List Block × Tip
  | 0, done, _ => (done, .none)
  | fuel + 1, done, line =>
    if line.isBlank then (done, .none)
    else if line.indent ≥ 4 then (done, .code after [(line.dropColumns 4).whole])
    else
      let indent := line.indent
      let inner := line.dropIndent
      let s := inner.rest
      if isRule s then (.rule after :: done, .none)
      else if let some start := marker? inner then
        let (content, width) := itemContent start
        let (children, tip) := openTip after fuel [] content
        (done, .list after start.marker start.number [] after (indent + width)
          (.mk children false tip))
      else if let some (level, text) := heading? s then (.heading after level text :: done, .none)
      else if let some f := fence? indent s then (done, .fence after f [])
      else if startsWith s [greater] then
        let rest := inner.dropBytes 1
        let rest := if rest.indent > 0 then rest.dropColumns 1 else rest
        let (children, tip) := openTip after fuel [] rest
        (done, .quote after (.mk children rest.isBlank tip))
      else if let some ending := htmlStart? false s then
        match ending with
        | .part _ =>
          if endsHtml ending s then (.html after line.whole :: done, .none)
          else (done, .html after ending [line.whole])
        | .blank => (done, .html after ending [line.whole])
      else (done, .paragraph after [s])

def openLine (done : List Block) (blank : Bool) (line : Line) : Container :=
  let (done, tip) := openTip blank (line.rest.length + 1) done line
  .mk done line.isBlank tip

def reopen (done : List Block) (blank : Bool) (tip : Tip) (line : Line) : Container :=
  openLine (tip.close ++ done) blank line

def quoteContent? (line : Line) : Option Line :=
  if line.indent < 4 then
    let inner := line.dropIndent
    if startsWith inner.rest [greater] then
      let rest := inner.dropBytes 1
      some (if rest.indent > 0 then rest.dropColumns 1 else rest)
    else none
  else none

def isLazy (inner : Container) (line : Line) : Bool :=
  inner.endsInParagraph && !line.isBlank &&
    (line.indent ≥ 4 || !breaksParagraph false line.dropIndent)

def Container.isSpent : Container → Bool
  | .mk [] true .none => true
  | _ => false

def Container.add (line : Line) : Container → Container
  | .mk done blank tip =>
    match tip with
    | .none => reopen done blank tip line
    | .paragraph after lines =>
      if line.isBlank then .mk (tip.close ++ done) true .none
      else
        let inner := line.dropIndent
        if line.indent ≥ 4 then .mk done false (.paragraph after (inner.rest :: lines))
        else match underline? inner.rest with
          | some level =>
            -- definitions alone leave nothing to underline
            match paragraphBlocks after lines (.heading after level) with
            | blocks@(.heading .. :: _) => .mk (blocks ++ done) false .none
            | blocks => .mk (blocks ++ done) false (.paragraph after [inner.rest])
          | none =>
            if breaksParagraph true inner then reopen done blank tip line
            else .mk done false (.paragraph after (inner.rest :: lines))
    | .fence after f lines =>
      if closesFence f line then .mk (tip.close ++ done) false .none
      else .mk done line.isBlank
        (.fence after f ((line.dropColumns (min f.indent line.indent)).whole :: lines))
    | .code after lines =>
      if line.isBlank || line.indent ≥ 4 then
        .mk done line.isBlank (.code after ((line.dropColumns 4).whole :: lines))
      else reopen done blank tip line
    | .html after ending lines =>
      match ending with
      | .blank =>
        if line.isBlank then .mk (tip.close ++ done) true .none
        else .mk done false (.html after ending (line.whole :: lines))
      | .part _ =>
        if endsHtml ending line.rest then
          .mk (.html after (line.whole :: lines).reverse.flatten :: done) false .none
        else .mk done line.isBlank (.html after ending (line.whole :: lines))
    | .quote after inner =>
      match quoteContent? line with
      | some rest => .mk done false (.quote after (inner.add rest))
      | none =>
        if line.isBlank then .mk (tip.close ++ done) true .none
        else if isLazy inner line then
          .mk done false (.quote after (inner.continueParagraph line.dropIndent.rest))
        else reopen done blank tip line
    | .list after marker start items itemAfter offset inner =>
      let next := if line.indent < 4 then marker? line.dropIndent else Option.none
      if line.isBlank then
        .mk done true (.list after marker start items itemAfter offset (inner.add line.dropIndent))
      else if line.indent ≥ offset && !inner.isSpent then
        .mk done false
          (.list after marker start items itemAfter offset (inner.add (line.dropColumns offset)))
      else match next with
        | some item =>
          if item.marker = marker && !isRule line.dropIndent.rest then
            let (content, width) := itemContent item
            let items := .item itemAfter inner.close :: items
            let (children, tip) := openTip blank (content.rest.length + 1) [] content
            .mk done false (.list after marker start items blank (line.indent + width)
              (.mk children false tip))
          else reopen done blank tip line
        | none =>
          if isLazy inner line then
            .mk done false (.list after marker start items itemAfter offset
              (inner.continueParagraph line.dropIndent.rest))
          else reopen done blank tip line

def blocks (source : Text) : List Block :=
  ((linesOf source).foldl (fun c line => Container.add line c) (.mk [] false .none)).close

end Stencil.Markdown
