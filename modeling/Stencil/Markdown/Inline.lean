import Stencil.Markdown.Reference
import Stencil.Markdown.Tag

namespace Stencil.Markdown

open Ascii Text

inductive Inline where
  | text (raw : Text)
  | code (text : Text)
  | html (raw : Text)
  | autolink (url label : Text)
  | emphasis (strong : Bool) (children : List Inline)
  | link (target : Target) (children : List Inline)
  | image (target : Target) (children : List Inline)
  | softBreak
  | hardBreak
  deriving Inhabited, Repr

mutual

def Inline.hasLink : Inline → Bool
  | .link .. => true
  | .emphasis _ children => Inline.anyLink children
  | .image _ children => Inline.anyLink children
  | _ => false

def Inline.anyLink : List Inline → Bool
  | [] => false
  | n :: rest => n.hasLink || Inline.anyLink rest

end

structure Run where
  mark : UInt8
  size : Nat
  whole : Nat
  opens : Bool
  closes : Bool
  deriving Repr

inductive Piece where
  | node (n : Inline)
  | run (r : Run)
  | bracket (isImage : Bool) (following : Text)
  deriving Inhabited

namespace Piece

def bracketText (isImage : Bool) : Text :=
  if isImage then utf8 "![" else utf8 "["

def plain : Piece → Inline
  | .node n => n
  | .run r => .text (List.replicate r.size r.mark)
  | .bracket isImage _ => .text (bracketText isImage)

end Piece

/-- Whether one run can open what the other closes. Where one of the two could do both, lengths that
add up to a multiple of three do not match, unless both are multiples themselves. -/
def Run.matchesOpener (closer opener : Run) : Bool :=
  opener.mark = closer.mark && opener.opens &&
    !((opener.closes || closer.opens) && (opener.whole + closer.whole) % 3 = 0 && closer.whole % 3 ≠ 0)

def findOpener (closer : Run) (inner : List Piece) : List Piece → Option (List Piece × Run × List Piece)
  | [] => none
  | .run r :: before =>
    if closer.matchesOpener r then some (inner, r, before)
    else findOpener closer (.run r :: inner) before
  | p :: before => findOpener closer (p :: inner) before

/-- Matches a run that can close with the runs before it, which are last first. Each match takes at
least one mark of it. -/
def closeRun : (fuel : Nat) → Run → List Piece → List Piece
  | 0, _, before => before
  | fuel + 1, r, before =>
    if r.size = 0 then before
    else match findOpener r [] before with
      | some (inner, opener, earlier) =>
        let strong := opener.size ≥ 2 && r.size ≥ 2
        let used := if strong then 2 else 1
        let node := Piece.node (.emphasis strong (inner.map Piece.plain))
        let opener := { opener with size := opener.size - used }
        let kept := if opener.size = 0 then earlier else .run opener :: earlier
        closeRun fuel { r with size := r.size - used } (node :: kept)
      | none =>
        if r.opens then .run r :: before else Piece.node (Piece.run r).plain :: before

def pushPiece (before : List Piece) : Piece → List Piece
  | .run r => if r.closes then closeRun (r.size + 1) r before else .run r :: before
  | p => p :: before

def resolvePieces (pieces : List Piece) : List Inline :=
  ((pieces.foldl pushPiece []).map Piece.plain).reverse

structure Reading where
  pieces : List Piece := []
  chunk : Text := []

namespace Reading

def flush (r : Reading) : Reading :=
  if r.chunk.isEmpty then r else ⟨.node (.text r.chunk.reverse) :: r.pieces, []⟩

def push (r : Reading) (p : Piece) : Reading :=
  { r.flush with pieces := p :: r.flush.pieces }

def trimmed (r : Reading) : Reading :=
  { r with chunk := r.chunk.dropWhile Ascii.isSpace }

end Reading

def codeFrom (size : Nat) : (fuel : Nat) → Text → Text → Option (Text × Text)
  | 0, _, _ => none
  | fuel + 1, taken, s =>
    match s with
    | [] => none
    | c :: rest =>
      if c = backquote then
        let marks := s.takeWhile (· = backquote)
        let after := s.drop marks.length
        if marks.length = size then some (taken.reverse, after)
        else codeFrom size fuel (marks ++ taken) after
      else codeFrom size fuel (c :: taken) rest

def codeSpanText (s : Text) : Text :=
  let s := s.map fun c => if c = newline then space else c
  if s.head? = some space && s.getLast? = some space && !s.all (· = space) then (s.drop 1).dropLast
  else s

def isSchemeByte (c : UInt8) : Bool :=
  isAlphanumeric c || c = plus || c = dot || c = hyphen

def uriLink? (s : Text) : Option (Text × Text) := do
  let first ← s.head?
  let scheme := s.takeWhile isSchemeByte
  let rest ← cutPrefix? [colon] (s.drop scheme.length)
  let isBody (c : UInt8) : Bool := c > space && c ≠ less && c ≠ greater
  let body := rest.takeWhile isBody
  let after ← cutPrefix? [greater] (rest.drop body.length)
  if isLetter first && 2 ≤ scheme.length && scheme.length ≤ 32 then
    return (scheme ++ [colon] ++ body, after)
  else none

def isMailByte (c : UInt8) : Bool :=
  isAlphanumeric c || (utf8 ".!#$%&'*+/=?^_`\x7b|\x7d~-").contains c

def isDomainPart (s : Text) : Bool :=
  s.all (fun c => isAlphanumeric c || c = hyphen) && 1 ≤ s.length && s.length ≤ 63 &&
    s.head? ≠ some hyphen && s.getLast? ≠ some hyphen

def mailLink? (s : Text) : Option (Text × Text) := do
  let user := s.takeWhile isMailByte
  let rest ← cutPrefix? [atSign] (s.drop user.length)
  let domain := rest.takeWhile fun c => isAlphanumeric c || c = hyphen || c = dot
  let after ← cutPrefix? [greater] (rest.drop domain.length)
  if !user.isEmpty && (splitOn dot domain).all isDomainPart then
    return (user ++ [atSign] ++ domain, after)
  else none

def angle? (s : Text) : Option (Inline × Text) :=
  if let some (url, rest) := uriLink? s then some (.autolink url url, rest)
  else if let some (mail, rest) := mailLink? s then
    some (.autolink (utf8 "mailto:" ++ mail) mail, rest)
  else (Tag.raw? s).map fun rest => (.html (less :: s.take (s.length - rest.length)), rest)

def runOf (mark : UInt8) (size : Nat) (before after : Option Rune) : Run :=
  let isSpace (r : Option Rune) : Bool := r.all fun r => isBlank r.code
  let isMark (r : Option Rune) : Bool := r.any fun r => isPunctuation r.code
  let left := !isSpace after && (!isMark after || isSpace before || isMark before)
  let right := !isSpace before && (!isMark before || isSpace after || isMark after)
  if mark = underscore then
    ⟨mark, size, size, left && (!right || isMark before), right && (!left || isMark after)⟩
  else ⟨mark, size, size, left, right⟩

def inlineTarget? (s : Text) : Option (Target × Text) := do
  let skip (s : Text) : Text := s.dropWhile Ascii.isSpace
  let s := skip s
  if let some rest := cutPrefix? [closeParen] s then return (⟨[], none⟩, rest)
  let (destination, s) ← destination? s
  let after := skip s
  if let some rest := cutPrefix? [closeParen] after then return (⟨destination, none⟩, rest)
  if after.length = s.length then none
  else
    let (title, rest) ← title? after
    let rest ← cutPrefix? [closeParen] (skip rest)
    return (⟨destination, some title⟩, rest)

/-- The target of a link whose closing bracket was read, and what follows it. `inside` is the text
between the brackets. A label after it decides alone, unless it is empty. -/
def target? (defs : List Definition) (inside s : Text) : Option (Target × Text) :=
  let find (label : Text) : Option Target :=
    if label.length > 999 then none
    else (defs.find? (·.label = normalizeLabel label)).map (·.target)
  let alone := (find inside).map (·, s)
  match s with
  | c :: rest =>
    if c = openParen then inlineTarget? rest <|> alone
    else if c = openBracket then
      match cutPrefix? [closeBracket] rest with
      | some after => (find inside).map (·, after)
      | none =>
        match label? rest with
        | some (label, after) => (find label).map (·, after)
        | none => alone
    else alone
  | [] => alone

def isBracket : Piece → Bool
  | .bracket .. => true
  | _ => false

def closeBracket? (defs : List Definition) (r : Reading) (s : Text) : Option (Reading × Text) :=
  let flushed := r.flush
  let inner := flushed.pieces.takeWhile (!isBracket ·)
  match flushed.pieces.drop inner.length with
  | .bracket isImage following :: before =>
    let inside := following.take (following.length - s.length - 1)
    let children := resolvePieces inner.reverse
    let asText : Reading × Text :=
      (⟨inner ++ .node (.text (Piece.bracketText isImage)) :: before, [closeBracket]⟩, s)
    if !isImage && Inline.anyLink children then some asText
    else match target? defs inside s with
      | some (target, rest) =>
        let node : Inline := if isImage then .image target children else .link target children
        some (⟨.node node :: before, []⟩, rest)
      | none => some asText
  | _ => none

def readInlines (defs : List Definition) : (fuel : Nat) → (before : Text) → Reading → Text → Reading
  | 0, _, r, _ => r
  | _, _, r, [] => r
  | fuel + 1, before, r, c :: rest =>
    let plain (_ : Unit) : Reading :=
      readInlines defs fuel (c :: before) { r with chunk := c :: r.chunk } rest
    let moveTo (r : Reading) (after : Text) : Reading :=
      let taken := (c :: rest).take (rest.length + 1 - after.length)
      readInlines defs fuel (taken.reverse ++ before) r after
    if c = backslash then
      match rest with
      | d :: after =>
        if d = newline then
          -- an escaped backslash just before keeps the line from being broken
          if before.head? = some backslash then plain ()
          else moveTo (r.push (.node .hardBreak)) after
        else if isPunctuationByte d then moveTo { r with chunk := d :: c :: r.chunk } after
        else plain ()
      | [] => plain ()
    else if c = newline then
      let isHard := match before with
        | d :: e :: _ => d = space && e = space
        | _ => false
      moveTo (r.trimmed.push (.node (if isHard then .hardBreak else .softBreak))) rest
    else if c = backquote then
      let marks := (c :: rest).takeWhile (· = backquote)
      let after := (c :: rest).drop marks.length
      match codeFrom marks.length (after.length + 1) [] after with
      | some (code, after) => moveTo (r.push (.node (.code (codeSpanText code)))) after
      | none => moveTo { r with chunk := marks ++ r.chunk } after
    else if c = asterisk || c = underscore then
      let marks := (c :: rest).takeWhile (· = c)
      let after := (c :: rest).drop marks.length
      let last := lastRune? (before.take 4).reverse
      moveTo (r.push (.run (runOf c marks.length last (firstRune? after)))) after
    else if c = openBracket then moveTo (r.push (.bracket false rest)) rest
    else if c = exclamation then
      match cutPrefix? [openBracket] rest with
      | some after => moveTo (r.push (.bracket true after)) after
      | none => plain ()
    else if c = closeBracket then
      match closeBracket? defs r rest with
      | some (r, after) => moveTo r after
      | none => plain ()
    else if c = less then
      match angle? rest with
      | some (node, after) => moveTo (r.push (.node node)) after
      | none => plain ()
    else plain ()

def inlines (defs : List Definition) (s : Text) : List Inline :=
  resolvePieces (readInlines defs (s.length + 1) [] {} s).flush.pieces.reverse

end Stencil.Markdown
