import Stencil.Text.Basic

namespace Stencil.Markdown.Tag

open Ascii Text

def isTagSpace (c : UInt8) : Bool :=
  c = space || c = tab || c = newline || c = carriageReturn

def dropSpace (s : Text) : Text :=
  s.dropWhile isTagSpace

def isNameByte (c : UInt8) : Bool :=
  isAlphanumeric c || c = hyphen

def name? : Text → Option (Text × Text)
  | c :: rest =>
    if isLetter c then some (c :: rest.takeWhile isNameByte, rest.dropWhile isNameByte) else none
  | [] => none

def isAttributeStart (c : UInt8) : Bool :=
  isLetter c || c = underscore || c = colon

def isAttributeByte (c : UInt8) : Bool :=
  isAlphanumeric c || c = underscore || c = colon || c = dot || c = hyphen

def isUnquotedByte (c : UInt8) : Bool :=
  c > space && c ≠ quote && c ≠ apostrophe && c ≠ equal && c ≠ less && c ≠ greater && c ≠ backquote

def value? : Text → Option Text
  | c :: rest =>
    if c = quote || c = apostrophe then (cut? [c] rest).map Prod.snd
    else if isUnquotedByte c then some (rest.dropWhile isUnquotedByte)
    else none
  | [] => none

def attribute? (s : Text) : Option Text :=
  match s, dropSpace s with
  | first :: _, c :: rest =>
    if isTagSpace first && isAttributeStart c then
      let after := rest.dropWhile isAttributeByte
      match dropSpace after with
      | d :: more => if d = equal then (value? (dropSpace more)) <|> some after else some after
      | [] => some after
    else none
  | _, _ => none

def attributes : (fuel : Nat) → Text → Text
  | 0, s => s
  | fuel + 1, s =>
    match attribute? s with
    | some rest => attributes fuel rest
    | none => s

def openTag? (s : Text) : Option Text :=
  match name? s with
  | none => none
  | some (_, rest) =>
    let rest := dropSpace (attributes rest.length rest)
    match cutPrefix? [slash] rest with
    | some rest => cutPrefix? [greater] rest
    | none => cutPrefix? [greater] rest

def closeTag? (s : Text) : Option Text :=
  match name? s with
  | none => none
  | some (_, rest) => cutPrefix? [greater] (dropSpace rest)

def upTo? (closing s : Text) : Option Text :=
  (cut? closing s).map Prod.snd

def special? (s : Text) : Option Text :=
  if let some rest := cutPrefix? (utf8 "!-->") s then some rest
  else if let some rest := cutPrefix? (utf8 "!--->") s then some rest
  else if let some rest := cutPrefix? (utf8 "!--") s then upTo? (utf8 "-->") rest
  else if let some rest := cutPrefix? (utf8 "?") s then upTo? (utf8 "?>") rest
  else if let some rest := cutPrefix? (utf8 "![CDATA[") s then upTo? (utf8 "]]>") rest
  else match s with
    | c :: d :: rest => if c = exclamation && isLetter d then upTo? [greater] rest else none
    | _ => none

def raw? (s : Text) : Option Text :=
  match cutPrefix? [slash] s with
  | some rest => closeTag? rest
  | none => openTag? s <|> special? s

end Stencil.Markdown.Tag
