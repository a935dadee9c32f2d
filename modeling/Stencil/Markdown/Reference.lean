import Stencil.Markup.Entity
import Stencil.Text.Punctuation
import Stencil.Text.Rune

namespace Stencil.Markdown

open Ascii Text

def isPunctuationByte (c : UInt8) : Bool :=
  isPunctuation c.toNat && c < 0x80

/-- The reference at the beginning of a text whose ampersand was read: its characters, and what
follows. A reference ends with a semicolon, and one to no character gives the replacement
character. -/
def reference? (s : Text) : Option (Text × Text) :=
  let number (digits : Text) (base limit : Nat) (after : Text) : Option (Text × Text) :=
    match after with
    | c :: rest =>
      if c = semicolon && !digits.isEmpty && digits.length ≤ limit then
        let code := digits.foldl (fun n d => n * base + ((hexValue? d).getD 0)) 0
        some (encode (if code = 0 || !code.isValidChar then 0xFFFD else code), rest)
      else none
    | [] => none
  match s with
  | 35 :: 120 :: rest | 35 :: 88 :: rest =>
    number (rest.takeWhile fun c => (hexValue? c).isSome) 16 6
      (rest.dropWhile fun c => (hexValue? c).isSome)
  | 35 :: rest => number (rest.takeWhile Ascii.isDigit) 10 7 (rest.dropWhile Ascii.isDigit)
  | _ =>
    let name := s.takeWhile isAlphanumeric
    match s.drop name.length with
    | c :: rest =>
      if c = semicolon then
        (Markup.Entity.codes? (name ++ [semicolon])).map fun codes => (codes.flatMap encode, rest)
      else none
    | [] => none

def resolveAfter : (skip : Nat) → Text → Text
  | _, [] => []
  | skip + 1, _ :: rest => resolveAfter skip rest
  | 0, c :: rest =>
    if c = backslash then
      match rest with
      | d :: _ => if isPunctuationByte d then d :: resolveAfter 1 rest else c :: resolveAfter 0 rest
      | [] => [c]
    else if c = ampersand then
      match reference? rest with
      | some (chars, after) => chars ++ resolveAfter (rest.length - after.length) rest
      | none => c :: resolveAfter 0 rest
    else c :: resolveAfter 0 rest

def resolve (s : Text) : Text :=
  resolveAfter 0 s

/-- The inside of a label whose bracket was read, and what follows the closing bracket. A label has
no bracket inside that is not escaped, at most 999 bytes, and something other than white space. -/
def labelFrom (taken : Text) : Text → Option (Text × Text)
  | [] => none
  | c :: rest =>
    if c = closeBracket then
      let label := taken.reverse
      if label.all Ascii.isSpace || label.length > 999 then none else some (label, rest)
    else if c = openBracket then none
    else if c = backslash then
      match rest with
      | d :: more =>
        if isPunctuationByte d then labelFrom (d :: c :: taken) more else labelFrom (c :: taken) (d :: more)
      | [] => none
    else labelFrom (c :: taken) rest

def label? (s : Text) : Option (Text × Text) :=
  labelFrom [] s

def normalizeLabel (label : Text) : Text :=
  let fields := (label.map fun c => if Ascii.isSpace c then space else c) |> splitOn space
  let joined := joinWith [space] (fields.filter (!·.isEmpty))
  (runes joined).flatMap fun r =>
    if r.code = 0xDF || r.code = 0x1E9E then utf8 "ss" else encode (lower r.code)

def bracketedFrom (taken : Text) : Text → Option (Text × Text)
  | [] => none
  | c :: rest =>
    if c = greater then some (taken.reverse, rest)
    else if c = less || c = newline then none
    else if c = backslash then
      match rest with
      | d :: more =>
        if isPunctuationByte d then bracketedFrom (d :: c :: taken) more
        else bracketedFrom (c :: taken) (d :: more)
      | [] => none
    else bracketedFrom (c :: taken) rest

def bareFrom (depth : Nat) (taken : Text) : Text → Option (Text × Text)
  | [] => if depth = 0 then some (taken.reverse, []) else none
  | c :: rest =>
    if c ≤ space || c = 0x7F then if depth = 0 then some (taken.reverse, c :: rest) else none
    else if c = openParen then bareFrom (depth + 1) (c :: taken) rest
    else if c = closeParen then
      if depth = 0 then some (taken.reverse, c :: rest) else bareFrom (depth - 1) (c :: taken) rest
    else if c = backslash then
      match rest with
      | d :: more =>
        if isPunctuationByte d then bareFrom depth (d :: c :: taken) more
        else bareFrom depth (c :: taken) (d :: more)
      | [] => bareFrom depth (c :: taken) []
    else bareFrom depth (c :: taken) rest

def destination? : Text → Option (Text × Text)
  | [] => none
  | c :: rest => if c = less then bracketedFrom [] rest else bareFrom 0 [] (c :: rest)

def titleFrom (closing : UInt8) (taken : Text) : Text → Option (Text × Text)
  | [] => none
  | c :: rest =>
    if c = closing then some (taken.reverse, rest)
    else if closing = closeParen && c = openParen then none
    else if c = backslash then
      match rest with
      | d :: more =>
        if isPunctuationByte d then titleFrom closing (d :: c :: taken) more
        else titleFrom closing (c :: taken) (d :: more)
      | [] => none
    else titleFrom closing (c :: taken) rest

def title? : Text → Option (Text × Text)
  | [] => none
  | c :: rest =>
    if c = quote || c = apostrophe then titleFrom c [] rest
    else if c = openParen then titleFrom closeParen [] rest
    else none

structure Target where
  destination : Text
  title : Option Text
  deriving Repr

structure Definition where
  label : Text
  target : Target
  deriving Repr

def endOfLine? (s : Text) : Option Text :=
  match s.dropWhile (fun c => c = space || c = tab) with
  | [] => some []
  | c :: rest => if c = newline then some rest else none

def definition? (s : Text) : Option (Definition × Text) := do
  let s ← cutPrefix? [openBracket] (s.dropWhile Ascii.isSpace)
  let (label, s) ← label? s
  let s ← cutPrefix? [colon] s
  let (destination, s) ← destination? (s.dropWhile Ascii.isSpace)
  let define (title : Option Text) : Definition := ⟨normalizeLabel label, ⟨destination, title⟩⟩
  let after := s.dropWhile Ascii.isSpace
  let titled : Option (Definition × Text) := do
    if after.length = s.length then none
    else
      let (title, rest) ← title? after
      let rest ← endOfLine? rest
      return (define (some title), rest)
  titled <|> (endOfLine? s).map fun rest => (define none, rest)

def definitionsFrom : (fuel : Nat) → Text → List Definition × Text
  | 0, s => ([], s)
  | fuel + 1, s =>
    match definition? s with
    | some (d, rest) =>
      let (more, rest) := definitionsFrom fuel rest
      (d :: more, rest)
    | none => ([], s)

def definitions (s : Text) : List Definition × Text :=
  definitionsFrom s.length s

end Stencil.Markdown
