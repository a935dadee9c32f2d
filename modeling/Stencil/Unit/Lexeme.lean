import Stencil.Template.Name

namespace Stencil

open Ascii Text

inductive Lexeme where
  | name (text : Text)
  | keyword (text : Text)
  | string (text : Text)
  | number (text : Text)
  | mark (text : Text)
  | bad
  deriving DecidableEq, Repr, Inhabited

namespace Lexeme

def marks : List Text :=
  ["<<=", ">>=", "&^=", "...", "&&", "||", "<-", "++", "--", "==", "!=", "<=", ">=", ":=", "+=",
    "-=", "*=", "/=", "%=", "&=", "|=", "^=", "<<", ">>", "&^", "+", "-", "*", "/", "%", "&", "|",
    "^", "<", ">", "=", "!", "(", ")", "[", "]", "\x7b", "\x7d", ",", ";", ".", ":", "~"].map utf8

def endsStatement : Lexeme → Bool
  | .name _ | .string _ | .number _ => true
  | .keyword k => [utf8 "break", utf8 "continue", utf8 "fallthrough", utf8 "return"].contains k
  | .mark m => [utf8 "++", utf8 "--", utf8 ")", utf8 "]", utf8 "\x7d"].contains m
  | .bad => true

def isSound (s : Text) : Bool :=
  (runes s).all fun
    | .char c => c.toNat ≠ 0 && c.toNat ≠ 0xFEFF
    | .stray _ => false

def isNameStart (r : Rune) : Bool :=
  match r with
  | .char c => Text.isLetter c.toNat || c = '_'
  | .stray _ => false

def isNamePart (r : Rune) : Bool :=
  isNameStart r || (match r with
    | .char c => Text.isDigit c.toNat
    | .stray _ => false)

def nameAt (s : Text) : Text :=
  takeRunesWhile isNamePart s

def isDigitOf (base : Nat) (c : UInt8) : Bool :=
  if base ≤ 10 then Ascii.isDigit c || c = underscore else (hexValue? c).isSome || c = underscore

def underscoresOk (afterDigit : Bool) : Text → Bool
  | [] => true
  | c :: rest =>
    if c = underscore then
      afterDigit && (match rest with
        | d :: _ => (hexValue? d).isSome
        | [] => false) && underscoresOk false rest
    else underscoresOk ((hexValue? c).isSome) rest

def hasDigit (s : Text) : Bool :=
  s.any (· ≠ underscore)

def lowerAt (s : Text) : UInt8 :=
  Ascii.toLower (s.headD 0)

def numberLead (s : Text) : Nat × Text × Text :=
  match s with
  | 48 :: rest =>
    let c := lowerAt rest
    if c = 120 then (16, s.take 2, rest.drop 1)
    else if c = 111 then (8, s.take 2, rest.drop 1)
    else if c = 98 then (2, s.take 2, rest.drop 1)
    else (10, [], s)
  | _ => (10, [], s)

def fractionAt (base : Nat) (s : Text) : Text × Text × Bool :=
  match s with
  | c :: after =>
    if c = dot then
      let digits := after.takeWhile (isDigitOf base)
      (digits, after.drop digits.length, true)
    else ([], s, false)
  | [] => ([], s, false)

def exponentAt (isExponent : Bool) (s : Text) : Text × Text :=
  if isExponent then
    let after := s.drop 1
    let after := if after.head? = some plus || after.head? = some hyphen then after.drop 1 else after
    let digits := after.takeWhile (isDigitOf 10)
    (digits, after.drop digits.length)
  else ([], s)

def numberAt (s : Text) : Text × Bool :=
  let (base, lead, body) := numberLead s
  let octal := base = 10 && s.head? = some 48
  let whole := body.takeWhile (isDigitOf base)
  let (fraction, rest, isFloat) := fractionAt base (body.drop whole.length)
  let e := lowerAt rest
  let isExponent := e = 101 || e = 112
  let (exponent, rest) := exponentAt isExponent rest
  let (imaginary, rest) := if rest.head? = some 105 then (true, rest.drop 1) else (false, rest)
  let limit := if octal && !isFloat && !isExponent && !imaginary then 8 else base
  let digitsFit := (whole ++ fraction).all fun c => c = underscore || ((hexValue? c).getD 0) < limit
  let ok := hasDigit (whole ++ fraction) && digitsFit &&
    (!isFloat || base = 10 || base = 16) &&
    (!isExponent || (hasDigit exponent && (if e = 112 then base = 16 else base = 10))) &&
    (!(base = 16 && isFloat) || isExponent) &&
    underscoresOk (!lead.isEmpty) whole && underscoresOk false fraction &&
    underscoresOk false exponent
  (rest, ok)

def codeFits (base limit : Nat) (digits : Text) : Bool :=
  digits.all (fun c => (hexValue? c).any (· < base)) &&
    let code := digits.foldl (fun n c => n * base + ((hexValue? c).getD 0)) 0
    code ≤ limit && !(limit > 255 && 0xD800 ≤ code && code ≤ 0xDFFF)

def escapeSize? (delimiter : UInt8) (s : Text) : Option Nat :=
  match s with
  | [] => none
  | c :: rest =>
    let digits (n base limit : Nat) : Option Nat :=
      let taken := rest.take n
      if taken.length = n && codeFits base limit taken then some (n + 1) else none
    if c = delimiter || c = backslash || (utf8 "abfnrtv").contains c then some 1
    else if c = 120 then digits 2 16 255
    else if c = 117 then digits 4 16 0x10FFFF
    else if c = 85 then digits 8 16 0x10FFFF
    else if 48 ≤ c && c ≤ 55 then
      let taken := s.take 3
      if taken.length = 3 && codeFits 8 255 taken then some 3 else none
    else none

def quotedEnd? (delimiter : UInt8) : (skip count : Nat) → Text → Option (Text × Nat)
  | _, _, [] => none
  | skip + 1, count, _ :: rest => quotedEnd? delimiter skip count rest
  | 0, count, c :: rest =>
    if c = delimiter then some (rest, count)
    else if c = newline then none
    else if c = backslash then
      match escapeSize? delimiter rest with
      | some n => quotedEnd? delimiter n (count + 1) rest
      | none => none
    else match firstChar? (c :: rest) with
      | some (_, n) => quotedEnd? delimiter (n - 1) (count + 1) rest
      | none => none

def sound (part : Text) (l : Lexeme) : Lexeme :=
  if isSound part then l else .bad

def semicolonMark : Lexeme :=
  .mark [semicolon]

/-- Reads lexemes; `ends` says that the last one may end a statement. Every step takes a byte at
least, and after something that is no lexeme nothing more is read. -/
def read : (fuel : Nat) → (ends : Bool) → Text → List Lexeme
  | 0, _, _ => []
  | _, ends, [] => if ends then [semicolonMark] else []
  | fuel + 1, ends, c :: rest =>
    let s := c :: rest
    let emit (l : Lexeme) (after : Text) : List Lexeme :=
      if l = .bad then [.bad] else l :: read fuel l.endsStatement after
    let upTo (after : Text) : Text := s.take (s.length - after.length)
    if c = newline then
      if ends then semicolonMark :: read fuel false rest else read fuel false rest
    else if c = space || c = tab || c = carriageReturn then read fuel ends rest
    else if startsWith s (utf8 "//") then
      let after := s.dropWhile (· ≠ newline)
      if isSound (upTo after) then read fuel ends after else [.bad]
    else if startsWith s (utf8 "/*") then
      match cut? (utf8 "*/") (s.drop 2) with
      | some (inner, after) =>
        if !isSound inner then [.bad]
        else if ends && inner.contains newline then semicolonMark :: read fuel false after
        else read fuel ends after
      | none => [.bad]
    else if (firstRune? s).any isNameStart then
      let word := nameAt s
      emit (if Name.keywords.contains word then .keyword word else .name word) (s.drop word.length)
    else if Ascii.isDigit c || (c = dot && (rest.head?.any Ascii.isDigit)) then
      let (after, ok) := numberAt s
      emit (if ok then .number (upTo after) else .bad) after
    else if c = quote then
      match quotedEnd? quote 0 0 rest with
      | some (after, _) => emit (sound (upTo after) (.string (upTo after))) after
      | none => [.bad]
    else if c = apostrophe then
      match quotedEnd? apostrophe 0 0 rest with
      | some (after, count) =>
        emit (if count = 1 then sound (upTo after) (.number (upTo after)) else .bad) after
      | none => [.bad]
    else if c = backquote then
      match cut? [backquote] rest with
      | some (_, after) => emit (sound (upTo after) (.string (upTo after))) after
      | none => [.bad]
    else match marks.find? (startsWith s) with
      | some m => emit (.mark m) (s.drop m.length)
      | none => [.bad]

def ofText (s : Text) : List Lexeme :=
  let s := (cutPrefix? (encode 0xFEFF) s).getD s
  read (s.length + 1) false s

end Lexeme

end Stencil
