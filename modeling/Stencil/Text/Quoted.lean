import Stencil.Text.Printable
import Stencil.Text.Rune

namespace Stencil.Text

def hexFill : (width n : Nat) → Text
  | 0, _ => []
  | width + 1, n => hexFill width (n / 16) ++ [Ascii.hexDigit (n % 16)]

def escapeRune : Rune → Text
  | .stray b => utf8 "\\x" ++ hexFill 2 b.toNat
  | .char c =>
    if c == '"' || c == '\\' then Ascii.backslash :: String.utf8EncodeChar c
    else if isPrintable c.toNat then String.utf8EncodeChar c
    else match c.toNat with
      | 7 => utf8 "\\a"
      | 8 => utf8 "\\b"
      | 12 => utf8 "\\f"
      | 10 => utf8 "\\n"
      | 13 => utf8 "\\r"
      | 9 => utf8 "\\t"
      | 11 => utf8 "\\v"
      | n =>
        if n < 32 || n == 127 then utf8 "\\x" ++ hexFill 2 n
        else if n < 0x10000 then utf8 "\\u" ++ hexFill 4 n
        else utf8 "\\U" ++ hexFill 8 n

def quoted (s : Text) : Text :=
  Ascii.quote :: ((runes s).flatMap escapeRune ++ [Ascii.quote])

def hexNumber : Text → Option Nat
  | s => s.foldl (fun acc c => do
      let n ← acc
      let d ← Ascii.hexValue? c
      some (n * 16 + d)) (some 0)

def octalDigit (c : UInt8) : Bool := 48 ≤ c && c ≤ 55

def escapeValue? (delimiter : UInt8) : Text → Option (Text × Nat)
  | [] => none
  | c :: rest =>
    let wide (width : Nat) : Option (Text × Nat) :=
      let digits := rest.take width
      if digits.length == width then
        (hexNumber digits).bind fun n =>
          if n.isValidChar then some (encode n, width + 1) else none
      else none
    if c == 97 then some ([7], 1)
    else if c == 98 then some ([8], 1)
    else if c == 102 then some ([12], 1)
    else if c == 110 then some ([10], 1)
    else if c == 114 then some ([13], 1)
    else if c == 116 then some ([9], 1)
    else if c == 118 then some ([11], 1)
    else if c == Ascii.backslash then some ([Ascii.backslash], 1)
    else if c == Ascii.quote || c == Ascii.apostrophe then
      if c == delimiter then some ([c], 1) else none
    else if c == 120 then
      let digits := rest.take 2
      if digits.length == 2 then (hexNumber digits).map fun n => ([UInt8.ofNat n], 3) else none
    else if c == 117 then wide 4
    else if c == 85 then wide 8
    else if octalDigit c then
      match rest with
      | d :: e :: _ =>
        let n := (c.toNat - 48) * 64 + (d.toNat - 48) * 8 + (e.toNat - 48)
        if octalDigit d && octalDigit e && n < 256 then some ([UInt8.ofNat n], 3) else none
      | _ => none
    else none

def readQuoted (delimiter : UInt8) : (skip : Nat) → Text → Option Text
  | _, [] => none
  | skip + 1, _ :: rest => readQuoted delimiter skip rest
  | 0, c :: rest =>
    if c == delimiter then if rest.isEmpty then some [] else none
    else if c == Ascii.newline then none
    else if c == Ascii.backslash then
      match escapeValue? delimiter rest with
      | some (value, n) => (readQuoted delimiter n rest).map (value ++ ·)
      | none => none
    else (readQuoted delimiter 0 rest).map (c :: ·)

/-- The text that a literal denotes: double-quoted with escapes, back-quoted as it stands, or a
single character between apostrophes. -/
def unquoted? : Text → Option Text
  | Ascii.quote :: rest => readQuoted Ascii.quote 0 rest
  | Ascii.backquote :: rest =>
    match rest.reverse with
    | Ascii.backquote :: inner =>
      if inner.contains Ascii.backquote then none
      else some (inner.reverse.filter (· != Ascii.carriageReturn))
    | _ => none
  | Ascii.apostrophe :: rest =>
    match readQuoted Ascii.apostrophe 0 rest with
    | some s => if (runes s).length == 1 then some s else none
    | none => none
  | _ => none

end Stencil.Text
