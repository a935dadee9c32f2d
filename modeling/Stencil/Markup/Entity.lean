import Stencil.Markup.Entity.Capital
import Stencil.Markup.Entity.Small
import Stencil.Text.Rune

namespace Stencil.Markup.Entity

def table (first : UInt8) : List (String × List Nat) :=
  match first with
  | 65 => capitalA | 66 => capitalB | 67 => capitalC | 68 => capitalD | 69 => capitalE
  | 70 => capitalF | 71 => capitalG | 72 => capitalH | 73 => capitalI | 74 => capitalJ
  | 75 => capitalK | 76 => capitalL | 77 => capitalM | 78 => capitalN | 79 => capitalO
  | 80 => capitalP | 81 => capitalQ | 82 => capitalR | 83 => capitalS | 84 => capitalT
  | 85 => capitalU | 86 => capitalV | 87 => capitalW | 88 => capitalX | 89 => capitalY
  | 90 => capitalZ
  | 97 => smallA | 98 => smallB | 99 => smallC | 100 => smallD | 101 => smallE | 102 => smallF
  | 103 => smallG | 104 => smallH | 105 => smallI | 106 => smallJ | 107 => smallK
  | 108 => smallL | 109 => smallM | 110 => smallN | 111 => smallO | 112 => smallP
  | 113 => smallQ | 114 => smallR | 115 => smallS | 116 => smallT | 117 => smallU
  | 118 => smallV | 119 => smallW | 120 => smallX | 121 => smallY | 122 => smallZ
  | _ => []

def codes? (name : Text) : Option (List Nat) :=
  match name with
  | [] => none
  | first :: _ => (table first).lookup (String.ofList (name.map fun b => Char.ofNat b.toNat))

private def misreadCodes : List Nat := [
  0x20AC, 0x81, 0x201A, 0x0192, 0x201E, 0x2026, 0x2020, 0x2021,
  0x02C6, 0x2030, 0x0160, 0x2039, 0x0152, 0x8D, 0x017D, 0x8F,
  0x90, 0x2018, 0x2019, 0x201C, 0x201D, 0x2022, 0x2013, 0x2014,
  0x02DC, 0x2122, 0x0161, 0x203A, 0x0153, 0x9D, 0x017E, 0x0178]

def numericCode (n : Nat) : Nat :=
  if 0x80 ≤ n && n ≤ 0x9F then (misreadCodes[n - 0x80]?).getD 0xFFFD
  else if n == 0 || !n.isValidChar then 0xFFFD
  else n

private def wrapped (n : Nat) : Nat := n % 4294967296

private def numeric? (rest : Text) : Option (Text × Nat) :=
  if rest.length < 2 then none
  else
    let hex := match rest with
      | 120 :: _ | 88 :: _ => true
      | _ => false
    let body := if hex then rest.drop 1 else rest
    let digits := body.takeWhile fun c => if hex then (Ascii.hexValue? c).isSome else Ascii.isDigit c
    let base := if hex then 16 else 10
    let value := digits.foldl (fun n c => wrapped (n * base + ((Ascii.hexValue? c).getD 0))) 0
    let closing := if (body.drop digits.length).head? == some Ascii.semicolon then 1 else 0
    let taken := 1 + (if hex then 1 else 0) + digits.length + closing
    if taken ≤ 2 then none
    else some (Text.encode (numericCode value), taken)

private def nameWithin? (name : Text) : (length : Nat) → Option (Text × Nat)
  | 0 | 1 => none
  | length + 2 =>
    match codes? (name.take (length + 2)) with
    | some [code] => some (Text.encode code, length + 2)
    | _ => nameWithin? name (length + 1)

private def longestBareName : Nat := 6

/-- A named reference; `rest` follows the ampersand. In an attribute value a name without its
semicolon is left alone before `=`, and must otherwise be complete. -/
private def named? (inAttribute : Bool) (rest : Text) : Option (Text × Nat) :=
  let word := rest.takeWhile Ascii.isAlphanumeric
  let after := rest.drop word.length
  let closed := after.head? == some Ascii.semicolon
  let name := if closed then word ++ [Ascii.semicolon] else word
  if name.isEmpty then none
  else if inAttribute && !closed && after.head? == some Ascii.equal then none
  else match codes? name with
    | some codes => some (codes.flatMap Text.encode, name.length)
    | none =>
      if inAttribute then none else nameWithin? name (min (name.length - 1) longestBareName)

def reference? (inAttribute : Bool) : Text → Option (Text × Nat)
  | Ascii.hash :: rest => numeric? rest
  | rest => named? inAttribute rest

private def unescapeAfter (inAttribute : Bool) : (skip : Nat) → Text → Text
  | _, [] => []
  | skip + 1, _ :: rest => unescapeAfter inAttribute skip rest
  | 0, c :: rest =>
    if c == Ascii.ampersand then
      match reference? inAttribute rest with
      | some (s, n) => s ++ unescapeAfter inAttribute n rest
      | none => c :: unescapeAfter inAttribute 0 rest
    else c :: unescapeAfter inAttribute 0 rest

def unescape (inAttribute : Bool) (s : Text) : Text := unescapeAfter inAttribute 0 s

end Stencil.Markup.Entity
