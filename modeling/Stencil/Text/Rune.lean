import Stencil.Text.Basic
import Stencil.Text.Blank
import Stencil.Text.Case

namespace Stencil

/-- A character, or a byte that belongs to none. -/
inductive Rune where
  | char (c : Char)
  | stray (b : UInt8)
  deriving DecidableEq, Repr, Inhabited

namespace Rune

def code : Rune → Nat
  | char c => c.toNat
  | stray _ => 0xFFFD

def bytes : Rune → Text
  | char c => String.utf8EncodeChar c
  | stray b => [b]

end Rune

namespace Text

def encode (code : Nat) : Text :=
  if h : code.isValidChar then String.utf8EncodeChar (Char.ofNatAux code h)
  else String.utf8EncodeChar (Char.ofNat 0xFFFD)

def continues (lo hi b : UInt8) : Bool := lo ≤ b && b ≤ hi

def payload (b : UInt8) : Nat := b.toNat % 64

def firstChar? : Text → Option (Char × Nat)
  | [] => none
  | b :: rest =>
    if b < 0x80 then some (Char.ofNat b.toNat, 1)
    else if 0xC2 ≤ b && b ≤ 0xDF then
      match rest with
      | c :: _ =>
        if continues 0x80 0xBF c then some (Char.ofNat ((b.toNat - 0xC0) * 64 + payload c), 2)
        else none
      | [] => none
    else if 0xE0 ≤ b && b ≤ 0xEF then
      let lo := if b == 0xE0 then 0xA0 else 0x80
      let hi := if b == 0xED then 0x9F else 0xBF
      match rest with
      | c :: d :: _ =>
        if continues lo hi c && continues 0x80 0xBF d then
          some (Char.ofNat ((b.toNat - 0xE0) * 4096 + payload c * 64 + payload d), 3)
        else none
      | _ => none
    else if 0xF0 ≤ b && b ≤ 0xF4 then
      let lo := if b == 0xF0 then 0x90 else 0x80
      let hi := if b == 0xF4 then 0x8F else 0xBF
      match rest with
      | c :: d :: e :: _ =>
        if continues lo hi c && continues 0x80 0xBF d && continues 0x80 0xBF e then
          some (Char.ofNat
            ((b.toNat - 0xF0) * 262144 + payload c * 4096 + payload d * 64 + payload e), 4)
        else none
      | _ => none
    else none

def runesAfter : (skip : Nat) → Text → List Rune
  | _, [] => []
  | skip + 1, _ :: rest => runesAfter skip rest
  | 0, b :: rest =>
    match firstChar? (b :: rest) with
    | some (c, n) => .char c :: runesAfter (n - 1) rest
    | none => .stray b :: runesAfter 0 rest

def runes (s : Text) : List Rune := runesAfter 0 s

def firstRune? : Text → Option Rune
  | [] => none
  | b :: rest =>
    match firstChar? (b :: rest) with
    | some (c, _) => some (.char c)
    | none => some (.stray b)

def lastRune? (s : Text) : Option Rune := (runes s).getLast?

def isValidUtf8 (s : Text) : Bool := (runes s).all fun
  | .char _ => true
  | .stray _ => false

def mapRunes (f : Nat → Nat) (s : Text) : Text := (runes s).flatMap fun r => encode (f r.code)

def toLower (s : Text) : Text := mapRunes lower s

def takeAfter (p : Rune → Bool) : (skip : Nat) → Text → Text
  | _, [] => []
  | skip + 1, b :: rest => b :: takeAfter p skip rest
  | 0, b :: rest =>
    match firstChar? (b :: rest) with
    | some (c, n) => if p (.char c) then b :: takeAfter p (n - 1) rest else []
    | none => if p (.stray b) then b :: takeAfter p 0 rest else []

def takeRunesWhile (p : Rune → Bool) (s : Text) : Text := takeAfter p 0 s

def dropRunesWhile (p : Rune → Bool) (s : Text) : Text :=
  ((runes s).dropWhile p).flatMap Rune.bytes

def dropRunesEndWhile (p : Rune → Bool) (s : Text) : Text :=
  ((runes s).reverse.dropWhile p).reverse.flatMap Rune.bytes

def trimBlank (s : Text) : Text :=
  dropRunesEndWhile (isBlank ·.code) (dropRunesWhile (isBlank ·.code) s)

def firstField? (s : Text) : Option Text :=
  match (runes s).dropWhile (isBlank ·.code) with
  | [] => none
  | rs => some ((rs.takeWhile fun r => !isBlank r.code).flatMap Rune.bytes)

end Text

end Stencil
