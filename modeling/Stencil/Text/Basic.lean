
namespace Stencil

abbrev Text := List UInt8

def utf8 (s : String) : Text := s.toUTF8.data.toList

namespace Ascii

@[match_pattern] abbrev nul : UInt8 := 0
@[match_pattern] abbrev tab : UInt8 := 9
@[match_pattern] abbrev newline : UInt8 := 10
@[match_pattern] abbrev verticalTab : UInt8 := 11
@[match_pattern] abbrev formFeed : UInt8 := 12
@[match_pattern] abbrev carriageReturn : UInt8 := 13
@[match_pattern] abbrev space : UInt8 := 32
@[match_pattern] abbrev exclamation : UInt8 := 33
@[match_pattern] abbrev quote : UInt8 := 34
@[match_pattern] abbrev hash : UInt8 := 35
@[match_pattern] abbrev dollar : UInt8 := 36
@[match_pattern] abbrev percent : UInt8 := 37
@[match_pattern] abbrev ampersand : UInt8 := 38
@[match_pattern] abbrev apostrophe : UInt8 := 39
@[match_pattern] abbrev openParen : UInt8 := 40
@[match_pattern] abbrev closeParen : UInt8 := 41
@[match_pattern] abbrev asterisk : UInt8 := 42
@[match_pattern] abbrev plus : UInt8 := 43
@[match_pattern] abbrev comma : UInt8 := 44
@[match_pattern] abbrev hyphen : UInt8 := 45
@[match_pattern] abbrev dot : UInt8 := 46
@[match_pattern] abbrev slash : UInt8 := 47
@[match_pattern] abbrev colon : UInt8 := 58
@[match_pattern] abbrev semicolon : UInt8 := 59
@[match_pattern] abbrev less : UInt8 := 60
@[match_pattern] abbrev equal : UInt8 := 61
@[match_pattern] abbrev greater : UInt8 := 62
@[match_pattern] abbrev question : UInt8 := 63
@[match_pattern] abbrev atSign : UInt8 := 64
@[match_pattern] abbrev openBracket : UInt8 := 91
@[match_pattern] abbrev backslash : UInt8 := 92
@[match_pattern] abbrev closeBracket : UInt8 := 93
@[match_pattern] abbrev underscore : UInt8 := 95
@[match_pattern] abbrev backquote : UInt8 := 96
@[match_pattern] abbrev openBrace : UInt8 := 123
@[match_pattern] abbrev closeBrace : UInt8 := 125
@[match_pattern] abbrev tilde : UInt8 := 126

def isLower (c : UInt8) : Bool := 97 ≤ c && c ≤ 122

def isUpper (c : UInt8) : Bool := 65 ≤ c && c ≤ 90

def isLetter (c : UInt8) : Bool := isLower c || isUpper c

def isDigit (c : UInt8) : Bool := 48 ≤ c && c ≤ 57

def isAlphanumeric (c : UInt8) : Bool := isLetter c || isDigit c

def hexValue? (c : UInt8) : Option Nat :=
  if isDigit c then some (c.toNat - 48)
  else if 97 ≤ c && c ≤ 102 then some (c.toNat - 87)
  else if 65 ≤ c && c ≤ 70 then some (c.toNat - 55)
  else none

def isSpace : UInt8 → Bool
  | space | tab | newline | carriageReturn | formFeed | verticalTab => true
  | _ => false

def toLower (c : UInt8) : UInt8 := if isUpper c then c + 32 else c

def toUpper (c : UInt8) : UInt8 := if isLower c then c - 32 else c

def lowercase (s : Text) : Text := s.map toLower

def hexDigit (n : Nat) : UInt8 := if n < 10 then UInt8.ofNat (48 + n) else UInt8.ofNat (87 + n)

end Ascii

namespace Text

def cutPrefix? : (p s : Text) → Option Text
  | [], s => some s
  | _ :: _, [] => none
  | a :: p, b :: s => if a == b then cutPrefix? p s else none

def startsWith (s p : Text) : Bool := (cutPrefix? p s).isSome

def cutSuffix? (p s : Text) : Option Text :=
  (cutPrefix? p.reverse s.reverse).map List.reverse

def endsWith (s p : Text) : Bool := (cutSuffix? p s).isSome

def dropSuffix (p s : Text) : Text := (cutSuffix? p s).getD s

def cut? (sep : Text) : Text → Option (Text × Text)
  | [] => if sep.isEmpty then some ([], []) else none
  | c :: s =>
    match cutPrefix? sep (c :: s) with
    | some rest => some ([], rest)
    | none => (cut? sep s).map fun (before, after) => (c :: before, after)

def hasPart (s part : Text) : Bool := (cut? part s).isSome

def splitOn (sep : UInt8) : Text → List Text
  | [] => [[]]
  | c :: s =>
    if c == sep then [] :: splitOn sep s
    else match splitOn sep s with
      | piece :: more => (c :: piece) :: more
      | [] => [[c]]

def lines (s : Text) : List Text := splitOn Ascii.newline s

def dropEndWhile (p : UInt8 → Bool) (s : Text) : Text := (s.reverse.dropWhile p).reverse

def trim (p : UInt8 → Bool) (s : Text) : Text := dropEndWhile p (s.dropWhile p)

def joinWith (sep : Text) : List Text → Text
  | [] => []
  | [s] => s
  | s :: more => s ++ sep ++ joinWith sep more

theorem splitOn_ne_nil (sep : UInt8) (s : Text) : splitOn sep s ≠ [] := by
  cases s with
  | nil => simp [splitOn]
  | cons c s =>
    unfold splitOn
    split
    · simp
    · split <;> simp

theorem joinWith_splitOn (sep : UInt8) (s : Text) : joinWith [sep] (splitOn sep s) = s := by
  induction s with
  | nil => rfl
  | cons c s ih =>
    obtain ⟨piece, more, hs⟩ := List.exists_cons_of_ne_nil (splitOn_ne_nil sep s)
    rw [hs] at ih
    unfold splitOn
    rw [hs]
    split
    next hc => simp [joinWith, ih, beq_iff_eq.1 hc]
    · cases more <;> simp_all [joinWith]

def replaceByte (old : UInt8) (new : Text) (s : Text) : Text :=
  s.flatMap fun c => if c == old then new else [c]

def ofNat (n : Nat) : Text := utf8 (toString n)

def ofInt : Int → Text
  | .ofNat n => ofNat n
  | .negSucc n => Ascii.hyphen :: ofNat (n + 1)

def padLeft (width : Nat) (s : Text) : Text := List.replicate (width - s.length) Ascii.space ++ s

def lt : Text → Text → Bool
  | [], [] => false
  | [], _ :: _ => true
  | _ :: _, [] => false
  | a :: s, b :: t => if a == b then lt s t else a < b

def le (s t : Text) : Bool := !lt t s

def insertOn {α : Type} (key : α → Text) (a : α) : List α → List α
  | [] => [a]
  | b :: rest => if le (key a) (key b) then a :: b :: rest else b :: insertOn key a rest

def sortOn {α : Type} (key : α → Text) (list : List α) : List α := list.foldr (insertOn key) []

def sort (texts : List Text) : List Text := sortOn id texts

end Text

end Stencil
