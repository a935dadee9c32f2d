import Stencil.Text.Basic

namespace Stencil

open Ascii

namespace Pattern

inductive Step where
  | lineStart
  | lineEnd
  | one (isIn : UInt8 → Bool) (captured : Bool)
  /-- A run of any length, as long as the steps after it allow. -/
  | many (isIn : UInt8 → Bool) (captured : Bool)

def literal (s : Text) : List Step :=
  s.map fun c => .one (c == ·) false

structure Match where
  text : Text := []
  group : Text := []
  deriving DecidableEq, Repr

def Match.prepend (taken : Text) (captured : Bool) (m : Match) : Match :=
  ⟨taken ++ m.text, if captured then taken ++ m.group else m.group⟩

def run (isIn : UInt8 → Bool) (captured : Bool) (next : Option UInt8 → Text → Option Match) :
    (before : Option UInt8) → Text → Option Match
  | before, [] => next before []
  | before, c :: rest =>
    if isIn c then
      match run isIn captured next (some c) rest with
      | some m => some (m.prepend [c] captured)
      | none => next before (c :: rest)
    else next before (c :: rest)

def matchAt? : List Step → (before : Option UInt8) → Text → Option Match
  | [], _, _ => some {}
  | .lineStart :: steps, before, s =>
    if before.all (· == newline) then matchAt? steps before s else none
  | .lineEnd :: steps, before, s =>
    if s.head?.all (· == newline) then matchAt? steps before s else none
  | .one isIn captured :: steps, _, s =>
    match s with
    | [] => none
    | c :: rest =>
      if isIn c then (matchAt? steps (some c) rest).map (·.prepend [c] captured) else none
  | .many isIn captured :: steps, before, s => run isIn captured (matchAt? steps) before s

inductive Piece where
  | byte (c : UInt8)
  | found (m : Match)

/-- The text cut up at its matches, from left to right and without overlaps. The first `skip` bytes
belong to a match already. A match of no bytes does not count. -/
def scan (steps : List Step) : (skip : Nat) → (before : Option UInt8) → Text → List Piece
  | _, _, [] => []
  | skip + 1, _, c :: rest => scan steps skip (some c) rest
  | 0, before, c :: rest =>
    match (matchAt? steps before (c :: rest)).filter (!·.text.isEmpty) with
    | some m => .found m :: scan steps (m.text.length - 1) (some c) rest
    | none => .byte c :: scan steps 0 (some c) rest

def Piece.match? : Piece → Option Match
  | .found m => some m
  | .byte _ => none

def Piece.left : Piece → Text
  | .found _ => []
  | .byte c => [c]

def findAll (steps : List Step) (s : Text) : List Match :=
  (scan steps 0 none s).filterMap Piece.match?

def removeAll (steps : List Step) (s : Text) : Text :=
  (scan steps 0 none s).flatMap Piece.left

end Pattern

end Stencil
