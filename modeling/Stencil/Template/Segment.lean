import Stencil.Template.Error
import Stencil.Template.Words

namespace Stencil

open Ascii Text

inductive Stretch where
  | literal (text : Text)
  | placeholder (inner : Text)
  | unclosed (inner : Text)
  deriving DecidableEq, Repr

namespace Stretch

def literals (taken : Text) (rest : List Stretch) : List Stretch :=
  if taken.isEmpty then rest else .literal taken.reverse :: rest

def read (inside : Bool) (taken : Text) : Text → List Stretch
  | [] => if inside then [.unclosed taken.reverse] else literals taken []
  | c :: rest =>
    if inside then
      if c = closeBrace then .placeholder taken.reverse :: read false [] rest
      else read true (c :: taken) rest
    else match taken with
      | d :: before =>
        if d = dollar ∧ c = openBrace then literals before (read true [] rest)
        else read false (c :: taken) rest
      | [] => read false [c] rest

def ofText (s : Text) : List Stretch :=
  read false [] s

end Stretch

inductive Segment where
  | literal (text : Text)
  | variable (name : Text)
  | call (name : Text) (args : List Text)
  deriving DecidableEq, Repr

abbrev Segments := List Segment

namespace Segments

def isLiteral (segments : Segments) : Bool :=
  segments.all fun
    | .literal _ => true
    | _ => false

end Segments

/-- Reading with a table of holes at hand. Registrations made before a fault stay. -/
abbrev Scan := ExceptT TextError (StateM Symbols)

namespace Scan

def register (name : Text) (type : HoleType) : Scan Unit := do
  match (← get).register name type with
  | .ok table => set table
  | .error clash => throw (.conflict ⟨clash, {}⟩)

def invalidName (fragment name : Text) : TextError :=
  .malformed ⟨.invalidIdentifier, fragment, quoted name ++ utf8 " is not a valid hole name", {}⟩

def placeholder (inner : Text) : Scan Segment :=
  let fragment := utf8 "$\x7b" ++ inner ++ [closeBrace]
  match Words.split? inner with
  | none => throw (.malformed ⟨.unterminatedQuote, fragment, [], {}⟩)
  | some [] => throw (.malformed ⟨.invalidIdentifier, fragment, utf8 "empty placeholder", {}⟩)
  | some (name :: args) =>
    if !isHoleName name then throw (invalidName fragment name)
    else if args.isEmpty then do
      register name .string
      return .variable name
    else do
      register name .stringFunction
      return .call name args

def stretch : Stretch → Scan Segment
  | .literal text => return .literal text
  | .placeholder inner => placeholder inner
  | .unclosed inner =>
    throw (.malformed ⟨.unterminatedPlaceholder, utf8 "$\x7b" ++ inner, [], {}⟩)

def text (s : Text) : Scan Segments :=
  (Stretch.ofText s).mapM stretch

end Scan

end Stencil
