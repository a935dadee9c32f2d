import Stencil.Template.Excerpt
import Stencil.Template.Hole
import Stencil.Text.Quoted

namespace Stencil

open Ascii Text

/-- Where a fault was found. The path is empty while the file is not known, and the line is zero
while the line is not. -/
structure Place where
  path : Text := []
  line : Int := 0
  excerpt : Text := []
  deriving DecidableEq, Repr

namespace Place

def describe (place : Place) : Text :=
  if place.path.isEmpty then []
  else utf8 " in " ++ place.path ++
    if place.line > 0 then colon :: ofInt place.line else []

def ofLine (path source : Text) (line : Nat) : Place :=
  ⟨path, line, Excerpt.around source line 2⟩

end Place

inductive SyntaxFault where
  | unterminatedQuote
  | unterminatedPlaceholder
  | invalidIdentifier
  | malformedDirective
  deriving DecidableEq, Repr

def SyntaxFault.describe : SyntaxFault → Text
  | .unterminatedQuote => utf8 "unterminated quote"
  | .unterminatedPlaceholder => utf8 "unterminated placeholder"
  | .invalidIdentifier => utf8 "invalid identifier"
  | .malformedDirective => utf8 "malformed directive"

structure Malformed where
  fault : SyntaxFault
  fragment : Text := []
  detail : Text := []
  place : Place := {}
  deriving DecidableEq, Repr

def Malformed.message (e : Malformed) : Text :=
  utf8 "syntax error" ++ e.place.describe ++ utf8 ": " ++ e.fault.describe ++
    (if e.detail.isEmpty then [] else utf8 ": " ++ e.detail) ++
    (if e.fragment.isEmpty then [] else utf8 " in " ++ quoted e.fragment) ++ e.place.excerpt

structure Conflict where
  clash : Clash
  place : Place := {}
  deriving DecidableEq, Repr

def Conflict.message (e : Conflict) : Text :=
  utf8 "type conflict" ++ e.place.describe ++ utf8 ": hole " ++ quoted e.clash.name ++
    utf8 " is used as " ++ e.clash.existing.describe ++ utf8 " and as " ++
    e.clash.proposed.describe ++ e.place.excerpt

inductive TextError where
  | malformed (e : Malformed)
  | conflict (e : Conflict)
  deriving DecidableEq, Repr

namespace TextError

def message : TextError → Text
  | .malformed e => e.message
  | .conflict e => e.message

/-- Adds the place to a fault that has none. Without a source only the path is known; a conflict
whose hole the source does not show has a path only. -/
def locate (path : Text) (source : Option Text) : TextError → TextError
  | .malformed e =>
    if !e.place.path.isEmpty then .malformed e
    else match source with
      | some s =>
        if e.fragment.isEmpty then .malformed { e with place := { e.place with path := path } }
        else .malformed { e with place := Place.ofLine path s (Excerpt.estimateLine s e.fragment) }
      | none => .malformed { e with place := { e.place with path := path } }
  | .conflict e =>
    if !e.place.path.isEmpty then .conflict e
    else match source.bind (fun s => (Excerpt.holeLine? s e.clash.name).map (Place.ofLine path s)) with
      | some place => .conflict { e with place := place }
      | none => .conflict { e with place := { e.place with path := path } }

end TextError

end Stencil
