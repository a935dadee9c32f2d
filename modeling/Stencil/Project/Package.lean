import Stencil.Disk.Walk
import Stencil.Unit.Lexeme

namespace Stencil

open Ascii Text

inductive PackageError where
  | notDirectory (dir : Text)
  | noModule (dir : Text)
  deriving DecidableEq, Repr

def PackageError.message : PackageError → Text
  | .notDirectory dir => dir ++ utf8 ": not a directory"
  | .noModule dir => dir ++ utf8 ": go.mod file not found in the directory or any above it"

namespace Package

def isSource (name : Text) : Bool :=
  endsWith name (utf8 ".go") && !startsWith name [underscore] && !startsWith name [dot]

def isTest (name : Text) : Bool :=
  endsWith name (utf8 "_test.go")

def clause? (content : Text) : Option Text :=
  match Lexeme.ofText content with
  | .keyword k :: .name n :: _ => if k = utf8 "package" then some n else none
  | _ => none

def nameOf? (file content : Text) : Option Text :=
  (clause? content).map fun n => if isTest file then dropSuffix (utf8 "_test") n else n

/-- The name of the package in a directory. The first file decides; a directory with nothing but
tests is no package. -/
def nameAt? (d : Disk) (loc : Location) : Option Text :=
  let sources := (d.list loc).filterMap fun (name, e) =>
    match e with
    | .file content => if isSource name then some (name, content) else none
    | .directory => none
  if sources.all fun (name, _) => isTest name then none
  else some ((sources.findSome? fun (name, content) => nameOf? name content).getD [])

def hasModuleFile (d : Disk) (loc : Location) : Bool :=
  match d.find? (loc ++ [utf8 "go.mod"]) with
  | some (.file _) => true
  | _ => false

def inModule (d : Disk) (loc : Location) : Bool :=
  (List.range (loc.length + 1)).any fun n => hasModuleFile d (loc.take n)

def detect (d : Disk) (cwd : Location) (dir : Text) : Except PackageError Text := do
  let some loc := (d.resolve cwd dir).toOption | throw (.notDirectory dir)
  if d.find? loc ≠ some .directory then throw (.notDirectory dir)
  else if !inModule d loc then throw (.noModule dir)
  else return (nameAt? d loc).getD []

def isPassedOver (d : Disk) (loc : Location) : Bool :=
  let name := loc.getLastD []
  startsWith name [dot] || startsWith name [underscore] || name = utf8 "testdata" ||
    hasModuleFile d loc

def namesUnder (d : Disk) (loc : Location) (dir : Text) :
    Except PackageError (List (Location × Text)) :=
  if d.find? loc ≠ some .directory then .error (.notDirectory dir)
  else if !inModule d loc then .ok []
  else .ok ((d.tree (isPassedOver d) loc).filterMap fun (l, e) =>
    if e.isDirectory then (nameAt? d l).map fun n => (l, n) else none)

end Package

end Stencil
