import Stencil.Log
import Stencil.Project.Package

namespace Stencil

open Ascii Text

structure TemplateFile where
  path : Text
  directory : Location
  package : Text
  deriving DecidableEq, Repr

structure DiscoveryError where
  root : Text
  cause : SystemError
  deriving DecidableEq, Repr

def DiscoveryError.message (e : DiscoveryError) : Text :=
  utf8 "failed to discover templates under " ++ e.root ++ utf8 ": " ++ e.cause.message

namespace Project

def templateEnding : Text := utf8 ".ml.html"

/-- Files that are compiled on their own; a name that starts with an underscore marks a part that is
only included. -/
def isTemplateName (name : Text) : Bool :=
  endsWith name templateEnding && !startsWith name [underscore]

def relativePath (root loc : Location) : Text :=
  match Location.below? root loc with
  | some [] => [dot]
  | some rest => joinWith [slash] rest
  | none => loc.path

def templatesAt (d : Disk) (root : Location) : List Location :=
  (d.sourceTree root).filterMap fun (l, e) =>
    if !e.isDirectory && isTemplateName (l.getLastD []) then some l else none

def discover (d : Disk) (cwd : Location) (root : Text) :
    Except DiscoveryError (List TemplateFile) × List LogRecord :=
  let path := Path.absolute cwd.path root
  match d.lstat cwd path, d.resolve cwd path with
  | .error e, _ => (.error ⟨root, e⟩, [])
  | _, .error f => (.error ⟨root, ⟨utf8 "lstat", [path], f⟩⟩, [])
  | .ok _, .ok loc =>
    let found := templatesAt d loc
    if found.isEmpty then
      (.ok [], [⟨.warn, utf8 "no templates found",
        [(utf8 "root", .text root), (utf8 "suffix", .text templateEnding)]⟩])
    else
      let (names, logs) : List (Location × Text) × List LogRecord :=
        match Package.namesUnder d loc root with
        | .ok names => (names, [])
        | .error e => ([], [⟨.warn, utf8 "could not load Go packages",
            [(utf8 "root", .text root), (utf8 "error", .text e.message)]⟩])
      (.ok (found.map fun l =>
        ⟨relativePath loc l, l.dropLast, (names.lookup l.dropLast).getD []⟩), logs)

end Project

end Stencil
