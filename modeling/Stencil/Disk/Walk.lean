import Stencil.Disk.Basic

namespace Stencil

open Ascii Text

def isSkippedDirectory (name : Text) : Bool :=
  name = utf8 "vendor" || name = utf8 "node_modules" || startsWith name [dot]

namespace Disk

/-- A location and all below it, each directory before what it holds. Directories whose names are
to be skipped are left out, except the first. The fuel bounds the depth. -/
def treeWithin (d : Disk) (skip : Location → Bool) : (fuel : Nat) → Location → Entry →
    List (Location × Entry)
  | _, loc, .file content => [(loc, .file content)]
  | 0, loc, .directory => [(loc, .directory)]
  | fuel + 1, loc, .directory =>
    (loc, .directory) :: (d.list loc).flatMap fun (name, e) =>
      if e.isDirectory && skip (loc ++ [name]) then []
      else treeWithin d skip fuel (loc ++ [name]) e

def tree (d : Disk) (skip : Location → Bool) (loc : Location) : List (Location × Entry) :=
  match d.find? loc with
  | some e => treeWithin d skip d.entries.length loc e
  | none => []

def sourceTree (d : Disk) (loc : Location) : List (Location × Entry) :=
  d.tree (fun l => isSkippedDirectory (l.getLastD [])) loc

end Disk

end Stencil
