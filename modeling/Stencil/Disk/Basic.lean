import Stencil.Path

namespace Stencil

open Ascii Text

abbrev Location := List Text

def Location.below? : (base loc : Location) → Option Location
  | [], loc => some loc
  | b :: base, n :: loc => if b = n then below? base loc else none
  | _ :: _, [] => none

def Location.path (loc : Location) : Text :=
  slash :: joinWith [slash] loc

inductive Entry where
  | file (content : Text)
  | directory
  deriving DecidableEq, Repr

namespace Entry

def isDirectory : Entry → Bool
  | .file _ => false
  | .directory => true

end Entry

inductive Fault where
  | missing
  | notDirectory
  | isDirectory
  | alreadyThere
  | notEmpty
  | invalid
  | nameTooLong
  | patternHasSeparator
  | refused (reason : Text)
  deriving DecidableEq, Repr

def Fault.describe : Fault → Text
  | .missing => utf8 "no such file or directory"
  | .notDirectory => utf8 "not a directory"
  | .isDirectory => utf8 "is a directory"
  | .alreadyThere => utf8 "file exists"
  | .notEmpty => utf8 "directory not empty"
  | .invalid => utf8 "invalid argument"
  | .nameTooLong => utf8 "file name too long"
  | .patternHasSeparator => utf8 "pattern contains path separator"
  | .refused reason => reason

structure SystemError where
  call : Text
  paths : List Text
  fault : Fault
  deriving DecidableEq, Repr

namespace SystemError

def message (e : SystemError) : Text :=
  joinWith [space] (e.call :: e.paths) ++ utf8 ": " ++ e.fault.describe

def isMissing (e : SystemError) : Bool :=
  e.fault = .missing

end SystemError

structure Disk where
  entries : List (Location × Entry) := []
  deriving DecidableEq, Repr

namespace Disk

def find? (d : Disk) (loc : Location) : Option Entry :=
  if loc.isEmpty then some .directory else d.entries.lookup loc

def put (d : Disk) (loc : Location) (e : Entry) : Disk :=
  ⟨(loc, e) :: d.entries.filter (·.1 ≠ loc)⟩

def erase (d : Disk) (loc : Location) : Disk :=
  ⟨d.entries.filter (·.1 ≠ loc)⟩

def eraseTree (d : Disk) (loc : Location) : Disk :=
  ⟨d.entries.filter fun (l, _) => (Location.below? loc l).isNone⟩

def move (d : Disk) (source target : Location) : Disk :=
  ⟨(d.eraseTree target).entries.map fun (l, e) =>
    match Location.below? source l with
    | some rest => (target ++ rest, e)
    | none => (l, e)⟩

def list (d : Disk) (loc : Location) : List (Text × Entry) :=
  let members := d.entries.filterMap fun (l, e) =>
    match Location.below? loc l with
    | some [name] => some (name, e)
    | _ => none
  Text.sortOn Prod.fst members

/-- The location a path leads to from a directory. All but its last name must be there, and a name
can be followed only in a directory. -/
def walk (d : Disk) : Location → List Text → Except Fault Location
  | here, [] => .ok here
  | here, part :: rest =>
    match d.find? here with
    | none => .error .missing
    | some (.file _) => .error .notDirectory
    | some .directory =>
      if part.isEmpty || part = [dot] then walk d here rest
      else if part = [dot, dot] then walk d here.dropLast rest
      else if 255 < part.length then .error .nameTooLong
      else walk d (here ++ [part]) rest

def resolve (d : Disk) (cwd : Location) (p : Text) : Except Fault Location :=
  if p.contains nul then .error .invalid
  else if p.isEmpty then .error .missing
  else d.walk (if Path.isRooted p then [] else cwd) (splitOn slash p)

def entryAt (d : Disk) (cwd : Location) (p : Text) : Except Fault Entry := do
  match d.find? (← d.resolve cwd p) with
  | some e => return e
  | none => throw .missing

def stat (d : Disk) (cwd : Location) (p : Text) : Except SystemError Entry :=
  (d.entryAt cwd p).mapError (⟨utf8 "stat", [p], ·⟩)

def lstat (d : Disk) (cwd : Location) (p : Text) : Except SystemError Entry :=
  (d.entryAt cwd p).mapError (⟨utf8 "lstat", [p], ·⟩)

def contentOf (d : Disk) (cwd : Location) (p : Text) : Except SystemError Text :=
  match d.entryAt cwd p with
  | .ok (.file content) => .ok content
  | .ok .directory => .error ⟨utf8 "read", [p], .isDirectory⟩
  | .error f => .error ⟨utf8 "open", [p], f⟩

def writeFile (d : Disk) (cwd : Location) (p content : Text) : Except SystemError Disk :=
  match d.resolve cwd p with
  | .error f => .error ⟨utf8 "open", [p], f⟩
  | .ok loc =>
    if d.find? loc = some .directory then .error ⟨utf8 "open", [p], .isDirectory⟩
    else .ok (d.put loc (.file content))

def createFile (d : Disk) (cwd : Location) (p : Text) : Except SystemError Disk :=
  match d.resolve cwd p with
  | .error f => .error ⟨utf8 "open", [p], f⟩
  | .ok loc =>
    if (d.find? loc).isSome then .error ⟨utf8 "open", [p], .alreadyThere⟩
    else .ok (d.put loc (.file []))

def makeDirectory (d : Disk) (cwd : Location) (p : Text) : Except SystemError Disk :=
  let bare := dropEndWhile (· = slash) p
  match d.resolve cwd (if bare.isEmpty then p else bare) with
  | .error f => .error ⟨utf8 "mkdir", [p], f⟩
  | .ok loc =>
    if (d.find? loc).isSome then .error ⟨utf8 "mkdir", [p], .alreadyThere⟩
    else .ok (d.put loc .directory)

def parentPath? (p : Text) : Option Text :=
  let above := (Path.split (dropEndWhile (· = slash) p)).1
  if above.length ≤ 1 then none else some above.dropLast

theorem length_lt_of_parentPath? {p q : Text} (h : parentPath? p = some q) :
    q.length < p.length := by
  unfold parentPath? at h
  dsimp only at h
  split at h
  · simp at h
  · next hl =>
    simp only [Option.some.injEq] at h
    subst h
    have h₁ : (Path.split (dropEndWhile (· = slash) p)).1.length ≤
        (dropEndWhile (· = slash) p).length := by
      simp only [Path.split, List.length_take]
      omega
    have h₂ : (dropEndWhile (· = slash) p).length ≤ p.length := by
      simp only [dropEndWhile, List.length_reverse]
      exact Nat.le_trans (List.dropWhile_suffix _).length_le (by simp)
    simp only [List.length_dropLast]
    omega

def makeIfMissing (d : Disk) (cwd : Location) (p : Text) : Except SystemError PUnit × Disk :=
  match d.makeDirectory cwd p with
  | .ok d => (.ok (), d)
  | .error e =>
    -- a path that ends in `.` or `..` can name a directory that making those above has made
    if (d.entryAt cwd p).toOption = some .directory then (.ok (), d) else (.error e, d)

/-- Makes a directory together with those above it that are missing. The ones that were made stay
where one below them cannot be made. -/
def makeDirectories (d : Disk) (cwd : Location) (p : Text) : Except SystemError PUnit × Disk :=
  match d.entryAt cwd p with
  | .ok .directory => (.ok (), d)
  | .ok (.file _) => (.error ⟨utf8 "mkdir", [p], .notDirectory⟩, d)
  | .error _ =>
    match h : parentPath? p with
    | none => d.makeIfMissing cwd p
    | some q =>
      have := length_lt_of_parentPath? h
      match makeDirectories d cwd q with
      | (.ok _, above) => above.makeIfMissing cwd p
      | (.error e, above) => (.error e, above)
termination_by p.length

def rename (d : Disk) (cwd : Location) (source target : Text) : Except SystemError Disk := do
  let fail (f : Fault) : SystemError := ⟨utf8 "rename", [source, target], f⟩
  let old ← (d.resolve cwd source).mapError fail
  let some e := d.find? old | throw (fail .missing)
  let new ← (d.resolve cwd target).mapError fail
  match d.find? new with
  | some .directory => throw (fail .alreadyThere)
  | some (.file _) =>
    if e.isDirectory then throw (fail .notDirectory)
    else return if old = new then d else d.move old new
  | none =>
    if (Location.below? old new).isSome then throw (fail .invalid) else return d.move old new

def remove (d : Disk) (cwd : Location) (p : Text) : Except SystemError Disk :=
  match d.resolve cwd p with
  | .error f => .error ⟨utf8 "remove", [p], f⟩
  | .ok loc =>
    match d.find? loc with
    | none => .error ⟨utf8 "remove", [p], .missing⟩
    | some (.file _) => .ok (d.erase loc)
    | some .directory =>
      if (d.list loc).isEmpty then .ok (d.erase loc) else .error ⟨utf8 "remove", [p], .notEmpty⟩

def removeAll (d : Disk) (cwd : Location) (p : Text) : Disk :=
  match d.resolve cwd p with
  | .ok loc => d.eraseTree loc
  | .error _ => d

end Disk

end Stencil
