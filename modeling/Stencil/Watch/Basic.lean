import Stencil.Disk.Walk
import Stencil.Watch.Relevance

/-!
Watching a tree for changes. Changes to the entries of watched directories queue events; the loop
takes the events one by one, and when none has come for a while it rebuilds with the names of the
relevant files that changed.
-/

namespace Stencil

open Ascii Text

inductive Change where
  | write (path content : Text)
  | remove (path : Text)
  | rename (source target : Text)
  | chmod (path : Text)
  | makeDirectory (path : Text)

namespace Watch

inductive EventKind where
  | create
  | write
  | remove
  | rename
  | chmod
  deriving DecidableEq, Repr

structure Event where
  kind : EventKind
  location : Location
  deriving DecidableEq, Repr

/-- What a change makes of the disk, and the events of the entries it touches. A change that fails
touches none. -/
def effect (d : Disk) (cwd : Location) : Change → Disk × List Event
  | .write path content =>
    match d.resolve cwd path, d.writeFile cwd path content with
    | .ok loc, .ok d' =>
      let made := if (d.find? loc).isSome then [] else [⟨.create, loc⟩]
      (d', made ++ [⟨.write, loc⟩])
    | _, _ => (d, [])
  | .remove path =>
    match d.resolve cwd path with
    | .ok loc => (d.eraseTree loc,
        (d.tree (fun _ => false) loc).reverse.map fun (l, _) => ⟨.remove, l⟩)
    | .error _ => (d, [])
  | .rename source target =>
    match d.resolve cwd source, d.resolve cwd target, d.rename cwd source target with
    | .ok old, .ok new, .ok d' => (d', if old = new then [] else [⟨.rename, old⟩, ⟨.create, new⟩])
    | _, _, _ => (d, [])
  | .chmod path =>
    match d.resolve cwd path with
    | .ok loc => (d, if (d.find? loc).isSome then [⟨.chmod, loc⟩] else [])
    | .error _ => (d, [])
  | .makeDirectory path =>
    let bare := dropEndWhile (· = slash) path
    match d.resolve cwd (if bare.isEmpty then path else bare), d.makeDirectory cwd path with
    | .ok loc, .ok d' => (d', [⟨.create, loc⟩])
    | _, _ => (d, [])

end Watch

structure Watch where
  disk : Disk
  cwd : Location
  directories : List Location
  queue : List Watch.Event := []
  pending : List Location := []
  armed : Bool := false

namespace Watch

def directoriesOf (tree : List (Location × Entry)) : List Location :=
  (tree.filter (·.2.isDirectory)).map Prod.fst

def start (d : Disk) (cwd : Location) (root : Text) : Except SystemError Watch := do
  let path := Path.absolute cwd.path root
  let _ ← d.lstat cwd path
  let loc ← (d.resolve cwd path).mapError (⟨utf8 "lstat", [path], ·⟩)
  return { disk := d, cwd := cwd, directories := directoriesOf (d.sourceTree loc) }

def sees (w : Watch) (e : Event) : Bool :=
  w.directories.contains e.location.dropLast || w.directories.contains e.location

def change (w : Watch) (c : Change) : Watch :=
  let (d, events) := effect w.disk w.cwd c
  { w with
    disk := d
    queue := w.queue ++ events.filter w.sees
    directories := w.directories.filter fun l => d.find? l = some .directory }

/-- Takes an event. A new directory is watched with all below it; it is no change by itself. -/
def handle (w : Watch) (e : Event) : Watch :=
  let name := e.location.getLastD []
  if e.kind = .create && w.disk.find? e.location = some .directory && !isSkippedDirectory name then
    let new := directoriesOf (w.disk.sourceTree e.location)
    { w with directories := w.directories ++ new.filter (!w.directories.contains ·) }
  else if isRelevant name && e.kind ≠ .chmod then
    { w with
      pending := if w.pending.contains e.location then w.pending else w.pending ++ [e.location]
      armed := true }
  else w

def take (w : Watch) : Watch :=
  match w.queue with
  | [] => w
  | e :: rest => handle { w with queue := rest } e

def changed (w : Watch) : List Text :=
  Text.sort (w.pending.map Location.path)

def fire (w : Watch) : Option (List Text) × Watch :=
  if w.armed then (some w.changed, { w with pending := [], armed := false }) else (none, w)

def drain (w : Watch) : Watch :=
  w.queue.foldl handle { w with queue := [] }

def burst (w : Watch) (changes : List Change) : Option (List Text) × Watch :=
  (changes.foldl (fun w c => (w.change c).drain) w).fire

end Watch

end Stencil
