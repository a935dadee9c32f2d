import Stencil.Disk.Basic
import Stencil.Unit.Compile

/-!
Writing generated files. Each file is first written under a temporary name; when all of them are
there, they are renamed into place one after the other.
-/

namespace Stencil

open Ascii Text

inductive WriteStep where
  | makeDirectory
  | create (file : Nat)
  | fill (file : Nat)
  | permit (file : Nat)
  | close (file : Nat)
  | rename (file : Nat)
  deriving DecidableEq, Repr

inductive OutputError where
  | directory (dir : Text) (e : SystemError)
  | file (name : Text) (e : SystemError)
  deriving DecidableEq, Repr

namespace OutputError

def cause : OutputError → SystemError
  | .directory _ e => e
  | .file _ e => e

def message : OutputError → Text
  | .directory dir e => utf8 "failed to create output directory " ++ dir ++ utf8 ": " ++ e.message
  | .file name e => utf8 "failed to write " ++ name ++ utf8 ": " ++ e.message

end OutputError

structure Output where
  cwd : Location
  dir : Text
  tokens : Nat → Text
  faults : WriteStep → Option Fault := fun _ => none

namespace Output

structure Progress where
  disk : Disk
  temporaries : List Text := []

abbrev Writer := ExceptT OutputError (StateM Progress)

/-- Runs a call on the disk, unless the device refuses the step. The call says what it gives and
what it leaves, also where it fails. -/
def call {α : Type} (o : Output) (step : WriteStep) (refusal : Fault → OutputError)
    (action : Disk → Except OutputError α × Disk) : Writer α := do
  match o.faults step with
  | some f => throw (refusal f)
  | none =>
    let p ← get
    set { p with disk := (action p.disk).2 }
    (action p.disk).1

def change (o : Output) (step : WriteStep) (refusal : Fault → OutputError)
    (wrap : SystemError → OutputError) (action : Disk → Except SystemError Disk) : Writer PUnit :=
  o.call step refusal fun d =>
    match action d with
    | .ok d => (.ok (), d)
    | .error e => (.error (wrap e), d)

def createFrom (o : Output) (stem : Text) (d : Disk) : (tries n : Nat) →
    Except SystemError (Text × Disk)
  | 0, _ => .error ⟨utf8 "createtemp", [stem ++ [asterisk]], .alreadyThere⟩
  | tries + 1, n =>
    match d.createFile o.cwd (stem ++ o.tokens n) with
    | .ok d => .ok (stem ++ o.tokens n, d)
    | .error e => if e.fault = .alreadyThere then createFrom o stem d tries (n + 1) else .error e

def createTemporary (o : Output) (name : Text) (d : Disk) : Except SystemError (Text × Disk) :=
  let stem := [dot] ++ name ++ [dot]
  if name.contains slash then .error ⟨utf8 "createtemp", [stem ++ [asterisk]], .patternHasSeparator⟩
  else
    let dir := if endsWith o.dir [slash] then o.dir else o.dir ++ [slash]
    createFrom o (dir ++ stem) d 10000 0

def prepare (o : Output) (i : Nat) (u : SourceFile) : Writer PUnit := do
  let refusal (name : String) (path : Text) (f : Fault) : OutputError :=
    .file u.name ⟨utf8 name, [path], f⟩
  let temporary ← o.call (.create i) (refusal "open" o.dir) fun d =>
    match o.createTemporary u.name d with
    | .ok (temporary, d) => (.ok temporary, d)
    | .error e => (.error (.file u.name e), d)
  -- from here on a failure takes the file away again
  modify fun p => { p with temporaries := p.temporaries ++ [temporary] }
  o.change (.fill i) (refusal "write" temporary) (.file u.name) fun d =>
    d.writeFile o.cwd temporary u.content
  o.change (.permit i) (refusal "chmod" temporary) (.file u.name) .ok
  o.change (.close i) (refusal "close" temporary) (.file u.name) .ok

def place (o : Output) (i : Nat) (u : SourceFile) (temporary : Text) : Writer PUnit :=
  let target := Path.join [o.dir, u.name]
  o.change (.rename i) (fun f => .file u.name ⟨utf8 "rename", [temporary, target], f⟩)
    (.file u.name) fun d => d.rename o.cwd temporary target

def steps (o : Output) (units : List SourceFile) : Writer PUnit := do
  o.call .makeDirectory (fun f => .directory o.dir ⟨utf8 "mkdir", [o.dir], f⟩) fun d =>
    let (made, d) := d.makeDirectories o.cwd o.dir
    (made.mapError (.directory o.dir), d)
  units.zipIdx.forM fun (u, i) => o.prepare i u
  (units.zip (← get).temporaries).zipIdx.forM fun ((u, temporary), i) => o.place i u temporary

def discard (o : Output) (p : Progress) : Disk :=
  p.temporaries.foldl (fun d t => (d.remove o.cwd t).toOption.getD d) p.disk

def write (o : Output) (units : List SourceFile) (d : Disk) : Except OutputError PUnit × Disk :=
  match (o.steps units).run.run ⟨d, []⟩ with
  | (.ok _, p) => (.ok (), p.disk)
  | (.error e, p) => (.error e, o.discard p)

end Output

end Stencil
