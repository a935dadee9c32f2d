import Stencil.Cache.Basic
import Stencil.Command.Options
import Stencil.Disk.Directory
import Stencil.Output
import Stencil.Project.Discover

namespace Stencil

open Ascii Text

inductive TemplateFailure where
  | compile (e : CompileError)
  | output (e : OutputError)
  | cache (e : CacheError)
  | corrupt (name : Text)

def TemplateFailure.message : TemplateFailure → Text
  | .compile e => e.message
  | .output e => e.message
  | .cache e => e.message
  | .corrupt name => utf8 "corrupt cache entry for " ++ name

inductive BuildError where
  | system (e : SystemError)
  | discovery (e : DiscoveryError)
  | cache (e : CacheError)
  | templates (failures : List TemplateFailure)

def BuildError.message : BuildError → Text
  | .system e => e.message
  | .discovery e => e.message
  | .cache e => e.message
  | .templates failures => joinWith [newline] (failures.map TemplateFailure.message)

structure Session where
  cwd : Location
  now : Int
  tokens : Nat → Text
  stamp : Text := []
  terminal : Bool := false

structure Bench where
  disk : Disk
  cache : Option Cache := none
  log : List LogRecord := []

abbrev Build := ExceptT BuildError (StateM Bench)

def SourceFile.pack (impl iface : SourceFile) : Text :=
  Fields.encode [mapRunes id impl.name, impl.content, mapRunes id iface.name, iface.content]

def SourceFile.unpack? (s : Text) : Option (SourceFile × SourceFile) := do
  let [implName, impl, ifaceName, iface] ← Fields.decode? s | none
  return (⟨implName, impl⟩, ⟨ifaceName, iface⟩)

namespace Build

def tell (records : List LogRecord) : StateM Bench PUnit :=
  modify fun b => { b with log := b.log ++ records }

structure Job where
  root : Text
  name : Text
  output : Text
  options : CompileOptions

def Job.rooted (s : Session) (j : Job) : Text :=
  Path.absolute s.cwd.path j.root

def Job.key (s : Session) (j : Job) : Text :=
  joinWith [nul] [utf8 "compile", j.rooted s, j.name, j.options.module, j.options.package]

def Job.files (s : Session) (j : Job) (d : Disk) : FileSystem :=
  match d.resolve s.cwd j.root with
  | .ok loc => d.fileSystem loc
  | .error _ => .ofFiles []

def compileNow (s : Session) (j : Job) : StateM Bench (Except CompileError Compiled) := do
  let (result, log) := Compile.template (j.files s (← get).disk) j.name j.options
  tell log
  return result

def write (s : Session) (j : Job) (impl iface : SourceFile) :
    StateM Bench (Except TemplateFailure PUnit) := do
  let b ← get
  let out : Output := { cwd := s.cwd, dir := j.output, tokens := s.tokens }
  let (result, disk) := out.write [impl, iface] b.disk
  set { b with disk := disk }
  match result with
  | .error e => return .error (.output e)
  | .ok _ =>
    tell [⟨.info, utf8 "compiled template", [(utf8 "template", .text j.name),
      (utf8 "implementation", .text (Path.join [j.output, impl.name])),
      (utf8 "interface", .text (Path.join [j.output, iface.name]))]⟩]
    return .ok ()

/-- The files that the result of a job depends on; trailers that are missing are among them, since
one that is made later changes the result. -/
def Job.dependencies (s : Session) (j : Job) (r : Compiled) : List Text :=
  (r.files ++ r.absent).map fun f => Path.join [j.rooted s, f]

def reportDropped (i : Invalidation) : StateM Bench PUnit :=
  tell [⟨.debug, utf8 "cache entry invalidated",
    [(utf8 "key", .text i.key), (utf8 "reason", .text i.reason.describe)]⟩]

def cached (s : Session) (j : Job) (c : Cache) :
    StateM Bench (Except TemplateFailure (SourceFile × SourceFile)) := do
  let w : Surroundings := ⟨s.now, (← get).disk.contentOf s.cwd, s.cwd.path⟩
  let memo ← c.memoize w (j.key s) reportDropped do
    match ← compileNow s j with
    | .error e => return Except.error e
    | .ok r => return .ok (some (SourceFile.pack r.implementation r.interface), j.dependencies s r)
  modify fun b => { b with cache := some memo.cache }
  match memo.value with
  | .error (.cache e) => return .error (.cache e)
  | .error (.compute e) => return .error (.compile e)
  | .ok value =>
    if !memo.computed then
      tell [⟨.debug, utf8 "template unchanged", [(utf8 "template", .text j.name)]⟩]
    match SourceFile.unpack? (value.getD []) with
    | some units => return .ok units
    | none => return .error (.corrupt j.name)

def perform (s : Session) (j : Job) : StateM Bench (Except TemplateFailure PUnit) := do
  match (← get).cache with
  | none =>
    match ← compileNow s j with
    | .error e => return .error (.compile e)
    | .ok r => write s j r.implementation r.interface
  | some c =>
    match ← cached s j c with
    | .error e => return .error e
    | .ok (impl, iface) => write s j impl iface

def packageFor (s : Session) (dir name : Text) : StateM Bench Text := do
  let fallback := Name.packageOf (Path.absolute s.cwd.path dir) (Name.moduleOf name)
  match Package.detect (← get).disk s.cwd dir with
  | .ok found => return if found.isEmpty then fallback else found
  | .error e => do
    tell [⟨.warn, utf8 "could not detect package",
      [(utf8 "dir", .text dir), (utf8 "error", .text e.message)]⟩]
    return fallback

def file (s : Session) (c : Config) : Build PUnit := do
  let (dir, name) := Path.split c.input
  let dir := if dir.isEmpty then [dot] else dir
  let output := if c.output.isEmpty then dir else c.output
  let package ← if c.package.isEmpty then packageFor s output name else pure c.package
  match ← perform s ⟨dir, name, output, ⟨c.name, package⟩⟩ with
  | .ok _ => return
  | .error e => throw (.templates [e])

def jobOf (c : Config) (root : Location) (t : TemplateFile) : Job :=
  { root := root.path
    name := t.path
    output := if c.output.isEmpty then t.directory.path
      else Path.join [c.output, Project.relativePath root t.directory]
    options := ⟨[], if c.package.isEmpty then t.package else c.package⟩ }

def runAll (s : Session) (jobs : List Job) : StateM Bench (List TemplateFailure) := do
  let results ← jobs.mapM (perform s)
  return results.filterMap fun
    | .ok _ => none
    | .error e => some e

def directory (s : Session) (c : Config) : Build PUnit := do
  let d := (← get).disk
  let (found, log) := Project.discover d s.cwd c.input
  tell log
  match found with
  | .error e => throw (.discovery e)
  | .ok templates =>
    let root := (d.resolve s.cwd (Path.absolute s.cwd.path c.input)).toOption.getD []
    match ← runAll s (templates.map (jobOf c root)) with
    | [] => tell [⟨.info, utf8 "compilation completed", [(utf8 "templates", .int templates.length)]⟩]
    | failures => throw (.templates failures)

def inputAs (s : Session) (c : Config) : Entry → Build PUnit
  | .directory => directory s c
  | .file _ => file s c

def input (s : Session) (c : Config) : Build PUnit := do
  match (← get).disk.stat s.cwd c.input with
  | .error e => throw (.system e)
  | .ok entry => inputAs s c entry

def attempt {α : Type} (action : Build α) : StateM Bench (Except BuildError α) :=
  ExceptT.run action

end Build

end Stencil
