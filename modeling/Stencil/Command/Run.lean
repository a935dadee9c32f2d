import Stencil.Command.Build
import Stencil.Console
import Stencil.Watch.Basic

namespace Stencil

open Ascii Text

namespace Command

def withCache {α : Type} (s : Session) (c : Config) (d : Disk) (action : Build α) :
    Except BuildError α × Bench :=
  if c.cache.isEmpty then action.attempt.run { disk := d }
  else
    let path := Path.absolute s.cwd.path c.cache
    match Cache.openAt d s.cwd path c.ttl with
    | (.error e, d) => (.error (.cache e), { disk := d })
    | (.ok cache, d) =>
      -- what was kept is saved even if the build fails
      let (result, b) := action.attempt.run { disk := d, cache := some cache }
      (result, { b with disk := ((b.cache.getD cache).save b.disk s.cwd path) })

def run (s : Session) (c : Config) (d : Disk) : Except BuildError PUnit × Bench :=
  withCache s c d (Build.input s c)

def watchRoot (s : Session) (c : Config) (d : Disk) : Text :=
  match d.stat s.cwd c.input with
  | .ok .directory => c.input
  | _ => Path.dir c.input

def rebuild (build : Build PUnit) (w : Watch) (change : Change) : Build Watch := do
  let b ← get
  let (due, w) := ({ w with disk := b.disk } : Watch).burst [change]
  set { b with disk := w.disk }
  if due.isSome then
    let _ ← ExceptT.lift build.attempt
  return w

/-- A build, and one after each change that needs it. What the input is, is looked at once, at the
start. A failed build is followed by others; an input that is not there, or cannot be watched, ends
the run. -/
def watch (s : Session) (c : Config) (changes : List Change) : Build PUnit := do
  let d := (← get).disk
  match d.stat s.cwd c.input with
  | .error e => throw (.system e)
  | .ok entry =>
    let build := Build.inputAs s c entry
    let _ ← ExceptT.lift build.attempt
    match Watch.start (← get).disk s.cwd (watchRoot s c d) with
    | .error e => throw (.system e)
    | .ok w =>
      let _ ← changes.foldlM (rebuild build) w

def runWatching (s : Session) (c : Config) (d : Disk) (changes : List Change) :
    Except BuildError PUnit × Bench :=
  withCache s c d (watch s c changes)

structure Exit where
  code : Nat
  report : Text
  disk : Disk

def execute (s : Session) (args : List Text) (d : Disk) : Exit :=
  match Options.parse args with
  | .error .help => ⟨0, Options.usage, d⟩
  | .error e => ⟨2, e.message ++ newline :: Options.usage, d⟩
  | .ok o =>
    let format := { o.format with time := s.stamp }
    match run s o.config d with
    | (.ok _, b) => ⟨0, format.write b.log, b.disk⟩
    | (.error e, b) => ⟨1, format.write b.log ++ Console.report s.terminal e.message, b.disk⟩

end Command

end Stencil
