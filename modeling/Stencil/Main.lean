import Stencil.Command.Run
import Std.Time.Format

namespace Stencil.Shell

open Ascii

def toString (s : Text) : String :=
  (String.fromUTF8? ⟨s.toArray⟩).getD ""

def locationOf (path : String) : Location :=
  (Text.splitOn slash (utf8 path)).filter (!·.isEmpty)

partial def load (path : String) : IO (List (Location × Entry)) := do
  let here := locationOf path
  let real ← IO.FS.realPath path
  if ← real.isDir then
    let mut found := [(here, Entry.directory)]
    for e in ← real.readDir do
      found := (← load (path ++ "/" ++ e.fileName)) ++ found
    return found
  else if ← real.pathExists then
    return [(here, .file (← IO.FS.readBinFile path).data.toList)]
  else return []

def loadAbove (loc : Location) : IO (List (Location × Entry)) := do
  let mut found := []
  for n in List.range loc.length do
    let dir := loc.take (n + 1)
    found := (dir, Entry.directory) :: found
    let file : Location := dir ++ [utf8 "go.mod"]
    try found := (← load (toString file.path)) ++ found
    catch _ => pure ()
  return found

def snapshot (cwd : Location) (c : Config) : IO Disk := do
  let rooted (p : Text) : Text := Path.absolute cwd.path p
  let places := [rooted c.input, Path.dir (rooted c.input)] ++
    (if c.output.isEmpty then [] else [rooted c.output]) ++
    (if c.cache.isEmpty then [] else [rooted c.cache])
  let mut entries := ← loadAbove cwd
  for p in places do
    entries := (← loadAbove (locationOf (toString p)).dropLast) ++ entries
    try entries := (← load (toString p)) ++ entries
    catch _ => pure ()
  return entries.foldr (fun (l, e) d => d.put l e) {}

def apply (old new : Disk) : IO Unit := do
  for (l, e) in new.entries.reverse do
    if old.find? l ≠ some e then
      let path := toString l.path
      match e with
      | .directory => IO.FS.createDirAll path
      | .file content =>
        let temporary := path ++ ".tmp"
        IO.FS.writeBinFile temporary ⟨content.toArray⟩
        IO.FS.rename temporary path
  for (l, _) in old.entries do
    if (new.find? l).isNone then IO.FS.removeFile (toString l.path)

def session : IO Session := do
  let cwd ← IO.currentDir
  let seed ← IO.rand 0 999999999
  let now ← Std.Time.Timestamp.now
  let stamp := (Std.Time.DateTime.ofTimestampWithZone now .UTC).format "uuuu-MM-dd'T'HH:mm:ss.SSSXXX"
  return {
    cwd := locationOf cwd.toString
    now := now.toNanosecondsSinceUnixEpoch.val
    tokens := fun n => Text.ofNat (seed + n)
    stamp := utf8 stamp
    terminal := ← (← IO.getStderr).isTty }

def once (s : Session) (args : List Text) (d : Disk) : IO UInt32 := do
  let e := Command.execute s args d
  apply d e.disk
  (← IO.getStderr).putStr (toString e.report)
  return e.code.toUInt32

def relevantFiles (s : Session) (c : Config) (d : Disk) : List (Location × Entry) :=
  match d.resolve s.cwd (Command.watchRoot s c d) with
  | .ok loc => (d.sourceTree loc).filter fun (l, _) => Watch.isRelevant l.path
  | .error _ => []

partial def follow (s : Session) (args : List Text) (c : Config) (seen : List (Location × Entry)) :
    IO UInt32 := do
  IO.sleep 150
  let d ← snapshot s.cwd c
  let files := relevantFiles s c d
  if files ≠ seen then let _ ← once (← session) args d
  follow s args c files

def run (args : List String) : IO UInt32 := do
  let args := args.map utf8
  let s ← session
  match Options.parse args with
  | .error _ => once s args {}
  | .ok o =>
    let d ← snapshot s.cwd o.config
    let code ← once s args d
    if o.config.watch then follow s args o.config (relevantFiles s o.config d) else return code

end Stencil.Shell

def main (args : List String) : IO UInt32 :=
  Stencil.Shell.run args
