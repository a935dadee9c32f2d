import Stencil.Cache.Clock
import Stencil.Cache.Store
import Stencil.Digest
import Stencil.Disk.Basic

/-!
A cache for the results of build steps. A value stays fresh as long as the files it was computed
from have the same content, those that were missing stay missing, and it is not too old.
-/

namespace Stencil

open Ascii Text

inductive StaleReason where
  | expired
  | appeared (path : Text)
  | removed (path : Text)
  | unreadable (path : Text)
  | changed (path : Text)
  deriving DecidableEq, Repr

def StaleReason.describe : StaleReason → Text
  | .expired => utf8 "expired"
  | .appeared path => utf8 "appeared " ++ path
  | .removed path => utf8 "removed " ++ path
  | .unreadable path => utf8 "unreadable " ++ path
  | .changed path => utf8 "changed " ++ path

inductive CacheAction where
  | get
  | put
  deriving DecidableEq, Repr

inductive CacheError where
  | directory (e : SystemError)
  | cannotOpen (path : Text)
  | notStore (path : Text)
  | closed (action : CacheAction) (key : Text)
  | unreadable (key : Text) (e : SystemError)
  | noValue (key : Text)
  deriving DecidableEq, Repr

def CacheError.message : CacheError → Text
  | .directory e => e.message
  | .cannotOpen path => utf8 "buildcache: create schema in " ++ path ++
      utf8 ": unable to open database file: out of memory (14)"
  | .notStore path => utf8 "buildcache: create schema in " ++ path ++
      utf8 ": file is not a database (26)"
  | .closed action key =>
    utf8 "buildcache: " ++ (match action with
      | .get => utf8 "get "
      | .put => utf8 "put ") ++ key ++ utf8 ": sql: database is closed"
  | .unreadable key e => utf8 "buildcache: put " ++ key ++ utf8 ": " ++ e.message
  | .noValue key => utf8 "buildcache: put " ++ key ++
      utf8 ": constraint failed: NOT NULL constraint failed: entry.value (1299)"

abbrev Reader := Text → Except SystemError Text

structure Surroundings where
  now : Int
  read : Reader
  cwd : Text

namespace Store

def digestOf (read : Reader) (path : Text) : Except SystemError (Option Text) :=
  match read path with
  | .ok content => .ok (some (Digest.ofText content))
  | .error e => if e.isMissing then .ok none else .error e

def Dependency.change? (read : Reader) (d : Dependency) : Option StaleReason :=
  match d.digest, digestOf read d.path with
  | none, .ok none => none
  | none, _ => some (.appeared d.path)
  | some _, .ok none => some (.removed d.path)
  | some _, .error _ => some (.unreadable d.path)
  | some old, .ok (some new) => if old = new then none else some (.changed d.path)

/-- Why an entry is stale, if it is. The age is looked at first, then the files by their paths. -/
def stale? (s : Store) (ttl : Int) (w : Surroundings) (e : CacheEntry) : Option StaleReason :=
  if 0 < ttl && ttl < Clock.since w.now e.created then some .expired
  else (s.dependenciesOf e.key).findSome? (Dependency.change? w.read)

inductive Found where
  | fresh (value : Text)
  | stale (reason : StaleReason)
  | absent
  deriving DecidableEq, Repr

def get (s : Store) (ttl : Int) (w : Surroundings) (key : Text) : Found × Store :=
  match s.find? key with
  | none => (.absent, s)
  | some e =>
    match s.stale? ttl w e with
    | some reason => (.stale reason, s.erase key)
    | none => (.fresh e.value, s)

def digests (read : Reader) (paths : List Text) : Except SystemError (List (Text × Option Text)) :=
  paths.eraseDups.mapM fun path => do return (path, ← digestOf read path)

end Store

structure Cache where
  store : Store := {}
  ttl : Int := 0
  isOpen : Bool := true

structure Invalidation where
  key : Text
  reason : StaleReason
  deriving DecidableEq, Repr

namespace Cache

def get (c : Cache) (w : Surroundings) (key : Text) :
    Except CacheError (Option Text) × List Invalidation × Cache :=
  if !c.isOpen then (.error (.closed .get key), [], c)
  else
    match c.store.get c.ttl w key with
    | (.fresh v, _) => (.ok (some v), [], c)
    | (.stale reason, s) => (.ok none, [⟨key, reason⟩], { c with store := s })
    | (.absent, _) => (.ok none, [], c)

/-- Keeps a value, and the digests that its files have now. The files are read before anything
else can fail, and one that cannot be read leaves the store as it was. -/
def put (c : Cache) (w : Surroundings) (key : Text) (value : Option Text) (paths : List Text) :
    Except CacheError Cache := do
  let files ← (Store.digests w.read (paths.map (Path.absolute w.cwd))).mapError (.unreadable key)
  if !c.isOpen then throw (.closed .put key)
  else match value with
    | none => throw (.noValue key)
    | some v => return { c with store := c.store.insert ⟨key, v, Clock.stamp w.now⟩ files }

abbrev Computed (ε : Type) := Except ε (Option Text × List Text)

inductive MemoError (ε : Type) where
  | cache (e : CacheError)
  | compute (e : ε)

structure Memo (ε : Type) where
  value : Except (MemoError ε) (Option Text)
  computed : Bool
  cache : Cache

def memoize {m : Type → Type} [Monad m] {ε : Type} (c : Cache) (w : Surroundings) (key : Text)
    (report : Invalidation → m PUnit) (compute : m (Computed ε)) : m (Memo ε) := do
  match c.get w key with
  | (.error e, _, c) => return ⟨.error (.cache e), false, c⟩
  | (.ok (some v), _, c) => return ⟨.ok (some v), false, c⟩
  | (.ok none, dropped, c) => do
    dropped.forM report
    match ← compute with
    | .error e => return ⟨.error (.compute e), true, c⟩
    | .ok (value, paths) =>
      match c.put w key value paths with
      | .error e => return ⟨.error (.cache e), true, c⟩
      | .ok c => return ⟨.ok value, true, c⟩

def openAt (d : Disk) (cwd : Location) (path : Text) (ttl : Int) : Except CacheError Cache × Disk :=
  match d.makeDirectories cwd (Path.dir path) with
  | (.error e, d) => (.error (.directory e), d)
  | (.ok _, d) =>
    match d.contentOf cwd path with
    | .ok content =>
      match Store.ofText? content with
      | some s => (.ok { store := s, ttl := ttl }, d)
      | none => (.error (.notStore path), d)
    | .error e =>
      if e.isMissing then
        match d.writeFile cwd path (Store.toText {}) with
        | .ok d => (.ok { ttl := ttl }, d)
        | .error _ => (.error (.cannotOpen path), d)
      else (.error (.cannotOpen path), d)

def save (c : Cache) (d : Disk) (cwd : Location) (path : Text) : Disk :=
  (d.writeFile cwd path c.store.toText).toOption.getD d

end Cache

end Stencil
