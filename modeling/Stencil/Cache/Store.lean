import Stencil.Cache.Fields

namespace Stencil

open Ascii Text

structure CacheEntry where
  key : Text
  value : Text
  created : Int
  deriving DecidableEq, Repr

/-- A file that the value under a key depends on; without a digest the file was not there. -/
structure Dependency where
  key : Text
  path : Text
  digest : Option Text
  deriving DecidableEq, Repr

structure Store where
  entries : List CacheEntry := []
  dependencies : List Dependency := []
  deriving DecidableEq, Repr

namespace Store

def find? (s : Store) (key : Text) : Option CacheEntry :=
  s.entries.find? (·.key = key)

def dependenciesOf (s : Store) (key : Text) : List Dependency :=
  Text.sortOn Dependency.path (s.dependencies.filter (·.key = key))

def erase (s : Store) (key : Text) : Store :=
  ⟨s.entries.filter (·.key ≠ key), s.dependencies.filter (·.key ≠ key)⟩

def insert (s : Store) (e : CacheEntry) (files : List (Text × Option Text)) : Store :=
  let rest := s.erase e.key
  ⟨rest.entries ++ [e], rest.dependencies ++ files.map fun (path, digest) => ⟨e.key, path, digest⟩⟩

def mark : Text := utf8 "build cache"

def entryFields (e : CacheEntry) : List Text :=
  [e.key, e.value, ofInt e.created]

def dependencyFields (d : Dependency) : List Text :=
  [d.key, d.path, Fields.encode d.digest.toList]

def toText (s : Store) : Text :=
  Fields.encode [mark, Fields.encode (s.entries.map fun e => Fields.encode (entryFields e)),
    Fields.encode (s.dependencies.map fun d => Fields.encode (dependencyFields d))]

def entryOfText? (s : Text) : Option CacheEntry := do
  let [key, value, created] ← Fields.decode? s | none
  return ⟨key, value, ← toInt? created⟩

def dependencyOfText? (s : Text) : Option Dependency := do
  let [key, path, digest] ← Fields.decode? s | none
  return ⟨key, path, (← Fields.decode? digest).head?⟩

def ofText? (s : Text) : Option Store :=
  if s.isEmpty then some {} else do
    let [m, entries, dependencies] ← Fields.decode? s | none
    if m ≠ mark then none
    else return ⟨← (← Fields.decode? entries).mapM entryOfText?,
      ← (← Fields.decode? dependencies).mapM dependencyOfText?⟩

end Store

end Stencil
