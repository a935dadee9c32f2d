import Stencil.Path

namespace Stencil

open Ascii Text

structure ReadError where
  message : Text
  /-- The file system says that nothing stands at the path. -/
  missing : Bool
  deriving DecidableEq, Repr

structure FileSystem where
  read : Text → Except ReadError Text
  names : List Text
  mem_names : ∀ {p s}, read p = .ok s → p ∈ names

namespace FileSystem

/-- What a read of a virtual file system finds. A path with a slash at its end stands for an empty
directory, and the directories above a file are there with it. -/
def readVirtual (files : List (Text × Text)) (p : Text) : Except ReadError Text :=
  let absent : ReadError := ⟨utf8 "open " ++ p ++ utf8 ": file does not exist", true⟩
  if !Path.isValid p then .error absent
  else match files.lookup p with
    | some content => .ok content
    | none =>
      if p = [dot] || files.any fun (name, _) => startsWith name (p ++ [slash]) then
        .error ⟨utf8 "read " ++ p ++ utf8 ": invalid argument", false⟩
      else .error absent

theorem mem_of_lookup {files : List (Text × Text)} {p s : Text} (h : files.lookup p = some s) :
    p ∈ files.map Prod.fst := by
  obtain ⟨before, after, rfl, _⟩ := List.lookup_eq_some_iff.1 h
  simp

theorem mem_of_readVirtual {files : List (Text × Text)} {p s : Text}
    (h : readVirtual files p = .ok s) : p ∈ files.map Prod.fst := by
  unfold readVirtual at h
  dsimp only at h
  split at h
  · simp at h
  · split at h
    · next content hl => exact mem_of_lookup hl
    · split at h <;> simp at h

def ofFiles (files : List (Text × Text)) : FileSystem where
  read := readVirtual files
  names := files.map Prod.fst
  mem_names := mem_of_readVirtual

end FileSystem

end Stencil
