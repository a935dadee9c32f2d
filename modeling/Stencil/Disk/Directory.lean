import Stencil.Disk.Basic
import Stencil.FileSystem

namespace Stencil

open Ascii Text

namespace Disk

def filesBelow (d : Disk) (base : Location) : List (Text × Text) :=
  d.entries.filterMap fun (l, e) =>
    match e, Location.below? base l with
    | .file content, some rest => some (joinWith [slash] rest, content)
    | _, _ => none

def readFrom (d : Disk) (base : Location) (name : Text) : Except SystemError Text :=
  match d.walk base (splitOn slash name) with
  | .error f => .error ⟨utf8 "open", [name], f⟩
  | .ok loc =>
    match d.find? loc with
    | some (.file content) => .ok content
    | some .directory => .error ⟨utf8 "read", [name], .isDirectory⟩
    | none => .error ⟨utf8 "open", [name], .missing⟩

def readBelow (d : Disk) (base : Location) (name : Text) : Except ReadError Text :=
  if !Path.isValid name || name.contains nul then
    .error ⟨(SystemError.mk (utf8 "readfile") [name] .invalid).message, false⟩
  else (d.readFrom base name).mapError fun e => ⟨e.message, e.isMissing⟩

theorem eq_append_of_walk {d : Disk} {base loc : Location} {parts : List Text}
    (hparts : parts.all Path.isValidPart) (h : d.walk base parts = .ok loc) :
    loc = base ++ parts := by
  induction parts generalizing base with
  | nil => simpa [walk] using h.symm
  | cons part rest ih =>
    simp only [List.all_cons, Bool.and_eq_true, Path.isValidPart, Bool.not_eq_true',
      decide_eq_true_eq] at hparts
    obtain ⟨⟨⟨hne, hdot⟩, hdots⟩, hrest⟩ := hparts
    unfold walk at h
    split at h
    · cases h
    · cases h
    · simp only [hne, hdot, hdots, decide_false, Bool.or_false, Bool.false_eq_true, if_false] at h
      split at h
      · cases h
      · simpa using ih hrest h

theorem below?_append (base rest : Location) : Location.below? base (base ++ rest) = some rest := by
  induction base with
  | nil => rfl
  | cons name base ih => simpa [Location.below?] using ih

theorem mem_filesBelow {d : Disk} {base rest : Location} {content : Text}
    (h : d.find? (base ++ rest) = some (.file content)) :
    (joinWith [slash] rest, content) ∈ d.filesBelow base := by
  unfold find? at h
  split at h
  · cases h
  · obtain ⟨before, after, hentries, -⟩ := List.lookup_eq_some_iff.1 h
    refine List.mem_filterMap.2 ⟨(base ++ rest, .file content), by simp [hentries], ?_⟩
    simp [below?_append]

theorem mem_of_readFrom {d : Disk} {base : Location} {name content : Text}
    (hname : Path.isValid name) (h : d.readFrom base name = .ok content) :
    name ∈ (d.filesBelow base).map Prod.fst := by
  unfold readFrom at h
  split at h
  · cases h
  next loc hwalk =>
    split at h
    next hfind =>
      simp only [Path.isValid, Bool.and_eq_true, Bool.or_eq_true, decide_eq_true_eq] at hname
      cases h
      rcases hname.2 with rfl | hparts
      · -- The path `.` leads to the directory itself.
        rw [show splitOn slash [dot] = [[dot]] from rfl, walk] at hwalk
        split at hwalk <;> simp_all [walk]
      · obtain rfl := eq_append_of_walk hparts hwalk
        refine List.mem_map.2 ⟨_, mem_filesBelow hfind, joinWith_splitOn slash name⟩
    · cases h
    · cases h

theorem mem_of_readBelow {d : Disk} {base : Location} {name content : Text}
    (h : d.readBelow base name = .ok content) : name ∈ (d.filesBelow base).map Prod.fst := by
  unfold readBelow at h
  split at h
  · cases h
  next hname =>
    cases hread : d.readFrom base name with
    | error e => rw [hread] at h; cases h
    | ok content' =>
      simp only [Bool.or_eq_true, not_or, Bool.not_eq_true', Bool.not_eq_false] at hname
      exact mem_of_readFrom hname.1 hread

def fileSystem (d : Disk) (base : Location) : FileSystem where
  read := d.readBelow base
  names := (d.filesBelow base).map Prod.fst
  mem_names := mem_of_readBelow

end Disk

end Stencil
