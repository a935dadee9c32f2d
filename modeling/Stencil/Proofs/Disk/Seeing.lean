import Stencil.Proofs.Cache.Standing
import Stencil.Proofs.Disk.Leading
import Stencil.Proofs.Unit.Dependencies

namespace Stencil

open Ascii Text

def FileSystem.Has (fs : FileSystem) (p : Text) : Option Text → Prop
  | some content => fs.read p = .ok content
  | none => fs.Lacks p

theorem Reader.sees_congr {read read' : Reader} {p p' : Text}
    (h : (read p).mapError SystemError.fault = (read' p').mapError SystemError.fault)
    (content : Option Text) : read.Sees p content ↔ read'.Sees p' content := by
  cases hread : read p with
  | ok found =>
    cases hread' : read' p' with
    | ok found' =>
      simp only [hread, hread', Except.mapError, Except.ok.injEq] at h
      cases content <;> simp [Sees, hread, hread', h]
    | error e => simp [hread, hread', Except.mapError] at h
  | error e =>
    cases hread' : read' p' with
    | ok found' => simp [hread, hread', Except.mapError] at h
    | error e' =>
      simp only [hread, hread', Except.mapError, Except.error.injEq] at h
      cases content <;> simp [Sees, hread, hread', SystemError.isMissing, h]

namespace Disk

variable {d : Disk} {loc : Location} {p : Text} {content : Option Text}

theorem fileSystem_has_iff :
    (d.fileSystem loc).Has p content ↔
      (Path.isValid p = true ∧ nul ∉ p) ∧ Reader.Sees (d.readFrom loc) p content := by
  have hread : (d.fileSystem loc).read p = d.readBelow loc p := rfl
  by_cases hp : Path.isValid p = true ∧ nul ∉ p
  · have hvalid : (!Path.isValid p || p.contains nul) = false := by simp [hp]
    rw [readBelow, hvalid, if_neg (by simp)] at hread
    cases hfrom : d.readFrom loc p with
    | ok found =>
      rw [hfrom, Except.mapError] at hread
      cases content with
      | none => simp [FileSystem.Has, FileSystem.Lacks, Reader.Sees, hread, hfrom]
      | some content => simp [FileSystem.Has, Reader.Sees, hread, hfrom, hp]
    | error e =>
      rw [hfrom, Except.mapError] at hread
      cases content with
      | none => simp [FileSystem.Has, FileSystem.Lacks, Reader.Sees, hread, hfrom, hp]
      | some content => simp [FileSystem.Has, Reader.Sees, hread, hfrom]
  · have hvalid : (!Path.isValid p || p.contains nul) = true := by
      by_cases hvalid : Path.isValid p = true
      · simpa [hvalid] using hp
      · simp [hvalid]
    rw [readBelow, hvalid, if_pos rfl] at hread
    cases content <;> simp [FileSystem.Has, FileSystem.Lacks, hread, hp]

theorem plain_of_has (hdir : d.find? loc = some .directory) (h : (d.fileSystem loc).Has p content) :
    Path.Plain p := by
  obtain ⟨⟨hvalid, hnul⟩, hsees⟩ := fileSystem_has_iff.mp h
  simp only [Path.isValid, Bool.and_eq_true, Bool.or_eq_true, decide_eq_true_eq] at hvalid
  refine ⟨hvalid.1, ?_, hnul⟩
  rcases hvalid.2 with rfl | hparts
  · -- The directory itself is seen as a directory.
    have hread : d.readFrom loc [dot] = .error ⟨utf8 "read", [[dot]], .isDirectory⟩ := by
      rw [readFrom, show splitOn slash [dot] = [[dot]] from rfl, walk, hdir]
      simp [walk, hdir]
    cases content <;> simp [Reader.Sees, hread, SystemError.isMissing] at hsees
  · exact List.all_eq_true.mp hparts

theorem directory_of_has {content : Text} (h : (d.fileSystem loc).Has p (some content)) :
    d.find? loc = some .directory := by
  obtain ⟨-, hsees⟩ := fileSystem_has_iff.mp h
  have hread : d.readFrom loc p = .ok content := hsees
  rw [readFrom] at hread
  split at hread
  · cases hread
  next hwalk => exact directory_of_walk (splitOn_ne_nil slash p) hwalk

theorem sees_join_iff (hp : Path.Plain p) (h : d.Leads loc) (cwd : Location) :
    Reader.Sees (d.contentOf cwd) (Path.join [loc.path, p]) content ↔
      (d.fileSystem loc).Has p content := by
  rw [Reader.sees_congr (contentOf_join hp h cwd) content, fileSystem_has_iff]
  exact ⟨fun hsees => ⟨⟨hp.isValid, hp.whole⟩, hsees⟩, And.right⟩

end Disk

end Stencil
