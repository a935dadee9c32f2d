import Stencil.Command.Build
import Stencil.Proofs.Cache.Fields
import Stencil.Proofs.Disk.Seeing
import Stencil.Proofs.Output
import Stencil.Proofs.Text.Rune

namespace Stencil

open Ascii Text

namespace Path

theorem join_ends {last : Text} (hvalid : isValidPart last = true) (hslash : slash ∉ last)
    (dir : Text) : join [dir, last] = last ∨ ∃ lead, join [dir, last] = lead ++ slash :: last := by
  have hne : last ≠ [] := (isValidPart_iff.mp hvalid).1
  have hclean : ∀ p before, splitOn slash p = before ++ [last] →
      clean p = last ∨ ∃ lead, clean p = lead ++ slash :: last := by
    intro p before hp
    rw [clean, hp, List.foldl_append, List.foldl_cons, List.foldl_nil, push_of_valid hvalid,
      List.reverse_cons]
    generalize ((before.foldl (push (isRooted p)) []).reverse) = kept
    have hbody : joinWith [slash] (kept ++ [last]) = last ∨
        ∃ lead, joinWith [slash] (kept ++ [last]) = lead ++ slash :: last := by
      by_cases hkept : kept = []
      · rw [hkept]
        exact .inl rfl
      · rw [joinWith_concat _ _ hkept, List.append_assoc]
        exact .inr ⟨_, rfl⟩
    split
    · rcases hbody with hbody | ⟨lead, hbody⟩
      · exact .inr ⟨[], by rw [hbody]; rfl⟩
      · exact .inr ⟨slash :: lead, by rw [hbody]; rfl⟩
    · rcases hbody with hbody | ⟨lead, hbody⟩
      · simp [hbody, hne]
      · simp [hbody]
  have hlast : splitOn slash last = [last] := splitOn_of_not_mem hslash
  by_cases hdir : dir = []
  · have hjoin : join [dir, last] = clean last := by simp [join, hdir, hne, joinWith]
    rw [hjoin]
    exact hclean last [] hlast
  · have hjoin : join [dir, last] = clean (dir ++ slash :: last) := by
      simp [join, hdir, hne, joinWith]
    rw [hjoin]
    exact hclean _ (splitOn slash dir) (by rw [splitOn_append, hlast])

end Path

namespace Compile

variable {fs fs' : FileSystem} {name : Text} {options : CompileOptions} {r : Compiled}

theorem names_of_template (h : (template fs name options).1 = .ok r) :
    r.implementation.name = moduleOf name options ++ utf8 ".ml.go" ∧
      r.interface.name = moduleOf name options ++ utf8 ".mli.go" := by
  obtain ⟨doc, trailers, -, -, h⟩ := template_eq_ok_iff.mp h
  obtain ⟨impl, -, h⟩ := bind_eq_ok_iff.mp h
  obtain ⟨iface, -, h⟩ := bind_eq_ok_iff.mp h
  cases h
  exact ⟨rfl, rfl⟩

theorem name_mem_files (h : (template fs name options).1 = .ok r) : name ∈ r.files := by
  obtain ⟨doc, trailers, hdoc, -, h⟩ := template_eq_ok_iff.mp h
  rw [(document_reports h).1]
  exact List.mem_append_left _ (Document.name_mem_files hdoc)

theorem has_of_template (h : (template fs name options).1 = .ok r) :
    ∀ p ∈ r.files ++ r.absent, ∃ content, fs.Has p content := by
  obtain ⟨hread, hlacks⟩ := reads_of_template h
  intro p hp
  rcases List.mem_append.mp hp with hp | hp
  · obtain ⟨content, hcontent⟩ := hread p hp
    exact ⟨some content, hcontent⟩
  · exact ⟨none, hlacks p hp⟩

theorem template_of_has (h : (template fs name options).1 = .ok r)
    (hsame : ∀ p ∈ r.files ++ r.absent, ∃ content, fs.Has p content ∧ fs'.Has p content) :
    (template fs' name options).1 = .ok r := by
  obtain ⟨hread, hlacks⟩ := reads_of_template h
  refine template_again h (fun p hp => ?_) fun p hp => ?_
  · obtain ⟨content, hcontent⟩ := hread p hp
    obtain ⟨found, hfs, hfs'⟩ := hsame p (List.mem_append_left _ hp)
    cases found with
    | none =>
      obtain ⟨e, he, -⟩ := hfs
      rw [hcontent] at he
      cases he
    | some found => exact Eq.trans hfs' (Eq.symm hfs)
  · obtain ⟨e, he, -⟩ := hlacks p hp
    obtain ⟨found, hfs, hfs'⟩ := hsame p (List.mem_append_right _ hp)
    cases found with
    | none => exact hfs'
    | some found =>
      rw [show fs.read p = .ok found from hfs] at he
      cases he

theorem directory_of_template {d : Disk} {loc : Location}
    (h : (template (d.fileSystem loc) name options).1 = .ok r) : d.find? loc = some .directory := by
  obtain ⟨content, hread⟩ := (reads_of_template h).1 name (name_mem_files h)
  have hname : (d.fileSystem loc).Has name (some content) := hread
  exact Disk.directory_of_has hname

theorem isValidUtf8_moduleOf {d : Disk} {loc : Location}
    (h : (template (d.fileSystem loc) name options).1 = .ok r)
    (hslash : slash ∉ moduleOf name options) : isValidUtf8 (moduleOf name options) = true := by
  obtain ⟨doc, trailers, -, htrailers, -⟩ := template_eq_ok_iff.mp h
  obtain ⟨himpl, -⟩ := readTrailers_eq_ok_iff.mp htrailers
  have hends : slash ∉ moduleOf name options ++ utf8 ".ml.ext" := by
    rw [List.mem_append, not_or]
    exact ⟨hslash, by decide⟩
  have hlength : 7 ≤ (moduleOf name options ++ utf8 ".ml.ext").length := by
    rw [List.length_append, show (utf8 ".ml.ext").length = 7 from rfl]
    omega
  have hpart : Path.isValidPart (moduleOf name options ++ utf8 ".ml.ext") = true := by
    rw [Path.isValidPart_iff]
    refine ⟨?_, ?_, ?_⟩ <;> intro heq <;> rw [heq] at hlength <;> simp at hlength
  have hhas : ∃ content, (d.fileSystem loc).Has
      (Path.join [Path.dir name, moduleOf name options ++ utf8 ".ml.ext"]) content := by
    cases htrailer : trailers.1 with
    | none => exact ⟨none, Trailer.read_eq_none_iff.mp (htrailer ▸ himpl)⟩
    | some t =>
      obtain ⟨-, ⟨content, hcontent⟩, -⟩ := Trailer.read_eq_some (htrailer ▸ himpl)
      exact ⟨some content, hcontent⟩
  obtain ⟨content, hhas⟩ := hhas
  obtain ⟨⟨hvalid, -⟩, -⟩ := Disk.fileSystem_has_iff.mp hhas
  rw [Path.isValid, Bool.and_eq_true] at hvalid
  have htext : isValidUtf8 (moduleOf name options ++ utf8 ".ml.ext") = true := by
    rcases Path.join_ends hpart hends (Path.dir name) with heq | ⟨lead, heq⟩
    · rw [← heq]
      exact hvalid.1
    · have hlead := hvalid.1
      rw [heq, isValidUtf8_append_ascii (by decide), Bool.and_eq_true] at hlead
      exact hlead.2
  rw [show utf8 ".ml.ext" = dot :: utf8 "ml.ext" from rfl, isValidUtf8_append_ascii (by decide),
    Bool.and_eq_true] at htext
  exact htext.1

end Compile

namespace SourceFile

def kept (u : SourceFile) : SourceFile :=
  ⟨mapRunes id u.name, u.content⟩

theorem unpack?_pack (impl iface : SourceFile) :
    unpack? (pack impl iface) = some (impl.kept, iface.kept) := by
  rw [unpack?, pack, Fields.decode?_encode]
  rfl

theorem kept_eq {u : SourceFile} (h : isValidUtf8 u.name = true) : u.kept = u := by
  rw [kept, mapRunes_id_of_valid h]

end SourceFile

theorem SourceFile.kept_of_template {d : Disk} {loc : Location} {name : Text}
    {options : CompileOptions} {r : Compiled}
    (h : (Compile.template (d.fileSystem loc) name options).1 = .ok r)
    (hslash : slash ∉ Compile.moduleOf name options) :
    r.implementation.kept = r.implementation ∧ r.interface.kept = r.interface := by
  obtain ⟨himpl, hiface⟩ := Compile.names_of_template h
  have hmodule := Compile.isValidUtf8_moduleOf h hslash
  have hvalid : ∀ rest, isValidUtf8 rest = true →
      isValidUtf8 (Compile.moduleOf name options ++ dot :: rest) = true := by
    intro rest hrest
    rw [isValidUtf8_append_ascii (by decide), hmodule, hrest]
    rfl
  exact ⟨SourceFile.kept_eq (himpl ▸ hvalid (utf8 "ml.go") (by decide)),
    SourceFile.kept_eq (hiface ▸ hvalid (utf8 "mli.go") (by decide))⟩

theorem Output.write_kept {o : Output} (hfaults : ∀ step, o.faults step = none) {d : Disk}
    {loc : Location} {name : Text} {options : CompileOptions} {r : Compiled}
    (h : (Compile.template (d.fileSystem loc) name options).1 = .ok r) (d' : Disk) :
    (o.write [r.implementation.kept, r.interface.kept] d').1.isOk =
        (o.write [r.implementation, r.interface] d').1.isOk ∧
      (o.write [r.implementation.kept, r.interface.kept] d').2 =
        (o.write [r.implementation, r.interface] d').2 := by
  by_cases hslash : slash ∈ Compile.moduleOf name options
  · -- The names need not be well formed, but both of them are refused.
    have hname : slash ∈ r.implementation.name := by
      rw [(Compile.names_of_template h).1]
      exact List.mem_append_left _ hslash
    have hkept : slash ∈ r.implementation.kept.name := mem_mapRunes_id (by decide) hname
    obtain ⟨hok, hdisk⟩ := Output.write_of_slash hfaults hname [r.interface] d'
    obtain ⟨hokKept, hdiskKept⟩ := Output.write_of_slash hfaults hkept [r.interface.kept] d'
    exact ⟨hokKept.trans hok.symm, hdiskKept.trans hdisk.symm⟩
  · obtain ⟨himpl, hiface⟩ := SourceFile.kept_of_template h hslash
    rw [himpl, hiface]
    exact ⟨rfl, rfl⟩

end Stencil
