import Stencil.Proofs.Result
import Stencil.Proofs.Template.Including
import Stencil.Unit.Compile

namespace Stencil

/-- A read of the path answers that it is missing. A directory at the path is not missing. -/
def FileSystem.Lacks (fs : FileSystem) (p : Text) : Prop :=
  ∃ e, fs.read p = .error e ∧ e.missing = true

namespace Trailer

theorem read_eq_some {fs : FileSystem} {path : Text} {t : Trailer}
    (h : read fs path = .ok (some t)) :
    t.path = path ∧ (∃ content, fs.read path = .ok content) ∧
      ∀ fs' : FileSystem, fs'.read path = fs.read path → read fs' path = .ok (some t) := by
  unfold read at h
  split at h
  next content hread =>
    cases h
    refine ⟨rfl, ⟨content, hread⟩, fun fs' hsame => ?_⟩
    rw [read, hsame, hread]
  · split at h <;> cases h

theorem read_eq_none_iff {fs : FileSystem} {path : Text} :
    read fs path = .ok none ↔ fs.Lacks path := by
  unfold read FileSystem.Lacks
  split
  next content hread => simp [hread]
  next e hread =>
    split
    next hmissing => simp [hread, hmissing]
    next hmissing => simp [hread, hmissing]

end Trailer

namespace Compile

theorem document_reports {doc : Document} {name module package : Text}
    {trailers : Option Trailer × Option Trailer} {r : Compiled}
    (h : document doc name module package trailers = .ok r) :
    r.files = doc.files ++ (trailers.1.toList ++ trailers.2.toList).map (·.path) ∧
      r.absent =
        (if trailers.1.isSome then [] else [Path.join [Path.dir name, module ++ utf8 ".ml.ext"]]) ++
        (if trailers.2.isSome then [] else [Path.join [Path.dir name, module ++ utf8 ".mli.ext"]]) := by
  obtain ⟨impl, -, h⟩ := bind_eq_ok_iff.mp h
  obtain ⟨iface, -, h⟩ := bind_eq_ok_iff.mp h
  cases h
  exact ⟨rfl, rfl⟩

theorem readTrailers_eq_ok_iff {fs : FileSystem} {dir module : Text}
    {trailers : Option Trailer × Option Trailer} :
    readTrailers fs dir module = .ok trailers ↔
      Trailer.read fs (Path.join [dir, module ++ utf8 ".ml.ext"]) = .ok trailers.1 ∧
        Trailer.read fs (Path.join [dir, module ++ utf8 ".mli.ext"]) = .ok trailers.2 := by
  unfold readTrailers
  rcases Trailer.read fs (Path.join [dir, module ++ utf8 ".ml.ext"]) with e | impl
  · simp [Except.mapError, bind, Except.bind]
  · rcases Trailer.read fs (Path.join [dir, module ++ utf8 ".mli.ext"]) with e | iface
    · simp [Except.mapError, bind, Except.bind]
    · simp [Except.mapError, bind, Except.bind, pure, Except.pure, Prod.ext_iff]

theorem trailer_again {fs : FileSystem} {path : Text} {t : Option Trailer}
    (h : Trailer.read fs path = .ok t) :
    (∀ p ∈ t.toList.map (·.path), ∃ content, fs.read p = .ok content) ∧
      (∀ p ∈ if t.isSome then [] else [path], fs.Lacks p) ∧
      ∀ fs' : FileSystem, (∀ p ∈ t.toList.map (·.path), fs'.read p = fs.read p) →
        (∀ p ∈ if t.isSome then [] else [path], fs'.Lacks p) → Trailer.read fs' path = .ok t := by
  cases t with
  | none => simp_all [Trailer.read_eq_none_iff]
  | some t =>
    obtain ⟨rfl, hread, hagain⟩ := Trailer.read_eq_some h
    simp_all

def moduleOf (name : Text) (options : CompileOptions) : Text :=
  if options.module.isEmpty then Name.moduleOf name else options.module

def packageOf (name : Text) (options : CompileOptions) : Text :=
  if options.package.isEmpty then Name.packageOf (Path.dir name) (moduleOf name options)
  else options.package

theorem template_eq_ok_iff {fs : FileSystem} {name : Text} {options : CompileOptions}
    {r : Compiled} :
    (template fs name options).1 = .ok r ↔
      ∃ doc trailers, Document.read fs name = .ok doc ∧
        readTrailers fs (Path.dir name) (moduleOf name options) = .ok trailers ∧
        document doc name (moduleOf name options) (packageOf name options) trailers = .ok r := by
  have hmodule : (if options.module.isEmpty then Name.moduleOf name else options.module) =
      moduleOf name options := rfl
  unfold template
  rw [hmodule]
  cases Document.read fs name with
  | error e => simp
  | ok doc =>
    dsimp only
    cases readTrailers fs (Path.dir name) (moduleOf name options) with
    | error e => simp
    | ok trailers => simp [packageOf]

section Again

variable {fs fs' : FileSystem} {name : Text} {options : CompileOptions} {r : Compiled}

theorem reads_of_template (h : (template fs name options).1 = .ok r) :
    (∀ p ∈ r.files, ∃ content, fs.read p = .ok content) ∧ ∀ p ∈ r.absent, fs.Lacks p := by
  obtain ⟨doc, trailers, hdoc, htrailers, h⟩ := template_eq_ok_iff.mp h
  obtain ⟨himpl, hiface⟩ := readTrailers_eq_ok_iff.mp htrailers
  obtain ⟨himplRead, himplLacks, -⟩ := trailer_again himpl
  obtain ⟨hifaceRead, hifaceLacks, -⟩ := trailer_again hiface
  obtain ⟨hfiles, habsent⟩ := document_reports h
  rw [hfiles, habsent, List.map_append]
  simp only [List.forall_mem_append]
  exact ⟨⟨(Document.read_again hdoc).1, himplRead, hifaceRead⟩, himplLacks, hifaceLacks⟩

theorem template_again (h : (template fs name options).1 = .ok r)
    (hsame : ∀ p ∈ r.files, fs'.read p = fs.read p) (hlacks : ∀ p ∈ r.absent, fs'.Lacks p) :
    (template fs' name options).1 = .ok r := by
  obtain ⟨doc, trailers, hdoc, htrailers, h⟩ := template_eq_ok_iff.mp h
  obtain ⟨himpl, hiface⟩ := readTrailers_eq_ok_iff.mp htrailers
  obtain ⟨hfiles, habsent⟩ := document_reports h
  rw [hfiles, List.map_append] at hsame
  rw [habsent] at hlacks
  simp only [List.forall_mem_append] at hsame hlacks
  refine template_eq_ok_iff.mpr ⟨doc, trailers, (Document.read_again hdoc).2 fs' hsame.1, ?_, h⟩
  exact readTrailers_eq_ok_iff.mpr
    ⟨(trailer_again himpl).2.2 fs' hsame.2.1 hlacks.1,
      (trailer_again hiface).2.2 fs' hsame.2.2 hlacks.2⟩

theorem template_fails (h : (template fs name options).1 = .ok r) {p : Text} (hp : p ∈ r.absent)
    {e : ReadError} (hread : fs'.read p = .error e) (hmissing : e.missing = false) :
    ∃ e', (template fs' name options).1 = .error e' := by
  obtain ⟨doc, trailers, -, -, h⟩ := template_eq_ok_iff.mp h
  have hpath : p = Path.join [Path.dir name, moduleOf name options ++ utf8 ".ml.ext"] ∨
      p = Path.join [Path.dir name, moduleOf name options ++ utf8 ".mli.ext"] := by
    rw [(document_reports h).2, List.mem_append] at hp
    refine hp.imp (fun hp => ?_) (fun hp => ?_)
    all_goals
      split at hp
      · cases hp
      · exact List.mem_singleton.mp hp
  have hfails (t : Option Trailer) : Trailer.read fs' p ≠ .ok t := by
    rw [Trailer.read, hread]
    simp [hmissing]
  cases hagain : (template fs' name options).1 with
  | error e' => exact ⟨e', rfl⟩
  | ok r' =>
    obtain ⟨doc', trailers', -, htrailers, -⟩ := template_eq_ok_iff.mp hagain
    obtain ⟨himpl, hiface⟩ := readTrailers_eq_ok_iff.mp htrailers
    obtain rfl | rfl := hpath
    · exact absurd himpl (hfails _)
    · exact absurd hiface (hfails _)

end Again

/-- Where the files that a compilation lists are the same, it gives the same exactly if the trailers
that it did not find are missing there too. If one of them fails to be read for another reason, so
does the compilation. -/
theorem reported_dependencies_complete {fs : FileSystem} {name : Text} {options : CompileOptions}
    {r : Compiled} (h : (template fs name options).1 = .ok r) :
    (∀ p ∈ r.files, ∃ content, fs.read p = .ok content) ∧ (∀ p ∈ r.absent, fs.Lacks p) ∧
      ∀ fs' : FileSystem,
        (∀ p ∈ r.files, ∀ content, fs.read p = .ok content → fs'.read p = .ok content) →
        ((template fs' name options).1 = .ok r ↔ ∀ p ∈ r.absent, fs'.Lacks p) ∧
        ∀ p ∈ r.absent, ∀ e, fs'.read p = .error e → e.missing = false →
          ∃ e', (template fs' name options).1 = .error e' := by
  obtain ⟨hread, hlacks⟩ := reads_of_template h
  refine ⟨hread, hlacks, fun fs' hsame => ⟨⟨fun h' => (reads_of_template h').2, ?_⟩, ?_⟩⟩
  · refine template_again h fun p hp => ?_
    obtain ⟨content, hcontent⟩ := hread p hp
    rw [hcontent, hsame p hp content hcontent]
  · exact fun p hp e => template_fails h hp

section Sample

def included : FileSystem :=
  .ofFiles [(utf8 "p.html", utf8 "<i ml:replace=\"include n.txt\"></i>"), (utf8 "n.txt", utf8 "$"),
    (utf8 "p.ml.ext", utf8 "\n")]

def includedOtherwise : FileSystem :=
  .ofFiles [(utf8 "o.txt", []), (utf8 "p.ml.ext", utf8 "\n"), (utf8 "n.txt", utf8 "$"),
    (utf8 "p.html", utf8 "<i ml:replace=\"include n.txt\"></i>")]

def pageOnly : FileSystem :=
  .ofFiles [(utf8 "p.html", utf8 "<p></p>\n")]

def pageAndDirectory : FileSystem :=
  .ofFiles [(utf8 "p.html", utf8 "<p></p>\n"), (utf8 "p.ml.ext/x", [])]

theorem samples_compiled :
    (template included (utf8 "p.html") {}).1.toOption.map (fun r => (r.files, r.absent)) =
        some ([utf8 "p.html", utf8 "n.txt", utf8 "p.ml.ext"], [utf8 "p.mli.ext"]) ∧
      (template pageOnly (utf8 "p.html") {}).1.toOption.map (fun r => (r.files, r.absent)) =
        some ([utf8 "p.html"], [utf8 "p.ml.ext", utf8 "p.mli.ext"]) ∧
      ((template pageAndDirectory (utf8 "p.html") {}).1.mapError (·.message)).map (fun _ => ()) =
        .error (utf8 "failed to read trailer p.ml.ext: read p.ml.ext: invalid argument") := by
  decide +kernel

end Sample

theorem reported_dependencies_complete_beside :
    ∃ r, (template included (utf8 "p.html") {}).1 = .ok r ∧
      (template includedOtherwise (utf8 "p.html") {}).1 = .ok r := by
  have hok := samples_compiled.1
  cases h : (template included (utf8 "p.html") {}).1 with
  | error e => rw [h] at hok; cases hok
  | ok r =>
    rw [h] at hok
    obtain ⟨hfiles, habsent⟩ := Prod.ext_iff.mp (Option.some.inj hok)
    refine ⟨r, rfl, ((reported_dependencies_complete h).2.2 _ ?_).1.mpr ?_⟩
    · rw [show r.files = _ from hfiles]
      simp only [List.forall_mem_cons]
      refine ⟨?_, ?_, ?_, by simp⟩
      all_goals
        intro content hread
        rw [← hread]
        rfl
    · rw [show r.absent = _ from habsent, List.forall_mem_singleton]
      exact ⟨_, rfl, rfl⟩

/-- A directory that has the name of an absent trailer. -/
theorem absent_trailer_directory :
    ∃ (fs fs' : FileSystem) (r : Compiled), (template fs (utf8 "p.html") {}).1 = .ok r ∧
      (∀ p ∈ r.files, fs'.read p = fs.read p) ∧
      (∀ p ∈ r.absent, ∀ content, fs'.read p ≠ .ok content) ∧
      ∃ e, (template fs' (utf8 "p.html") {}).1 = .error e ∧ e.message =
        utf8 "failed to read trailer p.ml.ext: read p.ml.ext: invalid argument" := by
  obtain ⟨-, hok, hfails⟩ := samples_compiled
  cases h : (template pageOnly (utf8 "p.html") {}).1 with
  | error e => rw [h] at hok; cases hok
  | ok r =>
    rw [h] at hok
    obtain ⟨hfiles, habsent⟩ := Prod.ext_iff.mp (Option.some.inj hok)
    refine ⟨pageOnly, pageAndDirectory, r, h, ?_, ?_, ?_⟩
    · rw [show r.files = _ from hfiles, List.forall_mem_singleton]
      rfl
    · rw [show r.absent = _ from habsent]
      simp only [List.forall_mem_cons]
      refine ⟨?_, ?_, by simp⟩
      all_goals
        intro content hread
        cases hread
    · cases h' : (template pageAndDirectory (utf8 "p.html") {}).1 with
      | error e =>
        rw [h'] at hfails
        exact ⟨e, rfl, Except.error.inj hfails⟩
      | ok r' => rw [h'] at hfails; cases hfails

end Compile

end Stencil
