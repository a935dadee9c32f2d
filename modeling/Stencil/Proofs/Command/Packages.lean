import Stencil.Proofs.Command.Caching
import Stencil.Proofs.Project.Discovery

namespace Stencil

open Ascii Text

namespace Component

def heading (source package : Text) : Text :=
  utf8 "// Code generated by mltemplate from " ++ source.filter (· ≠ carriageReturn) ++
    utf8 ". DO NOT EDIT.\n\npackage " ++ package ++ utf8 "\n\n"

theorem isComment_generated (rest : Text) :
    Row.isComment (utf8 "// Code generated by mltemplate from " ++ rest) = true := by
  have hslashes : utf8 "// Code generated by mltemplate from " =
      utf8 "//" ++ utf8 " Code generated by mltemplate from " := by decide
  rw [Row.isComment, hslashes, List.append_assoc]
  exact startsWith_append _ _

theorem isComment_package (package : Text) :
    Row.isComment (utf8 "package " ++ package) = false := by
  have hfirst : utf8 "package " = 112 :: utf8 "ackage " := by decide
  have hslashes : utf8 "//" = [slash, slash] := by decide
  rw [Row.isComment, startsWith, hfirst, hslashes, List.cons_append]
  rfl

theorem layoutOf_header (c : Component) (imports : List Text) (more : List Row) :
    heading c.source c.package <+: Row.layoutOf (c.header imports ++ more) := by
  have hcomment : Row.layoutOne (.line 0 (utf8 "// Code generated by mltemplate from " ++ c.source ++
      utf8 ". DO NOT EDIT.")) = utf8 "// Code generated by mltemplate from " ++
        c.source.filter (· ≠ carriageReturn) ++ utf8 ". DO NOT EDIT." ++ [newline] := by
    rw [List.append_assoc (utf8 "// Code generated by mltemplate from ") c.source, Row.layoutOne,
      isComment_generated, if_pos rfl, List.filter_append, List.filter_append]
    have hbefore : (utf8 "// Code generated by mltemplate from ").filter (· ≠ carriageReturn) =
        utf8 "// Code generated by mltemplate from " := by decide
    have hafter : (utf8 ". DO NOT EDIT.").filter (· ≠ carriageReturn) =
        utf8 ". DO NOT EDIT." := by decide
    rw [hbefore, hafter]
    simp [tabs]
  have hpackage : Row.layoutOne (.line 0 (utf8 "package " ++ c.package)) =
      utf8 "package " ++ c.package ++ [newline] := by
    rw [Row.layoutOne, isComment_package, if_neg (by simp)]
    rfl
  -- the first four rows stand alone, whatever rows follow them
  have hlayout : ∃ rest, Row.layoutOf (c.header imports ++ more) =
      Row.layoutOne (.line 0 (utf8 "// Code generated by mltemplate from " ++ c.source ++
        utf8 ". DO NOT EDIT.")) ++ ([newline] ++
          (Row.layoutOne (.line 0 (utf8 "package " ++ c.package)) ++ ([newline] ++ rest))) :=
    ⟨_, rfl⟩
  obtain ⟨rest, hlayout⟩ := hlayout
  have hbreaks : utf8 ". DO NOT EDIT.\n\npackage " =
      utf8 ". DO NOT EDIT." ++ [newline] ++ [newline] ++ utf8 "package " := by decide
  have hend : utf8 "\n\n" = [newline] ++ [newline] := by decide
  refine ⟨rest, ?_⟩
  rw [hlayout, hcomment, hpackage, heading, hbreaks, hend]
  simp only [List.append_assoc]

section

variable {c : Component} {source package : Text} (hsource : c.source = source)
  (hpackage : c.package = package) (imports : List Text)

include hsource hpackage

theorem heading_implementation :
    heading source package <+: Row.layoutOf (c.implementation imports) := by
  rw [implementation, List.append_assoc, List.append_assoc, ← hsource, ← hpackage]
  exact c.layoutOf_header imports _

theorem heading_interface : heading source package <+: Row.layoutOf (c.interface imports) := by
  rw [interface, ← hsource, ← hpackage]
  simp only [List.append_assoc]
  exact c.layoutOf_header imports _

end

end Component

namespace Compile

theorem prefix_joinTo {heading head : Text} (h : heading <+: head) (t : Trailer) (numbered : Bool) :
    heading <+: t.joinTo head numbered := by
  have hclosed : head <+: Trailer.closeLine head := by
    unfold Trailer.closeLine
    split
    · exact List.prefix_refl head
    · exact List.prefix_append head _
  have hjoined : Trailer.closeLine head <+: t.joinTo head numbered := by
    rw [Trailer.joinTo, List.append_assoc, List.append_assoc]
    exact List.prefix_append _ _
  exact (h.trans hclosed).trans hjoined

theorem heading_of_unitText {unit : Text} {rows : List Text → List Row} {candidates : List Text}
    {trailer : Option Trailer} {content heading : Text}
    (hrows : ∀ imports, heading <+: Row.layoutOf (rows imports))
    (h : unitText unit rows candidates trailer = .ok content) : heading <+: content := by
  obtain ⟨needed, -, h⟩ := bind_eq_ok_iff.mp h
  cases trailer with
  | none =>
    cases h
    exact hrows _
  | some t =>
    dsimp only at h
    split at h
    · cases h
      exact hrows _
    · split at h
      · cases h
      · cases h
        exact prefix_joinTo (hrows _) t true

theorem headings_of_document {doc : Document} {name module package : Text}
    {trailers : Option Trailer × Option Trailer} {r : Compiled}
    (h : document doc name module package trailers = .ok r) :
    r.package = package ∧ ∀ u ∈ [r.implementation, r.interface],
      Component.heading (Path.base name) package <+: u.content := by
  obtain ⟨impl, himpl, h⟩ := bind_eq_ok_iff.mp h
  obtain ⟨iface, hiface, h⟩ := bind_eq_ok_iff.mp h
  cases h
  refine ⟨rfl, ?_⟩
  simp only [List.forall_mem_cons]
  exact ⟨heading_of_unitText (Component.heading_implementation rfl rfl) himpl,
    heading_of_unitText (Component.heading_interface rfl rfl) hiface, by simp⟩

end Compile

namespace Build

variable {s : Session} {c : Config} {d : Disk} {root : Location} {templates : List TemplateFile}

theorem package_of_found {t : TemplateFile} {dirs : List Text} {name : Text}
    (h : Project.Found root t dirs name)
    (hproper : ∀ part ∈ dirs ++ [name], Path.isValidPart part = true ∧ slash ∉ part)
    (hpackage : c.package = []) (hnone : t.package = []) {now : Disk} {r : Compiled}
    (hr : (jobOf c root t).compiled s now = .ok r) :
    r.package = Name.packageOf (if dirs = [] then [dot] else joinWith [slash] dirs)
        (Name.moduleOf t.path) ∧
      ∀ u ∈ [r.implementation, r.interface],
        Component.heading (Path.base t.path) r.package <+: u.content := by
  obtain ⟨loc, -, htemplate⟩ := Job.compiled_eq_ok_iff.mp hr
  obtain ⟨doc, trailers, -, -, hdocument⟩ := Compile.template_eq_ok_iff.mp htemplate
  obtain ⟨hresult, hheadings⟩ := Compile.headings_of_document hdocument
  have hdir : Path.dir t.path = if dirs = [] then [dot] else joinWith [slash] dirs := by
    rw [h.path, Path.dir_joinWith hproper]
  have hoptions : (jobOf c root t).options = {} := by
    simp [jobOf, hpackage, hnone]
  have hchosen : Compile.packageOf t.path (jobOf c root t).options =
      Name.packageOf (Path.dir t.path) (Name.moduleOf t.path) := by
    rw [hoptions]
    rfl
  change r.package = Compile.packageOf t.path _ at hresult
  rw [hresult, hchosen, hdir]
  refine ⟨rfl, ?_⟩
  rw [← hdir, ← hchosen]
  exact hheadings

theorem packageOf_directory {dirs : List Text} {name : Text}
    (hproper : ∀ part ∈ dirs ++ [name], Path.isValidPart part = true ∧ slash ∉ part)
    (hdirs : dirs ≠ []) (module other : Text) :
    Name.packageOf (joinWith [slash] dirs) module = Name.packageOf (joinWith [slash] dirs) other := by
  obtain ⟨first, rest, rfl⟩ := List.exists_cons_of_ne_nil hdirs
  obtain ⟨hvalid, hslash⟩ := hproper first (by simp)
  obtain ⟨hne, hdot, -⟩ := Path.isValidPart_iff.mp hvalid
  have hslash' : joinWith [slash] (first :: rest) ≠ [slash] := by
    intro heq
    have hrooted := Path.isRooted_joinWith hne hslash rest
    rw [heq] at hrooted
    cases hrooted
  have hdot' : joinWith [slash] (first :: rest) ≠ [dot] := by
    intro heq
    have hsplit := splitOn_joinWith hdirs fun part hpart =>
      (hproper part (List.mem_append_left _ hpart)).2
    rw [heq] at hsplit
    exact hdot (List.cons.inj hsplit).1.symm
  simp [Name.packageOf, hslash', hdot']

theorem package_clauses_same_iff (hd : d.Sound)
    (hroot : d.resolve s.cwd (Path.absolute s.cwd.path c.input) = .ok root)
    (hdir : d.find? root = some .directory)
    (hfound : (Project.discover d s.cwd c.input).1 = .ok templates) (hpackage : c.package = [])
    {t t' : TemplateFile} (ht : t ∈ templates) (ht' : t' ∈ templates) (hnone : t.package = [])
    (hnone' : t'.package = []) (hsame : t.directory = t'.directory) {now now' : Disk}
    {r r' : Compiled} (hr : (jobOf c root t).compiled s now = .ok r)
    (hr' : (jobOf c root t').compiled s now' = .ok r') :
    (∀ u ∈ [r.implementation, r.interface],
        Component.heading (Path.base t.path) r.package <+: u.content) ∧
      (∀ u ∈ [r'.implementation, r'.interface],
        Component.heading (Path.base t'.path) r'.package <+: u.content) ∧
      (r.package = r'.package ↔ t.directory ≠ root ∨
        Name.packageOf [dot] (Name.moduleOf t.path) =
          Name.packageOf [dot] (Name.moduleOf t'.path)) := by
  obtain ⟨dirs, name, hnames, hleads⟩ := Project.found_of_mem hd hroot hdir hfound ht
  obtain ⟨dirs', name', hnames', hleads'⟩ := Project.found_of_mem hd hroot hdir hfound ht'
  obtain rfl : dirs = dirs' := by
    rw [hnames.directory, hnames'.directory] at hsame
    exact List.append_cancel_left hsame
  have hproper : ∀ part ∈ dirs ++ [name], Path.isValidPart part = true ∧ slash ∉ part := by
    intro part hpart
    obtain ⟨hvalid, hslash, -⟩ := hleads.proper part (List.mem_append_right _ hpart)
    exact ⟨hvalid, hslash⟩
  have hproper' : ∀ part ∈ dirs ++ [name'], Path.isValidPart part = true ∧ slash ∉ part := by
    intro part hpart
    obtain ⟨hvalid, hslash, -⟩ := hleads'.proper part (List.mem_append_right _ hpart)
    exact ⟨hvalid, hslash⟩
  obtain ⟨hresult, hheadings⟩ := package_of_found hnames hproper hpackage hnone hr
  obtain ⟨hresult', hheadings'⟩ := package_of_found hnames' hproper' hpackage hnone' hr'
  refine ⟨hheadings, hheadings', ?_⟩
  rw [hresult, hresult']
  by_cases hdirs : dirs = []
  · have htop : t.directory = root := by rw [hnames.directory, hdirs, List.append_nil]
    simp [hdirs, htop]
  · have hbelow : t.directory ≠ root := by
      rw [hnames.directory]
      simpa using hdirs
    simp only [if_neg hdirs, hbelow, ne_eq, not_false_eq_true, true_or, iff_true]
    exact packageOf_directory hproper hdirs _ _

section Sample

def twoPages (dir : Location) (above : List (Location × Entry)) : Disk :=
  ⟨above ++ [(dir ++ [utf8 "a.ml.html"], .file (utf8 "<p></p>")),
    (dir ++ [utf8 "b.ml.html"], .file (utf8 "<p></p>"))]⟩

def pageIn (dir : Location) (name : String) : TemplateFile :=
  ⟨joinWith [slash] (dir ++ [utf8 name]), dir, []⟩

def pagesBelow : Disk :=
  twoPages [utf8 "x"] [([utf8 "x"], .directory)]

theorem twoPages_compiled :
    (Project.discover pagesBelow [] [dot]).1 =
        .ok [pageIn [utf8 "x"] "a.ml.html", pageIn [utf8 "x"] "b.ml.html"] ∧
      ((jobOf {} [] (pageIn [utf8 "x"] "a.ml.html")).compiled atTop pagesBelow).isOk = true ∧
      ((jobOf {} [] (pageIn [utf8 "x"] "b.ml.html")).compiled atTop pagesBelow).isOk = true ∧
      (Project.discover (twoPages [] []) [] [dot]).1 =
        .ok [pageIn [] "a.ml.html", pageIn [] "b.ml.html"] ∧
      ((jobOf {} [] (pageIn [] "a.ml.html")).compiled atTop (twoPages [] [])).toOption.map
        Compiled.package = some (utf8 "a") ∧
      ((jobOf {} [] (pageIn [] "b.ml.html")).compiled atTop (twoPages [] [])).toOption.map
        Compiled.package = some (utf8 "b") := by
  decide +kernel

end Sample

theorem package_clauses_same_iff_below :
    ∃ r r', (jobOf {} [] (pageIn [utf8 "x"] "a.ml.html")).compiled atTop pagesBelow = .ok r ∧
      (jobOf {} [] (pageIn [utf8 "x"] "b.ml.html")).compiled atTop pagesBelow = .ok r' ∧
      r.package = r'.package := by
  obtain ⟨hfound, hok, hok', -⟩ := twoPages_compiled
  have hsound : pagesBelow.Sound := by
    apply Disk.sound_of_entries
    decide
  have hbelow : (pageIn [utf8 "x"] "a.ml.html").directory ≠ [] := by simp [pageIn]
  have hroot : pagesBelow.resolve [] (Path.absolute [slash] [dot]) = .ok [] := by decide
  cases hr : (jobOf {} [] (pageIn [utf8 "x"] "a.ml.html")).compiled atTop pagesBelow with
  | error e =>
    rw [hr] at hok
    cases hok
  | ok r =>
    cases hr' : (jobOf {} [] (pageIn [utf8 "x"] "b.ml.html")).compiled atTop pagesBelow with
    | error e =>
      rw [hr'] at hok'
      cases hok'
    | ok r' =>
      obtain ⟨-, -, hsame⟩ := package_clauses_same_iff (s := atTop) (c := {}) hsound hroot rfl hfound
        rfl List.mem_cons_self (List.mem_cons_of_mem _ List.mem_cons_self) rfl rfl rfl hr hr'
      exact ⟨r, r', rfl, rfl, hsame.mpr (.inl hbelow)⟩

/-- Two pages in the directory that is searched: each is a package of its own. -/
theorem package_clauses_differ_at_top :
    (Project.discover (twoPages [] []) [] [dot]).1 =
        .ok [pageIn [] "a.ml.html", pageIn [] "b.ml.html"] ∧
      ((jobOf {} [] (pageIn [] "a.ml.html")).compiled atTop (twoPages [] [])).toOption.map
        Compiled.package = some (utf8 "a") ∧
      ((jobOf {} [] (pageIn [] "b.ml.html")).compiled atTop (twoPages [] [])).toOption.map
        Compiled.package = some (utf8 "b") := by
  obtain ⟨-, -, -, htop⟩ := twoPages_compiled
  exact htop

end Build

end Stencil
