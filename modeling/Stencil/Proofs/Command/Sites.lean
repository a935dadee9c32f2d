import Stencil.Proofs.Command.Caching
import Stencil.Proofs.Disk.Making
import Stencil.Proofs.Output.Placing
import Stencil.Proofs.Project.Discovery

/-!
Where the units of found templates go. One route leads to the directories of all of them, and they
go on from it as the templates lie below the directory that was searched. So no unit goes where
another goes, and a unit is in nobody's way if no directory has its name.
-/

namespace Stencil

open Ascii Text

namespace Name

theorem moduleOf_template {dirs : List Text} {module : Text}
    (hproper : Location.Proper (dirs ++ [module ++ Project.templateEnding])) :
    moduleOf (joinWith [slash] (dirs ++ [module ++ Project.templateEnding])) = module := by
  have hbase : Path.base (joinWith [slash] (dirs ++ [module ++ Project.templateEnding])) =
      module ++ utf8 ".ml" ++ utf8 ".html" := by
    rw [Path.base_joinWith hproper.parts, List.append_assoc]
    rfl
  have hother : endsWith (module ++ utf8 ".ml") (utf8 ".htm") = false := by
    rw [Bool.eq_false_iff, Ne, endsWith_iff]
    rintro ⟨rest, hrest⟩
    have hlast := congrArg List.getLast? hrest
    rw [List.getLast?_append, List.getLast?_append,
      show (utf8 ".ml").getLast? = some 108 by decide,
      show (utf8 ".htm").getLast? = some 109 by decide] at hlast
    cases hlast
  rw [moduleOf, hbase]
  simp only [List.foldl_cons, List.foldl_nil]
  rw [dropSuffix_append, dropSuffix_of_not_endsWith hother, dropSuffix_append]

end Name

namespace Build

variable {s : Session} {c : Config} {d : Disk} {root : Location} {templates : List TemplateFile}
  {t t' : TemplateFile}

def unitNames (t : TemplateFile) : List Text :=
  [Name.moduleOf t.path ++ utf8 ".ml.go", Name.moduleOf t.path ++ utf8 ".mli.go"]

theorem names_of_compiled {now : Disk} {r : Compiled}
    (h : (jobOf c root t).compiled s now = .ok r) :
    [r.implementation, r.interface].map SourceFile.name = unitNames t := by
  obtain ⟨loc, -, htemplate⟩ := Job.compiled_eq_ok_iff.mp h
  obtain ⟨himpl, hiface⟩ := Compile.names_of_template htemplate
  have hmodule : Compile.moduleOf (jobOf c root t).name (jobOf c root t).options =
      Name.moduleOf t.path := rfl
  simp [unitNames, himpl, hiface, hmodule]

def dirsOf (root : Location) (t : TemplateFile) : List Text :=
  (Location.below? root t.directory).getD []

theorem dirsOf_found {dirs : List Text} {name : Text} (h : Project.Found root t dirs name) :
    dirsOf root t = dirs := by
  rw [dirsOf, h.directory, Location.below?_eq_some_iff.mpr rfl]
  rfl

theorem getLast?_of_mem_unitNames {x : Text} (h : x ∈ unitNames t) : x.getLast? = some 111 := by
  have himpl : (utf8 ".ml.go").getLast? = some 111 := by decide
  have hiface : (utf8 ".mli.go").getLast? = some 111 := by decide
  simp only [unitNames, List.mem_cons, List.not_mem_nil, or_false] at h
  rcases h with rfl | rfl <;> simp [List.getLast?_append, himpl, hiface]

theorem endings_apart (module other : Text) :
    module ++ utf8 ".ml.go" ≠ other ++ utf8 ".mli.go" := by
  intro heq
  have hfourth := congrArg (fun name => (name.reverse.drop 3).head?) heq
  simp only [List.reverse_append] at hfourth
  rw [show (utf8 ".ml.go").reverse = [111, 103, 46, 108, 109, 46] by decide,
    show (utf8 ".mli.go").reverse = [111, 103, 46, 105, 108, 109, 46] by decide] at hfourth
  simp at hfourth

theorem moduleOf_of_mem_unitNames {x : Text} (h : x ∈ unitNames t) (h' : x ∈ unitNames t') :
    Name.moduleOf t.path = Name.moduleOf t'.path := by
  simp only [unitNames, List.mem_cons, List.not_mem_nil, or_false] at h h'
  rcases h with rfl | rfl
  · rcases h' with heq | heq
    · exact List.append_cancel_right heq
    · exact absurd heq (endings_apart _ _)
  · rcases h' with heq | heq
    · exact absurd heq.symm (endings_apart _ _)
    · exact List.append_cancel_right heq

theorem nodup_unitNames (t : TemplateFile) : (unitNames t).Nodup := by
  rw [unitNames, List.nodup_cons, List.mem_singleton]
  exact ⟨endings_apart _ _, List.nodup_singleton _⟩

theorem exists_route (c : Config) (hroot : root.Proper) :
    ∃ rooted ups ns, (rooted = true → ups = 0) ∧ Disk.Names ns ∧
      ∀ t dirs name, Project.Found root t dirs name → Location.Proper (dirs ++ [name]) →
        (jobOf c root t).output = Disk.route rooted ups (ns ++ dirs) := by
  by_cases houtput : c.output = []
  · refine ⟨true, 0, root, fun _ => rfl, fun part hpart => ?_, ?_⟩
    · exact ⟨(hroot part hpart).1, (hroot part hpart).2.1⟩
    · intro t dirs name h hproper
      simp [jobOf, houtput, h.directory, Disk.route, Path.ofParts, Location.path]
  · obtain ⟨ups, ns, hparts, hns, hrooted⟩ := Disk.shape_keptParts c.output
    refine ⟨Path.isRooted c.output, ups, ns, hrooted, hns, ?_⟩
    intro t dirs name h hproper
    have hdirs : Disk.Names dirs := fun part hpart =>
      ⟨(hproper part (by simp [hpart])).1, (hproper part (by simp [hpart])).2.1⟩
    have hjob : (jobOf c root t).output =
        Path.join [c.output, Project.relativePath root t.directory] := by
      simp [jobOf, houtput]
    have hjoin {p : Text} (hp : p ≠ []) :
        Path.join [c.output, p] = Path.clean (c.output ++ slash :: p) := by
      simp [Path.join, houtput, hp, joinWith]
    have hbelow : Location.below? root (root ++ dirs) = some dirs :=
      Location.below?_eq_some_iff.mpr rfl
    rw [hjob, h.directory, Project.relativePath, hbelow, Disk.route, ← List.append_assoc, ← hparts]
    cases dirs with
    | nil =>
      rw [List.append_nil (Disk.keptParts _), ← Disk.clean_append_dot houtput]
      exact hjoin (by simp)
    | cons first rest =>
      have hne : joinWith [slash] (first :: rest) ≠ [] := by
        apply Path.joinWith_ne_nil_of_mem _ (by simp)
        intro part hpart
        exact ⟨(Path.isValidPart_iff.mp (hdirs part hpart).1).1, (hdirs part hpart).2⟩
      rw [← Disk.clean_append houtput hdirs (by simp)]
      exact hjoin hne

structure Sited (c : Config) (root : Location) (rooted : Bool) (ups : Nat) (ns : List Text)
    (t : TemplateFile) : Prop where
  output : (jobOf c root t).output = Disk.route rooted ups (ns ++ dirsOf root t)
  names : Disk.Names (ns ++ dirsOf root t)
  shown : ∀ dir ∈ dirsOf root t, isSkippedDirectory dir = false
  fits : ∀ x ∈ unitNames t, Output.Fits x

/-- Templates whose units go to places of their own, on a disk where all of them can be come to. -/
structure Grounds (s : Session) (c : Config) (d : Disk) (root : Location)
    (templates : List TemplateFile) (rooted : Bool) (ups : Nat) (ns : List Text)
    (start : Location) : Prop where
  sound : d.Sound
  searched : d.resolve s.cwd root.path = .ok root
  base : Disk.Base d rooted s.cwd ups start
  shape : rooted = true → ups = 0
  tokens : ∀ n, ∀ b ∈ s.tokens n, Ascii.isDigit b = true
  sited : ∀ t ∈ templates, Sited c root rooted ups ns t
  unique : ∀ t ∈ templates, ∀ t' ∈ templates, dirsOf root t = dirsOf root t' →
    Name.moduleOf t.path = Name.moduleOf t'.path → t = t'
  unlike : ∀ t ∈ templates, ∀ t' ∈ templates, ∀ x ∈ unitNames t, x ∉ dirsOf root t'

theorem fits_unit {module ending : Text} (hending : ending ∈ [utf8 ".ml.go", utf8 ".mli.go"])
    (hslash : slash ∉ module) (hnul : nul ∉ module)
    (hshort : (module ++ Project.templateEnding).length ≤ 255) :
    Output.Fits (module ++ ending) := by
  have hlength : (module ++ Project.templateEnding).length = module.length + 8 :=
    List.length_append
  have hends : ∀ ending ∈ [utf8 ".ml.go", utf8 ".mli.go"],
      3 ≤ ending.length ∧ ending.length ≤ 8 ∧ slash ∉ ending ∧ nul ∉ ending := by decide
  obtain ⟨hlong, hle, hslash', hnul'⟩ := hends ending hending
  refine ⟨Path.isValidPart_iff.mpr ⟨?_, ?_, ?_⟩, ?_, ?_, ?_⟩
  · exact List.ne_nil_of_length_pos (by rw [List.length_append]; omega)
  · intro heq
    have hone := congrArg List.length heq
    simp at hone
    omega
  · intro heq
    have htwo := congrArg List.length heq
    simp at htwo
    omega
  · rw [List.length_append]
    omega
  · simp [hslash, hslash']
  · simp [hnul, hnul']

section

variable (hd : d.Sound) (hcwd : d.find? s.cwd = some .directory)
  (htokens : ∀ n, ∀ b ∈ s.tokens n, Ascii.isDigit b = true)
  (hroot : d.resolve s.cwd (Path.absolute s.cwd.path c.input) = .ok root)
  (hdir : d.find? root = some .directory)
  (hfound : (Project.discover d s.cwd c.input).1 = .ok templates)
  (hunlike : ∀ below name, d.find? (root ++ below ++ [name]) = some .directory →
    ∀ t ∈ templates, name ∉ unitNames t)

include hd hcwd htokens hroot hdir hfound hunlike

theorem exists_grounds :
    ∃ rooted ups ns start, Grounds s c d root templates rooted ups ns start := by
  have hleads := hd root (by rw [hdir]; rfl)
  obtain ⟨rooted, ups, ns, hrooted, hns, houtput⟩ := exists_route c hleads.proper
  obtain ⟨start, hbase⟩ := Disk.exists_base hd hcwd rooted ups
  have hplace : ∀ t ∈ templates, ∃ module,
      Project.Found root t (dirsOf root t) (module ++ Project.templateEnding) ∧
      d.Leads (root ++ (dirsOf root t ++ [module ++ Project.templateEnding])) ∧
      Name.moduleOf t.path = module := by
    intro t ht
    obtain ⟨dirs, name, hnames, hway⟩ := Project.found_of_mem hd hroot hdir hfound ht
    obtain ⟨module, rfl⟩ := endsWith_iff.mp (Bool.and_eq_true_iff.mp hnames.template).1
    refine ⟨module, ?_⟩
    rw [dirsOf_found hnames]
    refine ⟨hnames, hway, ?_⟩
    rw [hnames.path]
    exact Name.moduleOf_template fun part hpart => hway.proper part (List.mem_append_right _ hpart)
  refine ⟨rooted, ups, ns, start, hd, ?_, hbase, hrooted, htokens, ?_, ?_, ?_⟩
  · have hwalk := hleads.walk_append []
    rw [List.append_nil] at hwalk
    rw [Disk.resolve_path hleads.proper, hwalk]
    rfl
  · intro t ht
    obtain ⟨module, hnames, hway, hmodule⟩ := hplace t ht
    have hproper : Location.Proper (dirsOf root t ++ [module ++ Project.templateEnding]) :=
      fun part hpart => hway.proper part (List.mem_append_right _ hpart)
    refine ⟨houtput t _ _ hnames hproper, fun part hpart => ?_, hnames.shown, fun x hx => ?_⟩
    · rcases List.mem_append.mp hpart with hpart | hpart
      · exact hns part hpart
      · exact ⟨(hproper part (by simp [hpart])).1, (hproper part (by simp [hpart])).2.1⟩
    · obtain ⟨-, hslash, hnul⟩ := hproper (module ++ Project.templateEnding) (by simp)
      have hshort := hway.short (module ++ Project.templateEnding) (by simp)
      obtain ⟨ending, hending, rfl⟩ : ∃ ending ∈ [utf8 ".ml.go", utf8 ".mli.go"],
          x = module ++ ending := by
        rw [unitNames, hmodule] at hx
        simpa using hx
      apply fits_unit hending _ _ hshort
      · exact fun hmem => hslash (List.mem_append_left _ hmem)
      · exact fun hmem => hnul (List.mem_append_left _ hmem)
  · intro t ht t' ht' hdirs hmodules
    obtain ⟨module, hnames, -, hmodule⟩ := hplace t ht
    obtain ⟨module', hnames', -, hmodule'⟩ := hplace t' ht'
    rw [← hmodule, hdirs, hmodules, hmodule'] at hnames
    exact Project.eq_of_found hroot hfound ht ht' hnames hnames'
  · intro t ht t' ht' x hx hmem
    obtain ⟨module', -, hway', -⟩ := hplace t' ht'
    obtain ⟨upper, lower, hsplit⟩ := List.append_of_mem hmem
    have hupper : root ++ (dirsOf root t' ++ [module' ++ Project.templateEnding]) =
        root ++ upper ++ [x] ++ (lower ++ [module' ++ Project.templateEnding]) := by
      rw [hsplit]
      simp
    exact hunlike upper x (hway'.above hupper (by simp)) t ht hx

end

end Build

end Stencil
