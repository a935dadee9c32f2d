import Stencil.Proofs.Command.Sites
import Stencil.Proofs.Unit.Lookups
import Stencil.Proofs.Watch.Rebuilding

namespace Stencil

open Ascii Text

namespace Path

def Shown (p : Text) : Prop :=
  ∀ part ∈ splitOn slash p, isValidPart part = true → isSkippedDirectory part = false

theorem shown_nil : Shown [] := by
  intro part hmem hpart
  rw [splitOn, List.mem_singleton] at hmem
  exact absurd hmem (isValidPart_iff.mp hpart).1

namespace Shown

theorem clean {p : Text} (h : Shown p) : Shown (clean p) :=
  fun part hmem hpart => h part (mem_splitOn_of_clean hmem hpart) hpart

theorem append {p q : Text} (hp : Shown p) (hq : Shown q) : Shown (p ++ slash :: q) := by
  intro part hmem
  rw [splitOn_append, List.mem_append] at hmem
  exact hmem.elim (hp part) (hq part)

theorem join {p q : Text} (hp : Shown p) (hq : Shown q) : Shown (join [p, q]) := by
  by_cases hpnil : p = []
  · by_cases hqnil : q = []
    · rw [hpnil, hqnil]
      exact shown_nil
    · simpa [Path.join, hpnil, hqnil, joinWith] using hq.clean
  · by_cases hqnil : q = []
    · simpa [Path.join, hpnil, hqnil, joinWith] using hp.clean
    · simpa [Path.join, hpnil, hqnil, joinWith] using (hp.append hq).clean

theorem dir {p : Text} (h : Shown p) : Shown (dir p) := by
  apply clean
  obtain ⟨dirs, name, hparts⟩ := exists_splitOn_eq_concat slash p
  have hp := joinWith_splitOn slash p
  have hname : slash ∉ name := not_mem_of_mem_splitOn (by rw [hparts]; simp)
  rw [hparts] at hp
  by_cases hdirs : dirs = []
  · rw [hdirs, List.nil_append, joinWith] at hp
    rw [← hp, split_of_not_mem hname]
    exact shown_nil
  · rw [joinWith_concat _ _ hdirs, List.append_assoc] at hp
    rw [← hp, List.singleton_append, split_slash hname]
    have hslash : ∀ dir ∈ dirs, slash ∉ dir := fun dir hdir =>
      not_mem_of_mem_splitOn (by rw [hparts]; simp [hdir])
    refine append (fun dir hdir => ?_) shown_nil
    rw [splitOn_joinWith hdirs hslash] at hdir
    exact h dir (by rw [hparts]; simp [hdir])

theorem target {dir arg : Text} (hdir : Shown dir) (harg : Shown arg) :
    Shown (Page.targetOf dir arg) := by
  unfold Page.targetOf
  split
  next hrooted =>
    have hclean := harg.clean
    unfold Path.clean at hclean ⊢
    dsimp only at hclean ⊢
    rw [if_pos hrooted] at hclean ⊢
    intro part hmem
    exact hclean part (by rw [splitOn_sep_cons]; exact List.mem_cons_of_mem _ hmem)
  · exact (hdir.join harg).clean

end Shown

end Path

/-! Include directives lead nowhere but where they say. -/

namespace Page

def KeepsShown (log : List Event) : Prop :=
  (∀ v, .visit v ∈ log → Path.Shown v.arg) → ∀ v, .visit v ∈ log → Path.Shown v.target

theorem keepsShown_nil : KeepsShown [] := by
  intro _ v hv
  cases hv

theorem KeepsShown.append {log later : List Event} (h : KeepsShown log)
    (hlater : KeepsShown later) : KeepsShown (log ++ later) := by
  intro hargs v hv
  rcases List.mem_append.mp hv with hv | hv
  · exact h (fun v hv => hargs v (List.mem_append_left _ hv)) v hv
  · exact hlater (fun v hv => hargs v (List.mem_append_right _ hv)) v hv

theorem keepsShown_visit {v : Visit} (hdir : Path.Shown v.site.dir) :
    KeepsShown [.visit v] := by
  intro hargs v' hv'
  cases List.mem_singleton.mp hv'
  exact hdir.target (hargs v (by simp))

theorem KeepsShown.within {log : List Event} {v : Visit} {target : Text}
    (hdir : Path.Shown v.site.dir) (h : Path.Shown v.target → KeepsShown log) :
    KeepsShown (.visit v :: .enter target :: log ++ [.leave]) := by
  intro hargs
  have htarget : Path.Shown v.target := hdir.target (hargs v (by simp))
  intro v' hv'
  simp only [List.cons_append, List.mem_cons, List.mem_append, reduceCtorEq, List.not_mem_nil,
    or_false, false_or] at hv'
  rcases hv' with heq | hv'
  · cases heq
    exact htarget
  · exact h htarget (fun v hv => hargs v (by simp [hv])) v' hv'

section Expansion

variable {fs : FileSystem}

mutual

theorem Includes.keepsShown {active : List Text} {s : Sources} {site : Site} {arg : Text}
    {log : List Event} {r : Except TemplateError (List PageNode)}
    (h : Includes fs active s site arg log r) (hdir : Path.Shown site.dir) : KeepsShown log := by
  match h with
  | .refused _ _ => exact keepsShown_visit hdir
  | .data _ _ => exact keepsShown_visit hdir
  | .markup _ _ hall => exact .within hdir fun htarget => hall.keepsShown htarget.dir

theorem IncludesEach.keepsShown {active : List Text} {s : Sources} {site : Site} {args : List Text}
    {log : List Event} {r : Except TemplateError (List PageNode)}
    (h : IncludesEach fs active s site args log r) (hdir : Path.Shown site.dir) :
    KeepsShown log := by
  match h with
  | .nil => exact keepsShown_nil
  | .cons hfirst hrest => exact (hfirst.keepsShown hdir).append (hrest.keepsShown hdir)
  | .stop hfirst => exact hfirst.keepsShown hdir

theorem ExpandsNode.keepsShown {active : List Text} {s : Sources} {site : Site} {n : Markup.Node}
    {log : List Event} {r : Except TemplateError (List PageNode)}
    (h : ExpandsNode fs active s site n log r) (hdir : Path.Shown site.dir) : KeepsShown log := by
  match h with
  | .document hall => exact hall.keepsShown hdir
  | .malformed _ => exact keepsShown_nil
  | .kept _ _ hall => exact hall.keepsShown hdir
  | .noFile _ _ _ => exact keepsShown_nil
  | .replaced _ _ _ heach => exact heach.keepsShown hdir
  | .text => exact keepsShown_nil
  | .leaf _ => exact keepsShown_nil

theorem ExpandsAll.keepsShown {active : List Text} {s : Sources} {site : Site}
    {nodes : List Markup.Node} {log : List Event} {r : Except TemplateError (List PageNode)}
    (h : ExpandsAll fs active s site nodes log r) (hdir : Path.Shown site.dir) :
    KeepsShown log := by
  match h with
  | .nil => exact keepsShown_nil
  | .cons hfirst hrest => exact (hfirst.keepsShown hdir).append (hrest.keepsShown hdir)
  | .stop hfirst => exact hfirst.keepsShown hdir

end

end Expansion

end Page

namespace Document

def Meets (fs : FileSystem) (name arg : Text) : Prop :=
  ∃ content log r v, fs.read name = .ok content ∧
    Page.ExpandsAll fs [name] ⟨[(name, content)]⟩ ⟨name, Path.dir name⟩ (Markup.parse content) log
      r ∧ Page.Event.visit v ∈ log ∧ v.arg = arg

theorem shown_of_mem_files {fs : FileSystem} {name : Text} {doc : Document}
    (h : read fs name = .ok doc) (hdir : Path.Shown (Path.dir name))
    (hargs : ∀ arg, Meets fs name arg → Path.Shown arg) {p : Text} (hp : p ∈ doc.files) :
    p = name ∨ Path.Shown p := by
  obtain ⟨content, log, page, tree, symbols, hread, hexpands, -, -, rfl⟩ :=
    read_eq_ok_iff_expands.mp h
  rw [List.mem_eraseDups, List.mem_cons] at hp
  refine hp.imp id fun hp => ?_
  obtain ⟨event, hevent, hopened⟩ := List.mem_filterMap.mp hp
  cases event with
  | visit v =>
    have htarget := hexpands.keepsShown hdir
      (fun v hv => hargs v.arg ⟨content, log, _, v, hread, hexpands, hv, rfl⟩) v hevent
    unfold Page.Event.opened? at hopened
    dsimp only at hopened
    split at hopened
    · cases hopened
      exact htarget
    · cases hopened
  | enter target => cases hopened
  | leave => cases hopened

end Document

namespace Disk

theorem find?_of_has {d : Disk} {loc : Location} {p content : Text} (hp : Path.Plain p)
    (h : (d.fileSystem loc).Has p (some content)) :
    d.find? (loc ++ splitOn slash p) = some (.file content) := by
  obtain ⟨-, hsees⟩ := fileSystem_has_iff.mp h
  have hread : d.readFrom loc p = .ok content := hsees
  unfold readFrom at hread
  split at hread
  · cases hread
  next place hwalk =>
    cases eq_append_of_walk (List.all_eq_true.mpr hp.parts) hwalk
    split at hread
    next found hfind =>
      cases hread
      exact hfind
    · cases hread
    · cases hread

end Disk

namespace Compile

variable {fs : FileSystem} {name : Text} {options : CompileOptions} {r : Compiled}

theorem mem_reported_iff (h : (template fs name options).1 = .ok r) :
    ∃ doc, Document.read fs name = .ok doc ∧ (∀ p ∈ doc.files, p ∈ r.files) ∧
      ∀ p, p ∈ r.files ++ r.absent ↔ p ∈ doc.files ∨
        p ∈ [trailerPath name options ".ml.ext", trailerPath name options ".mli.ext"] := by
  obtain ⟨doc, trailers, hdoc, htrailers, h⟩ := template_eq_ok_iff.mp h
  obtain ⟨himpl, hiface⟩ := readTrailers_eq_ok_iff.mp htrailers
  obtain ⟨hfiles, habsent⟩ := document_reports h
  refine ⟨doc, hdoc, fun p hp => by rw [hfiles]; exact List.mem_append_left _ hp, fun p => ?_⟩
  have hpath {path : Text} {t : Option Trailer} (ht : Trailer.read fs path = .ok t) :
      p = path ↔ p ∈ t.toList.map (·.path) ∨ p ∈ if t.isSome then [] else [path] := by
    cases t with
    | none => simp
    | some t => simp [(Trailer.read_eq_some ht).1]
  rw [hfiles, habsent, List.map_append, List.mem_append, List.mem_append, List.mem_append,
    List.mem_append, or_assoc, or_or_or_comm, ← hpath himpl, ← hpath hiface, List.mem_pair]
  rfl

end Compile

namespace Watch

variable {root : Location} {w : Watch} {p : Text}

structure Lies (w : Watch) (root : Location) (p : Text) : Prop where
  shown : ∀ dir ∈ (splitOn slash p).dropLast, isSkippedDirectory dir = false
  watched : root ++ (splitOn slash p).dropLast ∈ w.directories

/-- A change to the file at the path is followed by a rebuild that is given its name, unless the
change moves a directory with the file in it: the loop takes all it is told and then rebuilds. -/
def Rebuilds (w : Watch) (root : Location) (p : Text) : Prop :=
  ∀ c, (w.change c).disk.find? (root ++ splitOn slash p) ≠ w.disk.find? (root ++ splitOn slash p) →
    (w.change c).disk.find? (root ++ splitOn slash p) ≠ some .directory →
    ¬ MovesAlong w.disk w.cwd c (root ++ splitOn slash p) →
    ∃ steps names, steps.filterMap Step.change? = [c] ∧ .fire ∉ steps ∧ (run w steps).queue = [] ∧
      (run w steps).fire.1 = some names ∧ (w.burst [c]).1 = some names ∧
      Location.path (root ++ splitOn slash p) ∈ names

theorem Keeps.rebuilds (h : Keeps root w) (hroot : w.disk.find? root = some .directory)
    (hqueue : w.queue = []) (hlies : w.Lies root p)
    (hrelevant : isRelevant ((splitOn slash p).getLastD []) = true) : w.Rebuilds root p := by
  obtain ⟨dirs, name, hparts⟩ := exists_splitOn_eq_concat slash p
  intro c hchanged hfile halone
  have hshown := hlies.shown
  rw [hparts] at hchanged hfile halone hrelevant hshown ⊢
  rw [List.dropLast_concat] at hshown
  rw [List.getLastD_concat] at hrelevant
  have hlast : isRelevant ((root ++ (dirs ++ [name])).getLastD []) = true := by
    rwa [← List.append_assoc, List.getLastD_concat]
  have hpending := (h.due_of_change hshown hchanged halone
    (not_awaits_of_queue hqueue root dirs)).drain hlast hfile
  have harmed := (h.change hroot c).drain.armed.mpr (List.ne_nil_of_mem hpending)
  have hburst : (w.burst [c]).1 = some (w.change c).drain.changed :=
    congrArg Prod.fst (fire_of_armed harmed)
  obtain ⟨steps, hrun, hempty, hfire, hchanges⟩ := burst_eq_run hqueue [c]
  exact ⟨steps, (w.change c).drain.changed, hchanges, hfire, hempty, by rw [← hrun, hburst], hburst,
    mem_changed.mpr ⟨_, hpending, rfl⟩⟩

theorem startsWith_cons (c b : UInt8) (s : Text) : startsWith (c :: s) [b] = decide (b = c) := by
  by_cases h : b = c <;> simp [startsWith, cutPrefix?, h]

def endings : List Text :=
  [utf8 ".ml.html", utf8 ".ml.ext", utf8 ".mli.ext"]

section Own

variable {module ending : Text} (hending : ending ∈ endings)

include hending

theorem isValidPart_ending : Path.isValidPart (module ++ ending) = true := by
  have hlength : 7 ≤ (module ++ ending).length := by
    have hlength : ∀ ending ∈ endings, 7 ≤ ending.length := by decide
    rw [List.length_append]
    exact Nat.le_add_left_of_le (hlength ending hending)
  rw [Path.isValidPart_iff]
  refine ⟨?_, ?_, ?_⟩ <;> intro heq <;> rw [heq] at hlength <;> simp at hlength

theorem slash_not_mem_ending (hmodule : slash ∉ module) : slash ∉ module ++ ending := by
  have hnone : ∀ ending ∈ endings, slash ∉ ending := by decide
  rw [List.mem_append, not_or]
  exact ⟨hmodule, hnone ending hending⟩

theorem extension_ending (hmodule : slash ∉ module) :
    toLower (Path.extension (module ++ ending)) ∈ extensions := by
  have hsplit : ∃ x tail, ending = x ++ dot :: tail ∧ dot ∉ tail ∧
      toLower (dot :: tail) ∈ extensions := by
    simp only [endings, List.mem_cons, List.not_mem_nil, or_false] at hending
    rcases hending with rfl | rfl | rfl
    · exact ⟨utf8 ".ml", utf8 "html", by decide, by decide, by decide⟩
    · exact ⟨utf8 ".ml", utf8 "ext", by decide, by decide, by decide⟩
    · exact ⟨utf8 ".mli", utf8 "ext", by decide, by decide, by decide⟩
  have hslash := slash_not_mem_ending hending hmodule
  obtain ⟨x, tail, rfl, hdot, hext⟩ := hsplit
  rw [← List.append_assoc] at hslash ⊢
  rwa [Path.extension_append hslash hdot]

end Own

theorem not_hidden_ending {module : Text} (ending : Text)
    (h : startsWith (module ++ Project.templateEnding) [dot] = false) :
    startsWith (module ++ ending) [dot] = false := by
  cases module with
  | nil => cases h
  | cons c module =>
    rw [List.cons_append, startsWith_cons] at h ⊢
    exact h

theorem own_path {t : TemplateFile} {dirs : List Text} {module : Text} {options : CompileOptions}
    (hfound : Project.Found root t dirs (module ++ Project.templateEnding))
    (hproper : Location.Proper (dirs ++ [module ++ Project.templateEnding]))
    (hmodule : options.module = [])
    (hp : p ∈ [t.path, Compile.trailerPath t.path options ".ml.ext",
      Compile.trailerPath t.path options ".mli.ext"]) :
    ∃ ending ∈ endings, p = joinWith [slash] (dirs ++ [module ++ ending]) := by
  have hslash : slash ∉ module := fun hmem =>
    (hproper (module ++ Project.templateEnding) (by simp)).2.1 (List.mem_append_left _ hmem)
  have htrailer {ending : String} (hending : utf8 ending ∈ endings) :
      Compile.trailerPath t.path options ending =
        joinWith [slash] (dirs ++ [module ++ utf8 ending]) := by
    have hname : Compile.moduleOf t.path options = module := by
      rw [Compile.moduleOf, hmodule, hfound.path]
      exact Name.moduleOf_template hproper
    rw [Compile.trailerPath, hname, hfound.path]
    exact Path.join_dir hproper.parts
      ⟨isValidPart_ending hending, slash_not_mem_ending hending hslash⟩
  simp only [List.mem_cons, List.not_mem_nil, or_false] at hp
  rcases hp with rfl | rfl | rfl
  · exact ⟨utf8 ".ml.html", by decide, hfound.path⟩
  · exact ⟨utf8 ".ml.ext", by decide, htrailer (by decide)⟩
  · exact ⟨utf8 ".mli.ext", by decide, htrailer (by decide)⟩

theorem Keeps.followed {dirs : List Text} {name : Text} (h : Keeps root w)
    (hroot : w.disk.find? root = some .directory) (hqueue : w.queue = [])
    (hparts : ∀ part ∈ dirs ++ [name], Path.isValidPart part = true ∧ slash ∉ part)
    (hshown : ∀ dir ∈ dirs, isSkippedDirectory dir = false)
    (hdir : w.disk.find? (root ++ dirs) = some .directory) :
    w.Lies root (joinWith [slash] (dirs ++ [name])) ∧
      (startsWith name [dot] = false → toLower (Path.extension name) ∈ extensions →
        isRelevant (joinWith [slash] (dirs ++ [name])) = true ∧
          w.Rebuilds root (joinWith [slash] (dirs ++ [name]))) := by
  have hsplit : splitOn slash (joinWith [slash] (dirs ++ [name])) = dirs ++ [name] :=
    splitOn_joinWith (by simp) fun part hpart => (hparts part hpart).2
  have hwatched : root ++ dirs ∈ w.directories :=
    (h.covered hshown hdir).resolve_right (not_awaits_of_queue hqueue root dirs)
  have hlies : w.Lies root (joinWith [slash] (dirs ++ [name])) := by
    constructor
    · rwa [hsplit, List.dropLast_concat]
    · rwa [hsplit, List.dropLast_concat]
  refine ⟨hlies, fun hhidden hext => ?_⟩
  have hname := hparts name (by simp)
  have hrelevant : isRelevant name = true := by
    rw [isRelevant, Path.base_of_not_mem hname.2 (Path.isValidPart_iff.mp hname.1).1]
    simp [hhidden, hext]
  refine ⟨?_, h.rebuilds hroot hqueue hlies ?_⟩
  · rw [isRelevant, Path.base_joinWith hparts]
    simp [hhidden, hext]
  · rwa [hsplit, List.getLastD_concat]

theorem shown_dir {d : Disk} {t : TemplateFile} {dirs : List Text} {name : Text}
    (hplace : Project.Found root t dirs name) (hleads : d.Leads (root ++ (dirs ++ [name]))) :
    Path.Shown (Path.dir t.path) := by
  have hproper : Location.Proper (dirs ++ [name]) := fun part hpart =>
    hleads.proper part (List.mem_append_right _ hpart)
  intro part hmem hvalid
  rw [hplace.path, Path.dir_joinWith hproper.parts] at hmem
  split at hmem
  · rw [splitOn_of_not_mem (by decide), List.mem_singleton] at hmem
    exact absurd hmem (Path.isValidPart_iff.mp hvalid).2.1
  next hdirs =>
    rw [splitOn_joinWith hdirs fun dir hdir => (hproper dir (by simp [hdir])).2.1] at hmem
    exact hplace.shown part hmem

theorem extension_mem_of_kind
    (h : Page.FileKind.ofPath p ≠ .data ∨ toLower (Path.extension p) ∈ [utf8 ".txt", utf8 ".ext"]) :
    toLower (Path.extension p) ∈ extensions := by
  generalize hext : toLower (Path.extension p) = ext at h ⊢
  rcases h with hkind | hmem
  · rw [Page.FileKind.ofPath, hext] at hkind
    split at hkind
    next hmarkup =>
      simp only [Bool.or_eq_true, decide_eq_true_eq] at hmarkup
      rcases hmarkup with rfl | rfl <;> decide
    · split at hkind
      next hmarkdown =>
        simp only [Bool.or_eq_true, decide_eq_true_eq] at hmarkdown
        rcases hmarkdown with rfl | rfl <;> decide
      · exact absurd rfl hkind
  · simp only [List.mem_cons, List.not_mem_nil, or_false] at hmem
    rcases hmem with rfl | rfl <;> decide

section Followed

variable {t : TemplateFile} {options : CompileOptions} (h : Keeps root w)
  (hdir : w.disk.find? root = some .directory) (hqueue : w.queue = [])

include h hdir hqueue

theorem Keeps.own {dirs : List Text} {module : Text}
    (hplace : Project.Found root t dirs (module ++ Project.templateEnding))
    (hleads : w.disk.Leads (root ++ (dirs ++ [module ++ Project.templateEnding])))
    (hmodule : options.module = [])
    (hp : p ∈ [t.path, Compile.trailerPath t.path options ".ml.ext",
      Compile.trailerPath t.path options ".mli.ext"]) :
    w.Lies root p ∧ (startsWith (Path.base t.path) [dot] = false →
      startsWith (Path.base p) [dot] = false ∧ isRelevant p = true ∧ w.Rebuilds root p) := by
  have hproper : Location.Proper (dirs ++ [module ++ Project.templateEnding]) := fun part hpart =>
    hleads.proper part (List.mem_append_right _ hpart)
  have hslash : slash ∉ module := fun hmem =>
    (hproper (module ++ Project.templateEnding) (by simp)).2.1 (List.mem_append_left _ hmem)
  obtain ⟨ending, hending, rfl⟩ := own_path hplace hproper hmodule hp
  have hparts : ∀ part ∈ dirs ++ [module ++ ending],
      Path.isValidPart part = true ∧ slash ∉ part := by
    intro part hpart
    rcases List.mem_append.mp hpart with hpart | hpart
    · exact hproper.parts part (List.mem_append_left _ hpart)
    · rw [List.mem_singleton.mp hpart]
      exact ⟨isValidPart_ending hending, slash_not_mem_ending hending hslash⟩
  have habove : w.disk.find? (root ++ dirs) = some .directory :=
    hleads.above (List.append_assoc ..).symm (List.cons_ne_nil _ [])
  obtain ⟨hlies, hfollowed⟩ := h.followed hdir hqueue hparts hplace.shown habove
  refine ⟨hlies, fun hhidden => ?_⟩
  rw [hplace.path, Path.base_joinWith hproper.parts] at hhidden
  rw [Path.base_joinWith hparts]
  have hshown := not_hidden_ending ending hhidden
  exact ⟨hshown, hfollowed hshown (extension_ending hending hslash)⟩

theorem Keeps.included {content : Text} (hhas : (w.disk.fileSystem root).Has p (some content))
    (hshown : Path.Shown p) :
    w.Lies root p ∧ startsWith (Path.base p) [dot] = false ∧
      (Page.FileKind.ofPath p ≠ .data ∨ toLower (Path.extension p) ∈ [utf8 ".txt", utf8 ".ext"] →
        isRelevant p = true ∧ w.Rebuilds root p) := by
  have hplain := Disk.plain_of_has hdir hhas
  have hfile := Disk.find?_of_has hplain hhas
  obtain ⟨dirs, name, hsplit⟩ := exists_splitOn_eq_concat slash p
  have hparts : ∀ part ∈ dirs ++ [name], Path.isValidPart part = true ∧ slash ∉ part := by
    rw [← hsplit]
    exact fun part hpart => ⟨hplain.parts part hpart, not_mem_of_mem_splitOn hpart⟩
  have hskip : ∀ part ∈ dirs ++ [name], isSkippedDirectory part = false := by
    rw [← hsplit]
    exact fun part hpart => hshown part hpart (hplain.parts part hpart)
  have habove : w.disk.find? (root ++ dirs) = some .directory := by
    rw [hsplit] at hfile
    exact (h.sound _ (by rw [hfile]; rfl)).above (List.append_assoc ..).symm (List.cons_ne_nil _ [])
  have hp : p = joinWith [slash] (dirs ++ [name]) := by rw [← hsplit, joinWith_splitOn]
  obtain ⟨hlies, hfollowed⟩ := h.followed hdir hqueue hparts
    (fun dir hmem => hskip dir (List.mem_append_left _ hmem)) habove
  have hhidden : startsWith name [dot] = false := by
    have hname := hskip name (by simp)
    simp only [isSkippedDirectory, Bool.or_eq_false_iff] at hname
    exact hname.2
  rw [← hp] at hlies hfollowed
  refine ⟨hlies, by rwa [hp, Path.base_joinWith hparts], fun hkind => hfollowed hhidden ?_⟩
  rw [← Path.extension_joinWith hparts, ← hp]
  exact extension_mem_of_kind hkind

end Followed

/-- What a found template is compiled from is watched. The template and its trailers are watched in
any case, and a change to one of them is followed by a rebuild unless the template itself is hidden.
So is every file that it includes by a path with no hidden part and no packages from elsewhere, if
the file has one of the known extensions. Directives that name only such paths lead to no other. -/
theorem inputs_watched {d : Disk} {cwd : Location} {input : Text} {templates : List TemplateFile}
    {t : TemplateFile} {options : CompileOptions} {r : Compiled} (hd : d.Sound)
    (hroot : d.resolve cwd (Path.absolute cwd.path input) = .ok root)
    (hfound : (Project.discover d cwd input).1 = .ok templates) (ht : t ∈ templates)
    (hmodule : options.module = [])
    (hr : (Compile.template (d.fileSystem root) t.path options).1 = .ok r)
    (hstart : start d cwd input = .ok w) :
    (∀ p ∈ [t.path, Compile.trailerPath t.path options ".ml.ext",
        Compile.trailerPath t.path options ".mli.ext"],
      p ∈ r.files ++ r.absent ∧ w.Lies root p ∧
        (startsWith (Path.base t.path) [dot] = false →
          isRelevant p = true ∧ w.Rebuilds root p)) ∧
    (∀ p ∈ r.files, Path.Shown p → w.Lies root p ∧ startsWith (Path.base p) [dot] = false ∧
      (Page.FileKind.ofPath p ≠ .data ∨ toLower (Path.extension p) ∈ [utf8 ".txt", utf8 ".ext"] →
        isRelevant p = true ∧ w.Rebuilds root p)) ∧
    ((∀ arg, Document.Meets (d.fileSystem root) t.path arg → Path.Shown arg) →
      ∀ p ∈ r.files ++ r.absent, p ∈ [t.path, Compile.trailerPath t.path options ".ml.ext",
        Compile.trailerPath t.path options ".mli.ext"] ∨ p ∈ r.files ∧ Path.Shown p) := by
  have hdir := Compile.directory_of_template hr
  have hkeeps := Keeps.of_start hd hroot hstart
  have hw := start_eq_ok hroot hstart
  have hqueue : w.queue = [] := by rw [hw]
  have hdisk : w.disk = d := by rw [hw]
  obtain ⟨dirs, name, hplace, hleads⟩ := Project.found_of_mem hd hroot hdir hfound ht
  obtain ⟨module, rfl⟩ := endsWith_iff.mp (Bool.and_eq_true_iff.mp hplace.template).1
  obtain ⟨doc, hdoc, hfiles, hreported⟩ := Compile.mem_reported_iff hr
  refine ⟨fun p hp => ⟨?_, ?_⟩, fun p hp hshown => ?_, fun hargs p hp => ?_⟩
  · rw [hreported]
    rcases List.mem_cons.mp hp with rfl | hp
    · exact .inl (Document.name_mem_files hdoc)
    · exact .inr hp
  · rw [← hdisk] at hdir hleads
    obtain ⟨hlies, hfollowed⟩ := hkeeps.own hdir hqueue hplace hleads hmodule hp
    exact ⟨hlies, fun hhidden => (hfollowed hhidden).2⟩
  · obtain ⟨content, hread⟩ := (Compile.reads_of_template hr).1 p hp
    rw [← hdisk] at hdir hread
    exact hkeeps.included hdir hqueue hread hshown
  · rw [hreported] at hp
    rcases hp with hp | hp
    -- a file of the document: the template itself, or one that it includes
    · rcases Document.shown_of_mem_files hdoc (shown_dir hplace hleads) hargs hp with rfl | hshown
      · exact .inl (by simp)
      · exact .inr ⟨hfiles p hp, hshown⟩
    · exact .inl (List.mem_cons_of_mem _ hp)

section Sample

def page : TemplateFile := ⟨utf8 "page.ml.html", [], []⟩

def noteAt (dir name : String) : Text := utf8 dir ++ utf8 "/" ++ utf8 name

def pageText (dir name : String) : Text :=
  utf8 "<p ml:content=\"include " ++ noteAt dir name ++ utf8 "\"></p>"

def pageBeside (dir name : String) : Disk :=
  ⟨[([utf8 "page.ml.html"], .file (pageText dir name)), ([utf8 dir], .directory),
    ([utf8 dir, utf8 name], .file (utf8 "x"))]⟩

def pageWatch (dir name : String) : Watch :=
  { disk := pageBeside dir name
    cwd := []
    directories := directoriesOf ((pageBeside dir name).sourceTree []) }

theorem pages_compiled : ∀ p ∈ [("parts", "n.txt"), ("vendor", "n.txt"), ("parts", ".n.txt"),
      ("parts", "n.dat")],
    (Project.discover (pageBeside p.1 p.2) [] [dot]).1 = .ok [page] ∧
      ((Compile.template ((pageBeside p.1 p.2).fileSystem []) page.path {}).1.toOption.map
        (·.files)) = some [page.path, noteAt p.1 p.2] := by
  decide +kernel

theorem meets_page {arg : Text}
    (h : Document.Meets ((pageBeside "parts" "n.txt").fileSystem []) page.path arg) :
    arg = noteAt "parts" "n.txt" := by
  obtain ⟨content, log, r, v, hread, hexpands, hv, rfl⟩ := h
  have hcontent : ((pageBeside "parts" "n.txt").fileSystem []).read page.path =
      .ok (pageText "parts" "n.txt") := rfl
  cases hcontent.symm.trans hread
  have hparse : Markup.parse (pageText "parts" "n.txt") =
      [.element [] (utf8 "p")
        [⟨[], utf8 "ml:content", utf8 "include " ++ noteAt "parts" "n.txt"⟩] []] := rfl
  rw [hparse] at hexpands
  have hfinds : Page.Finds ((pageBeside "parts" "n.txt").fileSystem []) [page.path]
      (Page.targetOf (Path.dir page.path) (noteAt "parts" "n.txt")) (.opened (utf8 "x")) :=
    .opened (by decide) (by decide) rfl
  have hincludes : Page.Includes ((pageBeside "parts" "n.txt").fileSystem []) [page.path]
      ⟨[(page.path, pageText "parts" "n.txt")]⟩ ⟨page.path, Path.dir page.path⟩
      (noteAt "parts" "n.txt") _ _ :=
    .data hfinds rfl
  have hdirective : Directive.read
        [⟨[], utf8 "ml:content", utf8 "include " ++ noteAt "parts" "n.txt"⟩] =
      .ok (⟨some Directive.includeHole, [noteAt "parts" "n.txt"], .none⟩, []) := rfl
  have hnode : Page.ExpandsNode ((pageBeside "parts" "n.txt").fileSystem []) [page.path]
      ⟨[(page.path, pageText "parts" "n.txt")]⟩ ⟨page.path, Path.dir page.path⟩
      (.element [] (utf8 "p")
        [⟨[], utf8 "ml:content", utf8 "include " ++ noteAt "parts" "n.txt"⟩] []) _ _ :=
    .replaced hdirective rfl (List.cons_ne_nil _ _) (.cons hincludes .nil)
  obtain ⟨rfl, -⟩ := (Page.ExpandsAll.cons hnode .nil).only _ _ hexpands
  cases List.mem_singleton.mp hv
  rfl

end Sample

theorem inputs_watched_included :
    start (pageBeside "parts" "n.txt") [] [dot] = .ok (pageWatch "parts" "n.txt") ∧
    ∃ r, (Compile.template ((pageBeside "parts" "n.txt").fileSystem []) page.path {}).1 = .ok r ∧
      noteAt "parts" "n.txt" ∈ r.files ++ r.absent ∧ isRelevant (noteAt "parts" "n.txt") = true ∧
      (pageWatch "parts" "n.txt").Lies [] (noteAt "parts" "n.txt") ∧
      (pageWatch "parts" "n.txt").Rebuilds [] (noteAt "parts" "n.txt") := by
  have hstart : start (pageBeside "parts" "n.txt") [] [dot] = .ok (pageWatch "parts" "n.txt") := rfl
  refine ⟨hstart, ?_⟩
  have hsound : (pageBeside "parts" "n.txt").Sound := by
    apply Disk.sound_of_entries
    decide
  have hroot : (pageBeside "parts" "n.txt").resolve [] (Path.absolute (Location.path []) [dot]) =
      .ok [] := by
    decide
  obtain ⟨hfound, hfiles⟩ := pages_compiled ("parts", "n.txt") List.mem_cons_self
  obtain ⟨r, hr, hnames⟩ := Option.map_eq_some_iff.mp hfiles
  rw [toOption_eq_some_iff] at hr
  have hmem : noteAt "parts" "n.txt" ∈ r.files ++ r.absent := by simp [hnames]
  have hargs : ∀ arg, Document.Meets ((pageBeside "parts" "n.txt").fileSystem []) page.path arg →
      Path.Shown arg := by
    intro arg harg
    rw [meets_page harg]
    unfold Path.Shown
    decide
  obtain ⟨-, hincluded, hnamed⟩ := inputs_watched hsound hroot hfound (List.mem_singleton.mpr rfl)
    rfl hr hstart
  obtain ⟨hfile, hshown⟩ := (hnamed hargs _ hmem).resolve_left (by decide)
  obtain ⟨hlies, -, hfollowed⟩ := hincluded _ hfile hshown
  obtain ⟨hrelevant, hrebuilds⟩ := hfollowed (.inr (by decide))
  exact ⟨r, hr, hmem, hrelevant, hlies, hrebuilds⟩

/-- A page can include a file of a directory that is skipped. It is compiled with it, and a change
to the file goes unnoticed. -/
theorem vendored_include_unwatched :
    start (pageBeside "vendor" "n.txt") [] [dot] = .ok (pageWatch "vendor" "n.txt") ∧
    (Project.discover (pageBeside "vendor" "n.txt") [] [dot]).1 = .ok [page] ∧
      ((Compile.template ((pageBeside "vendor" "n.txt").fileSystem []) page.path {}).1.toOption.map
        (·.files)) = some [page.path, noteAt "vendor" "n.txt"] ∧
      isSkippedDirectory (utf8 "vendor") = true ∧
      ((pageWatch "vendor" "n.txt").burst [.write (noteAt "vendor" "n.txt") (utf8 "y")]).1 =
        none := by
  obtain ⟨hfound, hfiles⟩ := pages_compiled ("vendor", "n.txt") (by simp)
  exact ⟨rfl, hfound, hfiles, by decide, rfl⟩

/-- In a directory that is watched, a change to a file with a hidden name or with another extension
goes unnoticed as well. -/
theorem included_file_irrelevant : ∀ name ∈ [".n.txt", "n.dat"],
    start (pageBeside "parts" name) [] [dot] = .ok (pageWatch "parts" name) ∧
    (Project.discover (pageBeside "parts" name) [] [dot]).1 = .ok [page] ∧
      ((Compile.template ((pageBeside "parts" name).fileSystem []) page.path {}).1.toOption.map
        (·.files)) = some [page.path, noteAt "parts" name] ∧
      (pageWatch "parts" name).Lies [] (noteAt "parts" name) ∧
      isRelevant (noteAt "parts" name) = false ∧
      ((pageWatch "parts" name).burst [.write (noteAt "parts" name) (utf8 "y")]).1 = none := by
  obtain ⟨hhidden, hhiddenFiles⟩ := pages_compiled ("parts", ".n.txt") (by simp)
  obtain ⟨hother, hotherFiles⟩ := pages_compiled ("parts", "n.dat") (by simp)
  simp only [List.forall_mem_cons]
  refine ⟨⟨rfl, hhidden, hhiddenFiles, ⟨by decide, ?_⟩, by decide, rfl⟩,
    ⟨rfl, hother, hotherFiles, ⟨by decide, ?_⟩, by decide, rfl⟩, by simp⟩
  · decide
  · decide

end Watch

end Stencil
