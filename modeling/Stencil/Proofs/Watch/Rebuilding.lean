import Stencil.Proofs.Watch.Loop

namespace Stencil

open Ascii Text

namespace Watch

variable {root f : Location} {w : Watch} {e : Event}

def Due (w : Watch) (f : Location) : Prop :=
  f ∈ w.pending ∨ ∃ e ∈ w.queue, e.location = f ∧ e.kind ≠ .chmod

theorem fire_of_armed (h : w.armed = true) :
    w.fire = (some w.changed, { w with pending := [], armed := false }) :=
  if_pos h

theorem fire_of_not_armed (h : w.armed = false) : w.fire = (none, w) :=
  if_neg (by simp [h])

theorem mem_changed {p : Text} : p ∈ w.changed ↔ ∃ l ∈ w.pending, l.path = p := by
  rw [changed, Text.sort, (Text.sortOn_perm _ _).mem_iff, List.mem_map]

theorem Keeps.changed_strict (h : Keeps root w) :
    w.changed.Pairwise fun p q => Text.lt p q = true := by
  refine Text.sort_strict (h.distinct.map_on fun l hl l' hl' heq => ?_)
  exact Location.path_injective (h.pending l hl) (h.pending l' hl') heq

namespace Due

theorem change (h : w.Due f) (c : Change) : (w.change c).Due f := by
  rcases h with hpending | ⟨e, he, hf⟩
  · exact .inl hpending
  · exact .inr ⟨e, List.mem_append_left _ he, hf⟩

theorem take (h : w.Due f) (hrelevant : isRelevant (f.getLastD []) = true)
    (hfile : w.disk.find? f ≠ some .directory) : w.take.Due f := by
  cases hqueue : w.queue with
  | nil =>
    rw [Watch.take, hqueue]
    exact h
  | cons e rest =>
    rw [take_cons hqueue]
    -- what is pending stays so, whatever the event is
    have hstays : f ∈ w.pending → f ∈ (w.handle e).pending := by
      intro hpending
      unfold handle
      dsimp only
      split
      · exact hpending
      · split
        · exact mem_added.mpr (.inl hpending)
        · exact hpending
    rcases h with hpending | ⟨e', he', hf, hkind⟩
    · exact .inl (hstays hpending)
    · rw [hqueue, List.mem_cons] at he'
      rcases he' with rfl | he'
      · subst hf
        rw [handle_of_counts ⟨hrelevant, hkind, fun h => hfile h.2⟩]
        exact .inl (mem_added.mpr (.inr rfl))
      · exact .inr ⟨e', he', hf, hkind⟩

theorem fire (h : w.Due f) :
    w.fire.2.Due f ∨ ∃ names, w.fire.1 = some names ∧ f.path ∈ names := by
  cases harmed : w.armed with
  | false =>
    rw [fire_of_not_armed harmed]
    exact .inl h
  | true =>
    rw [fire_of_armed harmed]
    rcases h with hpending | hqueued
    · exact .inr ⟨_, rfl, mem_changed.mpr ⟨f, hpending, rfl⟩⟩
    · exact .inl (.inr hqueued)

theorem drain (h : w.Due f) (hrelevant : isRelevant (f.getLastD []) = true)
    (hfile : w.disk.find? f ≠ some .directory) : f ∈ w.drain.pending := by
  induction hqueue : w.queue generalizing w with
  | nil =>
    rw [drain_nil hqueue]
    rcases h with hpending | ⟨e, he, -⟩
    · exact hpending
    · rw [hqueue] at he
      cases he
  | cons e rest ih =>
    rw [← drain_take hqueue]
    refine ih (h.take hrelevant hfile) ?_ (by rw [take_cons hqueue])
    rw [disk_take]
    exact hfile

theorem rebuilt {steps : List Step} (h : w.Due f) (hkeeps : Keeps root w)
    (hrelevant : isRelevant (f.getLastD []) = true)
    (hroot : ∀ before, before <+: steps → (run w before).disk.find? root = some .directory)
    (hfile : ∀ before, before <+: steps → (run w before).disk.find? f ≠ some .directory)
    (hqueue : (run w steps).queue = []) (harmed : (run w steps).armed = false) :
    ∃ before after names, steps = before ++ .fire :: after ∧
      (run w before).fire.1 = some names ∧ f.path ∈ names := by
  induction steps generalizing w with
  | nil =>
    rcases h with hpending | ⟨e, he, -⟩
    · have hsome := hkeeps.armed.mpr (List.ne_nil_of_mem hpending)
      rw [run_nil, hsome] at harmed
      cases harmed
    · rw [run_nil] at hqueue
      rw [hqueue] at he
      cases he
  | cons s steps ih =>
    have hnext : (w.step s).Due f ∨
        s = .fire ∧ ∃ names, w.fire.1 = some names ∧ f.path ∈ names := by
      cases s with
      | change c => exact .inl (h.change c)
      | take => exact .inl (h.take hrelevant (hfile [] List.nil_prefix))
      | fire => exact h.fire.imp id fun hnames => ⟨rfl, hnames⟩
    rcases hnext with hdue | ⟨rfl, names, hnames, hmem⟩
    · obtain ⟨before, after, names, rfl, hnames, hmem⟩ :=
        ih hdue (hkeeps.step (hroot [] List.nil_prefix) s)
          (fun before hbefore => hroot (s :: before) (List.cons_prefix_cons.mpr ⟨rfl, hbefore⟩))
          (fun before hbefore => hfile (s :: before) (List.cons_prefix_cons.mpr ⟨rfl, hbefore⟩))
          hqueue harmed
      exact ⟨s :: before, after, names, rfl, hnames, hmem⟩
    · exact ⟨[], steps, names, rfl, hnames, hmem⟩

end Due

theorem Keeps.due_of_change (h : Keeps root w) {c : Change} {dirs : Location} {name : Text}
    (hshown : ∀ dir ∈ dirs, isSkippedDirectory dir = false)
    (hchanged : (w.change c).disk.find? (root ++ (dirs ++ [name])) ≠
      w.disk.find? (root ++ (dirs ++ [name])))
    (halone : ¬ MovesAlong w.disk w.cwd c (root ++ (dirs ++ [name])))
    (hknown : ¬ w.Awaits root dirs) : (w.change c).Due (root ++ (dirs ++ [name])) := by
  have houtcome := effect_outcome h.sound w.cwd c
  obtain ⟨e, he, hplace, hkind⟩ := houtcome.told h.sound hchanged halone
  have hleads := houtcome.leads h.sound he
  rw [hplace] at hleads
  have hdir : w.disk.find? (root ++ dirs) = some .directory :=
    hleads.above (List.append_assoc ..).symm (List.cons_ne_nil name [])
  have hwatched := (h.covered hshown hdir).resolve_right hknown
  refine .inr ⟨e, List.mem_append_right _ (List.mem_filter.mpr ⟨he, ?_⟩), hplace, hkind⟩
  rw [sees, hplace, ← List.append_assoc, List.dropLast_concat, List.contains_iff_mem.mpr hwatched]
  rfl

def Taken (w : Watch) (steps : List Step) (l : Location) : Prop :=
  ∃ before after e, steps = before ++ .take :: after ∧ (run w before).queue.head? = some e ∧
    Counts (run w before).disk e ∧ e.location = l

def Idle (w : Watch) (steps : List Step) : Prop :=
  ∀ before after, steps = before ++ .fire :: after → (run w before).armed = false

theorem taken_concat {steps : List Step} {s : Step} {l : Location} :
    w.Taken (steps ++ [s]) l ↔ w.Taken steps l ∨
      s = .take ∧ ∃ e, (run w steps).queue.head? = some e ∧ Counts (run w steps).disk e ∧
        e.location = l := by
  constructor
  · rintro ⟨before, after, e, hsteps, htaken⟩
    obtain rfl | ⟨init, last, rfl⟩ := List.eq_nil_or_concat after
    · obtain ⟨rfl, hs⟩ := List.append_inj' hsteps rfl
      exact .inr ⟨List.singleton_inj.mp hs, e, htaken⟩
    · rw [List.concat_eq_append, ← List.cons_append, ← List.append_assoc] at hsteps
      obtain ⟨rfl, -⟩ := List.append_inj' hsteps rfl
      exact .inl ⟨before, init, e, rfl, htaken⟩
  · rintro (⟨before, after, e, rfl, htaken⟩ | ⟨rfl, e, htaken⟩)
    · exact ⟨before, after ++ [s], e, by simp, htaken⟩
    · exact ⟨steps, [], e, rfl, htaken⟩

theorem Keeps.mem_pending_step (h : Keeps root w) {s : Step} (hidle : s = .fire → w.armed = false)
    {l : Location} : l ∈ (w.step s).pending ↔ l ∈ w.pending ∨
      s = .take ∧ ∃ e, w.queue.head? = some e ∧ Counts w.disk e ∧ e.location = l := by
  cases s with
  | change c =>
    refine (or_iff_left ?_).symm
    rintro ⟨⟨⟩, -⟩
  | fire =>
    rw [Watch.step, fire_of_not_armed (hidle rfl)]
    refine (or_iff_left ?_).symm
    rintro ⟨⟨⟩, -⟩
  | take =>
    rw [Watch.step]
    cases hqueue : w.queue with
    | nil =>
      rw [Watch.take, hqueue]
      simp
    | cons e rest =>
      rw [take_cons hqueue]
      simp only [List.head?_cons, Option.some.injEq, exists_eq_left', true_and]
      -- the three things that an event can do
      by_cases hopens : Opens w.disk e
      · have hcounts : ¬ Counts w.disk e := fun hcounts => hcounts.2.2 ⟨hopens.1, hopens.2.1⟩
        rw [handle_of_opens hopens]
        simp [hcounts]
      · by_cases hcounts : Counts w.disk e
        · rw [handle_of_counts hcounts]
          simp only [hcounts, true_and]
          rw [mem_added, eq_comm (a := l)]
        · rw [handle_of_neither (h.queued e (by simp [hqueue])) hopens hcounts]
          simp [hcounts]

theorem mem_pending_iff {steps : List Step} (hnone : w.pending = [])
    (hidle : w.Idle steps) (hkeeps : ∀ before, before <+: steps → Keeps root (run w before))
    {l : Location} : l ∈ (run w steps).pending ↔ w.Taken steps l := by
  induction steps using List.reverseRecOn with
  | nil =>
    rw [run_nil, hnone]
    refine iff_of_false List.not_mem_nil ?_
    rintro ⟨before, after, e, hsteps, -⟩
    simp at hsteps
  | append_singleton steps s ih =>
    have hprefix : steps <+: steps ++ [s] := List.prefix_append ..
    have hih := ih (fun before after hsteps => hidle before (after ++ [s]) (by simp [hsteps]))
      fun before hbefore => hkeeps before (hbefore.trans hprefix)
    rw [run_append, run_cons, run_nil, taken_concat, ← hih]
    exact (hkeeps steps hprefix).mem_pending_step fun hs => hidle steps [] (by rw [hs])

def Rebuilt (w : Watch) (steps : List Step) : Prop :=
  steps = [] ∨ ∃ earlier, steps = earlier ++ [.fire] ∧ (run w earlier).armed = true

theorem pending_of_rebuilt {steps : List Step} (hnone : w.pending = []) (h : w.Rebuilt steps) :
    (run w steps).pending = [] := by
  rcases h with rfl | ⟨earlier, rfl, harmed⟩
  · exact hnone
  · rw [run_append, run_cons, run_nil, Watch.step, fire_of_armed harmed]

theorem names_given {before since : List Step} (hnone : w.pending = [])
    (hkeeps : ∀ mid, mid <+: before ++ since → Keeps root (run w mid)) (hrebuilt : w.Rebuilt before)
    (hidle : (run w before).Idle since) :
    ((run w (before ++ since)).armed = true ↔ ∃ l, (run w before).Taken since l) ∧
    ∀ names, (run w (before ++ since)).fire.1 = some names →
      names.Pairwise (fun p q => Text.lt p q = true) ∧
      ∀ p, p ∈ names ↔ ∃ l, (run w before).Taken since l ∧ l.path = p := by
  have hpending (l : Location) :
      l ∈ (run w (before ++ since)).pending ↔ (run w before).Taken since l := by
    have hsince (mid : List Step) (hmid : mid <+: since) : Keeps root (run (run w before) mid) := by
      rw [← run_append]
      exact hkeeps _ ((List.prefix_append_right_inj before).mpr hmid)
    rw [run_append]
    exact mem_pending_iff (pending_of_rebuilt hnone hrebuilt) hidle hsince
  have hend := hkeeps (before ++ since) List.prefix_rfl
  refine ⟨?_, fun names hnames => ?_⟩
  · rw [hend.armed, ← exists_congr hpending]
    exact ⟨List.exists_mem_of_ne_nil _, fun ⟨l, hl⟩ => List.ne_nil_of_mem hl⟩
  · cases harmed : (run w (before ++ since)).armed with
    | false =>
      rw [fire_of_not_armed harmed] at hnames
      cases hnames
    | true =>
      rw [fire_of_armed harmed] at hnames
      cases hnames
      refine ⟨hend.changed_strict, fun p => ?_⟩
      rw [mem_changed]
      exact exists_congr fun l => and_congr_left' (hpending l)

/-- In every order of steps during which the directory `root` is left in its place:
directories below it that are not skipped are watched, or one on the way to them was made and this
waits to be taken;
when the loop is at rest, the last change to a relevant file has been followed by a rebuild that was
given its name, if the file was not moved along with a directory and none of the directories above
it was waiting to be known;
and a rebuild is made if a relevant change was taken since the one before, with just the names of
what was taken, in order and each once. -/
theorem told_changes_rebuilt {d : Disk} {cwd : Location} {input : Text} (hd : d.Sound)
    (hroot : d.resolve cwd (Path.absolute cwd.path input) = .ok root)
    (hstart : start d cwd input = .ok w) {steps : List Step}
    (hstays : ∀ before, before <+: steps → (run w before).disk.find? root = some .directory) :
    (∀ dirs : Location, (∀ dir ∈ dirs, isSkippedDirectory dir = false) →
      (run w steps).disk.find? (root ++ dirs) = some .directory →
      root ++ dirs ∈ (run w steps).directories ∨ (run w steps).Awaits root dirs) ∧
    ((run w steps).queue = [] → (run w steps).armed = false →
      ∀ before c after (dirs : Location) name, steps = before ++ .change c :: after →
        (∀ dir ∈ dirs, isSkippedDirectory dir = false) → isRelevant name = true →
        (run w (before ++ [.change c])).disk.find? (root ++ (dirs ++ [name])) ≠
          (run w before).disk.find? (root ++ (dirs ++ [name])) →
        (∀ mid, mid <+: after → (run w (before ++ .change c :: mid)).disk.find?
          (root ++ (dirs ++ [name])) =
            (run w (before ++ [.change c])).disk.find? (root ++ (dirs ++ [name]))) →
        (run w steps).disk.find? (root ++ (dirs ++ [name])) ≠ some .directory →
        ¬ MovesAlong (run w before).disk (run w before).cwd c (root ++ (dirs ++ [name])) →
        ¬ (run w before).Awaits root dirs →
        ∃ mid later names, after = mid ++ .fire :: later ∧
          (run w (before ++ .change c :: mid)).fire.1 = some names ∧
          Location.path (root ++ (dirs ++ [name])) ∈ names) ∧
    ∀ before since after, steps = before ++ since ++ .fire :: after → w.Rebuilt before →
      (run w before).Idle since →
      ((run w (before ++ since)).armed = true ↔ ∃ l, (run w before).Taken since l) ∧
      ∀ names, (run w (before ++ since)).fire.1 = some names →
        names.Pairwise (fun p q => Text.lt p q = true) ∧
        ∀ p, p ∈ names ↔ ∃ l, (run w before).Taken since l ∧ l.path = p := by
  have hkeeps (before : List Step) (hbefore : before <+: steps) : Keeps root (run w before) :=
    (Keeps.of_start hd hroot hstart).run fun mid hmid => hstays mid (hmid.trans hbefore)
  refine ⟨fun dirs hshown hdir => (hkeeps steps List.prefix_rfl).covered hshown hdir, ?_, ?_⟩
  · intro hqueue harmed before c after dirs name hsteps hshown hrelevant hchanged hlast hfile
      halone hknown
    have hnext (mid : List Step) :
        run w (before ++ .change c :: mid) = run ((run w before).change c) mid := run_append ..
    have hmid {mid : List Step} (h : mid <+: after) : before ++ .change c :: mid <+: steps := by
      rw [hsteps]
      exact (List.prefix_append_right_inj before).mpr (List.cons_prefix_cons.mpr ⟨rfl, h⟩)
    simp only [hnext, run_nil] at hchanged hlast ⊢
    rw [hsteps, hnext] at hqueue harmed hfile
    have hbefore := hkeeps before (by rw [hsteps]; exact List.prefix_append ..)
    have hchange : Keeps root ((run w before).change c) :=
      hbefore.change (hstays before (by rw [hsteps]; exact List.prefix_append ..)) c
    -- the change is due from here on, and nothing is due at rest
    have hdue := hbefore.due_of_change hshown hchanged halone hknown
    refine hdue.rebuilt hchange ?_ ?_ ?_ hqueue harmed
    · rwa [← List.append_assoc, List.getLastD_concat]
    · intro mid hafter
      rw [← hnext]
      exact hstays _ (hmid hafter)
    · intro mid hafter
      rw [hlast mid hafter, ← hlast after List.prefix_rfl]
      exact hfile
  · intro before since after hsteps hrebuilt hidle
    refine names_given ?_ (fun mid hmid => hkeeps mid (hmid.trans ?_)) hrebuilt hidle
    · rw [start_eq_ok hroot hstart]
    · rw [hsteps]
      exact List.prefix_append ..

def grove : Disk :=
  ⟨[([utf8 "t"], .directory), ([utf8 "o"], .directory), ([utf8 "o", utf8 "d"], .directory),
    ([utf8 "o", utf8 "d", utf8 "a.html"], .file (utf8 "x"))]⟩

def groveWatch : Watch :=
  { disk := grove, cwd := [], directories := directoriesOf (grove.sourceTree [utf8 "t"]) }

def pageWritten (mid : List Step) : List Step :=
  [.change (.makeDirectory (utf8 "t/n")), .take] ++
    .change (.write (utf8 "t/n/a.html") (utf8 "y")) :: mid

theorem told_changes_rebuilt_in_new_directory :
    start grove [] (utf8 "t") = .ok groveWatch ∧
    ∃ mid later names, [.take, .take, .fire] = mid ++ .fire :: later ∧
      (run groveWatch (pageWritten mid)).fire.1 = some names ∧
      Location.path [utf8 "t", utf8 "n", utf8 "a.html"] ∈ names := by
  have hsound : grove.Sound := by
    apply Disk.sound_of_entries
    decide
  have hroot : grove.resolve [] (Path.absolute (Location.path []) (utf8 "t")) = .ok [utf8 "t"] := by
    decide
  have hstart : start grove [] (utf8 "t") = .ok groveWatch := rfl
  have hstays : ∀ before, before <+: pageWritten [.take, .take, .fire] →
      (run groveWatch before).disk.find? [utf8 "t"] = some .directory := by
    simp only [← List.mem_inits]
    decide
  have hlast : ∀ mid, mid <+: [Step.take, .take, .fire] →
      (run groveWatch (pageWritten mid)).disk.find? [utf8 "t", utf8 "n", utf8 "a.html"] =
        (run groveWatch (pageWritten [])).disk.find? [utf8 "t", utf8 "n", utf8 "a.html"] := by
    simp only [← List.mem_inits]
    decide
  have hknown : (run groveWatch [.change (.makeDirectory (utf8 "t/n")), .take]).queue = [] := by
    decide
  refine ⟨hstart, ?_⟩
  refine (told_changes_rebuilt hsound hroot hstart hstays).2.1 (by decide)
    (by decide) _ _ _ [utf8 "n"] (utf8 "a.html") rfl (by decide) (by decide)
    (by decide) hlast (by decide) ?_ (not_awaits_of_queue hknown _ _)
  rintro ⟨_, _, _, _, _, ⟨⟩, _⟩

/-- A page comes with a directory that is moved to where it is watched. The loop takes all it is
told and is at rest without a rebuild. -/
theorem moved_directory_unnoticed :
    start grove [] (utf8 "t") = .ok groveWatch ∧ isRelevant (utf8 "a.html") = true ∧
      isSkippedDirectory (utf8 "d") = false ∧
      grove.find? [utf8 "t", utf8 "d", utf8 "a.html"] = none ∧
      (run groveWatch [.change (.rename (utf8 "o/d") (utf8 "t/d")), .take]).disk.find?
        [utf8 "t", utf8 "d", utf8 "a.html"] = some (.file (utf8 "x")) ∧
      (run groveWatch [.change (.rename (utf8 "o/d") (utf8 "t/d")), .take]).queue = [] ∧
      (run groveWatch [.change (.rename (utf8 "o/d") (utf8 "t/d")), .take]).armed = false := by
  refine ⟨rfl, ?_⟩
  decide

end Watch

end Stencil
