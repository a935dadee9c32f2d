import Stencil.Proofs.Text.Order
import Stencil.Proofs.Watch.Events

/-!
The loop of a watch, step by step: the disk changes, the loop takes an event, or it rebuilds.
However the steps follow each other, every directory is watched, or it was told and the loop has not
taken the event yet.
-/

namespace Stencil

open Ascii Text

namespace Watch

inductive Step where
  | change (c : Change)
  | take
  | fire

def Step.change? : Step → Option Change
  | .change c => some c
  | .take | .fire => none

def step (w : Watch) : Step → Watch
  | .change c => w.change c
  | .take => w.take
  | .fire => w.fire.2

def run (w : Watch) (steps : List Step) : Watch :=
  steps.foldl step w

variable {root f : Location} {w : Watch} {e : Event}

@[simp] theorem run_nil (w : Watch) : run w [] = w := rfl

@[simp] theorem run_cons (w : Watch) (s : Step) (steps : List Step) :
    run w (s :: steps) = run (w.step s) steps := rfl

theorem run_append (w : Watch) (steps later : List Step) :
    run w (steps ++ later) = run (run w steps) later :=
  List.foldl_append

theorem handle_queue (w : Watch) (e : Event) (queue : List Event) :
    handle { w with queue := queue } e = { handle w e with queue := queue } := by
  unfold handle
  dsimp only
  split
  · rfl
  · split <;> rfl

theorem take_cons {rest : List Event} (h : w.queue = e :: rest) :
    w.take = { w.handle e with queue := rest } := by
  rw [take, h]
  exact handle_queue w e rest

theorem disk_take (w : Watch) : w.take.disk = w.disk := by
  cases hqueue : w.queue with
  | nil => rw [take, hqueue]
  | cons e rest =>
    rw [take_cons hqueue]
    unfold handle
    dsimp only
    split
    · rfl
    · split <;> rfl

theorem drain_take {rest : List Event} (h : w.queue = e :: rest) : w.take.drain = w.drain := by
  rw [take_cons h, drain, drain, h, List.foldl_cons, handle_queue w e []]

theorem drain_nil (h : w.queue = []) : w.drain = w := by
  cases w
  cases h
  rfl

theorem drain_eq_run (w : Watch) : w.drain = run w (List.replicate w.queue.length .take) := by
  induction hqueue : w.queue generalizing w with
  | nil => exact drain_nil hqueue
  | cons e rest ih =>
    rw [List.length_cons, List.replicate_succ, run_cons, ← drain_take hqueue]
    exact ih w.take (by rw [take_cons hqueue])

theorem queue_drain (w : Watch) : w.drain.queue = [] := by
  induction hqueue : w.queue generalizing w with
  | nil => rwa [drain_nil hqueue]
  | cons e rest ih =>
    rw [← drain_take hqueue]
    exact ih w.take (by rw [take_cons hqueue])

theorem burst_eq_run (hqueue : w.queue = []) (changes : List Change) :
    ∃ steps, w.burst changes = (run w steps).fire ∧ (run w steps).queue = [] ∧
      .fire ∉ steps ∧ steps.filterMap Step.change? = changes := by
  unfold burst
  induction changes generalizing w with
  | nil => exact ⟨[], rfl, hqueue, List.not_mem_nil, rfl⟩
  | cons c changes ih =>
    obtain ⟨steps, hburst, hempty, hfire, hchanges⟩ := ih (w.change c).queue_drain
    have hrun : run w (.change c :: (List.replicate (w.change c).queue.length .take ++ steps)) =
        run (w.change c).drain steps := by
      rw [run_cons, run_append, drain_eq_run]
      rfl
    refine ⟨.change c :: (List.replicate (w.change c).queue.length .take ++ steps), ?_⟩
    rw [hrun, List.foldl_cons]
    refine ⟨hburst, hempty, ?_, ?_⟩
    · simp [hfire]
    · simp [Step.change?, hchanges, List.filterMap_replicate]

def Opens (d : Disk) (e : Event) : Prop :=
  e.kind = .create ∧ d.find? e.location = some .directory ∧
    isSkippedDirectory (e.location.getLastD []) = false

def Counts (d : Disk) (e : Event) : Prop :=
  isRelevant (e.location.getLastD []) = true ∧ e.kind ≠ .chmod ∧
    ¬ (e.kind = .create ∧ d.find? e.location = some .directory)

theorem not_skipped_of_relevant {name : Text} (hslash : slash ∉ name)
    (h : isRelevant name = true) : isSkippedDirectory name = false := by
  have hne : name ≠ [] := by
    rintro rfl
    revert h
    decide
  have hvendor : name ≠ utf8 "vendor" := by
    rintro rfl
    revert h
    decide
  have hmodules : name ≠ utf8 "node_modules" := by
    rintro rfl
    revert h
    decide
  rw [isRelevant, Path.base_of_not_mem hslash hne] at h
  simp only [Bool.and_eq_true, Bool.not_eq_true'] at h
  simp [isSkippedDirectory, hvendor, hmodules, h.1]

theorem slash_not_mem_last (h : root.Proper) : slash ∉ root.getLastD [] := by
  rw [List.getLastD_eq_getLast?]
  cases hlast : root.getLast? with
  | none => simp
  | some name => exact (h name (List.mem_of_getLast? hlast)).2.1

section Handle

theorem handle_of_opens (h : Opens w.disk e) :
    w.handle e = { w with directories := w.directories ++
      (directoriesOf (w.disk.sourceTree e.location)).filter (!w.directories.contains ·) } := by
  obtain ⟨hkind, hdir, hshown⟩ := h
  unfold handle
  simp only [hkind, hdir, hshown]
  rfl

theorem handle_of_counts (h : Counts w.disk e) :
    w.handle e = { w with
      pending := if w.pending.contains e.location then w.pending else w.pending ++ [e.location]
      armed := true } := by
  obtain ⟨hrelevant, hkind, hfile⟩ := h
  have hopens : ¬ (e.kind = .create && w.disk.find? e.location = some .directory &&
      !isSkippedDirectory (e.location.getLastD [])) = true := by
    simp only [Bool.and_eq_true, decide_eq_true_eq]
    exact fun hopens => hfile hopens.1
  unfold handle
  rw [if_neg hopens, if_pos (by simp only [hrelevant, hkind, ne_eq, not_false_eq_true]; rfl)]

theorem handle_of_neither (hproper : e.location.Proper) (hopens : ¬ Opens w.disk e)
    (hcounts : ¬ Counts w.disk e) : w.handle e = w := by
  unfold handle
  rw [if_neg, if_neg]
  · simp only [Bool.and_eq_true, decide_eq_true_eq]
    rintro ⟨hrelevant, hkind⟩
    have hshown := not_skipped_of_relevant (slash_not_mem_last hproper) hrelevant
    exact hcounts ⟨hrelevant, hkind, fun h => hopens ⟨h.1, h.2, hshown⟩⟩
  · simp only [Bool.and_eq_true, decide_eq_true_eq, Bool.not_eq_true']
    rintro ⟨⟨hkind, hdir⟩, hshown⟩
    exact hopens ⟨hkind, hdir, hshown⟩

end Handle

theorem mem_added {places : List Location} {l x : Location} :
    x ∈ (if places.contains l then places else places ++ [l]) ↔ x ∈ places ∨ x = l := by
  split
  next hmem =>
    refine ⟨.inl, ?_⟩
    rintro (hx | rfl)
    · exact hx
    · exact List.contains_iff_mem.mp hmem
  · simp

theorem nodup_added {places : List Location} {l : Location} (h : places.Nodup) :
    (if places.contains l then places else places ++ [l]).Nodup := by
  split
  · exact h
  next hmem =>
    rw [List.contains_iff_mem] at hmem
    exact List.nodup_append.mpr ⟨h, List.nodup_singleton l, by
      rintro a ha b hb rfl
      exact hmem (List.mem_singleton.mp hb ▸ ha)⟩

def Awaits (w : Watch) (root dirs : Location) : Prop :=
  ∃ upper lower, dirs = upper ++ lower ∧ upper ≠ [] ∧ ⟨.create, root ++ upper⟩ ∈ w.queue

theorem not_awaits_of_queue (h : w.queue = []) (root dirs : Location) : ¬ w.Awaits root dirs := by
  rintro ⟨upper, lower, -, -, hmem⟩
  rw [h] at hmem
  cases hmem

structure Keeps (root : Location) (w : Watch) : Prop where
  sound : w.disk.Sound
  covered {dirs : Location} : (∀ dir ∈ dirs, isSkippedDirectory dir = false) →
    w.disk.find? (root ++ dirs) = some .directory →
    root ++ dirs ∈ w.directories ∨ w.Awaits root dirs
  queued : ∀ e ∈ w.queue, e.location.Proper
  pending : ∀ l ∈ w.pending, l.Proper
  distinct : w.pending.Nodup
  armed : w.armed = true ↔ w.pending ≠ []

theorem start_eq_ok {d : Disk} {cwd : Location} {input : Text}
    (hroot : d.resolve cwd (Path.absolute cwd.path input) = .ok root)
    (h : start d cwd input = .ok w) :
    w = { disk := d, cwd := cwd, directories := directoriesOf (d.sourceTree root) } := by
  unfold start at h
  obtain ⟨e, -, h⟩ := bind_eq_ok_iff.mp h
  rw [hroot] at h
  cases h
  rfl

namespace Keeps

theorem of_start {d : Disk} {cwd : Location} {input : Text} (hd : d.Sound)
    (hroot : d.resolve cwd (Path.absolute cwd.path input) = .ok root)
    (h : start d cwd input = .ok w) : Keeps root w := by
  rw [start_eq_ok hroot h]
  refine ⟨hd, fun hshown hdir => .inl ?_, by simp, by simp, .nil, by simp⟩
  exact List.mem_map.mpr
    ⟨_, List.mem_filter.mpr ⟨Disk.directory_mem_sourceTree hd hdir hshown, rfl⟩, rfl⟩

theorem change (h : Keeps root w) (hroot : w.disk.find? root = some .directory) (c : Change) :
    Keeps root (w.change c) := by
  have houtcome := effect_outcome h.sound w.cwd c
  refine ⟨houtcome.sound h.sound, fun {dirs} hshown hdir => ?_, fun e he => ?_, h.pending,
    h.distinct, h.armed⟩
  · by_cases hthere : w.disk.find? (root ++ dirs) = some .directory
    · rcases h.covered hshown hthere with hwatched | ⟨upper, lower, hsplit, hne, hmem⟩
      · exact .inl (List.mem_filter.mpr ⟨hwatched, decide_eq_true hdir⟩)
      · exact .inr ⟨upper, lower, hsplit, hne, List.mem_append_left _ hmem⟩
    -- a new directory; the place that is told lies below the root, which was there before
    obtain ⟨loc, rest, heq, hmem, hfile⟩ := houtcome.created hdir hthere
    have hleads := houtcome.leads h.sound hmem
    obtain ⟨upper, rfl, hdirs⟩ : ∃ upper, loc = root ++ upper ∧ dirs = upper ++ rest := by
      rcases List.append_eq_append_iff.mp heq with hbelow | ⟨more, habove, -⟩
      · exact hbelow
      · by_cases hmore : more = []
        · rw [hmore, List.append_nil] at habove
          exact absurd (habove ▸ hroot) hfile
        · exact absurd ((h.sound root (by rw [hroot]; rfl)).above habove hmore) hfile
    obtain rfl | ⟨init, last, rfl⟩ := List.eq_nil_or_concat upper
    · rw [List.append_nil] at hfile
      exact absurd hroot hfile
    rw [List.concat_eq_append] at hleads hmem hdirs
    have hparent : w.disk.find? (root ++ init) = some .directory :=
      hleads.above (List.append_assoc ..).symm (List.cons_ne_nil last [])
    have hinit : ∀ dir ∈ init, isSkippedDirectory dir = false := fun dir hmem =>
      hshown dir (by simp [hdirs, hmem])
    right
    rcases h.covered hinit hparent with hwatched | ⟨upper, lower, hsplit, hne, hqueued⟩
    · refine ⟨init ++ [last], rest, hdirs, by simp,
        List.mem_append_right _ (List.mem_filter.mpr ⟨hmem, ?_⟩)⟩
      rw [sees, ← List.append_assoc, List.dropLast_concat, List.contains_iff_mem.mpr hwatched]
      rfl
    · refine ⟨upper, lower ++ [last] ++ rest, ?_, hne, List.mem_append_left _ hqueued⟩
      rw [hdirs, hsplit]
      simp
  · rcases List.mem_append.mp he with he | he
    · exact h.queued e he
    · exact (houtcome.leads h.sound (List.mem_filter.mp he).1).proper

theorem covered_take (h : Keeps root w) {rest : List Event} (hqueue : w.queue = e :: rest)
    {dirs : Location} (hshown : ∀ dir ∈ dirs, isSkippedDirectory dir = false)
    (hdir : w.disk.find? (root ++ dirs) = some .directory) :
    root ++ dirs ∈ w.directories ∨ Awaits { w with queue := rest } root dirs ∨
      Opens w.disk e ∧ (root ++ dirs, .directory) ∈ w.disk.sourceTree e.location := by
  rcases h.covered hshown hdir with hwatched | ⟨upper, lower, rfl, hne, hmem⟩
  · exact .inl hwatched
  rw [hqueue, List.mem_cons] at hmem
  rcases hmem with rfl | hmem
  · rw [← List.append_assoc] at hdir ⊢
    refine .inr (.inr ⟨⟨rfl, ?_, ?_⟩, Disk.directory_mem_sourceTree h.sound hdir ?_⟩)
    · by_cases hlower : lower = []
      · rwa [hlower, List.append_nil] at hdir
      · exact (h.sound _ (by rw [hdir]; rfl)).above rfl hlower
    · obtain ⟨last, hlast⟩ := Option.ne_none_iff_exists'.mp (mt List.getLast?_eq_none_iff.mp hne)
      rw [List.getLastD_eq_getLast?, List.getLast?_append, hlast]
      exact hshown last (List.mem_append_left _ (List.mem_of_getLast? hlast))
    · exact fun name hname => hshown name (List.mem_append_right _ hname)
  · exact .inr (.inl ⟨upper, lower, rfl, hne, hmem⟩)

theorem take (h : Keeps root w) : Keeps root w.take := by
  cases hqueue : w.queue with
  | nil =>
    rw [Watch.take, hqueue]
    exact h
  | cons e rest =>
    rw [take_cons hqueue]
    have hproper := h.queued e (by simp [hqueue])
    have hqueued : ∀ e ∈ rest, e.location.Proper := fun e he => h.queued e (by simp [hqueue, he])
    -- only an event that opens a directory adds to what is watched
    by_cases hopens : Opens w.disk e
    · rw [handle_of_opens hopens]
      refine ⟨h.sound, fun {dirs} hshown hdir => ?_, hqueued, h.pending, h.distinct, h.armed⟩
      rcases h.covered_take hqueue hshown hdir with hwatched | hawaits | ⟨-, hmem⟩
      · exact .inl (List.mem_append_left _ hwatched)
      · exact .inr hawaits
      · left
        by_cases hwatched : root ++ dirs ∈ w.directories
        · exact List.mem_append_left _ hwatched
        · refine List.mem_append_right _ (List.mem_filter.mpr ⟨?_, by simpa using hwatched⟩)
          exact List.mem_map.mpr ⟨_, List.mem_filter.mpr ⟨hmem, rfl⟩, rfl⟩
    · have hcovered {dirs : Location} (hshown : ∀ dir ∈ dirs, isSkippedDirectory dir = false)
          (hdir : w.disk.find? (root ++ dirs) = some .directory) :
          root ++ dirs ∈ w.directories ∨ Awaits { w with queue := rest } root dirs := by
        rcases h.covered_take hqueue hshown hdir with hwatched | hawaits | ⟨hopens', -⟩
        · exact .inl hwatched
        · exact .inr hawaits
        · exact absurd hopens' hopens
      by_cases hcounts : Counts w.disk e
      · rw [handle_of_counts hcounts]
        refine ⟨h.sound, hcovered, hqueued, ?_, ?_, ?_⟩
        · intro l hl
          rcases mem_added.mp hl with hl | rfl
          · exact h.pending l hl
          · exact hproper
        · exact nodup_added h.distinct
        · exact iff_of_true rfl (List.ne_nil_of_mem (mem_added.mpr (.inr rfl)))
      · rw [handle_of_neither hproper hopens hcounts]
        exact ⟨h.sound, hcovered, hqueued, h.pending, h.distinct, h.armed⟩

theorem drain (h : Keeps root w) : Keeps root w.drain := by
  induction hqueue : w.queue generalizing w with
  | nil => rwa [drain_nil hqueue]
  | cons e rest ih =>
    rw [← drain_take hqueue]
    exact ih h.take (by rw [take_cons hqueue])

theorem fire (h : Keeps root w) : Keeps root w.fire.2 := by
  unfold Watch.fire
  split
  · exact ⟨h.sound, h.covered, h.queued, by simp, .nil, by simp⟩
  · exact h

theorem step (h : Keeps root w) (hroot : w.disk.find? root = some .directory) (s : Step) :
    Keeps root (w.step s) := by
  cases s with
  | change c => exact h.change hroot c
  | take => exact h.take
  | fire => exact h.fire

theorem run (h : Keeps root w) {steps : List Step}
    (hroot : ∀ before, before <+: steps → (Watch.run w before).disk.find? root = some .directory) :
    Keeps root (Watch.run w steps) := by
  induction steps generalizing w with
  | nil => exact h
  | cons s steps ih =>
    refine ih (h.step (hroot [] List.nil_prefix) s) fun before hbefore => ?_
    exact hroot (s :: before) (List.cons_prefix_cons.mpr ⟨rfl, hbefore⟩)

end Keeps

end Watch

end Stencil
