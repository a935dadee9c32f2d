import Stencil.Output
import Stencil.Proofs.Disk.Sound

namespace Stencil

open Ascii Text

namespace Output

variable {o : Output}

theorem run_bind_ok {α β : Type} {x : Writer α} {f : α → Writer β} {p q : Progress} {a : α}
    (h : x.run.run p = (.ok a, q)) : (x >>= f).run.run p = (f a).run.run q := by
  rw [ExceptT.run_bind, StateT.run_bind, h]
  rfl

theorem run_bind_error {α β : Type} {x : Writer α} {p p' : Progress} {e : OutputError}
    (h : x.run.run p = (.error e, p')) (f : α → Writer β) :
    (x >>= f).run.run p = (.error e, p') := by
  rw [ExceptT.run_bind, StateT.run_bind, h]
  rfl

section

variable {α : Type} {step : WriteStep} {refusal : Fault → OutputError}
  {action : Disk → Except OutputError α × Disk} {p : Progress}

theorem call_run (hstep : o.faults step = none) :
    (o.call step refusal action).run.run p =
      ((action p.disk).1, { p with disk := (action p.disk).2 }) := by
  unfold call
  rw [hstep]
  rfl

theorem call_refused {f : Fault} (hstep : o.faults step = some f) :
    (o.call step refusal action).run.run p = (.error (refusal f), p) := by
  unfold call
  rw [hstep]
  rfl

end

theorem write_of_slash (hfaults : ∀ step, o.faults step = none) {u : SourceFile}
    (hslash : slash ∈ u.name) (us : List SourceFile) (d : Disk) :
    (o.write (u :: us) d).1.isOk = false ∧
      (o.write (u :: us) d).2 = (d.makeDirectories o.cwd o.dir).2 := by
  have hprepare : ∀ p, ∃ e, (o.prepare 0 u).run.run p = (.error e, p) := by
    intro p
    refine ⟨.file u.name ⟨utf8 "createtemp", [[dot] ++ u.name ++ [dot] ++ [asterisk]],
      .patternHasSeparator⟩, run_bind_error ((call_run (hfaults _)).trans ?_) _⟩
    rw [createTemporary, if_pos (by simpa using hslash)]
  have hsteps : ∃ e, (o.steps (u :: us)).run.run ⟨d, []⟩ =
      (.error e, ⟨(d.makeDirectories o.cwd o.dir).2, []⟩) := by
    rcases hmade : d.makeDirectories o.cwd o.dir with ⟨e | done, made⟩
    · refine ⟨.directory o.dir e, run_bind_error ((call_run (hfaults _)).trans ?_) _⟩
      rw [hmade]
      rfl
    · obtain ⟨e, he⟩ := hprepare ⟨made, []⟩
      refine ⟨e, (run_bind_ok (a := done) (q := ⟨made, []⟩) ?_).trans ?_⟩
      · refine (call_run (hfaults _)).trans ?_
        rw [hmade]
        rfl
      · exact run_bind_error (run_bind_error he _) _
  obtain ⟨e, hsteps⟩ := hsteps
  rw [write, hsteps]
  exact ⟨rfl, rfl⟩

def Upholds (P : Disk → Prop) {α : Type} (x : Writer α) : Prop :=
  ∀ p, P p.disk → P (x.run.run p).2.disk

namespace Upholds

variable {P : Disk → Prop} {α β : Type}

theorem bind {x : Writer α} {f : α → Writer β} (hx : Upholds P x) (hf : ∀ a, Upholds P (f a)) :
    Upholds P (x >>= f) := by
  intro p hp
  have hdisk := hx p hp
  rcases hrun : x.run.run p with ⟨result, p'⟩
  rw [hrun] at hdisk
  cases result with
  | error e =>
    rw [run_bind_error hrun]
    exact hdisk
  | ok a =>
    rw [run_bind_ok hrun]
    exact hf a p' hdisk

theorem call {step : WriteStep} {refusal : Fault → OutputError}
    {action : Disk → Except OutputError α × Disk} (h : ∀ d, P d → P (action d).2) :
    Upholds P (o.call step refusal action) := by
  intro p hp
  cases hstep : o.faults step with
  | some f =>
    rw [call_refused hstep]
    exact hp
  | none =>
    rw [call_run hstep]
    exact h p.disk hp

theorem change {step : WriteStep} {refusal : Fault → OutputError}
    {wrap : SystemError → OutputError} {action : Disk → Except SystemError Disk}
    (h : ∀ d d', P d → action d = .ok d' → P d') :
    Upholds P (o.change step refusal wrap action) := by
  refine Upholds.call fun d hd => ?_
  cases haction : action d with
  | error e => exact hd
  | ok d' => exact h d d' hd haction

theorem forM {l : List α} {f : α → Writer PUnit} (h : ∀ a, Upholds P (f a)) :
    Upholds P (l.forM f) := by
  induction l with
  | nil => exact fun p hp => hp
  | cons a l ih => exact (h a).bind fun _ => ih

end Upholds

def draftName (o : Output) (name : Text) (n : Nat) : Text :=
  [dot] ++ name ++ [dot] ++ o.tokens n

def inside (o : Output) (name : Text) : Text :=
  (if endsWith o.dir [slash] then o.dir else o.dir ++ [slash]) ++ name

theorem createFrom_ok {stem : Text} {d d' : Disk} {tries n : Nat} {temporary : Text}
    (h : o.createFrom stem d tries n = .ok (temporary, d')) :
    ∃ m, temporary = stem ++ o.tokens m ∧ d.createFile o.cwd temporary = .ok d' := by
  induction tries generalizing n with
  | zero => cases h
  | succ tries ih =>
    rw [createFrom] at h
    split at h
    next made hmade =>
      cases h
      exact ⟨n, rfl, hmade⟩
    · split at h
      · exact ih h
      · cases h

theorem createTemporary_ok {name temporary : Text} {d d' : Disk}
    (h : o.createTemporary name d = .ok (temporary, d')) :
    slash ∉ name ∧ ∃ n, temporary = o.inside (o.draftName name n) ∧
      d.createFile o.cwd temporary = .ok d' := by
  rw [createTemporary] at h
  split at h
  · cases h
  next hslash =>
    obtain ⟨n, htemporary, hmade⟩ := createFrom_ok h
    refine ⟨by simpa using hslash, n, ?_, hmade⟩
    rw [htemporary]
    simp [inside, draftName]

theorem prepare_upholds (o : Output) (i : Nat) (u : SourceFile) :
    Upholds Disk.Sound (o.prepare i u) := by
  refine (Upholds.call fun d hd => ?_).bind fun temporary => ?_
  · rcases hmade : o.createTemporary u.name d with e | ⟨temporary, made⟩
    · exact hd
    · obtain ⟨-, n, -, hfile⟩ := createTemporary_ok hmade
      exact hd.createFile hfile
  have hkeep (d d' : Disk) (hd : d.Sound) (h : Except.ok (ε := SystemError) d = .ok d') :
      d'.Sound := by
    cases h
    exact hd
  refine Upholds.bind (fun p hp => hp) fun _ => ?_
  refine (Upholds.change fun d d' hd h => hd.writeFile h).bind fun _ => ?_
  exact (Upholds.change hkeep).bind fun _ => Upholds.change hkeep

theorem place_upholds (o : Output) (i : Nat) (u : SourceFile) (temporary : Text) :
    Upholds Disk.Sound (o.place i u temporary) :=
  Upholds.change fun _ _ hd h => hd.rename h

theorem steps_upholds (o : Output) (units : List SourceFile) :
    Upholds Disk.Sound (o.steps units) := by
  refine (Upholds.call fun d hd => ?_).bind fun _ => (Upholds.forM ?_).bind fun _ => ?_
  · exact hd.makeDirectories o.cwd o.dir
  · rintro ⟨u, i⟩
    exact o.prepare_upholds i u
  · refine Upholds.bind (fun p hp => hp) fun p => Upholds.forM ?_
    rintro ⟨⟨u, temporary⟩, i⟩
    exact o.place_upholds i u temporary

theorem write_sound {d : Disk} (hd : d.Sound) (units : List SourceFile) :
    (o.write units d).2.Sound := by
  have hsteps := o.steps_upholds units ⟨d, []⟩ hd
  rw [write]
  split
  next p hrun =>
    rw [hrun] at hsteps
    exact hsteps
  next e p hrun =>
    rw [hrun] at hsteps
    have hdiscard : ∀ (temporaries : List Text) (d : Disk), d.Sound →
        (temporaries.foldl (fun d t => (d.remove o.cwd t).toOption.getD d) d).Sound := by
      intro temporaries
      induction temporaries with
      | nil => exact fun d hd => hd
      | cons t temporaries ih =>
        intro d hd
        rw [List.foldl_cons]
        cases hremove : d.remove o.cwd t with
        | error e => exact ih d hd
        | ok d' => exact ih d' (hd.remove hremove)
    exact hdiscard p.temporaries p.disk hsteps

end Output

end Stencil
