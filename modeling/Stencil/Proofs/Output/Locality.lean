import Stencil.Proofs.Output.Atomicity

namespace Stencil

open Ascii Text

namespace Output

variable {o : Output} {units : List SourceFile} {here : Location} {b b' d d' e e' : Disk}
  {x : Text}

def Touches (o : Output) (units : List SourceFile) (x : Text) : Prop :=
  ∃ u ∈ units, x = u.name ∨ ∃ n, x = o.draftName u.name n

/-- Two disks with the same at the names that writing makes use of; elsewhere, and in their
directories, they are as they were. -/
structure Level (o : Output) (units : List SourceFile) (here : Location) (b b' d d' : Disk) :
    Prop where
  stands : o.Stands here d
  stands' : o.Stands here d'
  directories : ∀ l, d.find? l = some .directory ↔ b.find? l = some .directory
  touched : ∀ x, o.Touches units x → d.find? (here ++ [x]) = d'.find? (here ++ [x])
  rest : ∀ l, (∀ x, o.Touches units x → l ≠ here ++ [x]) →
    d.find? l = b.find? l ∧ d'.find? l = b'.find? l

theorem directories_of_change {loc : Location} {v : Option Entry}
    (he : ∀ l, e.find? l = if l = loc then v else d.find? l) (hv : v ≠ some .directory)
    (hfile : d.find? loc ≠ some .directory) (l : Location) :
    e.find? l = some .directory ↔ d.find? l = some .directory := by
  rw [he]
  split
  next hl =>
    rw [hl]
    exact iff_of_false hv hfile
  · exact Iff.rfl

namespace Level

theorem change (h : Level o units here b b' d d') (hsound : e.Sound) (hsound' : e'.Sound)
    (hx : o.Touches units x) {v : Option Entry} (hv : v ≠ some .directory)
    (hfile : b.find? (here ++ [x]) ≠ some .directory)
    (he : ∀ l, e.find? l = if l = here ++ [x] then v else d.find? l)
    (he' : ∀ l, e'.find? l = if l = here ++ [x] then v else d'.find? l) :
    Level o units here b b' e e' := by
  have hold : d.find? (here ++ [x]) ≠ some .directory := mt (h.directories _).mp hfile
  have hdirs := directories_of_change he hv hold
  have hdirs' := directories_of_change he' hv (h.touched x hx ▸ hold)
  refine ⟨h.stands.of_within hsound fun l => (hdirs l).mpr,
    h.stands'.of_within hsound' fun l => (hdirs' l).mpr,
    fun l => (hdirs l).trans (h.directories l), fun y hy => ?_, fun l hl => ?_⟩
  · rw [he, he', h.touched y hy]
  · rw [he, he', if_neg (hl x hx), if_neg (hl x hx)]
    exact h.rest l hl

theorem put (h : Level o units here b b' d d') (hx : o.Touches units x) (hfits : Fits x)
    (hfile : b.find? (here ++ [x]) ≠ some .directory) (content : Text) :
    Level o units here b b' (d.put (here ++ [x]) (.file content))
      (d'.put (here ++ [x]) (.file content)) := by
  have hold : d.find? (here ++ [x]) ≠ some .directory := mt (h.directories _).mp hfile
  have hview (d : Disk) (l : Location) : (d.put (here ++ [x]) (.file content)).find? l =
      if l = here ++ [x] then some (.file content) else d.find? l := Disk.find?_put (by simp) _ l
  exact h.change (h.stands.put hfits hold content).sound
    (h.stands'.put hfits (h.touched x hx ▸ hold) content).sound hx (by simp) hfile
    (hview d) (hview d')

theorem remove (h : Level o units here b b' d d') (hx : o.Touches units x) (hfits : Fits x)
    (hfile : b.find? (here ++ [x]) ≠ some .directory) :
    Level o units here b b' ((d.remove o.cwd (o.inside x)).toOption.getD d)
      ((d'.remove o.cwd (o.inside x)).toOption.getD d') := by
  have hsame := h.touched x hx
  cases hfind : d.find? (here ++ [x]) with
  | none =>
    have hnone {d : Disk} (hs : o.Stands here d) (hfind : d.find? (here ++ [x]) = none) :
        (d.remove o.cwd (o.inside x)).toOption.getD d = d := by
      rw [Disk.remove, hs.resolve_inside hfits]
      simp [hfind, Except.toOption]
    rw [hnone h.stands hfind, hnone h.stands' (hsame ▸ hfind)]
    exact h
  | some entry =>
    cases entry with
    | directory => exact absurd ((h.directories _).mp hfind) hfile
    | file content =>
      have hview (d : Disk) (l : Location) :
          (d.erase (here ++ [x])).find? l = if l = here ++ [x] then none else d.find? l := by
        rw [Disk.find?_erase]
        by_cases hl : l = here ++ [x]
        · rw [if_pos ⟨by simp [hl], hl⟩, if_pos hl]
        · rw [if_neg fun h => hl h.2, if_neg hl]
      have hremove {d : Disk} (hs : o.Stands here d)
          (hfind : d.find? (here ++ [x]) = some (.file content)) :
          d.remove o.cwd (o.inside x) = .ok (d.erase (here ++ [x])) := by
        rw [Disk.remove, hs.resolve_inside hfits]
        simp [hfind]
      have hok := hremove h.stands hfind
      have hok' := hremove h.stands' (hsame ▸ hfind)
      rw [hok, hok']
      exact h.change (h.stands.sound.remove hok) (h.stands'.sound.remove hok') hx (by simp) hfile
        (hview d) (hview d')

theorem rename (h : Level o units here b b' d d') (hx : o.Touches units x) (hfits : Fits x)
    {name : Text} (hname : o.Touches units name) (hfits' : Fits name) (hne : x ≠ name)
    (hfile : b.find? (here ++ [x]) ≠ some .directory) :
    (∃ f, d.rename o.cwd (o.inside x) (Path.join [o.dir, name]) = .error f ∧
      d'.rename o.cwd (o.inside x) (Path.join [o.dir, name]) = .error f) ∨
    ∃ e e', d.rename o.cwd (o.inside x) (Path.join [o.dir, name]) = .ok e ∧
      d'.rename o.cwd (o.inside x) (Path.join [o.dir, name]) = .ok e' ∧
      Level o units here b b' e e' := by
  have hsource := h.stands.resolve_inside hfits
  have hsource' := h.stands'.resolve_inside hfits
  have htarget := h.stands.resolve_join hfits'
  have htarget' := h.stands'.resolve_join hfits'
  have hsame := h.touched x hx
  have hsame' := h.touched name hname
  cases hfind : d.find? (here ++ [x]) with
  | none =>
    rw [hfind] at hsame
    exact .inl ⟨_, Disk.rename_missing hsource hfind, Disk.rename_missing hsource' hsame.symm⟩
  | some entry =>
    cases entry with
    | directory => exact absurd ((h.directories _).mp hfind) hfile
    | file content =>
      rw [hfind] at hsame
      by_cases hdir : d.find? (here ++ [name]) = some .directory
      · have hdir' : d'.find? (here ++ [name]) = some .directory := by rw [← hsame', hdir]
        exact .inl ⟨_, Disk.rename_onto_directory hsource hfind htarget hdir,
          Disk.rename_onto_directory hsource' hsame.symm htarget' hdir'⟩
      · have hdir' : d'.find? (here ++ [name]) ≠ some .directory := by rwa [← hsame']
        have hmoves : here ++ [x] ≠ here ++ [name] := by simpa using hne
        have hok := Disk.rename_file hsource hfind htarget hdir h.stands.sound hmoves
        have hok' := Disk.rename_file hsource' hsame.symm htarget' hdir' h.stands'.sound hmoves
        have hview := Disk.find?_move_file h.stands.sound hfind hdir hmoves
        have hview' := Disk.find?_move_file h.stands'.sound hsame.symm hdir' hmoves
        have hdirs {d e : Disk} (hview : ∀ l, e.find? l = if l = here ++ [name] then
              some (.file content) else if l = here ++ [x] then none else d.find? l)
            (hfind : d.find? (here ++ [x]) = some (.file content))
            (hdir : d.find? (here ++ [name]) ≠ some .directory) (l : Location) :
            e.find? l = some .directory ↔ d.find? l = some .directory := by
          rw [hview]
          split
          next hl => simp [hl, hdir]
          · split
            next hl => simp [hl, hfind]
            · exact Iff.rfl
        have hkept := hdirs hview hfind hdir
        have hkept' := hdirs hview' hsame.symm hdir'
        refine .inr ⟨_, _, hok, hok',
          h.stands.of_within (h.stands.sound.rename hok) fun l => (hkept l).mpr,
          h.stands'.of_within (h.stands'.sound.rename hok') fun l => (hkept' l).mpr,
          fun l => (hkept l).trans (h.directories l), fun y hy => ?_, fun l hl => ?_⟩
        · rw [hview, hview', h.touched y hy]
        · rw [hview, hview', if_neg (hl name hname), if_neg (hl name hname), if_neg (hl x hx),
            if_neg (hl x hx)]
          exact h.rest l hl

theorem createFile (h : Level o units here b b' d d') (hx : o.Touches units x)
    (hvalid : Path.isValidPart x = true) (hslash : slash ∉ x) (hnul : nul ∉ x) :
    (∃ f, d.createFile o.cwd (o.inside x) = .error f ∧
      d'.createFile o.cwd (o.inside x) = .error f) ∨
    ∃ e e', d.createFile o.cwd (o.inside x) = .ok e ∧ d'.createFile o.cwd (o.inside x) = .ok e' ∧
      Fits x ∧ b.find? (here ++ [x]) ≠ some .directory ∧ Level o units here b b' e e' := by
  by_cases hshort : x.length ≤ 255
  · have hfits : Fits x := ⟨hvalid, hshort, hslash, hnul⟩
    have hresolve := h.stands.resolve_inside hfits
    have hresolve' := h.stands'.resolve_inside hfits
    have hsame := h.touched x hx
    cases hfind : d.find? (here ++ [x]) with
    | some entry =>
      rw [hfind] at hsame
      refine .inl ⟨⟨utf8 "open", [o.inside x], .alreadyThere⟩, ?_, ?_⟩
      · simp [Disk.createFile, hresolve, hfind]
      · simp [Disk.createFile, hresolve', ← hsame]
    | none =>
      rw [hfind] at hsame
      have hfile : b.find? (here ++ [x]) ≠ some .directory := by
        rw [Ne, ← h.directories, hfind]
        simp
      exact .inr ⟨_, _, Disk.createFile_eq_ok_iff.mpr ⟨_, hresolve, hfind, rfl⟩,
        Disk.createFile_eq_ok_iff.mpr ⟨_, hresolve', hsame.symm, rfl⟩, hfits, hfile,
        h.put hx hfits hfile []⟩
  · have hlong {d : Disk} (hs : o.Stands here d) :
        d.createFile o.cwd (o.inside x) = .error ⟨utf8 "open", [o.inside x], .nameTooLong⟩ := by
      obtain ⟨hne, hdot, hdots⟩ := Path.isValidPart_iff.mp hvalid
      have hwalk : d.walk here [x] = .error .nameTooLong := by
        simp [Disk.walk, hs.directory, hne, hdot, hdots, Nat.not_le.mp hshort]
      have hresolve : d.resolve o.cwd (o.inside x) = .error .nameTooLong := by
        rw [inside, Disk.resolve_inside hs.resolves hs.directory hslash hnul, hwalk]
      rw [Disk.createFile, hresolve]
    exact .inl ⟨_, hlong h.stands, hlong h.stands'⟩

end Level

def IsDraft (o : Output) (units : List SourceFile) (here : Location) (b : Disk) (t : Text) : Prop :=
  ∃ u ∈ units, ∃ n, t = o.inside (o.draftName u.name n) ∧ Fits (o.draftName u.name n) ∧
    b.find? (here ++ [o.draftName u.name n]) ≠ some .directory

structure Abreast (o : Output) (units : List SourceFile) (here : Location) (b b' : Disk)
    (p p' : Progress) : Prop where
  level : Level o units here b b' p.disk p'.disk
  temporaries : p.temporaries = p'.temporaries
  drafts : ∀ t ∈ p.temporaries, o.IsDraft units here b t

theorem Abreast.next {p p' : Progress} (h : Abreast o units here b b' p p')
    (hlevel : Level o units here b b' e e') :
    Abreast o units here b b' { p with disk := e } { p' with disk := e' } :=
  ⟨hlevel, h.temporaries, h.drafts⟩

def Together {α : Type} (w : Writer α) (p p' : Progress) (Q : α → Progress → Progress → Prop)
    (E : Progress → Progress → Prop) : Prop :=
  (∃ a q q', w.run.run p = (.ok a, q) ∧ w.run.run p' = (.ok a, q') ∧ Q a q q') ∨
    ∃ f q q', w.run.run p = (.error f, q) ∧ w.run.run p' = (.error f, q') ∧ E q q'

section

variable {α β : Type} {p p' : Progress} {E : Progress → Progress → Prop}

theorem Together.bind {w : Writer α} {f : α → Writer β} {Q : α → Progress → Progress → Prop}
    {R : β → Progress → Progress → Prop} (hw : Together w p p' Q E)
    (hf : ∀ a q q', Q a q q' → Together (f a) q q' R E) : Together (w >>= f) p p' R E := by
  rcases hw with ⟨a, q, q', hrun, hrun', hq⟩ | ⟨f', q, q', hrun, hrun', hq⟩
  · have hbind := run_bind_ok (f := f) hrun
    have hbind' := run_bind_ok (f := f) hrun'
    rcases hf a q q' hq with ⟨c, r, r', hthen, hthen', hr⟩ | ⟨g, r, r', hthen, hthen', hr⟩
    · exact .inl ⟨c, r, r', hbind.trans hthen, hbind'.trans hthen', hr⟩
    · exact .inr ⟨g, r, r', hbind.trans hthen, hbind'.trans hthen', hr⟩
  · exact .inr ⟨f', q, q', run_bind_error hrun f, run_bind_error hrun' f, hq⟩

theorem Together.imp {w : Writer α} {Q R : α → Progress → Progress → Prop}
    (h : Together w p p' Q E) (himp : ∀ a q q', Q a q q' → R a q q') : Together w p p' R E := by
  rcases h with ⟨a, q, q', hrun, hrun', hq⟩ | hfails
  · exact .inl ⟨a, q, q', hrun, hrun', himp a q q' hq⟩
  · exact .inr hfails

variable {step : WriteStep} {refusal : Fault → OutputError}

theorem together_call {action : Disk → Except OutputError α × Disk}
    {Q : α → Progress → Progress → Prop} (hstep : o.faults step = none)
    (h : (∃ a e e', action p.disk = (.ok a, e) ∧ action p'.disk = (.ok a, e') ∧
        Q a { p with disk := e } { p' with disk := e' }) ∨
      ∃ f e e', action p.disk = (.error f, e) ∧ action p'.disk = (.error f, e') ∧
        E { p with disk := e } { p' with disk := e' }) :
    Together (o.call step refusal action) p p' Q E := by
  have hrun := @call_run o α step refusal action p hstep
  have hrun' := @call_run o α step refusal action p' hstep
  rcases h with ⟨a, e, e', haction, haction', hq⟩ | ⟨f, e, e', haction, haction', hq⟩
  · rw [haction] at hrun
    rw [haction'] at hrun'
    exact .inl ⟨a, _, _, hrun, hrun', hq⟩
  · rw [haction] at hrun
    rw [haction'] at hrun'
    exact .inr ⟨f, _, _, hrun, hrun', hq⟩

theorem together_change {wrap : SystemError → OutputError}
    {action : Disk → Except SystemError Disk} {Q : PUnit → Progress → Progress → Prop}
    (hstep : o.faults step = none)
    (h : (∃ f, action p.disk = .error f ∧ action p'.disk = .error f ∧ E p p') ∨
      ∃ e e', action p.disk = .ok e ∧ action p'.disk = .ok e' ∧
        Q () { p with disk := e } { p' with disk := e' }) :
    Together (o.change step refusal wrap action) p p' Q E := by
  apply together_call hstep
  rcases h with ⟨f, haction, haction', hE⟩ | ⟨e, e', haction, haction', hq⟩
  · refine .inr ⟨wrap f, p.disk, p'.disk, ?_, ?_, hE⟩
    · rw [haction]
    · rw [haction']
  · refine .inl ⟨(), e, e', ?_, ?_, hq⟩
    · rw [haction]
    · rw [haction']

theorem together_get {f : List Text → Writer α} {Q : α → Progress → Progress → Prop}
    (h : p.temporaries = p'.temporaries) (hf : Together (f p.temporaries) p p' Q E) :
    Together (do f (← get).temporaries) p p' Q E := by
  have hrun (q : Progress) :
      (do f (← get).temporaries : Writer α).run.run q = (f q.temporaries).run.run q := rfl
  rw [Together, hrun, hrun, ← h]
  exact hf

theorem together_forM {ι : Type} {l : List ι} {f : ι → Writer PUnit}
    {R : Progress → Progress → Prop} (h : R p p')
    (hf : ∀ i ∈ l, ∀ q q', R q q' → Together (f i) q q' (fun _ => R) E) :
    Together (l.forM f) p p' (fun _ => R) E := by
  induction l generalizing p p' with
  | nil => exact .inl ⟨(), p, p', rfl, rfl, h⟩
  | cons i l ih =>
    apply (hf i List.mem_cons_self p p' h).bind
    intro _ q q' hq
    exact ih hq fun j hj => hf j (List.mem_cons_of_mem _ hj)

end

section Runs

variable (hfaults : ∀ step, o.faults step = none) (hunits : ∀ u ∈ units, Fits u.name)
  (htokens : ∀ n, slash ∉ o.tokens n ∧ nul ∉ o.tokens n)

theorem draftName_valid {name : Text} (hname : name ≠ []) (n : Nat) :
    Path.isValidPart (o.draftName name n) = true := by
  have hlength : 2 < (o.draftName name n).length := by
    have hpos := List.length_pos_iff.mpr hname
    simp only [draftName, List.length_append, List.length_singleton]
    omega
  apply Path.isValidPart_iff.mpr
  refine ⟨?_, ?_, ?_⟩ <;>
    · intro heq
      rw [heq] at hlength
      simp at hlength

include hunits htokens in
theorem createFrom_level {u : SourceFile} (hu : u ∈ units) {stem : Text}
    (hstem : ∀ n, stem ++ o.tokens n = o.inside (o.draftName u.name n))
    (h : Level o units here b b' d d') (tries n : Nat) :
    (∃ f, o.createFrom stem d tries n = .error f ∧ o.createFrom stem d' tries n = .error f) ∨
    ∃ t e e', o.createFrom stem d tries n = .ok (t, e) ∧
      o.createFrom stem d' tries n = .ok (t, e') ∧
      o.IsDraft units here b t ∧ Level o units here b b' e e' := by
  induction tries generalizing n with
  | zero => exact .inl ⟨_, rfl, rfl⟩
  | succ tries ih =>
    have hname := hunits u hu
    have hx : o.Touches units (o.draftName u.name n) := ⟨u, hu, .inr ⟨n, rfl⟩⟩
    have hslash : slash ∉ o.draftName u.name n := by
      simp only [draftName, List.mem_append, List.mem_singleton, not_or]
      exact ⟨⟨⟨by decide, hname.slash⟩, by decide⟩, (htokens n).1⟩
    have hnul : nul ∉ o.draftName u.name n := by
      simp only [draftName, List.mem_append, List.mem_singleton, not_or]
      exact ⟨⟨⟨by decide, hname.nul⟩, by decide⟩, (htokens n).2⟩
    have hvalid := @draftName_valid o u.name (Path.isValidPart_iff.mp hname.valid).1 n
    have hstep := h.createFile hx hvalid hslash hnul
    rw [← hstem] at hstep
    rw [createFrom, createFrom]
    rcases hstep with ⟨f, hfails, hfails'⟩ | ⟨e, e', hmade, hmade', hfits, hfile, hlevel⟩
    · rw [hfails, hfails']
      dsimp only
      split
      · exact ih (n + 1)
      · exact .inl ⟨f, rfl, rfl⟩
    · rw [hmade, hmade']
      exact .inr ⟨_, e, e', rfl, rfl, ⟨u, hu, n, hstem n, hfits, hfile⟩, hlevel⟩

include hunits htokens in
theorem createTemporary_level {u : SourceFile} (hu : u ∈ units)
    (h : Level o units here b b' d d') :
    (∃ f, o.createTemporary u.name d = .error f ∧ o.createTemporary u.name d' = .error f) ∨
    ∃ t e e', o.createTemporary u.name d = .ok (t, e) ∧ o.createTemporary u.name d' = .ok (t, e') ∧
      o.IsDraft units here b t ∧ Level o units here b b' e e' := by
  have hslash : ¬ u.name.contains slash = true := by simpa using (hunits u hu).slash
  have hfrom (d : Disk) : o.createTemporary u.name d =
      o.createFrom (o.inside ([dot] ++ u.name ++ [dot])) d 10000 0 := by
    rw [createTemporary, if_neg hslash]
    rfl
  rw [hfrom, hfrom]
  apply createFrom_level hunits htokens hu _ h
  intro n
  simp [inside, draftName]

variable {p p' : Progress}

include hfaults hunits htokens in
theorem prepare_together {u : SourceFile} (hu : u ∈ units) (i : Nat)
    (h : Abreast o units here b b' p p') :
    Together (o.prepare i u) p p' (fun _ => Abreast o units here b b')
      (Abreast o units here b b') := by
  unfold prepare
  dsimp only
  apply Together.bind (Q := fun t q q' => Abreast o units here b b' q q' ∧
    o.IsDraft units here b t)
  · apply together_call (hfaults _)
    rcases createTemporary_level hunits htokens hu h.level with
      ⟨f, hfails, hfails'⟩ | ⟨t, e, e', hmade, hmade', hdraft, hlevel⟩
    · refine .inr ⟨.file u.name f, p.disk, p'.disk, ?_, ?_, h⟩
      · rw [hfails]
      · rw [hfails']
    · refine .inl ⟨t, e, e', ?_, ?_, h.next hlevel, hdraft⟩
      · rw [hmade]
      · rw [hmade']
  rintro t q q' ⟨hq, hdraft⟩
  apply Together.bind (Q := fun _ q q' => Abreast o units here b b' q q' ∧
    o.IsDraft units here b t)
  · refine .inl ⟨(), _, _, rfl, rfl, ⟨hq.level, ?_, ?_⟩, hdraft⟩
    · exact congrArg (· ++ [t]) hq.temporaries
    · intro t' ht'
      rcases List.mem_append.mp ht' with ht' | ht'
      · exact hq.drafts t' ht'
      · exact List.mem_singleton.mp ht' ▸ hdraft
  rintro _ q q' ⟨hq, v, hv, n, rfl, hfits, hfile⟩
  apply Together.bind (Q := fun _ => Abreast o units here b b')
  · apply together_change (hfaults _)
    have hx : o.Touches units (o.draftName v.name n) := ⟨v, hv, .inr ⟨n, rfl⟩⟩
    have hold : q.disk.find? (here ++ [o.draftName v.name n]) ≠ some .directory :=
      mt (hq.level.directories _).mp hfile
    have hold' : q'.disk.find? (here ++ [o.draftName v.name n]) ≠ some .directory := by
      rwa [← hq.level.touched _ hx]
    refine .inr ⟨_, _, ?_, ?_, hq.next (hq.level.put hx hfits hfile u.content)⟩
    · rw [Disk.writeFile, hq.level.stands.resolve_inside hfits]
      exact if_neg hold
    · rw [Disk.writeFile, hq.level.stands'.resolve_inside hfits]
      exact if_neg hold'
  intro _ q q' hq
  apply Together.bind (Q := fun _ => Abreast o units here b b')
  · exact together_change (hfaults _) (.inr ⟨q.disk, q'.disk, rfl, rfl, hq⟩)
  intro _ q q' hq
  exact together_change (hfaults _) (.inr ⟨q.disk, q'.disk, rfl, rfl, hq⟩)

variable (hapart : ∀ u ∈ units, ∀ v ∈ units, ∀ n, u.name ≠ o.draftName v.name n)

include hfaults hunits hapart in
theorem place_together {u : SourceFile} (hu : u ∈ units) {t : Text} (ht : t ∈ p.temporaries)
    (i : Nat) (h : Abreast o units here b b' p p') :
    Together (o.place i u t) p p'
      (fun _ q q' => Abreast o units here b b' q q' ∧ q.temporaries = p.temporaries)
      (Abreast o units here b b') := by
  obtain ⟨v, hv, n, rfl, hfits, hfile⟩ := h.drafts t ht
  apply together_change (hfaults _)
  rcases h.level.rename ⟨v, hv, .inr ⟨n, rfl⟩⟩ hfits ⟨u, hu, .inl rfl⟩ (hunits u hu)
    (Ne.symm (hapart u hu v hv n)) hfile with ⟨f, hfails, hfails'⟩ | ⟨e, e', hok, hok', hlevel⟩
  · exact .inl ⟨f, hfails, hfails', h⟩
  · exact .inr ⟨e, e', hok, hok', h.next hlevel, rfl⟩

include hfaults hunits hapart in
theorem placeAll_together (h : Abreast o units here b b' p p') :
    Together ((units.zip p.temporaries).zipIdx.forM fun ((u, t), i) => o.place i u t) p p'
      (fun _ => Abreast o units here b b') (Abreast o units here b b') := by
  have hall : Together ((units.zip p.temporaries).zipIdx.forM fun ((u, t), i) => o.place i u t) p p'
      (fun _ q q' => Abreast o units here b b' q q' ∧ q.temporaries = p.temporaries)
      (Abreast o units here b b') := by
    apply together_forM (R := fun q q' => Abreast o units here b b' q q' ∧
      q.temporaries = p.temporaries) ⟨h, rfl⟩
    rintro ⟨⟨u, t⟩, i⟩ hmem q q' ⟨hq, htemporaries⟩
    obtain ⟨hu, ht⟩ := List.of_mem_zip (List.fst_mem_of_mem_zipIdx hmem)
    rw [← htemporaries] at ht
    refine (place_together hfaults hunits hapart hu ht i hq).imp ?_
    rintro _ r r' ⟨hr, hsame⟩
    exact ⟨hr, hsame.trans htemporaries⟩
  exact hall.imp fun _ q q' hq => hq.1

theorem Abreast.discard (h : Abreast o units here b b' p p') :
    Level o units here b b' (o.discard p) (o.discard p') := by
  obtain ⟨hlevel, htemporaries, hdrafts⟩ := h
  rw [Output.discard, Output.discard, ← htemporaries]
  generalize p.disk = d at hlevel hdrafts
  generalize p'.disk = d' at hlevel
  generalize p.temporaries = temporaries at hdrafts
  induction temporaries generalizing d d' with
  | nil => exact hlevel
  | cons t temporaries ih =>
    obtain ⟨⟨u, hu, n, rfl, hfits, hfile⟩, hrest⟩ := List.forall_mem_cons.mp hdrafts
    exact ih _ _ (hlevel.remove ⟨u, hu, .inr ⟨n, rfl⟩⟩ hfits hfile) hrest

theorem write_of_makes_not {f : SystemError} (hstep : o.faults .makeDirectory = none)
    (h : d.makeDirectories o.cwd o.dir = (.error f, b)) :
    o.write units d = (.error (.directory o.dir f), b) := by
  have hsteps : (o.steps units).run.run ⟨d, []⟩ = (.error (.directory o.dir f), ⟨b, []⟩) := by
    refine run_bind_error ((call_run hstep).trans ?_) _
    rw [h]
    rfl
  rw [write, hsteps]
  rfl

include hfaults hunits htokens hapart in
theorem write_level (hmade : d.makeDirectories o.cwd o.dir = (.ok (), b))
    (hmade' : d'.makeDirectories o.cwd o.dir = (.ok (), b')) (hs : o.Stands here b)
    (hs' : o.Stands here b')
    (hsame : ∀ x, o.Touches units x → b.find? (here ++ [x]) = b'.find? (here ++ [x])) :
    (o.write units d).1 = (o.write units d').1 ∧
      Level o units here b b' (o.write units d).2 (o.write units d').2 := by
  have hsteps : Together (o.steps units) ⟨d, []⟩ ⟨d', []⟩ (fun _ => Abreast o units here b b')
      (Abreast o units here b b') := by
    unfold steps
    apply Together.bind (Q := fun _ => Abreast o units here b b')
    · apply together_call (hfaults _)
      have hlevel : Level o units here b b' b b' :=
        ⟨hs, hs', fun _ => Iff.rfl, hsame, fun _ _ => ⟨rfl, rfl⟩⟩
      refine .inl ⟨(), b, b', ?_, ?_, hlevel, rfl, ?_⟩
      · rw [hmade]
        rfl
      · rw [hmade']
        rfl
      · exact List.forall_mem_nil _
    intro _ q q' hq
    apply Together.bind (Q := fun _ => Abreast o units here b b')
    · apply together_forM hq
      rintro ⟨u, i⟩ hmem r r' hr
      exact prepare_together hfaults hunits htokens (List.fst_mem_of_mem_zipIdx hmem) i hr
    intro _ r r' hr
    apply together_get (f := fun temporaries =>
      (units.zip temporaries).zipIdx.forM fun ((u, t), i) => o.place i u t) hr.temporaries
    exact placeAll_together hfaults hunits hapart hr
  rw [write, write]
  rcases hsteps with ⟨_, q, q', hrun, hrun', hq⟩ | ⟨f, q, q', hrun, hrun', hq⟩
  · rw [hrun, hrun']
    exact ⟨rfl, hq.level⟩
  · rw [hrun, hrun']
    exact ⟨rfl, hq.discard⟩

end Runs

end Output

end Stencil
