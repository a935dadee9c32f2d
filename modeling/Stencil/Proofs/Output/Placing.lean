import Stencil.Proofs.Disk.Changing
import Stencil.Proofs.Output

/-!
What writing leaves on a disk. Every file stands under a temporary name before the first one is
renamed, so that a failure before that changes nothing; a failure between two renames leaves the
files that were renamed.
-/

namespace Stencil

open Ascii Text

namespace Output

variable {o : Output} {b d d' : Disk} {here : Location}

def Ends {α : Type} (x : Writer α) (p : Progress) (Q : α → Progress → Prop)
    (E : Progress → Prop) : Prop :=
  (∃ a q, x.run.run p = (.ok a, q) ∧ Q a q) ∨ ∃ e q, x.run.run p = (.error e, q) ∧ E q

section

variable {α β : Type} {p : Progress} {E : Progress → Prop}

theorem Ends.bind {x : Writer α} {f : α → Writer β} {Q : α → Progress → Prop}
    {R : β → Progress → Prop} (hx : Ends x p Q E) (hf : ∀ a q, Q a q → Ends (f a) q R E) :
    Ends (x >>= f) p R E := by
  rcases hx with ⟨a, q, hrun, hq⟩ | ⟨e, q, hrun, hq⟩
  · have hbind := run_bind_ok (f := f) hrun
    rcases hf a q hq with ⟨c, r, hrun', hr⟩ | ⟨e, r, hrun', hr⟩
    · exact .inl ⟨c, r, hbind.trans hrun', hr⟩
    · exact .inr ⟨e, r, hbind.trans hrun', hr⟩
  · exact .inr ⟨e, q, run_bind_error hrun f, hq⟩

theorem Ends.imp {x : Writer PUnit} {Q R : PUnit → Progress → Prop} {F : Progress → Prop}
    (h : Ends x p Q E) (hok : ∀ q, Q () q → R () q) (hfails : ∀ q, E q → F q) : Ends x p R F := by
  rcases h with ⟨a, q, hrun, hq⟩ | ⟨e, q, hrun, hq⟩
  · exact .inl ⟨a, q, hrun, hok q hq⟩
  · exact .inr ⟨e, q, hrun, hfails q hq⟩

variable {step : WriteStep} {refusal : Fault → OutputError}

theorem ends_call {action : Disk → Except OutputError α × Disk} {Q : α → Progress → Prop}
    (hok : ∀ a d, action p.disk = (.ok a, d) → Q a { p with disk := d })
    (hfails : ∀ e d, action p.disk = (.error e, d) → E { p with disk := d })
    (hrefused : (o.faults step).isSome → E p) : Ends (o.call step refusal action) p Q E := by
  cases hstep : o.faults step with
  | some f => exact .inr ⟨_, p, call_refused hstep, hrefused (by rw [hstep]; rfl)⟩
  | none =>
    rcases haction : action p.disk with ⟨e | a, d⟩
    · refine .inr ⟨e, _, (call_run hstep).trans ?_, hfails e d haction⟩
      rw [haction]
    · refine .inl ⟨a, _, (call_run hstep).trans ?_, hok a d haction⟩
      rw [haction]

theorem ends_change {wrap : SystemError → OutputError} {action : Disk → Except SystemError Disk}
    {Q : PUnit → Progress → Prop} (hok : ∀ d, action p.disk = .ok d → Q () { p with disk := d })
    (hfails : (o.faults step).isSome ∨ (∃ e, action p.disk = .error e) → E p) :
    Ends (o.change step refusal wrap action) p Q E := by
  apply ends_call
  · intro a d haction
    cases hchange : action p.disk with
    | error e =>
      rw [hchange] at haction
      cases haction
    | ok made =>
      rw [hchange] at haction
      cases haction
      exact hok d hchange
  · intro e d haction
    cases hchange : action p.disk with
    | error e =>
      rw [hchange] at haction
      cases haction
      exact hfails (.inr ⟨e, hchange⟩)
    | ok made =>
      rw [hchange] at haction
      cases haction
  · exact fun hrefused => hfails (.inl hrefused)

end

structure Fits (name : Text) : Prop where
  valid : Path.isValidPart name = true
  short : name.length ≤ 255
  slash : slash ∉ name
  nul : nul ∉ name

structure Stands (o : Output) (here : Location) (d : Disk) : Prop where
  sound : d.Sound
  resolves : d.resolve o.cwd o.dir = .ok here
  directory : d.find? here = some .directory

namespace Stands

theorem of_within (h : o.Stands here d) (hsound : d'.Sound) (hwithin : d.Within d') :
    o.Stands here d' :=
  ⟨hsound, hwithin.resolve h.resolves, hwithin here h.directory⟩

theorem resolve_inside {name : Text} (h : o.Stands here d) (hname : Fits name) :
    d.resolve o.cwd (o.inside name) = .ok (here ++ [name]) := by
  rw [inside, Disk.resolve_inside h.resolves h.directory hname.slash hname.nul]
  exact Disk.walk_name h.directory hname.valid hname.short

theorem leads {name : Text} (h : o.Stands here d) (hname : Fits name) :
    d.Leads (here ++ [name]) :=
  Disk.leads_of_resolve h.sound (h.resolve_inside hname)

theorem put {name : Text} (h : o.Stands here d) (hname : Fits name)
    (hfile : d.find? (here ++ [name]) ≠ some .directory) (content : Text) :
    o.Stands here (d.put (here ++ [name]) (.file content)) := by
  refine h.of_within (h.sound.put (h.leads hname) hfile _) fun l hl => ?_
  rw [Disk.find?_put (by simp), if_neg, hl]
  rintro rfl
  exact hfile hl

theorem resolve_target {name : Text} (h : o.Stands here d) (hslash : slash ∉ name)
    (hnul : nul ∉ name) (hshort : name.length ≤ 255) :
    ∃ loc, d.resolve o.cwd (Path.join [o.dir, name]) = .ok loc ∧
      (d.find? loc = some .directory ∨ Fits name ∧ loc = here ++ [name]) := by
  have hwalk : ∃ loc, d.walk here [name] = .ok loc := by
    by_cases hskip : (name.isEmpty || name = [dot]) = true
    · exact ⟨here, Disk.walk_here h.directory hskip []⟩
    · by_cases hup : name = [dot, dot]
      · exact ⟨here.dropLast, hup ▸ Disk.walk_up h.directory []⟩
      · simp only [Bool.or_eq_true, List.isEmpty_iff, decide_eq_true_eq, not_or] at hskip
        have hvalid := Path.isValidPart_iff.mpr ⟨hskip.1, hskip.2, hup⟩
        exact ⟨here ++ [name], Disk.walk_name h.directory hvalid hshort⟩
  obtain ⟨loc, hwalk⟩ := hwalk
  refine ⟨loc, Disk.resolve_join_name h.resolves h.directory hslash hnul hwalk, ?_⟩
  by_cases hdir : d.find? loc = some .directory
  · exact .inl hdir
  · obtain ⟨hvalid, -, hloc⟩ := Disk.child_of_walk h.sound hwalk hdir
    exact .inr ⟨⟨hvalid, hshort, hslash, hnul⟩, hloc⟩

end Stands

structure Drafts (o : Output) (b : Disk) (here : Location) (drafts : List (SourceFile × Text)) :
    Prop where
  fits : ∀ x ∈ drafts, Fits x.2
  named : ∀ x ∈ drafts, ∃ n, x.2 = o.draftName x.1.name n
  fresh : ∀ x ∈ drafts, b.find? (here ++ [x.2]) = none
  nodup : (drafts.map Prod.snd).Nodup

/-- The disk `b` with some units in place and others under temporary names. -/
structure Staged (o : Output) (b : Disk) (here : Location) (placed : List SourceFile)
    (drafts : List (SourceFile × Text)) (d : Disk) : Prop where
  stands : o.Stands here d
  holds : ∀ u ∈ placed, d.find? (here ++ [u.name]) = some (.file u.content)
  drafted : ∀ x ∈ drafts, d.find? (here ++ [x.2]) = some (.file x.1.content)
  rest : ∀ l, (∀ u ∈ placed, l ≠ here ++ [u.name]) → (∀ x ∈ drafts, l ≠ here ++ [x.2]) →
    d.find? l = b.find? l

structure Littered (o : Output) (b : Disk) (here : Location) (placed : List SourceFile)
    (names : List Text) (d : Disk) : Prop where
  stands : o.Stands here d
  holds : ∀ u ∈ placed, d.find? (here ++ [u.name]) = some (.file u.content)
  fits : ∀ x ∈ names, Fits x
  fresh : ∀ x ∈ names, b.find? (here ++ [x]) = none
  files : ∀ x ∈ names, d.find? (here ++ [x]) ≠ some .directory
  rest : ∀ l, (∀ u ∈ placed, l ≠ here ++ [u.name]) → (∀ x ∈ names, l ≠ here ++ [x]) →
    d.find? l = b.find? l

theorem child_inj {x y : Text} : here ++ [x] = here ++ [y] ↔ x = y := by simp

theorem Staged.littered {placed : List SourceFile} {drafts all : List (SourceFile × Text)}
    (h : Staged o b here placed drafts d) (hall : Drafts o b here all)
    (hsub : ∀ x ∈ drafts, x ∈ all) (hapart : ∀ u ∈ placed, ∀ x ∈ all, u.name ≠ x.2) :
    Littered o b here placed (all.map Prod.snd) d where
  stands := h.stands
  holds := h.holds
  fits := List.forall_mem_map.mpr hall.fits
  fresh := List.forall_mem_map.mpr hall.fresh
  files := by
    intro name hname hdir
    obtain ⟨x, hx, rfl⟩ := List.mem_map.mp hname
    by_cases hdraft : ∃ y ∈ drafts, y.2 = x.2
    · obtain ⟨y, hy, hyx⟩ := hdraft
      have hfile := h.drafted y hy
      rw [hyx, hdir] at hfile
      cases hfile
    · have hsame := h.rest (here ++ [x.2]) (fun u hu => ?_) fun y hy => ?_
      · rw [hdir, hall.fresh x hx] at hsame
        cases hsame
      · rw [Ne, child_inj]
        exact Ne.symm (hapart u hu x hx)
      · rw [Ne, child_inj]
        exact fun heq => hdraft ⟨y, hy, heq.symm⟩
  rest := by
    intro l hplaced hnames
    exact h.rest l hplaced fun x hx => hnames x.2 (List.mem_map_of_mem (hsub x hx))

theorem Littered.remove {placed : List SourceFile} {name : Text} {names : List Text}
    (h : Littered o b here placed (name :: names) d) (hapart : ∀ u ∈ placed, u.name ≠ name) :
    Littered o b here placed names ((d.remove o.cwd (o.inside name)).toOption.getD d) ∧
      d.Within ((d.remove o.cwd (o.inside name)).toOption.getD d) := by
  obtain ⟨hname, hfits⟩ := List.forall_mem_cons.mp h.fits
  obtain ⟨hfree, hfresh⟩ := List.forall_mem_cons.mp h.fresh
  obtain ⟨hfile, hfiles⟩ := List.forall_mem_cons.mp h.files
  have hresolve := h.stands.resolve_inside hname
  cases hfind : d.find? (here ++ [name]) with
  | none =>
    have hremove : (d.remove o.cwd (o.inside name)).toOption.getD d = d := by
      rw [Disk.remove, hresolve]
      simp [hfind, Except.toOption]
    rw [hremove]
    refine ⟨⟨h.stands, h.holds, hfits, hfresh, hfiles, fun l hplaced hnames => ?_⟩, fun l hl => hl⟩
    by_cases hl : l = here ++ [name]
    · rw [hl, hfind, hfree]
    · exact h.rest l hplaced (List.forall_mem_cons.mpr ⟨hl, hnames⟩)
  | some e =>
    cases e with
    | directory => exact absurd hfind hfile
    | file content =>
      have hok : d.remove o.cwd (o.inside name) = .ok (d.erase (here ++ [name])) := by
        rw [Disk.remove, hresolve]
        simp [hfind]
      have hview (l : Location) (hl : l ≠ here ++ [name]) :
          (d.erase (here ++ [name])).find? l = d.find? l := by
        rw [Disk.find?_erase, if_neg fun h => hl h.2]
      have hwithin : d.Within (d.erase (here ++ [name])) := by
        intro l hl
        rw [hview l, hl]
        rintro rfl
        exact hfile hl
      rw [hok]
      refine ⟨⟨h.stands.of_within (h.stands.sound.remove hok) hwithin, ?_, hfits, hfresh, ?_, ?_⟩,
        hwithin⟩
      · intro u hu
        refine (hview _ ?_).trans (h.holds u hu)
        rw [Ne, child_inj]
        exact hapart u hu
      · intro x hx hdir
        by_cases heq : here ++ [x] = here ++ [name]
        · change (d.erase _).find? _ = _ at hdir
          rw [Disk.find?_erase, if_pos ⟨by simp, heq⟩] at hdir
          cases hdir
        · exact hfiles x hx ((hview _ heq).symm.trans hdir)
      · intro l hplaced hnames
        change (d.erase _).find? l = _
        by_cases hl : l = here ++ [name]
        · rw [Disk.find?_erase, if_pos ⟨by simp [hl], hl⟩, hl, hfree]
        · rw [hview l hl]
          exact h.rest l hplaced (List.forall_mem_cons.mpr ⟨hl, hnames⟩)

theorem Littered.discard {placed : List SourceFile} {names : List Text} {p : Progress}
    (h : Littered o b here placed names p.disk) (htemporaries : p.temporaries = names.map o.inside)
    (hapart : ∀ u ∈ placed, u.name ∉ names) :
    Littered o b here placed [] (o.discard p) ∧ p.disk.Within (o.discard p) := by
  rw [Output.discard, htemporaries]
  generalize p.disk = d at h
  clear htemporaries
  induction names generalizing d with
  | nil => exact ⟨h, fun l hl => hl⟩
  | cons name names ih =>
    rw [List.map_cons, List.foldl_cons]
    obtain ⟨hstep, hwithin⟩ := h.remove fun u hu heq => hapart u hu (by simp [heq])
    obtain ⟨hclean, hwithin'⟩ := ih (fun u hu hmem => hapart u hu (by simp [hmem])) _ hstep
    exact ⟨hclean, fun l hl => hwithin' l (hwithin l hl)⟩

structure Prepared (o : Output) (b : Disk) (here : Location) (drafts : List (SourceFile × Text))
    (p : Progress) : Prop where
  staged : Staged o b here [] drafts p.disk
  made : Drafts o b here drafts
  temporaries : p.temporaries = drafts.map fun x => o.inside x.2

theorem Prepared.discard {drafts : List (SourceFile × Text)} {p : Progress}
    (h : Prepared o b here drafts p) (l : Location) : (o.discard p).find? l = b.find? l := by
  have hlittered := h.staged.littered h.made (fun x hx => hx) (by simp)
  have htemporaries : p.temporaries = (drafts.map Prod.snd).map o.inside := by
    rw [h.temporaries, List.map_map]
    rfl
  obtain ⟨hclean, -⟩ := hlittered.discard htemporaries (by simp)
  exact hclean.rest l (by simp) (by simp)

section

variable {drafts : List (SourceFile × Text)} {u : SourceFile} {x : Text}

theorem Drafts.concat (h : Drafts o b here drafts) (hfits : Fits x)
    (hnamed : ∃ n, x = o.draftName u.name n) (hfresh : b.find? (here ++ [x]) = none)
    (hnew : ∀ y ∈ drafts, y.2 ≠ x) : Drafts o b here (drafts ++ [(u, x)]) where
  fits := by simpa [or_imp, forall_and] using ⟨fun v y hy => h.fits (v, y) hy, hfits⟩
  named := by simpa [or_imp, forall_and] using ⟨fun v y hy => h.named (v, y) hy, hnamed⟩
  fresh := by simpa [or_imp, forall_and] using ⟨fun v y hy => h.fresh (v, y) hy, hfresh⟩
  nodup := by
    rw [List.map_append, List.nodup_append]
    refine ⟨h.nodup, by simp, ?_⟩
    intro name hname other hother
    obtain ⟨y, hy, rfl⟩ := List.mem_map.mp hname
    rw [List.map_singleton, List.mem_singleton] at hother
    exact hother ▸ hnew y hy

theorem Staged.write {before : List (SourceFile × Text)} (h : Staged o b here [] before d)
    (hold : ∀ y ∈ drafts, y ∈ before) (hothers : ∀ y ∈ before, y ∈ drafts ∨ y.2 = x)
    (hfits : Fits x) (hfile : d.find? (here ++ [x]) ≠ some .directory)
    (hnew : ∀ y ∈ drafts, y.2 ≠ x) :
    Staged o b here [] (drafts ++ [(u, x)]) (d.put (here ++ [x]) (.file u.content)) where
  stands := h.stands.put hfits hfile u.content
  holds := by simp
  drafted := by
    intro y hy
    rw [Disk.find?_put (by simp)]
    rcases List.mem_append.mp hy with hy | hy
    · rw [if_neg (by simpa using hnew y hy)]
      exact h.drafted y (hold y hy)
    · rw [List.mem_singleton.mp hy, if_pos rfl]
  rest := by
    intro l _ hl
    have hx : l ≠ here ++ [x] := hl (u, x) (by simp)
    rw [Disk.find?_put (by simp), if_neg hx]
    apply h.rest l (by simp)
    intro y hy
    rcases hothers y hy with hy | rfl
    · exact hl y (by simp [hy])
    · exact hx

end

section

variable {drafts : List (SourceFile × Text)} {p : Progress} {u : SourceFile} {x : Text}

theorem Prepared.create (htokens : ∀ n, slash ∉ o.tokens n) (h : Prepared o b here drafts p)
    {temporary : Text} (hmade : o.createTemporary u.name p.disk = .ok (temporary, d)) :
    ∃ x, temporary = o.inside x ∧
      Prepared o b here (drafts ++ [({ u with content := [] }, x)])
        ⟨d, p.temporaries ++ [temporary]⟩ := by
  obtain ⟨hslash, n, htemporary, hfile⟩ := createTemporary_ok hmade
  obtain ⟨loc, hresolve, hfree, hput⟩ := Disk.createFile_eq_ok_iff.mp hfile
  have hwhole : slash ∉ o.draftName u.name n := by
    simp only [draftName, List.mem_append, List.mem_singleton, not_or]
    exact ⟨⟨⟨by decide, hslash⟩, by decide⟩, htokens n⟩
  have hnul : nul ∉ o.draftName u.name n := by
    have hpath := (Disk.resolve_eq_ok_iff.mp hresolve).1
    rw [htemporary, inside, List.mem_append, not_or] at hpath
    exact hpath.2
  have hstands := h.staged.stands
  rw [htemporary, inside, Disk.resolve_inside hstands.resolves hstands.directory hwhole hnul]
    at hresolve
  obtain ⟨hvalid, hshort, rfl⟩ := Disk.child_of_walk hstands.sound hresolve (by simp [hfree])
  have hfits : Fits (o.draftName u.name n) := ⟨hvalid, hshort, hwhole, hnul⟩
  have hnew : ∀ y ∈ drafts, y.2 ≠ o.draftName u.name n := by
    intro y hy heq
    have hdrafted := h.staged.drafted y hy
    rw [heq, hfree] at hdrafted
    cases hdrafted
  have hfresh : b.find? (here ++ [o.draftName u.name n]) = none := by
    rw [← h.staged.rest _ (by simp) fun y hy => by simpa using Ne.symm (hnew y hy)]
    exact hfree
  refine ⟨o.draftName u.name n, htemporary, ?_, h.made.concat hfits ⟨n, rfl⟩ hfresh hnew, ?_⟩
  · rw [hput]
    exact h.staged.write (u := { u with content := [] }) (fun y hy => hy) (fun y hy => .inl hy)
      hfits (by simp [hfree]) hnew
  · rw [h.temporaries, htemporary, List.map_append]
    rfl

theorem Prepared.fill (h : Prepared o b here (drafts ++ [({ u with content := [] }, x)]) p)
    (hfilled : p.disk.writeFile o.cwd (o.inside x) u.content = .ok d) :
    Prepared o b here (drafts ++ [(u, x)]) { p with disk := d } := by
  have hfits := h.made.fits _ (List.mem_append_right _ (List.mem_singleton_self _))
  have hnew : ∀ y ∈ drafts, y.2 ≠ x := by
    intro y hy
    have hnodup := h.made.nodup
    rw [List.map_append, List.nodup_append] at hnodup
    exact hnodup.2.2 y.2 (List.mem_map_of_mem hy) x (by simp)
  rw [Disk.writeFile, h.staged.stands.resolve_inside hfits] at hfilled
  dsimp only at hfilled
  split at hfilled
  · cases hfilled
  next hfile =>
    cases hfilled
    refine ⟨h.staged.write (fun y hy => by simp [hy]) (fun y hy => ?_) hfits hfile hnew, ?_, ?_⟩
    · rcases List.mem_append.mp hy with hy | hy
      · exact .inl hy
      · exact .inr (by rw [List.mem_singleton.mp hy])
    · obtain ⟨hmade, hnamed, hfresh, hnodup⟩ := h.made
      constructor
      · simpa [or_imp, forall_and] using hmade
      · simpa [or_imp, forall_and] using hnamed
      · simpa [or_imp, forall_and] using hfresh
      · simpa using hnodup
    · simpa using h.temporaries

theorem Prepared.keep (h : Prepared o b here drafts p) (step : WriteStep)
    (refusal : Fault → OutputError) (wrap : SystemError → OutputError) :
    Ends (o.change step refusal wrap .ok) p (fun _ q => Prepared o b here drafts q)
      (fun q => ∃ drafts, Prepared o b here drafts q) := by
  apply ends_change
  · intro d hd
    cases hd
    exact h
  · exact fun _ => ⟨drafts, h⟩

theorem prepare_ends (htokens : ∀ n, slash ∉ o.tokens n) (h : Prepared o b here drafts p) (i : Nat)
    (u : SourceFile) :
    Ends (o.prepare i u) p (fun _ q => ∃ x, Prepared o b here (drafts ++ [(u, x)]) q)
      (fun q => ∃ drafts, Prepared o b here drafts q) := by
  unfold prepare
  dsimp only
  apply Ends.bind (Q := fun t q => ∃ x, t = o.inside x ∧
    Prepared o b here (drafts ++ [({ u with content := [] }, x)]) ⟨q.disk, q.temporaries ++ [t]⟩)
  · apply ends_call
    · intro temporary made hcall
      rcases hmade : o.createTemporary u.name p.disk with e | ⟨t, d⟩
      · rw [hmade] at hcall
        cases hcall
      · rw [hmade] at hcall
        cases hcall
        exact h.create htokens hmade
    · intro e made hcall
      rcases hmade : o.createTemporary u.name p.disk with e | ⟨t, d⟩
      · rw [hmade] at hcall
        cases hcall
        exact ⟨drafts, h⟩
      · rw [hmade] at hcall
        cases hcall
    · exact fun _ => ⟨drafts, h⟩
  rintro t q ⟨x, rfl, hq⟩
  apply Ends.bind (Q := fun _ r => Prepared o b here (drafts ++ [({ u with content := [] }, x)]) r)
  · exact .inl ⟨(), _, rfl, hq⟩
  intro _ r hr
  apply Ends.bind (Q := fun _ r => Prepared o b here (drafts ++ [(u, x)]) r)
  · apply ends_change
    · exact fun filled hfilled => hr.fill hfilled
    · exact fun _ => ⟨_, hr⟩
  intro _ r hr
  apply Ends.bind (hr.keep _ _ _)
  intro _ r hr
  exact (hr.keep _ _ _).imp (fun q hq => ⟨x, hq⟩) fun q hq => hq

theorem prepareAll_ends (htokens : ∀ n, slash ∉ o.tokens n) (h : Prepared o b here drafts p)
    (units : List SourceFile) (k : Nat) :
    Ends ((units.zipIdx k).forM fun (u, i) => o.prepare i u) p
      (fun _ q => ∃ more, more.map Prod.fst = units ∧ Prepared o b here (drafts ++ more) q)
      (fun q => ∃ drafts, Prepared o b here drafts q) := by
  induction units generalizing drafts p k with
  | nil => exact .inl ⟨(), p, rfl, [], rfl, by simpa using h⟩
  | cons u units ih =>
    rw [List.zipIdx_cons]
    apply Ends.bind (prepare_ends htokens h k u)
    rintro _ q ⟨x, hq⟩
    refine (ih hq (k + 1)).imp (fun r hr => ?_) fun r hr => hr
    obtain ⟨more, hmore, hr⟩ := hr
    exact ⟨(u, x) :: more, by rw [List.map_cons, hmore], by simpa using hr⟩

end

def Blocked (o : Output) (i : Nat) (u : SourceFile) (d : Disk) : Prop :=
  (o.faults (.rename i)).isSome = true ∨
    d.entryAt o.cwd (Path.join [o.dir, u.name]) = .ok .directory

section

variable {placed : List SourceFile} {drafts : List (SourceFile × Text)} {u : SourceFile} {x : Text}

theorem Staged.place (h : Staged o b here placed ((u, x) :: drafts) d)
    (hmade : Drafts o b here ((u, x) :: drafts)) (hx : x ≠ u.name)
    (hfree : d.find? (here ++ [u.name]) ≠ some .directory)
    (hnew : ∀ v ∈ placed, v.name ≠ u.name) (hplaced : ∀ v ∈ placed, v.name ≠ x)
    (hdrafts : ∀ y ∈ drafts, u.name ≠ y.2)
    (hsound : (d.move (here ++ [x]) (here ++ [u.name])).Sound) :
    Staged o b here (placed ++ [u]) drafts (d.move (here ++ [x]) (here ++ [u.name])) := by
  obtain ⟨hdraft, hdrafted⟩ := List.forall_mem_cons.mp h.drafted
  have hmoves : here ++ [x] ≠ here ++ [u.name] := by simpa using hx
  have hview := Disk.find?_move_file h.stands.sound hdraft hfree hmoves
  have hother (name : Text) (hu : name ≠ u.name) (hname : name ≠ x) :
      (d.move (here ++ [x]) (here ++ [u.name])).find? (here ++ [name]) =
        d.find? (here ++ [name]) := by
    rw [hview, if_neg (by simpa using hu), if_neg (by simpa using hname)]
  refine ⟨h.stands.of_within hsound fun l hl => ?_, ?_, ?_, ?_⟩
  · rw [hview, if_neg, if_neg, hl]
    · rintro rfl
      rw [hdraft] at hl
      cases hl
    · rintro rfl
      exact hfree hl
  · intro v hv
    rcases List.mem_append.mp hv with hv | hv
    · rw [hother v.name (hnew v hv) (hplaced v hv)]
      exact h.holds v hv
    · rw [List.mem_singleton.mp hv, hview, if_pos rfl]
  · intro y hy
    have hne : y.2 ≠ x := by
      have hnodup := hmade.nodup
      rw [List.map_cons, List.nodup_cons] at hnodup
      intro heq
      exact hnodup.1 (List.mem_map.mpr ⟨y, hy, heq⟩)
    rw [hother y.2 (Ne.symm (hdrafts y hy)) hne]
    exact hdrafted y hy
  · intro l hl hrest
    rw [hview, if_neg (hl u (by simp))]
    split
    next heq => rw [heq, hmade.fresh (u, x) (by simp)]
    next heq =>
      apply h.rest l
      · exact fun v hv => hl v (by simp [hv])
      · exact List.forall_mem_cons.mpr ⟨heq, hrest⟩

theorem place_ends {p : Progress} (h : Staged o b here placed ((u, x) :: drafts) p.disk)
    (hmade : Drafts o b here ((u, x) :: drafts)) (hnew : ∀ v ∈ placed, v.name ≠ u.name)
    (hplaced : ∀ v ∈ placed, v.name ≠ x) (hdrafts : ∀ y ∈ drafts, u.name ≠ y.2) (i : Nat) :
    Ends (o.place i u (o.inside x)) p
      (fun _ q => q.temporaries = p.temporaries ∧ Staged o b here (placed ++ [u]) drafts q.disk)
      (fun q => q = p ∧ Blocked o i u p.disk) := by
  have hfits : Fits x := hmade.fits (u, x) (by simp)
  obtain ⟨n, hn⟩ : ∃ n, x = o.draftName u.name n := hmade.named (u, x) (by simp)
  have hlength : x.length = u.name.length + (o.tokens n).length + 2 := by
    rw [hn]
    simp only [draftName, List.length_append, List.length_singleton]
    omega
  have hin : ∀ c ∈ u.name, c ∈ x := by
    intro c hc
    rw [hn]
    simp [draftName, hc]
  have hx : x ≠ u.name := by
    rintro rfl
    omega
  have hshort : u.name.length ≤ 255 := by
    have := hfits.short
    omega
  have hfile := h.drafted (u, x) (by simp)
  have hsource := h.stands.resolve_inside hfits
  obtain ⟨loc, htarget, hloc⟩ :=
    h.stands.resolve_target (fun hc => hfits.slash (hin _ hc)) (fun hc => hfits.nul (hin _ hc)) hshort
  unfold Output.place
  dsimp only
  by_cases hdir : p.disk.find? loc = some .directory
  · apply ends_change
    · intro d hrename
      rw [Disk.rename_onto_directory hsource hfile htarget hdir] at hrename
      cases hrename
    · exact fun _ => ⟨rfl, .inr (Disk.entryAt_eq_ok_iff.mpr ⟨loc, htarget, hdir⟩)⟩
  · obtain ⟨-, rfl⟩ := hloc.resolve_left hdir
    have hmoves : here ++ [x] ≠ here ++ [u.name] := by simpa using hx
    have hrename := Disk.rename_file hsource hfile htarget hdir h.stands.sound hmoves
    apply ends_change
    · intro d hd
      rw [hrename] at hd
      cases hd
      refine ⟨rfl, h.place hmade hx hdir hnew hplaced hdrafts (h.stands.sound.rename hrename)⟩
    · rintro (hrefused | ⟨e, he⟩)
      · exact ⟨rfl, .inl hrefused⟩
      · rw [hrename] at he
        cases he

theorem placeAll_ends {p : Progress} (h : Staged o b here placed drafts p.disk)
    (hmade : Drafts o b here drafts)
    (hnames : ((placed ++ drafts.map Prod.fst).map SourceFile.name).Nodup)
    (hapart : ∀ v ∈ (placed ++ drafts.map Prod.fst).dropLast, ∀ y ∈ drafts, v.name ≠ y.2)
    (k : Nat) :
    Ends ((drafts.zipIdx k).forM fun (y, i) => o.place i y.1 (o.inside y.2)) p
      (fun _ q => Staged o b here (placed ++ drafts.map Prod.fst) [] q.disk)
      (fun q => ∃ before y after, drafts = before ++ y :: after ∧ q.temporaries = p.temporaries ∧
        Staged o b here (placed ++ before.map Prod.fst) (y :: after) q.disk ∧
        Blocked o (k + before.length) y.1 q.disk) := by
  induction drafts generalizing placed p k with
  | nil => exact .inl ⟨(), p, rfl, by simpa using h⟩
  | cons y drafts ih =>
    obtain ⟨u, x⟩ := y
    have hmore : placed ++ ((u, x) :: drafts).map Prod.fst = (placed ++ [u]) ++ drafts.map Prod.fst := by
      simp
    have hnew : ∀ v ∈ placed, v.name ≠ u.name := by
      intro v hv
      rw [List.map_append, List.nodup_append] at hnames
      exact hnames.2.2 v.name (List.mem_map_of_mem hv) u.name (by simp)
    have hplaced : ∀ v ∈ placed, v.name ≠ x := by
      intro v hv
      apply hapart v _ (u, x) (by simp)
      rw [List.dropLast_append_of_ne_nil (by simp)]
      exact List.mem_append_left _ hv
    have hdrafts : ∀ z ∈ drafts, u.name ≠ z.2 := by
      intro z hz
      apply hapart u _ z (by simp [hz])
      have hne : drafts.map Prod.fst ≠ [] := by
        rintro hnil
        rw [List.map_eq_nil_iff.mp hnil] at hz
        cases hz
      rw [hmore, List.dropLast_append_of_ne_nil hne]
      simp
    have hrest : Drafts o b here drafts := by
      obtain ⟨hfits, hnamed, hfresh, hnodup⟩ := hmade
      rw [List.map_cons, List.nodup_cons] at hnodup
      exact ⟨fun z hz => hfits z (by simp [hz]), fun z hz => hnamed z (by simp [hz]),
        fun z hz => hfresh z (by simp [hz]), hnodup.2⟩
    rw [hmore] at hnames hapart
    rw [List.zipIdx_cons]
    apply Ends.bind (Q := fun _ q => q.temporaries = p.temporaries ∧
      Staged o b here (placed ++ [u]) drafts q.disk)
    · refine (place_ends h hmade hnew hplaced hdrafts k).imp (fun q hq => hq) ?_
      rintro q ⟨rfl, hblocked⟩
      exact ⟨[], (u, x), drafts, rfl, rfl, by simpa using h, hblocked⟩
    · rintro _ q ⟨htemporaries, hq⟩
      refine (ih hq hrest hnames (fun v hv z hz => hapart v hv z (by simp [hz])) (k + 1)).imp ?_ ?_
      · intro r hr
        rwa [hmore]
      · rintro r ⟨before, z, after, rfl, hr, hstaged, hblocked⟩
        refine ⟨(u, x) :: before, z, after, rfl, hr.trans htemporaries, ?_, ?_⟩
        · simpa using hstaged
        · have hcount : k + ((u, x) :: before).length = k + 1 + before.length := by
            rw [List.length_cons]
            omega
          rwa [hcount]

end

end Output

end Stencil
