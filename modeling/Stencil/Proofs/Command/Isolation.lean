import Stencil.Proofs.Command.Packages
import Stencil.Proofs.Command.Sites
import Stencil.Proofs.Disk.Blending
import Stencil.Proofs.Output.Repeating
import Stencil.Proofs.Unit.Lookups

namespace Stencil

open Ascii Text

theorem Disk.Blends.contentsIn {C : Set Text} {d e : Disk} {copies : List Disk}
    (h : d.Blends copies e) (hd : d.ContentsIn C) (hcopies : ∀ a ∈ copies, a.ContentsIn C) :
    e.ContentsIn C := by
  intro l content hl
  rcases h l with ⟨hsame, -⟩ | ⟨a, ha, -, hplace⟩
  · exact hd l content (hsame ▸ hl)
  · exact hcopies a ha l content (hplace ▸ hl)

namespace Build

section Alone

variable {s : Session} {j : Job} {d : Disk}

def alone (s : Session) (j : Job) (d : Disk) : Except TemplateFailure PUnit × Disk :=
  (((perform s j).run ⟨d, none, []⟩).1, ((perform s j).run ⟨d, none, []⟩).2.disk)

def failure? (s : Session) (j : Job) (d : Disk) : Option TemplateFailure :=
  match (alone s j d).1 with
  | .ok _ => none
  | .error e => some e

theorem failure?_eq_none_iff : failure? s j d = none ↔ (alone s j d).1.isOk = true := by
  unfold failure?
  cases (alone s j d).1 <;> simp [Except.isOk, Except.toBool]

theorem write_outcome (s : Session) (j : Job) (impl iface : SourceFile) (b : Bench) :
    ∃ log, (write s j impl iface).run b =
      (((j.target s).write [impl, iface] b.disk).1.mapError .output,
        { b with disk := ((j.target s).write [impl, iface] b.disk).2, log := log }) := by
  rcases hwrite : (j.target s).write [impl, iface] b.disk with ⟨result, disk⟩
  rw [Job.target] at hwrite
  rw [write, StateT.run_bind]
  simp only [StateT.run_get, pure_bind, hwrite]
  cases result with
  | error e => exact ⟨_, rfl⟩
  | ok _ => exact ⟨_, rfl⟩

theorem alone_of_error {e : CompileError} (h : j.compiled s d = .error e) :
    alone s j d = (.error (.compile e), d) := by
  obtain ⟨log, hrun⟩ := perform_failed h []
  rw [alone, hrun]

theorem alone_of_ok {r : Compiled} (h : j.compiled s d = .ok r) :
    alone s j d = (((j.target s).write [r.implementation, r.interface] d).1.mapError .output,
      ((j.target s).write [r.implementation, r.interface] d).2) := by
  obtain ⟨log, hrun⟩ := perform_compiled h []
  obtain ⟨log', hwrite⟩ := write_outcome s j r.implementation r.interface ⟨d, none, log⟩
  rw [alone, hrun, hwrite]

theorem perform_alone (s : Session) (j : Job) (d : Disk) (log : List LogRecord) :
    ∃ log', (perform s j).run ⟨d, none, log⟩ =
      ((alone s j d).1, ⟨(alone s j d).2, none, log'⟩) := by
  cases hcompiled : j.compiled s d with
  | error e =>
    rw [alone_of_error hcompiled]
    exact perform_failed hcompiled log
  | ok r =>
    obtain ⟨log₁, hrun⟩ := perform_compiled hcompiled log
    obtain ⟨log₂, hwrite⟩ := write_outcome s j r.implementation r.interface ⟨d, none, log₁⟩
    rw [alone_of_ok hcompiled, hrun, hwrite]
    exact ⟨log₂, rfl⟩

theorem perform_cached {C : Set Text} {c : Cache} (hc : Tended C c)
    (hC : Set.InjOn Digest.ofText C) (hd : d.Sound) (hfair : Fair C s j d)
    (hrooted : j.rooted s = j.root) (hmodule : slash ∉ Compile.moduleOf j.name j.options)
    (log : List LogRecord) :
    ∃ c' log', (perform s j).run ⟨d, some c, log⟩ =
      ((alone s j d).1, ⟨(alone s j d).2, some c', log'⟩) ∧ Tended C c' := by
  have hspec := cached_spec (b := ⟨d, some c, log⟩) hc hC hd hfair
  obtain ⟨result, c', log', hrun, hc', ⟨e, he, rfl⟩ | ⟨loc, r, hloc, htemplate, rfl⟩⟩ := hspec
  · rw [alone_of_error he, perform_of_error rfl hrun]
    exact ⟨c', log', rfl, hc'⟩
  · have hresolve : d.resolve s.cwd j.root = .ok loc := by
      apply resolve_root hd hloc (Compile.directory_of_template htemplate)
      rw [hrooted]
      exact id
    obtain ⟨himpl, hiface⟩ := SourceFile.kept_of_template htemplate hmodule
    rw [himpl, hiface] at hrun
    obtain ⟨log'', hwrite⟩ :=
      write_outcome s j r.implementation r.interface ⟨d, some c', log'⟩
    rw [alone_of_ok (Job.compiled_eq_ok_iff.mpr ⟨loc, hresolve, htemplate⟩),
      perform_of_units rfl hrun]
    exact ⟨c', log'', hwrite, hc'⟩

theorem alone_sound (hd : d.Sound) : (alone s j d).2.Sound := by
  cases hcompiled : j.compiled s d with
  | error e =>
    rw [alone_of_error hcompiled]
    exact hd
  | ok r =>
    rw [alone_of_ok hcompiled]
    exact Output.write_sound hd _

end Alone

theorem draftName_ends {o : Output} (htokens : ∀ n, ∀ b ∈ o.tokens n, Ascii.isDigit b = true)
    (name : Text) (n : Nat) :
    (o.draftName name n).head? = some dot ∧ (o.draftName name n).getLast? ≠ some 111 := by
  constructor
  · rfl
  · rw [Output.draftName, List.getLast?_append]
    cases hlast : (o.tokens n).getLast? with
    | none =>
      rw [Option.none_or, List.getLast?_concat]
      decide
    | some b =>
      have hdigit := htokens n b (List.mem_of_getLast? hlast)
      rintro ⟨rfl⟩
      exact absurd hdigit (by decide)

namespace Grounds

variable {s : Session} {c : Config} {d e : Disk} {root start : Location}
  {templates : List TemplateFile} {rooted : Bool} {ups : Nat} {ns : List Text}
  {t t' : TemplateFile} {l : Location}

abbrev left (s : Session) (c : Config) (root : Location) (d : Disk) (t : TemplateFile) : Disk :=
  (alone s (jobOf c root t) d).2

variable (h : Grounds s c d root templates rooted ups ns start)

include h

theorem regular (ht : t ∈ templates) {now : Disk} {r : Compiled}
    (hr : (jobOf c root t).compiled s now = .ok r) :
    ((jobOf c root t).target s).Regular [r.implementation, r.interface] rooted ups
      (ns ++ dirsOf root t) := by
  have hnames := names_of_compiled hr
  have hmem : ∀ u ∈ [r.implementation, r.interface], u.name ∈ unitNames t := by
    intro u hu
    rw [← hnames]
    exact List.mem_map_of_mem hu
  have hsite := h.sited t ht
  refine ⟨fun _ => rfl, fun n => ⟨fun hmem => ?_, fun hmem => ?_⟩,
    fun u hu => hsite.fits _ (hmem u hu), hnames ▸ nodup_unitNames t, fun u hu v hv n heq => ?_,
    hsite.names, hsite.output⟩
  · exact absurd (h.tokens n _ hmem) (by decide)
  · exact absurd (h.tokens n _ hmem) (by decide)
  · have hlast := getLast?_of_mem_unitNames (hmem u hu)
    rw [heq] at hlast
    exact (draftName_ends h.tokens v.name n).2 hlast

theorem changes (ht : t ∈ templates) (hl : (left s c root d t).find? l ≠ d.find? l) :
    (∃ x ∈ unitNames t, ∃ content, l = start ++ (ns ++ dirsOf root t) ++ [x] ∧
      (left s c root d t).find? l = some (.file content)) ∨
    d.find? l = none ∧ (left s c root d t).find? l = some .directory ∧
      ∃ upper, upper <+: ns ++ dirsOf root t ∧ l = start ++ upper := by
  unfold left at hl ⊢
  cases hcompiled : (jobOf c root t).compiled s d with
  | error f =>
    rw [alone_of_error hcompiled] at hl
    exact absurd rfl hl
  | ok r =>
    rw [alone_of_ok hcompiled] at hl ⊢
    rcases (h.regular ht hcompiled).changes h.base h.sound hl with ⟨u, hu, heq, hfile⟩ | hway
    · left
      refine ⟨u.name, ?_, u.content, heq, hfile⟩
      rw [← names_of_compiled hcompiled]
      exact List.mem_map_of_mem hu
    · exact .inr hway

theorem within (ht : t ∈ templates) : d.Within (left s c root d t) := by
  unfold left
  cases hcompiled : (jobOf c root t).compiled s d with
  | error f =>
    rw [alone_of_error hcompiled]
    exact fun _ hl => hl
  | ok r =>
    rw [alone_of_ok hcompiled]
    exact ((h.regular ht hcompiled).directories h.base h.sound).1

omit h in
theorem mem_dirs_of_on_way {dirs dirs' upper : List Text} {x : Text}
    (hupper : upper <+: ns ++ dirs') (heq : start ++ (ns ++ dirs) ++ [x] = start ++ upper) :
    x ∈ dirs' := by
  rw [List.append_assoc, List.append_cancel_left_eq, List.append_assoc] at heq
  rw [← heq, List.prefix_append_right_inj] at hupper
  exact hupper.subset (by simp)

theorem kept (ht' : t' ∈ templates) {x : Text} (hway : x ∉ dirsOf root t')
    (hunit : dirsOf root t = dirsOf root t' → x ∉ unitNames t') :
    (left s c root d t').find? (start ++ (ns ++ dirsOf root t) ++ [x]) =
      d.find? (start ++ (ns ++ dirsOf root t) ++ [x]) := by
  by_contra hl
  rcases h.changes ht' hl with ⟨x', hx', content, heq, -⟩ | ⟨-, -, upper, hupper, heq⟩
  · obtain ⟨hplace, hname⟩ := List.append_inj' heq rfl
    rw [List.append_cancel_left_eq, List.append_cancel_left_eq] at hplace
    exact hunit hplace ((List.cons.inj hname).1 ▸ hx')
  · exact hway (mem_dirs_of_on_way hupper heq)

theorem kept_unit (ht : t ∈ templates) (ht' : t' ∈ templates) (hne : t ≠ t') {x : Text}
    (hx : x ∈ unitNames t) :
    (left s c root d t').find? (start ++ (ns ++ dirsOf root t) ++ [x]) =
      d.find? (start ++ (ns ++ dirsOf root t) ++ [x]) := by
  apply h.kept ht' (h.unlike t ht t' ht' x hx)
  intro hdirs hx'
  exact hne (h.unique t ht t' ht' hdirs (moduleOf_of_mem_unitNames hx hx'))

theorem kept_draft (ht' : t' ∈ templates) {o : Output} (ho : o.tokens = s.tokens) (name : Text)
    (n : Nat) :
    (left s c root d t').find? (start ++ (ns ++ dirsOf root t) ++ [o.draftName name n]) =
      d.find? (start ++ (ns ++ dirsOf root t) ++ [o.draftName name n]) := by
  obtain ⟨hdot, hends⟩ := draftName_ends (ho ▸ h.tokens) name n
  apply h.kept ht'
  · -- directories with a dot in front are not searched
    intro hmem
    have hshown := (h.sited t' ht').shown _ hmem
    obtain ⟨rest, hrest⟩ := List.head?_eq_some_iff.mp hdot
    rw [hrest, isSkippedDirectory, Bool.or_eq_false_iff] at hshown
    exact absurd (startsWith_append [dot] rest) (by simp [hshown.2])
  · exact fun _ hmem => hends (getLast?_of_mem_unitNames hmem)

theorem agree (ht : t ∈ templates) (ht' : t' ∈ templates)
    (hl : (left s c root d t).find? l ≠ d.find? l)
    (hl' : (left s c root d t').find? l ≠ d.find? l) :
    (left s c root d t).find? l = (left s c root d t').find? l := by
  by_cases heq : t = t'
  · rw [heq]
  · rcases h.changes ht hl with ⟨x, hx, content, rfl, -⟩ | ⟨-, hdir, -⟩
    · exact absurd (h.kept_unit ht ht' heq hx) hl'
    · rcases h.changes ht' hl' with ⟨x, hx, content, rfl, -⟩ | ⟨-, hdir', -⟩
      · exact absurd (h.kept_unit ht' ht (Ne.symm heq) hx) hl
      · rw [hdir, hdir']

theorem way (ht : t ∈ templates) (ht' : t' ∈ templates) {upper : List Text}
    (hupper : upper <+: ns ++ dirsOf root t)
    (hl : (left s c root d t').find? (start ++ upper) ≠ d.find? (start ++ upper)) :
    d.find? (start ++ upper) = none ∧
      (left s c root d t').find? (start ++ upper) = some .directory := by
  rcases h.changes ht' hl with ⟨x, hx, content, heq, -⟩ | ⟨hnone, hdir, -⟩
  · exact absurd (mem_dirs_of_on_way hupper heq.symm) (h.unlike t' ht' t ht x hx)
  · exact ⟨hnone, hdir⟩

theorem units_left (ht : t ∈ templates) {r : Compiled}
    (hr : (jobOf c root t).compiled s d = .ok r) (hok : (alone s (jobOf c root t) d).1.isOk = true)
    {u : SourceFile} (hu : u ∈ [r.implementation, r.interface]) :
    (left s c root d t).find? (start ++ (ns ++ dirsOf root t) ++ [u.name]) =
      some (.file u.content) := by
  obtain ⟨placed, -, hall, hwrote⟩ := (h.regular ht hr).wrote h.base h.sound
  rw [alone_of_ok hr] at hok
  have hwritten : (((jobOf c root t).target s).write [r.implementation, r.interface] d).1.isOk =
      true := by
    generalize ((jobOf c root t).target s).write [r.implementation, r.interface] d = w at hok
    rcases w with ⟨f | ⟨⟩, disk⟩
    · exact hok
    · rfl
  rw [left, alone_of_ok hr]
  exact hwrote.content u (hall hwritten ▸ hu)

section Step

variable {built : List TemplateFile} (hbuilt : built ⊆ templates)
  (hblend : d.Blends (built.map (left s c root d)) e) (he : e.Sound)

include hbuilt hblend

theorem within_blend : d.Within e := by
  apply hblend.within
  intro a ha
  obtain ⟨t, ht, rfl⟩ := List.mem_map.mp ha
  exact h.within (hbuilt ht)

theorem unit_blend (ht : t ∈ templates) {x : Text} (hx : x ∈ unitNames t) :
    e.find? (start ++ (ns ++ dirsOf root t) ++ [x]) =
      if t ∈ built then (left s c root d t).find? (start ++ (ns ++ dirsOf root t) ++ [x])
      else d.find? (start ++ (ns ++ dirsOf root t) ++ [x]) := by
  rcases hblend (start ++ (ns ++ dirsOf root t) ++ [x]) with
    ⟨hsame, hkept⟩ | ⟨a, ha, hchanged, hplace⟩
  · rw [hsame]
    split
    next hmem => exact (hkept _ (List.mem_map_of_mem hmem)).symm
    · rfl
  · obtain ⟨t', ht', rfl⟩ := List.mem_map.mp ha
    have heq : t = t' := by
      by_contra hne
      exact hchanged (h.kept_unit ht (hbuilt ht') hne hx)
    rw [hplace, heq, if_pos ht']

include he

theorem compiled_blend
    (hreads : ∀ t' ∈ built, ∀ p,
      Compile.Asks (d.fileSystem root) t.path (jobOf c root t).options p →
        (left s c root d t').readBelow root p = d.readBelow root p) :
    (jobOf c root t).compiled s e = (jobOf c root t).compiled s d := by
  have hroot : (jobOf c root t).root = root.path := rfl
  have hfiles : (jobOf c root t).files s d = d.fileSystem root := by
    rw [Job.files, hroot, h.searched]
  have hfiles' : (jobOf c root t).files s e = e.fileSystem root := by
    rw [Job.files, hroot, (h.within_blend hbuilt hblend).resolve h.searched]
  have hcongr : Compile.template (e.fileSystem root) t.path (jobOf c root t).options =
      Compile.template (d.fileSystem root) t.path (jobOf c root t).options := by
    apply Compile.template_congr
    intro p hp
    apply hblend.readBelow he
    · intro a ha
      obtain ⟨t', ht', rfl⟩ := List.mem_map.mp ha
      refine ⟨alone_sound h.sound, fun l hl => ?_⟩
      rcases h.changes (hbuilt ht') hl with ⟨x, -, content, -, hfile⟩ | ⟨-, hdir, -⟩
      · rw [hfile]
        rfl
      · rw [hdir]
        rfl
    · intro a ha
      obtain ⟨t', ht', rfl⟩ := List.mem_map.mp ha
      exact hreads t' ht' p hp
  rw [Job.compiled, Job.compiled, hfiles, hfiles']
  exact congrArg Prod.fst hcongr

theorem step (ht : t ∈ templates) (hnew : t ∉ built)
    (hreads : ∀ t' ∈ built, ∀ p,
      Compile.Asks (d.fileSystem root) t.path (jobOf c root t).options p →
        (left s c root d t').readBelow root p = d.readBelow root p) :
    (alone s (jobOf c root t) e).1 = (alone s (jobOf c root t) d).1 ∧
      d.Blends ((t :: built).map (left s c root d)) (alone s (jobOf c root t) e).2 := by
  have hcompiled' := h.compiled_blend hbuilt hblend he hreads
  rw [List.map_cons]
  cases hcompiled : (jobOf c root t).compiled s d with
  | error f =>
    rw [hcompiled] at hcompiled'
    rw [alone_of_error hcompiled', alone_of_error hcompiled]
    refine ⟨rfl, hblend.add fun l => ?_⟩
    rw [left, alone_of_error hcompiled, if_pos rfl]
  | ok r =>
    rw [hcompiled] at hcompiled'
    have hregular := h.regular ht hcompiled
    have hway : ∀ upper, upper <+: ns ++ dirsOf root t →
        e.find? (start ++ upper) = d.find? (start ++ upper) ∨
          d.find? (start ++ upper) = none ∧ e.find? (start ++ upper) = some .directory := by
      intro upper hupper
      rcases hblend (start ++ upper) with ⟨hsame, -⟩ | ⟨a, ha, hchanged, hplace⟩
      · exact .inl hsame
      · obtain ⟨t', ht', rfl⟩ := List.mem_map.mp ha
        right
        rw [hplace]
        exact h.way ht (hbuilt ht') hupper hchanged
    have htouched : ∀ x,
        ((jobOf c root t).target s).Touches [r.implementation, r.interface] x →
        e.find? (start ++ (ns ++ dirsOf root t) ++ [x]) =
          d.find? (start ++ (ns ++ dirsOf root t) ++ [x]) := by
      rintro x ⟨u, hu, rfl | ⟨n, rfl⟩⟩
      · have hx : u.name ∈ unitNames t := by
          rw [← names_of_compiled hcompiled]
          exact List.mem_map_of_mem hu
        rw [h.unit_blend hbuilt hblend ht hx, if_neg hnew]
      · rcases hblend (start ++ (ns ++ dirsOf root t) ++
            [((jobOf c root t).target s).draftName u.name n]) with ⟨hsame, -⟩ | ⟨a, ha, hchanged, -⟩
        · exact hsame
        · obtain ⟨t', ht', rfl⟩ := List.mem_map.mp ha
          exact absurd (h.kept_draft (hbuilt ht') rfl u.name n) hchanged
    obtain ⟨hends, hview⟩ := hregular.alike h.base h.sound he (h.within_blend hbuilt hblend) hway
      htouched
    rw [alone_of_ok hcompiled', alone_of_ok hcompiled]
    refine ⟨congrArg (Except.mapError _) hends, hblend.add fun l => ?_⟩
    rw [left, alone_of_ok hcompiled]
    exact hview l

end Step

section Paths

theorem join_unit (ht : t ∈ templates) {x : Text} (hx : x ∈ unitNames t) :
    Disk.Names (ns ++ dirsOf root t ++ [x]) ∧ Path.join [(jobOf c root t).output, x] =
      Disk.route rooted ups (ns ++ dirsOf root t ++ [x]) := by
  have hsite := h.sited t ht
  have hfits := hsite.fits x hx
  have hnames : Disk.Names (ns ++ dirsOf root t ++ [x]) := by
    intro part hpart
    rcases List.mem_append.mp hpart with hpart | hpart
    · exact hsite.names part hpart
    · exact List.mem_singleton.mp hpart ▸ ⟨hfits.valid, hfits.slash⟩
  refine ⟨hnames, ?_⟩
  rw [hsite.output]
  exact Disk.join_route hnames h.shape

theorem paths_apart (ht : t ∈ templates) (ht' : t' ∈ templates) (hne : t ≠ t') {x x' : Text}
    (hx : x ∈ unitNames t) (hx' : x' ∈ unitNames t') :
    Path.join [(jobOf c root t).output, x] ≠ Path.join [(jobOf c root t').output, x'] := by
  obtain ⟨hnames, hjoin⟩ := h.join_unit ht hx
  obtain ⟨hnames', hjoin'⟩ := h.join_unit ht' hx'
  rw [hjoin, hjoin']
  intro heq
  have hparts := Disk.ofParts_injective (hnames.named ups) (hnames'.named ups) (by simp) (by simp)
    heq
  obtain ⟨hplace, hname⟩ := List.append_inj' (List.append_cancel_left hparts) rfl
  rw [List.append_cancel_left_eq] at hplace
  rw [← (List.cons.inj hname).1] at hx'
  exact hne (h.unique t ht t' ht' hplace (moduleOf_of_mem_unitNames hx hx'))

theorem contentOf_unit (ht : t ∈ templates) {x : Text} (hx : x ∈ unitNames t) (he : e.Sound)
    (hwithin : d.Within e) {content : Text} :
    e.contentOf s.cwd (Path.join [(jobOf c root t).output, x]) = .ok content ↔
      e.find? (start ++ (ns ++ dirsOf root t) ++ [x]) = some (.file content) := by
  obtain ⟨hnames, hjoin⟩ := h.join_unit ht hx
  rw [hjoin, (h.base.within hwithin).contentOf_eq_ok_iff he hnames]
  simp only [List.append_assoc]

theorem contentOf_unit_congr (ht : t ∈ templates) {x : Text} (hx : x ∈ unitNames t) {e' : Disk}
    (he : e.Sound) (he' : e'.Sound) (hwithin : d.Within e) (hwithin' : d.Within e')
    (hplace : e.find? (start ++ (ns ++ dirsOf root t) ++ [x]) =
      e'.find? (start ++ (ns ++ dirsOf root t) ++ [x])) :
    (e.contentOf s.cwd (Path.join [(jobOf c root t).output, x])).toOption =
      (e'.contentOf s.cwd (Path.join [(jobOf c root t).output, x])).toOption := by
  apply Option.ext
  intro content
  rw [toOption_eq_some_iff, toOption_eq_some_iff, h.contentOf_unit ht hx he hwithin,
    h.contentOf_unit ht hx he' hwithin', hplace]

end Paths

/-- A cache that builds of the templates may use, where the files hold contents in `C`. -/
inductive Trusted (s : Session) (c : Config) (root : Location) (templates : List TemplateFile)
    (C : Set Text) : Option Cache → Prop where
  | fresh : Trusted s c root templates C none
  | tended {cache : Cache} : Set.InjOn Digest.ofText C → Tended C cache →
      (∀ t ∈ templates, ∀ now : Disk, now.ContentsIn C → Fair C s (jobOf c root t) now) →
      Trusted s c root templates C (some cache)

section Run

variable {C : Set Text} {cache : Option Cache}

theorem perform_trusted (ht : t ∈ templates) (he : e.Sound) (hcontents : e.ContentsIn C)
    (hcache : Trusted s c root templates C cache) (log : List LogRecord) :
    ∃ cache' log', (perform s (jobOf c root t)).run ⟨e, cache, log⟩ =
        ((alone s (jobOf c root t) e).1, ⟨(alone s (jobOf c root t) e).2, cache', log'⟩) ∧
      Trusted s c root templates C cache' := by
  cases hcache with
  | fresh =>
    obtain ⟨log', hrun⟩ := perform_alone s (jobOf c root t) e log
    exact ⟨none, log', hrun, .fresh⟩
  | tended hC hcache hfair =>
    have hrooted : (jobOf c root t).rooted s = (jobOf c root t).root :=
      (Disk.absolute_of_resolve h.sound h.searched).1
    have hmodule : slash ∉ Compile.moduleOf t.path (jobOf c root t).options := by
      intro hmem
      exact ((h.sited t ht).fits _ List.mem_cons_self).slash (List.mem_append_left _ hmem)
    obtain ⟨cache', log', hrun, hcache'⟩ :=
      perform_cached hcache hC he (hfair t ht e hcontents) hrooted hmodule log
    exact ⟨some cache', log', hrun, .tended hC hcache' hfair⟩

variable (hreads : ∀ t ∈ templates, ∀ t' ∈ templates, t ≠ t' → ∀ p,
    Compile.Asks (d.fileSystem root) t.path (jobOf c root t).options p →
      (left s c root d t').readBelow root p = d.readBelow root p)
  (hcontents : d.ContentsIn C) (hleft : ∀ t ∈ templates, (left s c root d t).ContentsIn C)

include hreads hcontents hleft

theorem run {todo built : List TemplateFile} (htodo : todo ⊆ templates) (hdistinct : todo.Nodup)
    (hbuilt : built ⊆ templates) (hnew : ∀ t ∈ todo, t ∉ built)
    (hblend : d.Blends (built.map (left s c root d)) e) (he : e.Sound)
    (hcache : Trusted s c root templates C cache) (log : List LogRecord) :
    ∃ b, ((todo.map (jobOf c root)).mapM (perform s)).run ⟨e, cache, log⟩ =
        (todo.map fun t => (alone s (jobOf c root t) d).1, b) ∧
      d.Blends ((todo.reverse ++ built).map (left s c root d)) b.disk ∧ b.disk.Sound := by
  induction todo generalizing built e cache log with
  | nil => exact ⟨_, rfl, hblend, he⟩
  | cons t todo ih =>
    obtain ⟨ht, htodo⟩ := List.cons_subset.mp htodo
    obtain ⟨hother, hdistinct⟩ := List.nodup_cons.mp hdistinct
    obtain ⟨hfirst, hlater⟩ := List.forall_mem_cons.mp hnew
    obtain ⟨hends, hblend'⟩ := h.step hbuilt hblend he ht hfirst fun t' ht' p hp =>
      hreads t ht t' (hbuilt ht') (fun heq => hfirst (heq ▸ ht')) p hp
    have hnew' : ∀ t' ∈ todo, t' ∉ t :: built := by
      intro t' ht' hmem
      rcases List.mem_cons.mp hmem with rfl | hmem
      · exact hother ht'
      · exact hlater t' ht' hmem
    have hnow : e.ContentsIn C := hblend.contentsIn hcontents
      (List.forall_mem_map.mpr fun t' ht' => hleft t' (hbuilt ht'))
    obtain ⟨cache', log₁, hperform, hcache'⟩ := h.perform_trusted ht he hnow hcache log
    obtain ⟨b, hrun, hrest, hsound⟩ := ih htodo hdistinct
      (List.cons_subset.mpr ⟨ht, hbuilt⟩) hnew' hblend' (alone_sound he) hcache' log₁
    refine ⟨b, ?_, ?_, hsound⟩
    · rw [List.map_cons, List.mapM_cons, StateT.run_bind, hperform, hends]
      change ((todo.map (jobOf c root)).mapM (perform s) >>= _).run _ = _
      rw [StateT.run_bind, hrun]
      rfl
    · rw [List.reverse_cons, List.append_assoc]
      exact hrest

theorem runAll_order {order : List TemplateFile} (horder : order ⊆ templates)
    (hdistinct : order.Nodup) (hcache : Trusted s c root templates C cache)
    (log : List LogRecord) :
    ∃ b, (runAll s (order.map (jobOf c root))).run ⟨d, cache, log⟩ =
        (order.filterMap fun t => failure? s (jobOf c root t) d, b) ∧
      d.Blends (order.reverse.map (left s c root d)) b.disk ∧ b.disk.Sound := by
  obtain ⟨b, hrun, hblend, he⟩ := h.run hreads hcontents hleft horder hdistinct
    (List.nil_subset _) (fun _ _ => List.not_mem_nil) (.start d) h.sound hcache log
  rw [List.append_nil] at hblend
  refine ⟨b, ?_, hblend, he⟩
  rw [runAll, StateT.run_bind, hrun]
  change (List.filterMap _ (order.map _), _) = _
  rw [List.filterMap_map]
  refine congrArg (·, _) (congrArg (List.filterMap · order) ?_)
  funext t
  cases hends : (alone s (jobOf c root t) d).1 with
  | ok _ => simp only [Function.comp_apply, failure?, hends]
  | error f => simp only [Function.comp_apply, failure?, hends]

omit hreads hcontents hleft in
theorem same_order {order order' : List TemplateFile} {e' : Disk} (horder : order.Perm templates)
    (horder' : order'.Perm templates)
    (hblend : d.Blends (order.reverse.map (left s c root d)) e)
    (hblend' : d.Blends (order'.reverse.map (left s c root d)) e') (l : Location) :
    e.find? l = e'.find? l := by
  have hsame : (order.reverse.map (left s c root d)).Perm
      (order'.reverse.map (left s c root d)) := by
    apply List.Perm.map
    exact ((List.reverse_perm order).trans (horder.trans horder'.symm)).trans
      (List.reverse_perm order').symm
  apply hblend.unique hblend' fun a => hsame.mem_iff
  intro a ha a' ha'
  obtain ⟨t, ht, rfl⟩ := List.mem_map.mp ha
  obtain ⟨t', ht', rfl⟩ := List.mem_map.mp ha'
  exact h.agree (horder.subset (List.mem_reverse.mp ht)) (horder.subset (List.mem_reverse.mp ht'))

omit hreads hcontents hleft in
theorem unit_order {order : List TemplateFile} (horder : order.Perm templates)
    (hblend : d.Blends (order.reverse.map (left s c root d)) e) (ht : t ∈ templates) {x : Text}
    (hx : x ∈ unitNames t) :
    e.find? (start ++ (ns ++ dirsOf root t) ++ [x]) =
      (left s c root d t).find? (start ++ (ns ++ dirsOf root t) ++ [x]) := by
  have hbuilt : order.reverse ⊆ templates :=
    fun t' ht' => horder.subset (List.mem_reverse.mp ht')
  have hmem : t ∈ order.reverse := List.mem_reverse.mpr (horder.mem_iff.mpr ht)
  rw [h.unit_blend hbuilt hblend ht hx, if_pos hmem]

end Run

end Grounds

def builtIn (s : Session) (c : Config) (root : Location) (b : Bench) (order : List TemplateFile) :
    List TemplateFailure × Disk :=
  let (failures, b') := (runAll s (order.map (jobOf c root))).run b
  (failures, b'.disk)

theorem run_get_bind {α : Type} (f : Bench → Build α) (b : Bench) :
    ((get : Build Bench) >>= f).run.run b = (f b).run.run b := rfl

theorem run_lift_bind {α β : Type} {x : StateM Bench α} {b b' : Bench} {a : α}
    (h : x.run b = (a, b')) (f : α → Build β) :
    ((liftM x : Build α) >>= f).run.run b = (f a).run.run b' := by
  have hrun : ((liftM x : Build α) >>= f).run.run b = (f (x.run b).1).run.run (x.run b).2 := rfl
  rw [hrun, h]

theorem directory_run {s : Session} {c : Config} {d : Disk} {root : Location}
    {templates : List TemplateFile}
    (hroot : d.resolve s.cwd (Path.absolute s.cwd.path c.input) = .ok root)
    (hfound : (Project.discover d s.cwd c.input).1 = .ok templates) (cache : Option Cache)
    (log : List LogRecord) :
    ∃ told, ∀ failures b, (runAll s (templates.map (jobOf c root))).run ⟨d, cache, told⟩ =
        (failures, b) →
      ∃ log', (directory s c).run.run ⟨d, cache, log⟩ =
        (if failures.isEmpty then .ok () else .error (.templates failures),
          { b with log := log' }) := by
  rcases hdiscover : Project.discover d s.cwd c.input with ⟨found, warnings⟩
  rw [hdiscover] at hfound
  dsimp only at hfound
  subst hfound
  refine ⟨log ++ warnings, fun failures b hrun => ?_⟩
  rw [directory, run_get_bind]
  dsimp only
  rw [hdiscover, hroot]
  dsimp only
  have htell : (tell warnings).run ⟨d, cache, log⟩ = (⟨⟩, ⟨d, cache, log ++ warnings⟩) := rfl
  rw [run_lift_bind htell]
  dsimp only [Except.toOption, Option.getD_some]
  rw [run_lift_bind hrun]
  cases failures with
  | nil => exact ⟨_, rfl⟩
  | cons first rest => exact ⟨_, rfl⟩

theorem isOk_of_failures_iff {failures : List TemplateFailure} :
    (if failures.isEmpty then .ok () else .error (.templates failures) :
      Except BuildError PUnit).isOk = true ↔ failures = [] := by
  cases failures with
  | nil => exact iff_of_true rfl rfl
  | cons first rest => exact iff_of_false Bool.noConfusion (List.cons_ne_nil _ _)

theorem eq_templates_of_error {failures : List TemplateFailure} {f : BuildError}
    (h : (if failures.isEmpty then .ok () else .error (.templates failures) :
      Except BuildError PUnit) = .error f) : f = .templates failures := by
  cases failures with
  | nil => cases h
  | cons first rest =>
    cases h
    rfl

/-- There is no cache, or builds and edits have led to it and digests tell apart the contents of all
files, before and after each of the templates is built. -/
def Reliable (s : Session) (c : Config) (root : Location) (templates : List TemplateFile)
    (b : Bench) : Prop :=
  b.cache = none ∨ ∃ C ttl, Set.InjOn Digest.ofText C ∧ Reached C ttl b ∧ b.disk.ContentsIn C ∧
    ∀ t ∈ templates, Fair C s (jobOf c root t) (alone s (jobOf c root t) b.disk).2

theorem Reliable.trusted {s : Session} {c : Config} {root : Location}
    {templates : List TemplateFile} {b : Bench} (h : Reliable s c root templates b) :
    ∃ C, b.disk.ContentsIn C ∧ (∀ t ∈ templates, (Grounds.left s c root b.disk t).ContentsIn C) ∧
      Grounds.Trusted s c root templates C b.cache := by
  rcases h with hnone | ⟨C, ttl, hC, hreached, hcontents, hfair⟩
  · rw [hnone]
    exact ⟨Set.univ, fun _ _ _ => trivial, fun _ _ _ _ _ => trivial, .fresh⟩
  · obtain ⟨-, cache, hcache, htended⟩ := hreached.tended hC
    rw [hcache]
    refine ⟨C, hcontents, fun t ht => (hfair t ht).contents, .tended hC htended ?_⟩
    exact fun t ht now hnow => ⟨hnow, (hfair t ht).separate⟩

/-- Templates do not get in each other's way, unless one looks up a path where building another one
makes a difference. No two have a unit at the same path. Built in any order, each fails or gets its
units as it would alone, and one that does not compile leaves the units it had. A build of the
directory fails for exactly those that fail alone. A cache makes no difference. -/
theorem templates_built_apart {s : Session} {c : Config} {d : Disk} {root : Location}
    {templates : List TemplateFile} (hd : d.Sound) (hkeys : (d.entries.map Prod.fst).Nodup)
    (hcwd : d.find? s.cwd = some .directory)
    (htokens : ∀ n, ∀ b ∈ s.tokens n, Ascii.isDigit b = true)
    (hroot : d.resolve s.cwd (Path.absolute s.cwd.path c.input) = .ok root)
    (hdir : d.find? root = some .directory)
    (hfound : (Project.discover d s.cwd c.input).1 = .ok templates)
    (hunlike : ∀ below name, d.find? (root ++ below ++ [name]) = some .directory →
      ∀ t ∈ templates, name ∉ unitNames t)
    (hreads : ∀ t ∈ templates, ∀ t' ∈ templates, t ≠ t' → ∀ p,
      Compile.Asks (d.fileSystem root) t.path (jobOf c root t).options p →
        (alone s (jobOf c root t') d).2.readBelow root p = d.readBelow root p)
    {b : Bench} (hdisk : b.disk = d) (hcache : Reliable s c root templates b) :
    (∀ t ∈ templates, ∀ t' ∈ templates, t ≠ t' → ∀ x ∈ unitNames t, ∀ x' ∈ unitNames t',
      Path.join [(jobOf c root t).output, x] ≠ Path.join [(jobOf c root t').output, x']) ∧
    (∀ order, order.Perm templates →
      (builtIn s c root b order).1 = order.filterMap (fun t => failure? s (jobOf c root t) d) ∧
      (∀ l, (builtIn s c root b order).2.find? l = (builtIn s c root b templates).2.find? l) ∧
      ∀ t ∈ templates,
        (∀ r, (jobOf c root t).compiled s d = .ok r →
          (alone s (jobOf c root t) d).1.isOk = true →
          [r.implementation.name, r.interface.name] = unitNames t ∧
          ∀ u ∈ [r.implementation, r.interface], (builtIn s c root b order).2.contentOf s.cwd
            (Path.join [(jobOf c root t).output, u.name]) = .ok u.content) ∧
        ∀ f, (jobOf c root t).compiled s d = .error f → ∀ x ∈ unitNames t,
          ((builtIn s c root b order).2.contentOf s.cwd
            (Path.join [(jobOf c root t).output, x])).toOption =
          (d.contentOf s.cwd (Path.join [(jobOf c root t).output, x])).toOption) ∧
    (((directory s c).run.run b).1.isOk = true ↔
      ∀ t ∈ templates, (alone s (jobOf c root t) d).1.isOk = true) ∧
    (∀ f, ((directory s c).run.run b).1 = .error f →
      f = .templates (templates.filterMap fun t => failure? s (jobOf c root t) d)) ∧
    ∀ l, ((directory s c).run.run b).2.disk.find? l =
      (builtIn s c root b templates).2.find? l := by
  subst hdisk
  obtain ⟨rooted, ups, ns, start, h⟩ := exists_grounds hd hcwd htokens hroot hdir hfound hunlike
  have hdistinct := Project.nodup_of_discover hroot hfound hd hdir hkeys
  obtain ⟨C, hcontents, hleft, hcache⟩ := hcache.trusted
  have hrun (order : List TemplateFile) (horder : order.Perm templates) (log : List LogRecord) :=
    h.runAll_order hreads hcontents hleft horder.subset (horder.nodup_iff.mpr hdistinct) hcache log
  have hbuilt (order : List TemplateFile) (horder : order.Perm templates) :
      (builtIn s c root b order).1 = order.filterMap (fun t => failure? s (jobOf c root t) b.disk) ∧
      b.disk.Blends (order.reverse.map (Grounds.left s c root b.disk))
        (builtIn s c root b order).2 ∧
      (builtIn s c root b order).2.Sound := by
    obtain ⟨b', hrun, hblend, he⟩ := hrun order horder b.log
    rw [builtIn, hrun]
    exact ⟨rfl, hblend, he⟩
  obtain ⟨-, hblend₀, -⟩ := hbuilt templates (.refl _)
  refine ⟨fun t ht t' ht' hne x hx x' hx' => h.paths_apart ht ht' hne hx hx', ?_, ?_⟩
  · intro order horder
    obtain ⟨hfailures, hblend, he⟩ := hbuilt order horder
    have hwithin := h.within_blend (fun t ht => horder.subset (List.mem_reverse.mp ht)) hblend
    refine ⟨hfailures, h.same_order horder (.refl _) hblend hblend₀, fun t ht => ⟨?_, ?_⟩⟩
    · intro r hr hok
      have hnames := names_of_compiled hr
      refine ⟨hnames, fun u hu => ?_⟩
      have hx : u.name ∈ unitNames t := hnames ▸ List.mem_map_of_mem hu
      rw [h.contentOf_unit ht hx he hwithin, h.unit_order horder hblend ht hx]
      exact h.units_left ht hr hok hu
    · intro f hf x hx
      have hplace := h.unit_order horder hblend ht hx
      rw [Grounds.left, alone_of_error hf] at hplace
      exact h.contentOf_unit_congr ht hx he hd hwithin (fun _ hl => hl) hplace
  · obtain ⟨told, hdirectory⟩ := directory_run hroot hfound b.cache b.log
    obtain ⟨b', hrun, hblend, -⟩ := hrun templates (.refl _) told
    obtain ⟨log', hends⟩ := hdirectory _ b' hrun
    rw [hends]
    refine ⟨?_, fun f => eq_templates_of_error,
      h.same_order (.refl _) (.refl _) hblend hblend₀⟩
    simp only [← failure?_eq_none_iff]
    rw [← List.filterMap_eq_nil_iff]
    exact isOk_of_failures_iff

section Sample

theorem unlike_of_entries {d : Disk} {templates : List TemplateFile}
    (h : ∀ p ∈ d.entries, p.2 = .directory → ∀ t ∈ templates, p.1.getLastD [] ∉ unitNames t)
    (root below : Location) (name : Text)
    (hdir : d.find? (root ++ below ++ [name]) = some .directory) :
    ∀ t ∈ templates, name ∉ unitNames t := by
  rw [Disk.find?_of_ne (by simp)] at hdir
  obtain ⟨before, after, hentries, -⟩ := List.lookup_eq_some_iff.mp hdir
  have hmem : (root ++ below ++ [name], Entry.directory) ∈ d.entries := by simp [hentries]
  simpa using h _ hmem rfl

theorem isDigit_of_mem_ofNat {n : Nat} {b : UInt8} (h : b ∈ Text.ofNat n) :
    Ascii.isDigit b = true := by
  by_contra hb
  refine not_mem_ofNat ?_ n h
  rw [Ascii.isDigit, Bool.and_eq_true, decide_eq_true_eq, decide_eq_true_eq,
    UInt8.le_iff_toNat_le, UInt8.le_iff_toNat_le] at hb
  change ¬ (48 ≤ b.toNat ∧ b.toNat ≤ 57) at hb
  omega

def pagesApart : Disk :=
  ⟨[([utf8 "b.ml.html"], .file (utf8 "<p></p>")), ([utf8 "b.ml.ext"], .directory),
    ([utf8 "x"], .directory), ([utf8 "x", utf8 "a.ml.html"], .file (utf8 "<p></p>"))]⟩

def unreadableAndPage : List TemplateFile :=
  [pageIn [] "b.ml.html", pageIn [utf8 "x"] "a.ml.html"]

def pagesCrossed : Disk :=
  ⟨[([utf8 "a.ml.ext"], .directory), ([utf8 "a.ml.ext", utf8 "y.ml.html"], .file (utf8 "<p></p>")),
    ([utf8 "o"], .directory), ([utf8 "o", utf8 "a.ml.html"], .file (utf8 "<p></p>"))]⟩

def crossedPages : List TemplateFile :=
  [pageIn [utf8 "a.ml.ext"] "y.ml.html", pageIn [utf8 "o"] "a.ml.html"]

def toDirectory : Config := { output := utf8 "o" }

def pagePaths (t : TemplateFile) : List Text :=
  t.path :: [Compile.trailerPath t.path {} ".ml.ext", Compile.trailerPath t.path {} ".mli.ext"]

theorem asks_pagePaths {d : Disk} {t : TemplateFile} {p : Text}
    (hfiles : (Document.read (d.fileSystem []) t.path).toOption.map Document.files = some [t.path])
    (h : Compile.Asks (d.fileSystem []) t.path (jobOf toDirectory [] t).options p) :
    p ∈ pagePaths t := by
  obtain ⟨doc, hdoc, hnames⟩ := Option.map_eq_some_iff.mp hfiles
  have hmem := h.mem (toOption_eq_some_iff.mp hdoc)
  rw [hnames] at hmem
  exact hmem

/-- What is found, read and built in both samples. -/
theorem samples_built :
    ((Project.discover pagesApart [] [dot]).1 = .ok unreadableAndPage ∧
      (∀ t ∈ unreadableAndPage,
        (Document.read (pagesApart.fileSystem []) t.path).toOption.map Document.files =
          some [t.path]) ∧
      (∀ t ∈ unreadableAndPage, ∀ t' ∈ unreadableAndPage, t ≠ t' → ∀ p ∈ pagePaths t,
        (alone atTop (jobOf toDirectory [] t') pagesApart).2.readBelow [] p =
          pagesApart.readBelow [] p) ∧
      (alone atTop (jobOf toDirectory [] (pageIn [utf8 "x"] "a.ml.html")) pagesApart).1.isOk =
        true ∧
      (alone atTop (jobOf toDirectory [] (pageIn [] "b.ml.html")) pagesApart).1.isOk = false) ∧
    (Project.discover pagesCrossed [] [dot]).1 = .ok crossedPages ∧
      (∀ t ∈ crossedPages,
        (Document.read (pagesCrossed.fileSystem []) t.path).toOption.map Document.files =
          some [t.path]) ∧
      (∀ t ∈ crossedPages, (alone atTop (jobOf toDirectory [] t) pagesCrossed).1.isOk = true) ∧
      ((builtIn atTop toDirectory [] ⟨pagesCrossed, none, []⟩ crossedPages).2.contentOf []
        (utf8 "o/o/a.ml.go")).isOk = false ∧
      (builtIn atTop toDirectory [] ⟨pagesCrossed, none, []⟩ crossedPages).1.length = 1 ∧
      (builtIn atTop toDirectory [] ⟨pagesCrossed, none, []⟩ crossedPages.reverse).1.length =
        0 := by
  decide +kernel

end Sample

theorem templates_built_apart_reversed :
    ∃ r, (jobOf toDirectory [] (pageIn [utf8 "x"] "a.ml.html")).compiled atTop pagesApart = .ok r ∧
      (builtIn atTop toDirectory [] ⟨pagesApart, none, []⟩ unreadableAndPage.reverse).2.contentOf []
        (utf8 "o/x/a.ml.go") = .ok r.implementation.content ∧
      ((directory atTop toDirectory).run.run ⟨pagesApart, none, []⟩).1.isOk = false := by
  obtain ⟨⟨hfound, hread, hkept, halone⟩, -⟩ := samples_built
  have hsound : pagesApart.Sound := by
    apply Disk.sound_of_entries
    decide
  have hkeys : (pagesApart.entries.map Prod.fst).Nodup := by decide
  have hroot : pagesApart.resolve [] (Path.absolute [slash] [dot]) = .ok [] := by decide
  have hunlike : ∀ p ∈ pagesApart.entries, p.2 = .directory → ∀ t ∈ unreadableAndPage,
      p.1.getLastD [] ∉ unitNames t := by
    decide
  obtain ⟨-, hbuilt, hends, -⟩ := templates_built_apart (s := atTop) (c := toDirectory)
    (b := ⟨pagesApart, none, []⟩) hsound hkeys rfl (fun n b hb => isDigit_of_mem_ofNat hb)
    hroot rfl hfound (unlike_of_entries hunlike [])
    (fun t ht t' ht' hne p hp => hkept t ht t' ht' hne p (asks_pagePaths (hread t ht) hp))
    rfl (.inl rfl)
  cases hr : (jobOf toDirectory [] (pageIn [utf8 "x"] "a.ml.html")).compiled atTop pagesApart with
  | error f =>
    rw [alone_of_error hr] at halone
    cases halone.1
  | ok r =>
    obtain ⟨-, -, hpages⟩ := hbuilt unreadableAndPage.reverse (List.reverse_perm _)
    obtain ⟨hnames, hcontents⟩ := (hpages (pageIn [utf8 "x"] "a.ml.html")
      (List.mem_cons_of_mem _ List.mem_cons_self)).1 r hr halone.1
    have hname : r.implementation.name = utf8 "a.ml.go" := by
      rw [show unitNames (pageIn [utf8 "x"] "a.ml.html") = [utf8 "a.ml.go", utf8 "a.mli.go"] by
        decide] at hnames
      exact (List.cons.inj hnames).1
    have hcontent := hcontents r.implementation List.mem_cons_self
    rw [hname, show Path.join [(jobOf toDirectory [] (pageIn [utf8 "x"] "a.ml.html")).output,
      utf8 "a.ml.go"] = utf8 "o/x/a.ml.go" by decide] at hcontent
    refine ⟨r, rfl, hcontent, ?_⟩
    rw [Bool.eq_false_iff]
    intro hok
    have hall := hends.mp hok _ List.mem_cons_self
    rw [halone.2] at hall
    cases hall

/-- No page looks up a unit, but the directory that is made for one stands where the other has its
trailer. Each of them can be built alone, and the order shows. -/
theorem built_apart_not_at_trailer :
    (Project.discover pagesCrossed [] [dot]).1 = .ok crossedPages ∧
      (∀ below name, pagesCrossed.find? ([] ++ below ++ [name]) = some .directory →
        ∀ t ∈ crossedPages, name ∉ unitNames t) ∧
      (∀ t ∈ crossedPages, ∀ p,
        Compile.Asks (pagesCrossed.fileSystem []) t.path (jobOf toDirectory [] t).options p →
        ∀ t' ∈ crossedPages, Path.base p ∉ unitNames t') ∧
      (∀ t ∈ crossedPages, (alone atTop (jobOf toDirectory [] t) pagesCrossed).1.isOk = true) ∧
      ((builtIn atTop toDirectory [] ⟨pagesCrossed, none, []⟩ crossedPages).2.contentOf []
        (utf8 "o/o/a.ml.go")).isOk = false ∧
      (builtIn atTop toDirectory [] ⟨pagesCrossed, none, []⟩ crossedPages).1.length = 1 ∧
      (builtIn atTop toDirectory [] ⟨pagesCrossed, none, []⟩ crossedPages.reverse).1.length =
        0 := by
  obtain ⟨-, hfound, hread, hbuilt⟩ := samples_built
  have hunlike : ∀ p ∈ pagesCrossed.entries, p.2 = .directory → ∀ t ∈ crossedPages,
      p.1.getLastD [] ∉ unitNames t := by
    decide
  have hpaths : ∀ t ∈ crossedPages, ∀ p ∈ pagePaths t, ∀ t' ∈ crossedPages,
      Path.base p ∉ unitNames t' := by
    decide
  refine ⟨hfound, unlike_of_entries hunlike [], fun t ht p hp => ?_, hbuilt⟩
  exact hpaths t ht p (asks_pagePaths (hread t ht) hp)

end Build

end Stencil
