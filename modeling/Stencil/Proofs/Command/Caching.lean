import Stencil.Proofs.Cache.Coherence
import Stencil.Proofs.Command.Units

namespace Stencil

open Ascii Text

namespace Disk

def ContentsIn (C : Set Text) (d : Disk) : Prop :=
  ∀ loc content, d.find? loc = some (.file content) → content ∈ C

theorem ContentsIn.mem {C : Set Text} {d : Disk} {cwd : Location} {p content : Text}
    (hd : d.ContentsIn C) (h : d.contentOf cwd p = .ok content) : content ∈ C := by
  cases hresolve : d.resolve cwd p with
  | error f =>
    rw [contentOf, entryAt, hresolve] at h
    cases h
  | ok loc =>
    rw [contentOf, entryAt_of_resolve hresolve] at h
    cases hfind : d.find? loc with
    | none => simp [hfind] at h
    | some e =>
      cases e with
      | directory => simp [hfind] at h
      | file found =>
        simp only [hfind, Option.elim_some, Except.ok.injEq] at h
        exact hd loc content (h ▸ hfind)

end Disk

namespace Build

def around (s : Session) (d : Disk) : Surroundings :=
  ⟨s.now, d.contentOf s.cwd, s.cwd.path⟩

namespace Job

variable {s : Session} {j : Job} {d : Disk} {r : Compiled}

def target (s : Session) (j : Job) : Output :=
  { cwd := s.cwd, dir := j.output, tokens := s.tokens }

def compiled (s : Session) (j : Job) (d : Disk) : Except CompileError Compiled :=
  (Compile.template (j.files s d) j.name j.options).1

theorem compiled_eq_ok_iff :
    j.compiled s d = .ok r ↔ ∃ loc, d.resolve s.cwd j.root = .ok loc ∧
      (Compile.template (d.fileSystem loc) j.name j.options).1 = .ok r := by
  unfold compiled files
  cases d.resolve s.cwd j.root with
  | ok loc => simp
  | error f =>
    simp only [reduceCtorEq, false_and, exists_false, iff_false]
    intro h
    obtain ⟨hread, -⟩ := Compile.reads_of_template h
    obtain ⟨content, hcontent⟩ := hread j.name (Compile.name_mem_files h)
    have hmem := FileSystem.mem_names _ hcontent
    cases hmem

end Job

def Stems (C : Set Text) (loc : Location) (name : Text) (options : CompileOptions)
    (record : Record) : Prop :=
  ∃ fs r, (Compile.template fs name options).1 = .ok r ∧
    record.value = SourceFile.pack r.implementation r.interface ∧
    ∀ p ∈ r.files ++ r.absent, Path.Plain p ∧ ∃ content, fs.Has p content ∧
      (Path.join [loc.path, p], content) ∈ record.files ∧ ∀ text, content = some text → text ∈ C

structure Fair (C : Set Text) (s : Session) (j : Job) (d : Disk) : Prop where
  contents : d.ContentsIn C
  separate : ∀ part ∈ [j.rooted s, j.name, j.options.module, j.options.package], nul ∉ part

section

variable {C : Set Text} {s : Session} {j : Job} {d : Disk} {r : Compiled} {loc : Location}

theorem stems_taken (hd : d.Leads loc) (hrooted : j.rooted s = loc.path)
    (hcontents : d.ContentsIn C)
    (h : (Compile.template (d.fileSystem loc) j.name j.options).1 = .ok r) :
    (∀ path ∈ j.dependencies s r, ∃ content,
        (around s d).read.Sees (Path.absolute s.cwd.path path) content) ∧
      Stems C loc j.name j.options (Record.taken (around s d)
        (SourceFile.pack r.implementation r.interface) (j.dependencies s r)) := by
  have hhas := Compile.has_of_template h
  have hdir := Compile.directory_of_template h
  have hseen : ∀ p ∈ r.files ++ r.absent, Path.Plain p ∧
      Path.absolute s.cwd.path (Path.join [j.rooted s, p]) = Path.join [loc.path, p] ∧
      ∃ content, (d.fileSystem loc).Has p content ∧
        (around s d).read.Sees (Path.join [loc.path, p]) content := by
    intro p hp
    obtain ⟨content, hcontent⟩ := hhas p hp
    have hplain := Disk.plain_of_has hdir hcontent
    refine ⟨hplain, ?_, content, hcontent, (Disk.sees_join_iff hplain hd s.cwd).mpr hcontent⟩
    rw [hrooted, Location.join_path hd.proper hplain.parts,
      Location.absolute_path (Disk.proper_append hplain hd.proper)]
  constructor
  · intro path hpath
    obtain ⟨p, hp, rfl⟩ := List.mem_map.mp hpath
    obtain ⟨-, habsolute, content, -, hsees⟩ := hseen p hp
    exact ⟨content, habsolute ▸ hsees⟩
  · refine ⟨d.fileSystem loc, r, h, rfl, fun p hp => ?_⟩
    obtain ⟨hplain, habsolute, content, hcontent, hsees⟩ := hseen p hp
    refine ⟨hplain, content, hcontent, ?_, ?_⟩
    · refine List.mem_map.mpr ⟨Path.join [loc.path, p], ?_, by rw [hsees.toOption]⟩
      rw [List.mem_eraseDups, ← habsolute]
      exact List.mem_map_of_mem (List.mem_map_of_mem hp)
    · rintro text rfl
      exact hcontents.mem hsees

theorem Stems.template {ttl : Int} {name : Text} {options : CompileOptions} {record : Record}
    (h : Stems C loc name options record) (hloc : loc.Proper) (hC : Set.InjOn Digest.ofText C)
    (hcontents : d.ContentsIn C)
    (hlasts : record.Lasts ttl (around s d)) :
    ∃ r, (Compile.template (d.fileSystem loc) name options).1 = .ok r ∧
      record.value = SourceFile.pack r.implementation r.interface := by
  obtain ⟨fs, r, htemplate, hvalue, hfiles⟩ := h
  -- The digests tell the contents apart, so each file is seen as it was when the units were made.
  have hsees : ∀ p ∈ r.files ++ r.absent, Path.Plain p ∧ ∃ content, fs.Has p content ∧
      (around s d).read.Sees (Path.join [loc.path, p]) content := by
    intro p hp
    obtain ⟨hplain, content, hhas, hmem, hin⟩ := hfiles p hp
    obtain ⟨found, hfound, hdigest⟩ := hlasts.files _ hmem
    have hnew : ∀ text, found = some text → text ∈ C := by
      rintro text rfl
      exact hcontents.mem hfound
    exact ⟨hplain, content, hhas, Digest.eq_of_map_eq hC hnew hin hdigest ▸ hfound⟩
  -- The template itself is among the files, so its directory is there.
  have hleads : d.Leads loc := by
    have hname := Compile.name_mem_files htemplate
    obtain ⟨hplain, content, hhas, hfound⟩ := hsees name (List.mem_append_left _ hname)
    obtain ⟨text, htext⟩ := (Compile.reads_of_template htemplate).1 name hname
    cases content with
    | none =>
      obtain ⟨e, he, -⟩ := hhas
      rw [htext] at he
      cases he
    | some content => exact Disk.leads_of_contentOf_join hplain hloc hfound
  refine ⟨r, Compile.template_of_has htemplate fun p hp => ?_, hvalue⟩
  obtain ⟨hplain, content, hhas, hfound⟩ := hsees p hp
  exact ⟨content, hhas, (Disk.sees_join_iff hplain hleads s.cwd).mp hfound⟩

end

def Kept (C : Set Text) (key : Text) (record : Record) : Prop :=
  ∃ (loc : Location) (name : Text) (options : CompileOptions), loc.Proper ∧
    (∀ part ∈ [loc.path, name, options.module, options.package], nul ∉ part) ∧
    key = joinWith [nul] [utf8 "compile", loc.path, name, options.module, options.package] ∧
    Stems C loc name options record

theorem Kept.stems {C : Set Text} {s : Session} {j : Job} {record : Record}
    (h : Kept C (j.key s) record)
    (hparts : ∀ part ∈ [j.rooted s, j.name, j.options.module, j.options.package], nul ∉ part) :
    ∃ loc : Location, loc.Proper ∧ j.rooted s = loc.path ∧ Stems C loc j.name j.options record := by
  obtain ⟨loc, name, options, hloc, hfree, hkey, hstems⟩ := h
  have hcompile : nul ∉ utf8 "compile" := by decide
  have heq := joinWith_injective (by simp) (by simp)
    (List.forall_mem_cons.mpr ⟨hcompile, hparts⟩) (List.forall_mem_cons.mpr ⟨hcompile, hfree⟩) hkey
  simp only [List.cons.injEq, and_true, true_and] at heq
  obtain ⟨hrooted, hname, hmodule, hpackage⟩ := heq
  refine ⟨loc, hloc, hrooted, ?_⟩
  have hoptions : j.options = options := by
    cases hj : j.options
    cases options
    simp_all
  rw [hname, hoptions]
  exact hstems

structure Tended (C : Set Text) (c : Cache) : Prop where
  opened : c.isOpen = true
  kept : ∃ standing, c.store.Keeps standing ∧
    ∀ key record, standing key = some record → Kept C key record

namespace Tended

variable {C : Set Text} {c : Cache}

theorem empty (ttl : Int) : Tended C { ttl := ttl } :=
  ⟨rfl, _, .empty, fun _ _ h => by cases h⟩

theorem drop (h : Tended C c) (key : Text) : Tended C (c.drop key) := by
  obtain ⟨standing, hkeeps, hkept⟩ := h.kept
  refine ⟨h.opened, _, hkeeps.erase key, fun other record hrecord => ?_⟩
  split at hrecord
  · cases hrecord
  · exact hkept other record hrecord

theorem add (h : Tended C c) {key : Text} {record : Record} (hrecord : Kept C key record) :
    Tended C (c.add key record) := by
  obtain ⟨standing, hkeeps, hkept⟩ := h.kept
  refine ⟨h.opened, _, hkeeps.insert key record, fun other found hfound => ?_⟩
  split at hfound
  next heq =>
    cases hfound
    rw [heq]
    exact hrecord
  · exact hkept other found hfound

theorem get (h : Tended C c) (w : Surroundings) (key : Text) :
    (∃ record, Kept C key record ∧ record.Lasts c.ttl w ∧
        c.get w key = (.ok (some record.value), [], c)) ∨
      ∃ dropped c', c.get w key = (.ok none, dropped, c') ∧ Tended C c' := by
  obtain ⟨standing, hkeeps, hkept⟩ := h.kept
  cases hrecord : standing key with
  | none => exact .inr ⟨_, _, Cache.get_absent h.opened hkeeps hrecord, h⟩
  | some record =>
    by_cases hlasts : record.Lasts c.ttl w
    · exact .inl ⟨record, hkept key record hrecord, hlasts,
        Cache.get_lasts h.opened hkeeps hrecord hlasts⟩
    · obtain ⟨reason, hget⟩ := Cache.get_stale h.opened hkeeps hrecord hlasts
      exact .inr ⟨_, _, hget, h.drop key⟩

end Tended

section

variable {s : Session} {j : Job} {b : Bench} {c c' : Cache}

theorem compileNow_run (s : Session) (j : Job) (b : Bench) :
    (compileNow s j).run b = (j.compiled s b.disk,
      { b with log := b.log ++ (Compile.template (j.files s b.disk) j.name j.options).2 }) :=
  rfl

theorem forM_reportDropped (dropped : List Invalidation) (b : Bench) :
    ∃ log, (dropped.forM reportDropped).run b = (PUnit.unit, { b with log := log }) := by
  induction dropped generalizing b with
  | nil => exact ⟨b.log, rfl⟩
  | cons i dropped ih => exact ih _

def compute (s : Session) (j : Job) : StateM Bench (Cache.Computed CompileError) := do
  match ← compileNow s j with
  | .error e => return Except.error e
  | .ok r => return .ok (some (SourceFile.pack r.implementation r.interface), j.dependencies s r)

theorem compute_run (s : Session) (j : Job) (b : Bench) :
    (compute s j).run b = ((j.compiled s b.disk).map fun r =>
        (some (SourceFile.pack r.implementation r.interface), j.dependencies s r),
      { b with log := b.log ++ (Compile.template (j.files s b.disk) j.name j.options).2 }) := by
  rw [compute, StateT.run_bind, compileNow_run]
  cases j.compiled s b.disk <;> rfl

def deliver (j : Job) (memo : Cache.Memo CompileError) :
    StateM Bench (Except TemplateFailure (SourceFile × SourceFile)) := do
  modify fun b => { b with cache := some memo.cache }
  match memo.value with
  | .error (.cache e) => return .error (.cache e)
  | .error (.compute e) => return .error (.compile e)
  | .ok value =>
    if !memo.computed then
      tell [⟨.debug, utf8 "template unchanged", [(utf8 "template", .text j.name)]⟩]
    match SourceFile.unpack? (value.getD []) with
    | some units => return .ok units
    | none => return .error (.corrupt j.name)

theorem cached_run (s : Session) (j : Job) (c : Cache) (b : Bench) :
    (cached s j c).run b =
      (c.memoize (around s b.disk) (j.key s) reportDropped (compute s j) >>= deliver j).run b := by
  rw [cached, StateT.run_bind]
  rfl

theorem deliver_units {memo : Cache.Memo CompileError} {v : Text} {units : SourceFile × SourceFile}
    (hvalue : memo.value = .ok (some v)) (hunits : SourceFile.unpack? v = some units) (b : Bench) :
    ∃ log, (deliver j memo).run b =
      (.ok units, { b with cache := some memo.cache, log := log }) := by
  obtain ⟨value, computed, cache⟩ := memo
  cases hvalue
  cases computed with
  | false =>
    rw [deliver, StateT.run_bind]
    simp only [Option.getD_some, hunits]
    exact ⟨_, rfl⟩
  | true =>
    rw [deliver, StateT.run_bind]
    simp only [Option.getD_some, hunits]
    exact ⟨_, rfl⟩

theorem cached_hit {v : Text} {units : SourceFile × SourceFile}
    (h : c.get (around s b.disk) (j.key s) = (.ok (some v), [], c))
    (hunits : SourceFile.unpack? v = some units) :
    ∃ log, (cached s j c).run b = (.ok units, { b with cache := some c, log := log }) := by
  rw [cached_run, Cache.memoize_hit h, pure_bind]
  exact deliver_units rfl hunits b

theorem cached_miss {dropped : List Invalidation}
    (h : c.get (around s b.disk) (j.key s) = (.ok none, dropped, c')) :
    ∃ log, (cached s j c).run b =
      ((compute s j >>= fun x => deliver j (c'.settle (around s b.disk) (j.key s) x)).run
        { b with log := log }) := by
  obtain ⟨log, hlog⟩ := forM_reportDropped dropped b
  refine ⟨log, ?_⟩
  rw [cached_run, Cache.memoize_miss h, bind_assoc, StateT.run_bind, hlog]
  change (((compute s j) >>= fun x => pure (c'.settle (around s b.disk) (j.key s) x)) >>=
    deliver j).run { b with log := log } = _
  simp only [bind_assoc, pure_bind]

theorem cached_failed {dropped : List Invalidation} {e : CompileError}
    (h : c.get (around s b.disk) (j.key s) = (.ok none, dropped, c'))
    (hcompiled : j.compiled s b.disk = .error e) :
    ∃ log, (cached s j c).run b =
      (.error (.compile e), { b with cache := some c', log := log }) := by
  obtain ⟨log, hmiss⟩ := cached_miss h
  have hcompute := compute_run s j { b with log := log }
  rw [show j.compiled s ({ b with log := log } : Bench).disk = .error e from hcompiled] at hcompute
  rw [hmiss, StateT.run_bind, hcompute]
  exact ⟨_, rfl⟩

theorem cached_kept {dropped : List Invalidation} {r : Compiled} {c'' : Cache}
    (h : c.get (around s b.disk) (j.key s) = (.ok none, dropped, c'))
    (hcompiled : j.compiled s b.disk = .ok r)
    (hput : c'.put (around s b.disk) (j.key s)
      (some (SourceFile.pack r.implementation r.interface)) (j.dependencies s r) = .ok c'') :
    ∃ log, (cached s j c).run b = (.ok (r.implementation.kept, r.interface.kept),
      { b with cache := some c'', log := log }) := by
  obtain ⟨log, hmiss⟩ := cached_miss h
  have hcompute := compute_run s j { b with log := log }
  rw [show j.compiled s ({ b with log := log } : Bench).disk = .ok r from hcompiled] at hcompute
  have hsettle : c'.settle (ε := CompileError) (around s b.disk) (j.key s)
      (.ok (some (SourceFile.pack r.implementation r.interface), j.dependencies s r)) =
      ⟨.ok (some (SourceFile.pack r.implementation r.interface)), true, c''⟩ := by
    rw [Cache.settle, hput]
  rw [hmiss, StateT.run_bind, hcompute]
  change ∃ log', (deliver j (c'.settle _ _ (.ok (_, _)))).run _ = _
  rw [hsettle]
  exact deliver_units rfl (SourceFile.unpack?_pack _ _) _

theorem cached_spec {C : Set Text} (hc : Tended C c) (hC : Set.InjOn Digest.ofText C)
    (hd : b.disk.Sound) (hfair : Fair C s j b.disk) :
    ∃ result c' log, (cached s j c).run b = (result, { b with cache := some c', log := log }) ∧
      Tended C c' ∧
      ((∃ e, j.compiled s b.disk = .error e ∧ result = .error (.compile e)) ∨
        ∃ loc r, j.rooted s = Location.path loc ∧
          (Compile.template (b.disk.fileSystem loc) j.name j.options).1 = .ok r ∧
          result = .ok (r.implementation.kept, r.interface.kept)) := by
  rcases hc.get (around s b.disk) (j.key s) with
    ⟨record, hkept, hlasts, hget⟩ | ⟨dropped, c', hget, hc'⟩
  · -- The record was made by a job with the same parts of its key, maybe through another root.
    obtain ⟨loc, hloc, hrooted, hstems⟩ := hkept.stems hfair.separate
    obtain ⟨r, htemplate, hvalue⟩ := hstems.template hloc hC hfair.contents hlasts
    obtain ⟨log, hrun⟩ := cached_hit hget (hvalue ▸ SourceFile.unpack?_pack _ _)
    exact ⟨_, c, log, hrun, hc, .inr ⟨loc, r, hrooted, htemplate, rfl⟩⟩
  · cases hcompiled : j.compiled s b.disk with
    | error e =>
      obtain ⟨log, hrun⟩ := cached_failed hget hcompiled
      exact ⟨_, c', log, hrun, hc', .inl ⟨e, rfl, rfl⟩⟩
    | ok r =>
      obtain ⟨loc, hresolve, htemplate⟩ := Job.compiled_eq_ok_iff.mp hcompiled
      obtain ⟨habsolute, hleads⟩ := Disk.absolute_of_resolve hd hresolve
      have hrooted : j.rooted s = loc.path := habsolute
      obtain ⟨hsees, hstems⟩ := stems_taken hleads hrooted hfair.contents htemplate
      have hput : c'.put (around s b.disk) (j.key s)
          (some (SourceFile.pack r.implementation r.interface)) (j.dependencies s r) = _ :=
        (Cache.put_eq_ok_iff hc'.opened).mpr ⟨hsees, _, rfl, rfl⟩
      obtain ⟨log, hrun⟩ := cached_kept hget hcompiled hput
      refine ⟨_, _, log, hrun, hc'.add ?_, .inr ⟨loc, r, hrooted, htemplate, rfl⟩⟩
      refine ⟨loc, j.name, j.options, hleads.proper, ?_, ?_, hstems⟩
      · exact hrooted ▸ hfair.separate
      · rw [Job.key, hrooted]

theorem write_run (s : Session) (j : Job) (impl iface : SourceFile) (b : Bench) :
    ((write s j impl iface).run b).1.isOk = ((j.target s).write [impl, iface] b.disk).1.isOk ∧
      ((write s j impl iface).run b).2.disk = ((j.target s).write [impl, iface] b.disk).2 ∧
      ((write s j impl iface).run b).2.cache = b.cache := by
  rcases hwrite : (j.target s).write [impl, iface] b.disk with ⟨result, disk⟩
  rw [Job.target] at hwrite
  rw [write, StateT.run_bind]
  simp only [StateT.run_get, pure_bind, hwrite]
  cases result with
  | error e => exact ⟨rfl, rfl, rfl⟩
  | ok _ => exact ⟨rfl, rfl, rfl⟩

theorem perform_failed {d : Disk} {e : CompileError} (h : j.compiled s d = .error e)
    (log : List LogRecord) :
    ∃ log', (perform s j).run ⟨d, none, log⟩ = (.error (.compile e), ⟨d, none, log'⟩) := by
  have hcompile := compileNow_run s j ⟨d, none, log⟩
  rw [show j.compiled s (⟨d, none, log⟩ : Bench).disk = .error e from h] at hcompile
  rw [perform, StateT.run_bind]
  simp only [StateT.run_get, pure_bind]
  rw [StateT.run_bind, hcompile]
  exact ⟨_, rfl⟩

theorem perform_compiled {d : Disk} {r : Compiled} (h : j.compiled s d = .ok r)
    (log : List LogRecord) :
    ∃ log', (perform s j).run ⟨d, none, log⟩ =
      (write s j r.implementation r.interface).run ⟨d, none, log'⟩ := by
  have hcompile := compileNow_run s j ⟨d, none, log⟩
  rw [show j.compiled s (⟨d, none, log⟩ : Bench).disk = .ok r from h] at hcompile
  rw [perform, StateT.run_bind]
  simp only [StateT.run_get, pure_bind]
  rw [StateT.run_bind, hcompile]
  exact ⟨_, rfl⟩

theorem perform_fresh (s : Session) (j : Job) (d : Disk) (log : List LogRecord) :
    (∀ e, j.compiled s d = .error e →
      ((perform s j).run ⟨d, none, log⟩).1.isOk = false ∧
        ((perform s j).run ⟨d, none, log⟩).2.disk = d) ∧
    ∀ r, j.compiled s d = .ok r →
      ((perform s j).run ⟨d, none, log⟩).1.isOk =
          ((j.target s).write [r.implementation, r.interface] d).1.isOk ∧
        ((perform s j).run ⟨d, none, log⟩).2.disk =
          ((j.target s).write [r.implementation, r.interface] d).2 := by
  refine ⟨fun e he => ?_, fun r hr => ?_⟩
  · obtain ⟨log', hrun⟩ := perform_failed he log
    rw [hrun]
    exact ⟨rfl, rfl⟩
  · obtain ⟨log', hrun⟩ := perform_compiled hr log
    rw [hrun]
    obtain ⟨hok, hdisk, -⟩ := write_run s j r.implementation r.interface ⟨d, none, log'⟩
    exact ⟨hok, hdisk⟩

theorem perform_of_error {b' : Bench} {e : TemplateFailure} (hcache : b.cache = some c)
    (h : (cached s j c).run b = (.error e, b')) : (perform s j).run b = (.error e, b') := by
  rw [perform, StateT.run_bind]
  simp only [StateT.run_get, pure_bind, hcache]
  rw [StateT.run_bind, h]
  rfl

theorem perform_of_units {b' : Bench} {impl iface : SourceFile} (hcache : b.cache = some c)
    (h : (cached s j c).run b = (.ok (impl, iface), b')) :
    (perform s j).run b = (write s j impl iface).run b' := by
  rw [perform, StateT.run_bind]
  simp only [StateT.run_get, pure_bind, hcache]
  rw [StateT.run_bind, h]
  rfl

theorem perform_spec {C : Set Text} (hcache : b.cache = some c) (hc : Tended C c)
    (hC : Set.InjOn Digest.ofText C) (hd : b.disk.Sound) (hfair : Fair C s j b.disk) :
    (∃ c', ((perform s j).run b).2.cache = some c' ∧ Tended C c') ∧
      ((∃ e, j.compiled s b.disk = .error e ∧ ((perform s j).run b).1.isOk = false ∧
          ((perform s j).run b).2.disk = b.disk) ∨
        ∃ loc r, j.rooted s = Location.path loc ∧
          (Compile.template (b.disk.fileSystem loc) j.name j.options).1 = .ok r ∧
          ((perform s j).run b).1.isOk =
            ((j.target s).write [r.implementation, r.interface] b.disk).1.isOk ∧
          ((perform s j).run b).2.disk =
            ((j.target s).write [r.implementation, r.interface] b.disk).2) := by
  obtain ⟨result, c', log, hrun, hc', hresult⟩ := cached_spec hc hC hd hfair
  rcases hresult with ⟨e, hcompiled, rfl⟩ | ⟨loc, r, hrooted, htemplate, rfl⟩
  · rw [perform_of_error hcache hrun]
    exact ⟨⟨c', rfl, hc'⟩, .inl ⟨e, hcompiled, rfl, rfl⟩⟩
  · rw [perform_of_units hcache hrun]
    obtain ⟨hok, hdisk, hkeeps⟩ := write_run s j r.implementation.kept r.interface.kept
      { b with cache := some c', log := log }
    obtain ⟨hsameOk, hsameDisk⟩ :=
      Output.write_kept (o := j.target s) (fun _ => rfl) htemplate b.disk
    exact ⟨⟨c', hkeeps, hc'⟩, .inr ⟨loc, r, hrooted, htemplate, hok.trans hsameOk,
      hdisk.trans hsameDisk⟩⟩

end

theorem resolve_root {s : Session} {j : Job} {d : Disk} {loc : Location} (hd : d.Sound)
    (hrooted : j.rooted s = loc.path) (hloc : d.find? loc = some .directory)
    (hroot : d.entryAt s.cwd (j.rooted s) = .ok .directory →
      d.entryAt s.cwd j.root = .ok .directory) :
    d.resolve s.cwd j.root = .ok loc := by
  have hleads : d.Leads loc := hd loc (by rw [hloc]; rfl)
  have hthere : d.resolve s.cwd (j.rooted s) = .ok loc := by
    have hwalk := hleads.walk_append []
    rw [List.append_nil] at hwalk
    rw [hrooted, Disk.resolve_path hleads.proper, hwalk]
    rfl
  have hentry := hroot (by rw [Disk.entryAt_of_resolve hthere, hloc]; rfl)
  obtain ⟨place, hplace, -⟩ := bind_eq_ok_iff.mp hentry
  obtain ⟨habsolute, hplaceLeads⟩ := Disk.absolute_of_resolve hd hplace
  have hpath : place.path = loc.path := habsolute.symm.trans hrooted
  rw [hplace, Location.path_injective hplaceLeads.proper hleads.proper hpath]

/-- What builds and edits lead to from an empty cache. An edit may change the disk in any way. -/
inductive Reached (C : Set Text) (ttl : Int) : Bench → Prop where
  | start (d : Disk) (log : List LogRecord) : d.Sound → Reached C ttl ⟨d, some { ttl := ttl }, log⟩
  | edit {b : Bench} (d : Disk) : d.Sound → Reached C ttl b → Reached C ttl { b with disk := d }
  | build {b : Bench} (s : Session) (j : Job) : Fair C s j b.disk → Reached C ttl b →
      Reached C ttl ((perform s j).run b).2

theorem Reached.tended {C : Set Text} {ttl : Int} {b : Bench} (hC : Set.InjOn Digest.ofText C)
    (h : Reached C ttl b) : b.disk.Sound ∧ ∃ c, b.cache = some c ∧ Tended C c := by
  induction h with
  | start d log hd => exact ⟨hd, _, rfl, .empty ttl⟩
  | edit d hd _ ih => exact ⟨hd, ih.2⟩
  | build s j hfair _ ih =>
    obtain ⟨hd, c, hcache, hc⟩ := ih
    obtain ⟨hkept, hdone⟩ := perform_spec hcache hc hC hd hfair
    refine ⟨?_, hkept⟩
    rcases hdone with ⟨e, -, -, hdisk⟩ | ⟨loc, r, -, -, -, hdisk⟩
    · rw [hdisk]
      exact hd
    · rw [hdisk]
      exact Output.write_sound hd _

/-- Whatever was built and edited before, a build with the cache fails exactly where one without it
does, and leaves the same disk. The root must be a directory when its shortest rooted form is. -/
theorem cached_build_same {C : Set Text} {ttl : Int} {b : Bench} {s : Session} {j : Job}
    (hC : Set.InjOn Digest.ofText C) (h : Reached C ttl b) (hfair : Fair C s j b.disk)
    (hroot : b.disk.entryAt s.cwd (j.rooted s) = .ok .directory →
      b.disk.entryAt s.cwd j.root = .ok .directory) :
    ((perform s j).run b).1.isOk = ((perform s j).run { b with cache := none }).1.isOk ∧
      ((perform s j).run b).2.disk = ((perform s j).run { b with cache := none }).2.disk := by
  obtain ⟨hd, c, hcache, hc⟩ := h.tended hC
  obtain ⟨hfailed, hwritten⟩ := perform_fresh s j b.disk b.log
  obtain ⟨-, ⟨e, he, hok, hdisk⟩ | ⟨loc, r, hrooted, htemplate, hok, hdisk⟩⟩ :=
    perform_spec hcache hc hC hd hfair
  · obtain ⟨hokFresh, hdiskFresh⟩ := hfailed e he
    exact ⟨hok.trans hokFresh.symm, hdisk.trans hdiskFresh.symm⟩
  · have hresolve := resolve_root hd hrooted (Compile.directory_of_template htemplate) hroot
    have hcompiled := Job.compiled_eq_ok_iff.mpr ⟨loc, hresolve, htemplate⟩
    obtain ⟨hokFresh, hdiskFresh⟩ := hwritten r hcompiled
    exact ⟨hok.trans hokFresh.symm, hdisk.trans hdiskFresh.symm⟩

theorem get_after_first {C : Set Text} {b : Bench} {s : Session} {j : Job} {r : Compiled}
    (hcache : b.cache = some {}) (hd : b.disk.Sound) (hfair : Fair C s j b.disk)
    (hcompiled : j.compiled s b.disk = .ok r) :
    ∃ c, ((perform s j).run b).2.cache = some c ∧
      c.get (around s b.disk) (j.key s) =
        (.ok (some (SourceFile.pack r.implementation r.interface)), [], c) := by
  obtain ⟨loc, hresolve, htemplate⟩ := Job.compiled_eq_ok_iff.mp hcompiled
  obtain ⟨hrooted, hleads⟩ := Disk.absolute_of_resolve hd hresolve
  obtain ⟨hsees, -⟩ := stems_taken hleads hrooted hfair.contents htemplate
  have hget : ({} : Cache).get (around s b.disk) (j.key s) = (.ok none, [], {}) :=
    Cache.get_absent rfl .empty rfl
  have hput : ({} : Cache).put (around s b.disk) (j.key s)
      (some (SourceFile.pack r.implementation r.interface)) (j.dependencies s r) = _ :=
    (Cache.put_eq_ok_iff rfl).mpr ⟨hsees, _, rfl, rfl⟩
  obtain ⟨log, hrun⟩ := cached_kept hget hcompiled hput
  refine ⟨_, ?_, Cache.get_add (c := {}) rfl .empty (Record.taken_lasts (by decide) hsees _)⟩
  rw [perform_of_units hcache hrun]
  exact (write_run s j _ _ _).2.2

section Sample

def pageText : Text :=
  utf8 "<p>$\x7bt\x7d</p>"

def pageDisk : Disk :=
  ⟨[([utf8 "p.html"], .file pageText)]⟩

def atTop : Session :=
  { cwd := [], now := 0, tokens := Text.ofNat }

def pageJob (root : Text) : Job :=
  { root := root, name := utf8 "p.html", output := [dot], options := {} }

theorem find?_pageDisk {loc : Location} (h : (pageDisk.find? loc).isSome) :
    loc = [] ∨ loc = [utf8 "p.html"] ∧ pageDisk.find? loc = some (.file pageText) := by
  by_cases hloc : loc = []
  · exact .inl hloc
  · right
    by_cases heq : loc = [utf8 "p.html"]
    · exact ⟨heq, by rw [heq]; rfl⟩
    · have hbeq : (loc == [utf8 "p.html"]) = false := by simpa using heq
      rw [Disk.find?_of_ne hloc, pageDisk, List.lookup_cons, hbeq] at h
      cases h

theorem pageDisk_sound : pageDisk.Sound := by
  intro loc h
  rcases find?_pageDisk h with rfl | ⟨rfl, -⟩
  · exact Disk.Leads.root _
  · exact (Disk.Leads.root _).snoc rfl (by decide) (by decide)

theorem pageJob_fair {root : Text} (h : Path.absolute [slash] root = [slash]) :
    Fair {pageText} atTop (pageJob root) pageDisk := by
  constructor
  · intro loc content hfind
    rcases find?_pageDisk (by rw [hfind]; rfl) with rfl | ⟨-, hfile⟩
    · cases hfind
    · rw [hfind] at hfile
      cases hfile
      rfl
  · rw [show (pageJob root).rooted atTop = [slash] from h]
    change ∀ part ∈ [[slash], utf8 "p.html", [], []], nul ∉ part
    decide

def builtOnce : Bench :=
  { ((perform atTop (pageJob [dot])).run ⟨pageDisk, some {}, []⟩).2 with disk := pageDisk }

theorem builtOnce_eq :
    ∃ log, builtOnce =
      ⟨pageDisk, ((perform atTop (pageJob [dot])).run ⟨pageDisk, some {}, []⟩).2.cache, log⟩ :=
  ⟨_, rfl⟩

theorem reached_builtOnce : Reached {pageText} 0 builtOnce :=
  .edit _ pageDisk_sound (.build _ _ (pageJob_fair (by decide)) (.start _ _ pageDisk_sound))

theorem compiled_pageDisk :
    ∃ r, (pageJob [dot]).compiled atTop pageDisk = .ok r ∧
      (((pageJob [dot]).target atTop).write [r.implementation, r.interface] pageDisk).1.isOk =
        true := by
  have hperform : ((perform atTop (pageJob [dot])).run ⟨pageDisk, none, []⟩).1.isOk = true := by
    decide +kernel
  obtain ⟨hfailed, hwritten⟩ := perform_fresh atTop (pageJob [dot]) pageDisk []
  cases hcompiled : (pageJob [dot]).compiled atTop pageDisk with
  | error e =>
    rw [(hfailed e hcompiled).1] at hperform
    cases hperform
  | ok r => exact ⟨r, rfl, (hwritten r hcompiled).1.symm.trans hperform⟩

end Sample

theorem cached_build_same_again :
    ((perform atTop (pageJob [dot])).run builtOnce).1.isOk = true ∧
      ((perform atTop (pageJob [dot])).run builtOnce).2.disk =
        ((perform atTop (pageJob [dot])).run ⟨pageDisk, none, builtOnce.log⟩).2.disk := by
  have hplace : builtOnce.disk = pageDisk := rfl
  have hsame := cached_build_same (s := atTop) (j := pageJob [dot]) (Set.injOn_singleton ..)
    reached_builtOnce
  rw [hplace] at hsame
  obtain ⟨hok, hdisk⟩ := hsame (pageJob_fair rfl) fun _ => rfl
  obtain ⟨r, hcompiled, hwrite⟩ := compiled_pageDisk
  obtain ⟨-, hwritten⟩ := perform_fresh atTop (pageJob [dot]) pageDisk builtOnce.log
  exact ⟨hok.trans ((hwritten r hcompiled).1.trans hwrite), hdisk⟩

/-- Where the condition on the root fails: the shortest form of the root is the directory of the
page, but the root leads through a directory that is not there. -/
theorem cached_build_differs :
    ∃ (C : Set Text) (b : Bench) (s : Session) (j : Job), Set.InjOn Digest.ofText C ∧
      Reached C 0 b ∧ Fair C s j b.disk ∧ ((perform s j).run b).1.isOk = true ∧
      ((perform s j).run { b with cache := none }).1.isOk = false := by
  refine ⟨_, builtOnce, atTop, pageJob (utf8 "x/.."), Set.injOn_singleton .., reached_builtOnce,
    pageJob_fair (by decide), ?_, ?_⟩
  · obtain ⟨r, hcompiled, hwrite⟩ := compiled_pageDisk
    obtain ⟨loc, -, htemplate⟩ := Job.compiled_eq_ok_iff.mp hcompiled
    obtain ⟨c, hcache, hget⟩ := get_after_first (b := ⟨pageDisk, some {}, []⟩) rfl pageDisk_sound
      (pageJob_fair (by decide)) hcompiled
    obtain ⟨log, hbench⟩ := builtOnce_eq
    rw [hcache] at hbench
    have hkey : (pageJob (utf8 "x/..")).key atTop = (pageJob [dot]).key atTop := by decide
    rw [← hkey] at hget
    obtain ⟨log', hrun⟩ :=
      cached_hit (b := ⟨pageDisk, some c, log⟩) hget (SourceFile.unpack?_pack _ _)
    rw [hbench, perform_of_units rfl hrun]
    refine (write_run atTop _ _ _ _).1.trans (Eq.trans ?_ hwrite)
    exact (Output.write_kept (fun _ => rfl) htemplate pageDisk).1
  · obtain ⟨log, hbench⟩ := builtOnce_eq
    obtain ⟨hfailed, -⟩ := perform_fresh atTop (pageJob (utf8 "x/..")) pageDisk log
    rw [hbench]
    cases hcompiled : (pageJob (utf8 "x/..")).compiled atTop pageDisk with
    | error e => exact (hfailed e hcompiled).1
    | ok r =>
      obtain ⟨loc, hresolve, -⟩ := Job.compiled_eq_ok_iff.mp hcompiled
      cases hresolve

end Build

end Stencil
