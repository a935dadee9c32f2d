import Stencil.Proofs.Cache.Coherence

/-!
Memoizing one step at a time, with edits in between. What a look-up finds is what would be computed
now, as long as no file was edited between the computation and the digest of that file. An edit
there goes unnoticed.
-/

namespace Stencil.Cache

section Assign

variable {β γ : Type}

def assign (path : Text) (b : β) : List (Text × β) → List (Text × β)
  | [] => [(path, b)]
  | file :: files => if file.1 = path then (path, b) :: files else file :: assign path b files

theorem eq_or_mem_of_mem_assign {path : Text} {b : β} {files : List (Text × β)} {file : Text × β}
    (h : file ∈ assign path b files) : file = (path, b) ∨ file ∈ files := by
  induction files with
  | nil => exact .inl (List.mem_singleton.mp h)
  | cons other files ih =>
    rw [assign] at h
    split at h
    · exact (List.mem_cons.mp h).imp id (List.mem_cons_of_mem _)
    · rcases List.mem_cons.mp h with rfl | h
      · exact .inr List.mem_cons_self
      · exact (ih h).imp id (List.mem_cons_of_mem _)

theorem mem_map_assign {path other : Text} {b : β} {files : List (Text × β)} :
    other ∈ (assign path b files).map Prod.fst ↔ other = path ∨ other ∈ files.map Prod.fst := by
  induction files with
  | nil => simp [assign]
  | cons file files ih =>
    rw [assign]
    split
    next heq => simp [heq]
    next => rw [List.map_cons, List.mem_cons, ih, List.map_cons, List.mem_cons, or_left_comm]

theorem map_assign (f : β → γ) (path : Text) (b : β) (files : List (Text × β)) :
    (assign path b files).map (fun file => (file.1, f file.2)) =
      assign path (f b) (files.map fun file => (file.1, f file.2)) := by
  induction files with
  | nil => rfl
  | cons file files ih =>
    rw [assign, List.map_cons, assign]
    split
    · rfl
    · rw [List.map_cons, ih]

theorem assign_of_mem (f : Text → β) {path : Text} {paths : List Text} (h : path ∈ paths) :
    assign path (f path) (paths.map fun p => (p, f p)) = paths.map fun p => (p, f p) := by
  induction paths with
  | nil => cases h
  | cons other paths ih =>
    rw [List.map_cons, assign]
    split
    next heq => rw [show other = path from heq]
    next hne => rw [ih ((List.mem_cons.mp h).resolve_left fun heq => hne heq.symm)]

theorem assign_of_not_mem {path : Text} (b : β) {files : List (Text × β)}
    (h : path ∉ files.map Prod.fst) : assign path b files = files ++ [(path, b)] := by
  induction files with
  | nil => rfl
  | cons file files ih =>
    rw [List.map_cons, List.mem_cons, not_or] at h
    rw [assign, if_neg (Ne.symm h.1), ih h.2, List.cons_append]

theorem foldl_assign (f : Text → β) (paths set : List Text) :
    paths.foldl (fun files path => assign path (f path) files) (set.map fun p => (p, f p)) =
      (set ++ (paths.filter (· ∉ set)).eraseDups).map fun p => (p, f p) := by
  induction paths generalizing set with
  | nil => simp
  | cons path paths ih =>
    rw [List.foldl_cons]
    by_cases h : path ∈ set
    · rw [assign_of_mem f h, ih, List.filter_cons_of_neg (by simpa using h)]
    · have hnew : path ∉ (set.map fun p => (p, f p)).map Prod.fst := by simpa using h
      have hset : (set.map fun p => (p, f p)) ++ [(path, f path)] =
          (set ++ [path]).map fun p => (p, f p) := by simp
      have hfilter : (paths.filter (· ∉ set)).filter (fun p => !p == path) =
          paths.filter (· ∉ set ++ [path]) := by
        rw [List.filter_filter]
        refine List.filter_congr fun p _ => ?_
        by_cases hp : p = path <;> simp [hp]
      rw [assign_of_not_mem _ hnew, hset, ih, List.filter_cons_of_pos (by simpa using h),
        List.eraseDups_cons, hfilter, List.append_assoc, List.singleton_append]

end Assign

abbrev Computation := Text → Reader → Computed Text

structure Task where
  key : Text
  value : Option Text
  -- the files when the value was computed
  origin : Reader
  -- the paths whose digests are still to be taken
  left : List Text
  digests : List (Text × Option Text) := []
  -- what was at the paths when their digests were taken
  seen : List (Text × Option Text) := []

structure Kept where
  origin : Reader
  record : Record

structure Scene where
  cache : Cache
  read : Reader
  tasks : List Task := []
  kept : Text → Option Kept := fun _ => none

inductive Action where
  | edit (read : Reader)
  | look (now : Int) (key : Text)
  | compute (key : Text)
  | digest (i : Nat)
  | store (now : Int) (i : Nat)

def Task.begun (cwd : Text) (read : Reader) (key : Text) (value : Option Text)
    (paths : List Text) : Task where
  key := key
  value := value
  origin := read
  -- a path that is listed twice has its digest taken twice, and the later one counts
  left := paths.map (Path.absolute cwd)

def Task.advance? (read : Reader) (t : Task) : Option Task :=
  match t.left with
  | [] => some t
  | path :: left =>
    match Store.digestOf read path with
    | .error _ => none
    | .ok digest => some { t with
        left := left
        digests := assign path digest t.digests
        seen := assign path (read path).toOption t.seen }

def Task.took (t : Task) (path : Text) (left : List Text) (content : Option Text) : Task :=
  { t with
    left := left
    digests := assign path (content.map Digest.ofText) t.digests
    seen := assign path content t.seen }

theorem Task.advance?_cons {t : Task} {path : Text} {left : List Text} (h : t.left = path :: left)
    (read : Reader) :
    (∃ content, read.Sees path content ∧ t.advance? read = some (t.took path left content)) ∨
      (¬ ∃ content, read.Sees path content) ∧ t.advance? read = none := by
  cases hdigest : Store.digestOf read path with
  | ok digest =>
    obtain ⟨content, hsees, rfl⟩ := Store.digestOf_eq_ok_iff.mp hdigest
    refine .inl ⟨content, hsees, ?_⟩
    simp [advance?, took, h, hdigest, hsees.toOption]
  | error e =>
    refine .inr ⟨?_, by simp [advance?, h, hdigest]⟩
    rintro ⟨content, hsees⟩
    have hok := Store.digestOf_eq_ok_iff.mpr ⟨content, hsees, rfl⟩
    rw [hdigest] at hok
    cases hok

namespace Scene

def keep (a : Scene) (now : Int) (t : Task) : Scene :=
  match a.cache.isOpen, t.value with
  | true, some v => { a with
      cache := { a.cache with
        store := a.cache.store.insert ⟨t.key, v, Clock.stamp now⟩ t.digests }
      kept := fun key => if key = t.key then some ⟨t.origin, v, now, t.seen⟩ else a.kept key }
  | _, _ => a

def step (compute : Computation) (cwd : Text) (a : Scene) : Action → Scene
  | .edit read => { a with read := read }
  | .look now key =>
    match a.cache.get ⟨now, a.read, cwd⟩ key with
    | (_, [], c) => { a with cache := c }
    | (_, _ :: _, c) =>
      { a with cache := c, kept := fun other => if other = key then none else a.kept other }
  | .compute key =>
    match compute key a.read with
    | .error _ => a
    | .ok (value, paths) =>
      { a with tasks := a.tasks ++ [Task.begun cwd a.read key value paths] }
  | .digest i =>
    match a.tasks[i]? with
    | none => a
    | some t =>
      match t.advance? a.read with
      | none => { a with tasks := a.tasks.eraseIdx i }
      | some t => { a with tasks := a.tasks.set i t }
  | .store now i =>
    match a.tasks[i]? with
    | none => a
    | some t => if t.left = [] then { a.keep now t with tasks := a.tasks.eraseIdx i } else a

def run (compute : Computation) (cwd : Text) (a : Scene) (actions : List Action) : Scene :=
  actions.foldl (step compute cwd) a

end Scene

section Alone

def memoizing (compute : Computation) (w : Surroundings) (key : Text) : List Action :=
  match compute key w.read with
  | .error _ => [.look w.now key, .compute key]
  | .ok (value, paths) =>
    [.look w.now key, .compute key] ++
      List.replicate (Task.begun w.cwd w.read key value paths).left.length (.digest 0) ++
        [.store w.now 0]

variable (compute : Computation) (cwd : Text) {a : Scene} {t : Task}

theorem run_digests_idle (h : a.tasks = []) (n : Nat) :
    a.run compute cwd (List.replicate n (.digest 0)) = a := by
  induction n with
  | zero => rfl
  | succ n ih =>
    have hstep : a.step compute cwd (.digest 0) = a := by simp [Scene.step, h]
    rw [List.replicate_succ, Scene.run, List.foldl_cons, hstep]
    exact ih

theorem run_digests (h : a.tasks = [t])
    (hsees : ∀ path ∈ t.left, ∃ content, a.read.Sees path content) :
    a.run compute cwd (List.replicate t.left.length (.digest 0)) = { a with tasks := [{ t with
      left := []
      digests := t.left.foldl (fun files path =>
        assign path ((a.read path).toOption.map Digest.ofText) files) t.digests
      seen := t.left.foldl (fun files path => assign path (a.read path).toOption files) t.seen }] }
      := by
  induction hleft : t.left generalizing a t with
  | nil =>
    obtain ⟨c, read, tasks, kept⟩ := a
    obtain ⟨key, value, origin, left, digests, seen⟩ := t
    cases h
    cases hleft
    simp [Scene.run]
  | cons path left ih =>
    rw [hleft] at hsees
    obtain ⟨hpath, hrest⟩ := List.forall_mem_cons.mp hsees
    obtain ⟨content, hcontent, hadvance⟩ :=
      (Task.advance?_cons hleft a.read).resolve_right fun hfail => hfail.1 hpath
    have hstep : a.step compute cwd (.digest 0) =
        { a with tasks := [t.took path left content] } := by
      simp [Scene.step, h, hadvance]
    rw [List.length_cons, List.replicate_succ, Scene.run, List.foldl_cons, hstep]
    refine (ih rfl hrest rfl).trans ?_
    simp [Task.took, hcontent.toOption]

theorem run_digests_unreadable (h : a.tasks = [t])
    (hsees : ¬ ∀ path ∈ t.left, ∃ content, a.read.Sees path content) :
    a.run compute cwd (List.replicate t.left.length (.digest 0)) = { a with tasks := [] } := by
  induction hleft : t.left generalizing a t with
  | nil => simp [hleft] at hsees
  | cons path left ih =>
    rw [List.length_cons, List.replicate_succ, Scene.run, List.foldl_cons]
    obtain ⟨content, hcontent, hadvance⟩ | ⟨-, hadvance⟩ := Task.advance?_cons hleft a.read
    · have hstep : a.step compute cwd (.digest 0) =
          { a with tasks := [t.took path left content] } := by
        simp [Scene.step, h, hadvance]
      have hrest : ¬ ∀ path ∈ left, ∃ content, a.read.Sees path content := by
        intro hall
        rw [hleft] at hsees
        exact hsees (List.forall_mem_cons.mpr ⟨⟨content, hcontent⟩, hall⟩)
      rw [hstep]
      exact ih rfl hrest rfl
    · have hstep : a.step compute cwd (.digest 0) = { a with tasks := [] } := by
        simp [Scene.step, h, hadvance]
      rw [hstep]
      exact run_digests_idle compute cwd rfl _

theorem look_cache (a : Scene) (now : Int) (key : Text) :
    ∃ kept, a.step compute cwd (.look now key) =
      { a with cache := (a.cache.get ⟨now, a.read, cwd⟩ key).2.2, kept := kept } := by
  rw [Scene.step]
  split
  next hget => exact ⟨a.kept, by rw [hget]⟩
  next hget => exact ⟨_, by rw [hget]⟩

theorem get_miss {c c' : Cache} {w : Surroundings} {key : Text} {dropped : List Invalidation}
    (h : c.get w key = (.ok none, dropped, c')) : c'.isOpen = true := by
  unfold get at h
  split at h
  · cases h
  next hopen =>
    have hopen : c.isOpen = true := by simpa using hopen
    split at h
    · cases h
    · cases h
      exact hopen
    · cases h
      exact hopen

theorem put_of_run {c : Cache} {w : Surroundings} {key : Text} {value : Option Text}
    {paths : List Text} (kept : Text → Option Kept) (hopen : c.isOpen = true)
    (ht : t = .begun w.cwd w.read key value paths) :
    ((Scene.mk c w.read [t] kept).run compute w.cwd
      (List.replicate t.left.length (.digest 0) ++ [.store w.now 0])).cache =
        (c.put w key value paths).toOption.getD c := by
  have hiff : (∀ path ∈ t.left, ∃ content, w.read.Sees path content) ↔
      ∀ path ∈ paths, ∃ content, w.read.Sees (Path.absolute w.cwd path) content := by
    simp [ht, Task.begun]
  rw [Scene.run, List.foldl_append]
  by_cases hsees : ∀ path ∈ t.left, ∃ content, w.read.Sees path content
  · have hrun := run_digests compute w.cwd (a := ⟨c, w.read, [t], kept⟩) rfl hsees
    rw [Scene.run] at hrun
    rw [hrun, ht]
    cases value with
    | none =>
      cases hput : c.put w key none paths with
      | error e => simp [Scene.step, Scene.keep, Task.begun, Except.toOption]
      | ok c' =>
        obtain ⟨-, v, hv, -⟩ := (put_eq_ok_iff hopen).mp hput
        cases hv
    | some v =>
      rw [(put_eq_ok_iff hopen).mpr ⟨hiff.mp hsees, v, rfl, rfl⟩]
      have htaken : (Record.taken w v paths).digests =
          (paths.map (Path.absolute w.cwd)).foldl (fun files path =>
            assign path ((w.read path).toOption.map Digest.ofText) files) [] := by
        refine Eq.trans ?_ (foldl_assign (fun path => (w.read path).toOption.map Digest.ofText)
          (paths.map (Path.absolute w.cwd)) []).symm
        simp [Record.taken, Record.digests]
      simp only [List.foldl_cons, List.foldl_nil, add, htaken]
      simp [Scene.step, Scene.keep, Task.begun, hopen, Record.taken, Record.entry,
        Except.toOption]
  · have hrun := run_digests_unreadable compute w.cwd (a := ⟨c, w.read, [t], kept⟩) rfl hsees
    rw [Scene.run] at hrun
    rw [hrun]
    cases hput : c.put w key value paths with
    | error e => simp [Scene.step, Except.toOption]
    | ok c' => exact absurd (hiff.mpr ((put_eq_ok_iff hopen).mp hput).1) hsees

theorem run_memoizing {c : Cache} {w : Surroundings} {key : Text}
    (hmiss : (c.get w key).1 = .ok none) (kept : Text → Option Kept) :
    ((Scene.mk c w.read [] kept).run compute w.cwd (memoizing compute w key)).cache =
      (c.memoized w key (compute key w.read)).1.cache := by
  rcases hget : c.get w key with ⟨r, dropped, c'⟩
  rw [hget] at hmiss
  cases hmiss
  obtain ⟨kept', hlook⟩ := look_cache compute w.cwd ⟨c, w.read, [], kept⟩ w.now key
  rw [hget] at hlook
  rw [memoized_miss hget]
  cases hcompute : compute key w.read with
  | error e =>
    have hstep : (Scene.mk c' w.read [] kept').step compute w.cwd (.compute key) =
        ⟨c', w.read, [], kept'⟩ := by
      simp [Scene.step, hcompute]
    simp only [memoizing, hcompute, Scene.run, List.foldl_cons, hlook, hstep]
    rfl
  | ok result =>
    obtain ⟨value, paths⟩ := result
    have hstep : (Scene.mk c' w.read [] kept').step compute w.cwd (.compute key) =
        ⟨c', w.read, [.begun w.cwd w.read key value paths], kept'⟩ := by
      simp [Scene.step, hcompute]
    have hput := put_of_run compute kept' (get_miss hget)
      (rfl : Task.begun w.cwd w.read key value paths = _)
    simp only [memoizing, hcompute, Scene.run, List.cons_append, List.nil_append, List.foldl_cons,
      hlook, hstep] at hput ⊢
    rw [hput, settle]
    cases c'.put w key value paths <;> rfl

end Alone

def ContentsIn (C : Set Text) (read : Reader) : Prop :=
  ∀ path content, read path = .ok content → content ∈ C

/-- A result depends on nothing but what is at the paths that are reported with it. -/
def Honest (compute : Computation) (cwd : Text) : Prop :=
  ∀ key read read' value paths, compute key read = .ok (value, paths) →
    (∀ path ∈ paths, ∃ content, read.Sees (Path.absolute cwd path) content ∧
      read'.Sees (Path.absolute cwd path) content) →
    compute key read' = .ok (value, paths)

/-- Every digest was taken of what the computation saw. -/
def Kept.Undisturbed (k : Kept) : Prop :=
  ∀ file ∈ k.record.files, k.origin.Sees file.1 file.2

section Interleaved

variable (C : Set Text) (compute : Computation) (cwd : Text)

structure Task.Sound (t : Task) : Prop where
  computed : ∃ paths, compute t.key t.origin = .ok (t.value, paths) ∧
    ∀ path ∈ paths, Path.absolute cwd path ∈ t.seen.map Prod.fst ∨ Path.absolute cwd path ∈ t.left
  taken : t.digests = t.seen.map fun file => (file.1, file.2.map Digest.ofText)
  contents : ∀ file ∈ t.seen, ∀ content, file.2 = some content → content ∈ C

structure Kept.Sound (key : Text) (k : Kept) : Prop where
  computed : ∃ paths, compute key k.origin = .ok (some k.record.value, paths) ∧
    ∀ path ∈ paths, Path.absolute cwd path ∈ k.record.files.map Prod.fst
  contents : ∀ file ∈ k.record.files, ∀ content, file.2 = some content → content ∈ C

structure Scene.Sound (a : Scene) : Prop where
  opened : a.cache.isOpen = true
  ageless : a.cache.ttl = 0
  keeps : a.cache.store.Keeps fun key => (a.kept key).map Kept.record
  contents : ContentsIn C a.read
  tasks : ∀ t ∈ a.tasks, t.Sound C compute cwd
  kept : ∀ key k, a.kept key = some k → k.Sound C compute cwd key

variable {C compute cwd} {a : Scene} {t t' : Task}

theorem Task.Sound.advance (h : t.Sound C compute cwd) {read : Reader} (hread : ContentsIn C read)
    (ht : t.advance? read = some t') : t'.Sound C compute cwd := by
  cases hleft : t.left with
  | nil =>
    simp only [Task.advance?, hleft, Option.some.injEq] at ht
    exact ht ▸ h
  | cons path left =>
    obtain ⟨content, hsees, hadvance⟩ | ⟨-, hadvance⟩ := Task.advance?_cons hleft read
    · rw [hadvance] at ht
      cases ht
      obtain ⟨paths, hcompute, hpaths⟩ := h.computed
      refine ⟨⟨paths, hcompute, fun given hgiven => ?_⟩, ?_, ?_⟩
      · have hmem := hpaths given hgiven
        rw [hleft, List.mem_cons] at hmem
        rw [Task.took, mem_map_assign, or_assoc]
        exact or_left_comm.mp hmem
      · rw [Task.took, map_assign, h.taken]
      · intro file hfile text htext
        obtain rfl | hfile := eq_or_mem_of_mem_assign hfile
        · cases htext
          exact hread _ _ hsees
        · exact h.contents file hfile text htext
    · rw [hadvance] at ht
      cases ht

theorem Task.Sound.kept (h : t.Sound C compute cwd) (hleft : t.left = []) {v : Text}
    (hv : t.value = some v) (now : Int) :
    Kept.Sound C compute cwd t.key ⟨t.origin, v, now, t.seen⟩ := by
  obtain ⟨paths, hcompute, hpaths⟩ := h.computed
  refine ⟨⟨paths, by rw [hcompute, hv], fun path hpath => ?_⟩, h.contents⟩
  have hmem := hpaths path hpath
  rw [hleft] at hmem
  exact hmem.resolve_right List.not_mem_nil

namespace Scene.Sound

theorem edit (h : a.Sound C compute cwd) {read : Reader} (hread : ContentsIn C read) :
    (a.step compute cwd (.edit read)).Sound C compute cwd :=
  ⟨h.opened, h.ageless, h.keeps, hread, h.tasks, h.kept⟩

theorem look (h : a.Sound C compute cwd) (now : Int) (key : Text) :
    (a.step compute cwd (.look now key)).Sound C compute cwd := by
  cases hr : (a.kept key).map Kept.record with
  | none =>
    simp only [step, get_absent h.opened h.keeps hr]
    exact h
  | some r =>
    by_cases hlasts : r.Lasts a.cache.ttl ⟨now, a.read, cwd⟩
    · simp only [step, get_lasts h.opened h.keeps hr hlasts]
      exact h
    · obtain ⟨reason, hget⟩ := get_stale h.opened h.keeps hr hlasts
      simp only [step, hget]
      refine ⟨h.opened, h.ageless, ?_, h.contents, h.tasks, fun other k hk => ?_⟩
      · have hkept : (fun other => (if other = key then none else a.kept other).map Kept.record) =
            fun other => if other = key then none else (a.kept other).map Kept.record := by
          funext other
          split <;> rfl
        rw [hkept]
        exact h.keeps.erase key
      · dsimp only at hk
        split at hk
        · cases hk
        · exact h.kept other k hk

theorem computing (h : a.Sound C compute cwd) (key : Text) :
    (a.step compute cwd (.compute key)).Sound C compute cwd := by
  rw [step]
  split
  · exact h
  next value paths hcompute =>
    refine ⟨h.opened, h.ageless, h.keeps, h.contents, fun t ht => ?_, h.kept⟩
    obtain ht | ht := List.mem_append.mp ht
    · exact h.tasks t ht
    · cases List.mem_singleton.mp ht
      exact ⟨⟨paths, hcompute, fun path hpath => .inr (List.mem_map_of_mem hpath)⟩, rfl,
        fun file hfile => by cases hfile⟩

theorem digest (h : a.Sound C compute cwd) (i : Nat) :
    (a.step compute cwd (.digest i)).Sound C compute cwd := by
  rw [step]
  split
  · exact h
  next t ht =>
    have hsound := h.tasks t (List.mem_of_getElem? ht)
    split
    · exact ⟨h.opened, h.ageless, h.keeps, h.contents,
        fun t ht => h.tasks t (List.mem_of_mem_eraseIdx ht), h.kept⟩
    next t' hadvance =>
      refine ⟨h.opened, h.ageless, h.keeps, h.contents, fun u hu => ?_, h.kept⟩
      obtain hu | rfl := List.mem_or_eq_of_mem_set hu
      · exact h.tasks u hu
      · exact hsound.advance h.contents hadvance

theorem keep (h : a.Sound C compute cwd) (ht : t.Sound C compute cwd) (hleft : t.left = [])
    (now : Int) : (a.keep now t).Sound C compute cwd := by
  rw [Scene.keep]
  split
  next v hopen hv =>
    refine ⟨hopen, h.ageless, ?_, h.contents, h.tasks, fun key k hk => ?_⟩
    · have hkept : (fun key => (if key = t.key then some ⟨t.origin, v, now, t.seen⟩
          else a.kept key).map Kept.record) = fun key =>
            if key = t.key then some ⟨v, now, t.seen⟩ else (a.kept key).map Kept.record := by
        funext key
        split <;> rfl
      rw [hkept, ht.taken]
      exact h.keeps.insert t.key ⟨v, now, t.seen⟩
    · dsimp only at hk
      split at hk
      next heq =>
        cases hk
        exact heq ▸ ht.kept hleft hv now
      · exact h.kept key k hk
  · exact h

theorem store (h : a.Sound C compute cwd) (now : Int) (i : Nat) :
    (a.step compute cwd (.store now i)).Sound C compute cwd := by
  rw [step]
  split
  · exact h
  next t ht =>
    split
    next hleft =>
      have hkeep := h.keep (h.tasks t (List.mem_of_getElem? ht)) hleft now
      exact ⟨hkeep.opened, hkeep.ageless, hkeep.keeps, hkeep.contents,
        fun t ht => h.tasks t (List.mem_of_mem_eraseIdx ht), hkeep.kept⟩
    · exact h

theorem run {actions : List Action} (h : a.Sound C compute cwd)
    (hactions : ∀ read, Action.edit read ∈ actions → ContentsIn C read) :
    (a.run compute cwd actions).Sound C compute cwd := by
  induction actions generalizing a with
  | nil => exact h
  | cons action actions ih =>
    have hrest : ∀ read, Action.edit read ∈ actions → ContentsIn C read :=
      fun read hread => hactions read (List.mem_cons_of_mem _ hread)
    cases action with
    | edit read => exact ih (h.edit (hactions read List.mem_cons_self)) hrest
    | look now key => exact ih (h.look now key) hrest
    | compute key => exact ih (h.computing key) hrest
    | digest i => exact ih (h.digest i) hrest
    | store now i => exact ih (h.store now i) hrest

theorem hit (h : a.Sound C compute cwd) (hC : Set.InjOn Digest.ofText C) {now : Int}
    {key v : Text} (hhit : (a.cache.get ⟨now, a.read, cwd⟩ key).1 = .ok (some v)) :
    ∃ k, a.kept key = some k ∧ k.record.value = v ∧
      ∀ file ∈ k.record.files, a.read.Sees file.1 file.2 := by
  cases hk : a.kept key with
  | none =>
    rw [get_absent h.opened h.keeps (by simp [hk])] at hhit
    cases hhit
  | some k =>
    have hr : (a.kept key).map Kept.record = some k.record := by simp [hk]
    by_cases hlasts : k.record.Lasts a.cache.ttl ⟨now, a.read, cwd⟩
    · rw [get_lasts h.opened h.keeps hr hlasts] at hhit
      cases hhit
      refine ⟨k, rfl, rfl, fun file hfile => ?_⟩
      have hcontents := (h.kept key k hk).contents file hfile
      exact (Reader.sees_iff_digest hC h.contents hcontents).mp (hlasts.files file hfile)
    · obtain ⟨reason, hget⟩ := get_stale h.opened h.keeps hr hlasts
      rw [hget] at hhit
      cases hhit

theorem hit_of_sees (h : a.Sound C compute cwd) (now : Int) {key : Text} {k : Kept}
    (hk : a.kept key = some k) (hsees : ∀ file ∈ k.record.files, a.read.Sees file.1 file.2) :
    (a.cache.get ⟨now, a.read, cwd⟩ key).1 = .ok (some k.record.value) := by
  have hlasts : k.record.Lasts a.cache.ttl ⟨now, a.read, cwd⟩ :=
    ⟨.inl h.ageless.le, fun file hfile => ⟨file.2, hsees file hfile, rfl⟩⟩
  rw [get_lasts h.opened h.keeps (by simp [hk]) hlasts]

end Scene.Sound

theorem Kept.Sound.again {k : Kept} {key : Text} {read : Reader} (h : k.Sound C compute cwd key)
    (hhonest : Honest compute cwd) (hsees : ∀ file ∈ k.record.files, read.Sees file.1 file.2)
    (hundisturbed : k.Undisturbed) :
    ∃ paths, compute key read = .ok (some k.record.value, paths) := by
  obtain ⟨paths, hcompute, hpaths⟩ := h.computed
  refine ⟨paths, hhonest key k.origin read _ paths hcompute fun path hpath => ?_⟩
  obtain ⟨file, hfile, heq⟩ := List.mem_map.mp (hpaths path hpath)
  rw [← heq]
  exact ⟨file.2, hundisturbed file hfile, hsees file hfile⟩

def Scene.Spares (a : Scene) (read : Reader) : Prop :=
  ∀ t ∈ a.tasks, ∀ path ∈ t.left, ∀ content, read.Sees path content ↔ a.read.Sees path content

def Scene.Sparing (compute : Computation) (cwd : Text) : Scene → List Action → Prop
  | _, [] => True
  | a, action :: actions =>
    (∀ read, action = .edit read → a.Spares read) ∧
      Sparing compute cwd (a.step compute cwd action) actions

/-- What a task saw, and what it will see, is what its value was computed from. -/
structure Task.Undisturbed (read : Reader) (t : Task) : Prop where
  seen : ∀ file ∈ t.seen, t.origin.Sees file.1 file.2
  left : ∀ path ∈ t.left, ∀ content, read.Sees path content ↔ t.origin.Sees path content

structure Scene.Undisturbed (a : Scene) : Prop where
  tasks : ∀ t ∈ a.tasks, t.Undisturbed a.read
  kept : ∀ key k, a.kept key = some k → k.Undisturbed

theorem Task.Undisturbed.advance {read : Reader} (h : t.Undisturbed read)
    (ht : t.advance? read = some t') : t'.Undisturbed read := by
  cases hleft : t.left with
  | nil =>
    simp only [Task.advance?, hleft, Option.some.injEq] at ht
    exact ht ▸ h
  | cons path left =>
    have hpaths := h.left
    rw [hleft] at hpaths
    obtain ⟨hpath, hrest⟩ := List.forall_mem_cons.mp hpaths
    obtain ⟨content, hsees, hadvance⟩ | ⟨-, hadvance⟩ := Task.advance?_cons hleft read
    · rw [hadvance] at ht
      cases ht
      refine ⟨fun file hfile => ?_, hrest⟩
      obtain rfl | hfile := eq_or_mem_of_mem_assign hfile
      · exact (hpath content).mp hsees
      · exact h.seen file hfile
    · rw [hadvance] at ht
      cases ht

namespace Scene.Undisturbed

theorem step {action : Action} (h : a.Undisturbed)
    (hspares : ∀ read, action = .edit read → a.Spares read) :
    (a.step compute cwd action).Undisturbed := by
  cases action with
  | edit read =>
    refine ⟨fun t ht => ⟨(h.tasks t ht).seen, fun path hpath content => ?_⟩, h.kept⟩
    exact (hspares read rfl t ht path hpath content).trans ((h.tasks t ht).left path hpath content)
  | look now key =>
    rw [Scene.step]
    split
    · exact ⟨h.tasks, h.kept⟩
    · refine ⟨h.tasks, fun other k hk => ?_⟩
      dsimp only at hk
      split at hk
      · cases hk
      · exact h.kept other k hk
  | compute key =>
    rw [Scene.step]
    split
    · exact h
    next value paths hcompute =>
      refine ⟨fun t ht => ?_, h.kept⟩
      obtain ht | ht := List.mem_append.mp ht
      · exact h.tasks t ht
      · cases List.mem_singleton.mp ht
        exact ⟨fun file hfile => (List.not_mem_nil hfile).elim, fun _ _ _ => Iff.rfl⟩
  | digest i =>
    rw [Scene.step]
    split
    · exact h
    next t ht =>
      have htask := h.tasks t (List.mem_of_getElem? ht)
      split
      · exact ⟨fun t ht => h.tasks t (List.mem_of_mem_eraseIdx ht), h.kept⟩
      next t' hadvance =>
        refine ⟨fun u hu => ?_, h.kept⟩
        obtain hu | rfl := List.mem_or_eq_of_mem_set hu
        · exact h.tasks u hu
        · exact htask.advance hadvance
  | store now i =>
    rw [Scene.step]
    split
    · exact h
    next t ht =>
      have htask := h.tasks t (List.mem_of_getElem? ht)
      have hrest : ∀ t ∈ a.tasks.eraseIdx i, t.Undisturbed a.read :=
        fun t ht => h.tasks t (List.mem_of_mem_eraseIdx ht)
      split
      · rw [Scene.keep]
        split
        · refine ⟨hrest, fun key k hk => ?_⟩
          dsimp only at hk
          split at hk
          · cases hk
            exact htask.seen
          · exact h.kept key k hk
        · exact ⟨hrest, h.kept⟩
      · exact h

theorem run {actions : List Action} (h : a.Undisturbed) (hsparing : a.Sparing compute cwd actions) :
    (a.run compute cwd actions).Undisturbed := by
  induction actions generalizing a with
  | nil => exact h
  | cons action actions ih => exact ih (h.step hsparing.1) hsparing.2

end Scene.Undisturbed

end Interleaved

theorem Scene.sound_start {C : Set Text} {compute : Computation} {cwd : Text} {read : Reader}
    (hread : ContentsIn C read) : (Scene.mk {} read [] fun _ => none).Sound C compute cwd where
  opened := rfl
  ageless := rfl
  keeps := .empty
  contents := hread
  tasks := fun t ht => by cases ht
  kept := fun key k hk => by cases hk

theorem Scene.undisturbed_start (read : Reader) :
    (Scene.mk {} read [] fun _ => none).Undisturbed where
  tasks := fun t ht => by cases ht
  kept := fun key k hk => by cases hk

/-- On a miss, memoizing is its steps with nothing in between. With any edits in between, a look-up
hits exactly where the files of a record are as they were when their digests were taken, and its
value was computed from the files as they were once. If the digests were taken of what the
computation saw, which is so where each edit leaves alone what has yet to be digested, the same
value would be computed now. -/
theorem hit_is_computed_unless_disturbed {C : Set Text} {compute : Computation} {cwd : Text}
    (hC : Set.InjOn Digest.ofText C) (hhonest : Honest compute cwd) :
    (∀ (c : Cache) (w : Surroundings) key kept, (c.get w key).1 = .ok none →
      ((Scene.mk c w.read [] kept).run compute w.cwd (memoizing compute w key)).cache =
        (c.memoized w key (compute key w.read)).1.cache) ∧
    ∀ read actions, ContentsIn C read →
      (∀ read', Action.edit read' ∈ actions → ContentsIn C read') →
      let start : Scene := { cache := {}, read := read }
      let a := start.run compute cwd actions
      ∀ now key v,
        ((a.cache.get ⟨now, a.read, cwd⟩ key).1 = .ok (some v) ↔
          ∃ k, a.kept key = some k ∧ k.record.value = v ∧
            ∀ file ∈ k.record.files, a.read.Sees file.1 file.2) ∧
        ((a.cache.get ⟨now, a.read, cwd⟩ key).1 = .ok (some v) →
          ∃ k, a.kept key = some k ∧ (∃ paths, compute key k.origin = .ok (some v, paths)) ∧
            (k.Undisturbed → ∃ paths, compute key a.read = .ok (some v, paths)) ∧
            (start.Sparing compute cwd actions → k.Undisturbed)) := by
  refine ⟨fun c w key kept hmiss => run_memoizing compute hmiss kept, ?_⟩
  intro read actions hread hactions start a now key v
  have hsound : a.Sound C compute cwd := (Scene.sound_start hread).run hactions
  refine ⟨⟨fun hhit => hsound.hit hC hhit, ?_⟩, fun hhit => ?_⟩
  · rintro ⟨k, hk, rfl, hsees⟩
    exact hsound.hit_of_sees now hk hsees
  · obtain ⟨k, hk, rfl, hsees⟩ := hsound.hit hC hhit
    have hkept := hsound.kept key k hk
    obtain ⟨paths, hcompute, -⟩ := hkept.computed
    refine ⟨k, hk, ⟨paths, hcompute⟩, hkept.again hhonest hsees, fun hsparing => ?_⟩
    exact ((Scene.undisturbed_start read).run hsparing).kept key k hk

section Sample

def twoFiles (a b : Text) : Reader := fun path =>
  if path = utf8 "/a" then .ok a else .ok b

def madeFromFirst : Computation := fun _ read =>
  match read (utf8 "/a") with
  | .ok content => .ok (some (utf8 "made from " ++ content), [utf8 "/a"])
  | .error _ => .error (utf8 "unreadable")

theorem madeFromFirst_honest : Honest madeFromFirst (utf8 "/") := by
  intro key read read' value paths hcompute hsees
  have hpath : Path.absolute (utf8 "/") (utf8 "/a") = utf8 "/a" := by decide
  unfold madeFromFirst at hcompute ⊢
  split at hcompute
  next content hread =>
    cases hcompute
    obtain ⟨content', hold, hnew⟩ := hsees _ List.mem_cons_self
    rw [hpath] at hold hnew
    have hsame : some content = content' := by
      rw [← hold.toOption, hread]
      rfl
    subst hsame
    have hnew : read' (utf8 "/a") = .ok content := hnew
    rw [hnew]
  · cases hcompute

theorem twoFiles_contents {C : Set Text} {a b : Text} (ha : a ∈ C) (hb : b ∈ C) :
    ContentsIn C (twoFiles a b) := by
  intro path content hread
  unfold twoFiles at hread
  split at hread
  · cases hread
    exact ha
  · cases hread
    exact hb

theorem Scene.spares_of_left {a : Scene} {read : Reader} {paths : List Text}
    (hleft : a.tasks.flatMap Task.left = paths) (hread : ∀ path ∈ paths, read path = a.read path) :
    a.Spares read := by
  intro t ht path hpath content
  have hmem : path ∈ paths := hleft ▸ List.mem_flatMap.mpr ⟨t, ht, hpath⟩
  cases content <;> simp [Reader.Sees, hread path hmem]

theorem digests_differ : Set.InjOn Digest.ofText {utf8 "1", utf8 "2"} := by
  have hne : Digest.ofText (utf8 "1") ≠ Digest.ofText (utf8 "2") := by decide +kernel
  rintro x (rfl | rfl) y (rfl | rfl) h
  · rfl
  · exact absurd h hne
  · exact absurd h.symm hne
  · rfl

def editsAround : List Action :=
  [.compute (utf8 "k"), .edit (twoFiles (utf8 "1") (utf8 "2")), .digest 0,
    .edit (twoFiles (utf8 "2") (utf8 "2")), .store 0 0, .edit (twoFiles (utf8 "1") (utf8 "2"))]

theorem hit_is_computed_unless_disturbed_around :
    let start : Scene := { cache := {}, read := twoFiles (utf8 "1") (utf8 "1") }
    let a := start.run madeFromFirst (utf8 "/") editsAround
    start.Sparing madeFromFirst (utf8 "/") editsAround ∧
      (a.cache.get ⟨0, a.read, utf8 "/"⟩ (utf8 "k")).1 = .ok (some (utf8 "made from 1")) ∧
      ∃ paths, madeFromFirst (utf8 "k") a.read = .ok (some (utf8 "made from 1"), paths) := by
  intro start a
  have hone : utf8 "1" ∈ ({utf8 "1", utf8 "2"} : Set Text) := .inl rfl
  have htwo : utf8 "2" ∈ ({utf8 "1", utf8 "2"} : Set Text) := .inr rfl
  have hedits : ∀ read, Action.edit read ∈ editsAround →
      ContentsIn {utf8 "1", utf8 "2"} read := by
    intro read hread
    simp only [editsAround, List.mem_cons, Action.edit.injEq, reduceCtorEq, false_or,
      List.not_mem_nil, or_false] at hread
    obtain rfl | rfl | rfl := hread
    · exact twoFiles_contents hone htwo
    · exact twoFiles_contents htwo htwo
    · exact twoFiles_contents hone htwo
  have hsparing : start.Sparing madeFromFirst (utf8 "/") editsAround := by
    refine ⟨nofun, ?_, nofun, ?_, nofun, ?_, trivial⟩
    · intro read hread
      cases hread
      have hleft : (start.step madeFromFirst (utf8 "/") (.compute (utf8 "k"))).tasks.flatMap
          Task.left = [utf8 "/a"] := by decide
      exact Scene.spares_of_left hleft (List.forall_mem_singleton.mpr rfl)
    · intro read hread
      cases hread
      exact Scene.spares_of_left rfl (List.forall_mem_nil _)
    · intro read hread
      cases hread
      exact Scene.spares_of_left rfl (List.forall_mem_nil _)
  obtain ⟨-, hruns⟩ := hit_is_computed_unless_disturbed digests_differ madeFromFirst_honest
  obtain ⟨hiff, hcomputed⟩ := hruns (twoFiles (utf8 "1") (utf8 "1")) editsAround
    (twoFiles_contents hone hone) hedits 0 (utf8 "k") (utf8 "made from 1")
  have hhit := hiff.mpr ⟨_, rfl, rfl, List.forall_mem_singleton.mpr rfl⟩
  obtain ⟨k, -, -, hagain, hundisturbed⟩ := hcomputed hhit
  exact ⟨hsparing, hhit, hagain (hundisturbed hsparing)⟩

def editBetween : List Action :=
  [.compute (utf8 "k"), .edit (twoFiles (utf8 "2") (utf8 "1")), .digest 0, .store 0 0]

theorem hit_from_disturbed_digest :
    let start : Scene := { cache := {}, read := twoFiles (utf8 "1") (utf8 "1") }
    let a := start.run madeFromFirst (utf8 "/") editBetween
    Honest madeFromFirst (utf8 "/") ∧ Set.InjOn Digest.ofText {utf8 "1", utf8 "2"} ∧
      (a.cache.get ⟨0, a.read, utf8 "/"⟩ (utf8 "k")).1 = .ok (some (utf8 "made from 1")) ∧
      madeFromFirst (utf8 "k") a.read = .ok (some (utf8 "made from 2"), [utf8 "/a"]) := by
  intro start a
  have hedits : ∀ read, Action.edit read ∈ editBetween →
      ContentsIn {utf8 "1", utf8 "2"} read := by
    intro read hread
    simp only [editBetween, List.mem_cons, Action.edit.injEq, reduceCtorEq, false_or,
      List.not_mem_nil, or_false] at hread
    exact hread ▸ twoFiles_contents (.inr rfl) (.inl rfl)
  have hsound : a.Sound {utf8 "1", utf8 "2"} madeFromFirst (utf8 "/") :=
    (Scene.sound_start (twoFiles_contents (.inl rfl) (.inl rfl))).run hedits
  refine ⟨madeFromFirst_honest, digests_differ, ?_, rfl⟩
  exact hsound.hit_of_sees 0 (rfl : a.kept (utf8 "k") = some _) (List.forall_mem_singleton.mpr rfl)

end Sample

end Stencil.Cache
