import Stencil.Proofs.Cache.Standing

namespace Stencil

namespace Cache

inductive Operation where
  | put (key : Text) (value : Option Text) (paths : List Text)
  | get (key : Text)
  | memoize (key : Text) (computed : Computed Text)

inductive Event where
  | stored (key : Text) (r : Record)
  | dropped (i : Invalidation)

/-- The last record stored under a key, unless it was dropped since. The newest event is first. -/
def standing : List Event → Text → Option Record
  | [], _ => none
  | .stored k r :: events, key => if key = k then some r else standing events key
  | .dropped i :: events, key => if key = i.key then none else standing events key

structure Outcome where
  events : List Event
  cache : Cache

def memoized (c : Cache) (w : Surroundings) (key : Text) (computed : Computed Text) :
    Memo Text × List Invalidation :=
  (c.memoize (m := StateM (List Invalidation)) w key (fun i => modify (· ++ [i]))
    (pure computed)).run []

def storedBy {ε α : Type} (w : Surroundings) (key : Text) (value : Option Text)
    (paths : List Text) (r : Except ε α) : List Event :=
  match r, value with
  | .ok _, some v => [.stored key (.taken w v paths)]
  | _, _ => []

def perform (c : Cache) (w : Surroundings) : Operation → Outcome
  | .put key value paths =>
    let r := c.put w key value paths
    ⟨storedBy w key value paths r, r.toOption.getD c⟩
  | .get key =>
    let (_, dropped, c') := c.get w key
    ⟨dropped.map .dropped, c'⟩
  | .memoize key computed =>
    let (memo, dropped) := c.memoized w key computed
    let stored := match memo.computed, computed with
      | true, .ok (value, paths) => storedBy w key value paths memo.value
      | _, _ => []
    ⟨stored ++ dropped.map .dropped, memo.cache⟩

theorem get_reports (c : Cache) (w : Surroundings) (key : Text) :
    (c.get w key).1 = .ok none ∨ (c.get w key).2.1 = [] := by
  rw [get]
  split
  · exact .inr rfl
  · split
    · exact .inr rfl
    · exact .inl rfl
    · exact .inl rfl

theorem forM_report (dropped reported : List Invalidation) :
    (dropped.forM (m := StateM (List Invalidation)) fun i => modify (· ++ [i])).run reported =
      (PUnit.unit, reported ++ dropped) := by
  induction dropped generalizing reported with
  | nil =>
    rw [List.append_nil]
    rfl
  | cons i dropped ih =>
    refine (ih (reported ++ [i])).trans ?_
    rw [List.append_assoc]
    rfl

def settle {ε : Type} (c : Cache) (w : Surroundings) (key : Text) : Computed ε → Memo ε
  | .error e => ⟨.error (.compute e), true, c⟩
  | .ok (value, paths) =>
    match c.put w key value paths with
    | .error e => ⟨.error (.cache e), true, c⟩
    | .ok c' => ⟨.ok value, true, c'⟩

section

variable {m : Type → Type} [Monad m] {ε : Type} {c c' : Cache} {w : Surroundings} {key : Text}

theorem memoize_hit {v : Text} {dropped : List Invalidation}
    (h : c.get w key = (.ok (some v), dropped, c')) (report : Invalidation → m PUnit)
    (compute : m (Computed ε)) :
    c.memoize w key report compute = pure ⟨.ok (some v), false, c'⟩ := by
  rw [memoize, h]

theorem memoize_miss [LawfulMonad m] {dropped : List Invalidation}
    (h : c.get w key = (.ok none, dropped, c')) (report : Invalidation → m PUnit)
    (compute : m (Computed ε)) :
    c.memoize w key report compute = do
      dropped.forM report
      return c'.settle w key (← compute) := by
  rw [memoize, h]
  refine bind_congr fun _ => bind_congr fun computed => ?_
  cases computed with
  | error e => rfl
  | ok result =>
    obtain ⟨value, paths⟩ := result
    dsimp only [settle]
    cases c'.put w key value paths <;> rfl

end

theorem memoized_miss {c c' : Cache} {w : Surroundings} {key : Text} {dropped : List Invalidation}
    (h : c.get w key = (.ok none, dropped, c')) (computed : Computed Text) :
    c.memoized w key computed = (c'.settle w key computed, dropped) := by
  rw [memoized, memoize_miss h, StateT.run_bind, forM_report]
  rfl

theorem perform_memoize (c : Cache) (w : Surroundings) (key : Text) (computed : Computed Text) :
    c.perform w (.memoize key computed) =
      match (c.get w key).1, computed with
      | .ok none, .ok (value, paths) =>
        let found := c.perform w (.get key)
        let kept := found.cache.perform w (.put key value paths)
        ⟨kept.events ++ found.events, kept.cache⟩
      | _, _ => c.perform w (.get key) := by
  have hreports := c.get_reports w key
  rcases hget : c.get w key with ⟨r, dropped, c'⟩
  rw [hget] at hreports
  cases r with
  | error e =>
    cases hreports.resolve_left (by simp)
    simp only [perform, memoized, memoize, hget]
    rfl
  | ok found =>
    cases found with
    | some v =>
      cases hreports.resolve_left (by simp)
      simp only [perform, memoized, memoize, hget]
      rfl
    | none =>
      simp only [perform, memoized_miss hget, hget]
      cases computed with
      | error e => rfl
      | ok result =>
        obtain ⟨value, paths⟩ := result
        simp only [settle]
        cases c'.put w key value paths with
        | error e => rfl
        | ok c'' => cases value <;> rfl

end Cache

structure Surroundings.Within (C : Set Text) (w : Surroundings) : Prop where
  contents : ∀ path content, w.read path = .ok content → content ∈ C
  time : Clock.Fits w.now

theorem Reader.sees_iff_digest {C : Set Text} (hC : Set.InjOn Digest.ofText C) {read : Reader}
    (hread : ∀ path content, read path = .ok content → content ∈ C) {path : Text}
    {old : Option Text} (hold : ∀ content, old = some content → content ∈ C) :
    (∃ content, read.Sees path content ∧ content.map Digest.ofText = old.map Digest.ofText) ↔
      read.Sees path old := by
  refine ⟨?_, fun hsees => ⟨old, hsees, rfl⟩⟩
  rintro ⟨content, hsees, hdigest⟩
  have hnew : ∀ text, content = some text → text ∈ C := by
    rintro text rfl
    exact hread _ _ hsees
  exact Digest.eq_of_map_eq hC hnew hold hdigest ▸ hsees

namespace Record

structure Within (C : Set Text) (r : Record) : Prop where
  contents : ∀ file ∈ r.files, ∀ content, file.2 = some content → content ∈ C
  time : Clock.Fits r.time

/-- Every file has the content it had, or a read answers again that it is missing, and the age is
not over the limit. -/
structure Fresh (ttl : Int) (w : Surroundings) (r : Record) : Prop where
  age : ttl ≤ 0 ∨ w.now - r.time ≤ ttl
  files : ∀ file ∈ r.files, w.read.Sees file.1 file.2

theorem taken_within {C : Set Text} {w : Surroundings} (hw : w.Within C) (value : Text)
    (paths : List Text) : (taken w value paths).Within C := by
  refine ⟨fun file hfile content hcontent => ?_, hw.time⟩
  obtain ⟨path, -, rfl⟩ := List.mem_map.mp hfile
  cases hread : w.read path with
  | error e => simp [hread, Except.toOption] at hcontent
  | ok s =>
    simp only [hread, Except.toOption, Option.some.injEq] at hcontent
    exact hcontent ▸ hw.contents path s hread

theorem lasts_iff_fresh {C : Set Text} {ttl : Int} {w : Surroundings} {r : Record}
    (hC : Set.InjOn Digest.ofText C) (httl : ttl < Clock.longest) (hw : w.Within C)
    (hr : r.Within C) : r.Lasts ttl w ↔ r.Fresh ttl w := by
  have hage : (ttl ≤ 0 ∨ Clock.since w.now (Clock.stamp r.time) ≤ ttl) ↔
      (ttl ≤ 0 ∨ w.now - r.time ≤ ttl) := by
    rw [Clock.stamp_of_fits hr.time]
    by_cases hpos : 0 < ttl
    · rw [Clock.since_le_iff hpos httl]
    · simp [Int.not_lt.mp hpos]
  have hfile : ∀ file ∈ r.files, (∃ content, w.read.Sees file.1 content ∧
      content.map Digest.ofText = file.2.map Digest.ofText) ↔ w.read.Sees file.1 file.2 :=
    fun file hfile => Reader.sees_iff_digest hC hw.contents (hr.contents file hfile)
  exact ⟨fun h => ⟨hage.mp h.age, fun file hmem => (hfile file hmem).mp (h.files file hmem)⟩,
    fun h => ⟨hage.mpr h.age, fun file hmem => (hfile file hmem).mpr (h.files file hmem)⟩⟩

end Record

namespace Cache

/-- The caches that operations lead to, with what happened on the way. Each operation finds the
files and the clock as they are then. -/
inductive Runs (C : Set Text) (ttl : Int) : List Event → Cache → Prop where
  | start : Runs C ttl [] { ttl := ttl }
  | step {events c} (w : Surroundings) (op : Operation) : w.Within C → Runs C ttl events c →
      Runs C ttl ((c.perform w op).events ++ events) (c.perform w op).cache

structure Faithful (C : Set Text) (ttl : Int) (events : List Event) (c : Cache) : Prop where
  opened : c.isOpen = true
  limit : c.ttl = ttl
  keeps : c.store.Keeps (standing events)
  within : ∀ {key r}, standing events key = some r → r.Within C

namespace Faithful

variable {C : Set Text} {ttl : Int} {events : List Event} {c : Cache} {w : Surroundings}

theorem put (h : Faithful C ttl events c) (hw : w.Within C) (key : Text) (value : Option Text)
    (paths : List Text) :
    Faithful C ttl ((c.perform w (.put key value paths)).events ++ events)
      (c.perform w (.put key value paths)).cache := by
  simp only [perform]
  cases hput : c.put w key value paths with
  | error e => exact h
  | ok c' =>
    obtain ⟨-, v, rfl, rfl⟩ := (put_eq_ok_iff h.opened).mp hput
    refine ⟨h.opened, h.limit, h.keeps.insert key _, fun {other r} hr => ?_⟩
    change (if other = key then _ else _) = some r at hr
    split at hr
    · cases hr
      exact Record.taken_within hw v paths
    · exact h.within hr

theorem get (h : Faithful C ttl events c) (w : Surroundings) (key : Text) :
    Faithful C ttl ((c.perform w (.get key)).events ++ events) (c.perform w (.get key)).cache := by
  simp only [perform]
  cases hr : standing events key with
  | none =>
    rw [get_absent h.opened h.keeps hr]
    exact h
  | some r =>
    by_cases hlasts : r.Lasts c.ttl w
    · rw [get_lasts h.opened h.keeps hr hlasts]
      exact h
    · obtain ⟨reason, hget⟩ := get_stale h.opened h.keeps hr hlasts
      rw [hget]
      refine ⟨h.opened, h.limit, h.keeps.erase key, fun {other r} hr => ?_⟩
      change (if other = key then _ else _) = some r at hr
      split at hr
      · cases hr
      · exact h.within hr

theorem memoize (h : Faithful C ttl events c) (hw : w.Within C) (key : Text)
    (computed : Computed Text) :
    Faithful C ttl ((c.perform w (.memoize key computed)).events ++ events)
      (c.perform w (.memoize key computed)).cache := by
  rw [perform_memoize]
  split
  · rw [List.append_assoc]
    exact (h.get w key).put hw key _ _
  · exact h.get w key

end Faithful

theorem Runs.faithful {C : Set Text} {ttl : Int} {events : List Event} {c : Cache}
    (h : Runs C ttl events c) : Faithful C ttl events c := by
  induction h with
  | start => exact ⟨rfl, rfl, .empty, fun hr => by cases hr⟩
  | step w op hw _ ih =>
    cases op with
    | put key value paths => exact ih.put hw key value paths
    | get key => exact ih.get w key
    | memoize key computed => exact ih.memoize hw key computed

theorem Faithful.get_eq {C : Set Text} {ttl : Int} {events : List Event} {c : Cache}
    {w : Surroundings} {key : Text} {r : Record} (h : Faithful C ttl events c)
    (hC : Set.InjOn Digest.ofText C) (httl : ttl < Clock.longest) (hw : w.Within C)
    (hr : standing events key = some r) :
    (r.Fresh ttl w ∧ c.get w key = (.ok (some r.value), [], c)) ∨
      ¬ r.Fresh ttl w ∧ ∃ reason, c.get w key = (.ok none, [⟨key, reason⟩], c.drop key) := by
  have hlasts := Record.lasts_iff_fresh hC httl hw (h.within hr)
  rw [← h.limit] at hlasts ⊢
  by_cases hfresh : r.Fresh c.ttl w
  · exact .inl ⟨hfresh, get_lasts h.opened h.keeps hr (hlasts.mpr hfresh)⟩
  · exact .inr ⟨hfresh, get_stale h.opened h.keeps hr (mt hlasts.mp hfresh)⟩

/-- Over every run, where contents have digests of their own and times fit: the rows are those of
the records that stand; a look-up hits exactly where a record stands and is fresh, gives its value
and changes nothing; a stale one is dropped with its rows, reported once, and nothing else is
touched; a value is put exactly where its files can be read or are missing, and otherwise everything
stays as it was; and a computation that fails leaves what its look-up left. -/
theorem coherent_over_runs {C : Set Text} {ttl : Int} {events : List Event} {c : Cache}
    (hC : Set.InjOn Digest.ofText C) (httl : ttl < Clock.longest) (h : Runs C ttl events c) :
    (∀ d ∈ c.store.dependencies, ∃ e ∈ c.store.entries, e.key = d.key) ∧
    (∀ key, c.store.dependencies.filter (·.key = key) =
      ((standing events key).map (Record.rows key)).getD []) ∧
    ∀ w : Surroundings, w.Within C → ∀ key,
      ((∃ v, (c.get w key).1 = .ok (some v)) ↔
        ∃ r, standing events key = some r ∧ r.Fresh ttl w) ∧
      (∀ v, (c.get w key).1 = .ok (some v) →
        (standing events key).map Record.value = some v ∧ (c.get w key).2 = ([], c)) ∧
      (∀ r, standing events key = some r → ¬ r.Fresh ttl w → ∃ reason c',
        c.get w key = (.ok none, [⟨key, reason⟩], c') ∧
        c'.store.entries = c.store.entries.filter (·.key ≠ key) ∧
        c'.store.dependencies = c.store.dependencies.filter (·.key ≠ key) ∧
        c'.ttl = c.ttl ∧ c'.isOpen = c.isOpen) ∧
      (∀ v paths, (c.put w key (some v) paths).isOk = true ↔
        ∀ path ∈ paths, ∃ content, w.read.Sees (Path.absolute w.cwd path) content) ∧
      (∀ value paths, (c.put w key value paths).isOk = false →
        c.perform w (.put key value paths) = ⟨[], c⟩) ∧
      ∀ e, c.perform w (.memoize key (.error e)) = c.perform w (.get key) := by
  have hfaithful := h.faithful
  refine ⟨fun d hd => hfaithful.keeps.owned hd, fun key => ?_, fun w hw key =>
    ⟨?_, ?_, ?_, ?_, ?_, ?_⟩⟩
  · rw [hfaithful.keeps.rows]
    cases standing events key <;> simp
  · cases hr : standing events key with
    | none => simp [get_absent hfaithful.opened hfaithful.keeps hr]
    | some r =>
      obtain ⟨hfresh, hget⟩ | ⟨hstale, reason, hget⟩ := hfaithful.get_eq hC httl hw hr
      · simp [hget, hfresh]
      · simp [hget, hstale]
  · intro v hv
    cases hr : standing events key with
    | none => simp [get_absent hfaithful.opened hfaithful.keeps hr] at hv
    | some r =>
      obtain ⟨hfresh, hget⟩ | ⟨hstale, reason, hget⟩ := hfaithful.get_eq hC httl hw hr
      · rw [hget] at hv ⊢
        cases hv
        exact ⟨rfl, rfl⟩
      · simp [hget] at hv
  · intro r hr hstale
    obtain ⟨hfresh, -⟩ | ⟨-, reason, hget⟩ := hfaithful.get_eq hC httl hw hr
    · exact absurd hfresh hstale
    · exact ⟨reason, c.drop key, hget, rfl, rfl, rfl, rfl⟩
  · intro v paths
    constructor
    · intro hok
      cases hput : c.put w key (some v) paths with
      | error e => simp [hput, Except.isOk, Except.toBool] at hok
      | ok c' => exact ((put_eq_ok_iff hfaithful.opened).mp hput).1
    · intro hsees
      rw [(put_eq_ok_iff hfaithful.opened).mpr ⟨hsees, v, rfl, rfl⟩]
      rfl
  · intro value paths hfail
    cases hput : c.put w key value paths with
    | error e =>
      simp only [perform, hput]
      rfl
    | ok c' => simp [hput, Except.isOk, Except.toBool] at hfail
  · intro e
    rw [perform_memoize]
    split
    next hcomputed => cases hcomputed
    · rfl

theorem coherent_over_runs_aging :
    ∃ events c, Runs {utf8 "1"} 50 events c ∧
      (c.get ⟨50, fun _ => .ok (utf8 "1"), utf8 "/"⟩ (utf8 "k")).1 = .ok (some (utf8 "v")) ∧
      ∃ reason c', c.get ⟨51, fun _ => .ok (utf8 "1"), utf8 "/"⟩ (utf8 "k") =
        (.ok none, [⟨utf8 "k", reason⟩], c') ∧ c'.store.entries = [] := by
  let w (now : Int) : Surroundings := ⟨now, fun _ => .ok (utf8 "1"), utf8 "/"⟩
  have hw : ∀ now, Clock.Fits now → (w now).Within {utf8 "1"} :=
    fun now hnow => ⟨fun _ _ h => by cases h; rfl, hnow⟩
  have hrun : Runs {utf8 "1"} 50 _ _ :=
    .step (w 0) (.put (utf8 "k") (some (utf8 "v")) [utf8 "a"]) (hw 0 (by decide)) .start
  obtain ⟨-, -, hget⟩ := coherent_over_runs (Set.injOn_singleton ..) (by decide) hrun
  refine ⟨_, _, hrun, ?_, ?_⟩
  · have hfresh : (Record.taken (w 0) (utf8 "v") [utf8 "a"]).Fresh 50 (w 50) := by
      refine ⟨.inr (by decide), fun file hfile => ?_⟩
      obtain ⟨path, -, rfl⟩ := List.mem_map.mp hfile
      rfl
    obtain ⟨hhit, hvalue, -⟩ := hget (w 50) (hw 50 (by decide)) (utf8 "k")
    obtain ⟨v, hv⟩ := hhit.mpr ⟨_, rfl, hfresh⟩
    cases (hvalue v hv).1
    exact hv
  · obtain ⟨-, -, hstale, -⟩ := hget (w 51) (hw 51 (by decide)) (utf8 "k")
    obtain ⟨reason, c', hc', hentries, -⟩ := hstale (.taken (w 0) (utf8 "v") [utf8 "a"]) rfl
      fun hfresh => absurd hfresh.age (by decide)
    exact ⟨reason, c', hc', hentries⟩

/-- At a time that cannot be kept, a value is too old as soon as it is put. -/
theorem fresh_record_expires :
    ∃ (w : Surroundings) (r : Record),
      let o := ({ ttl := 50 } : Cache).perform w (.put (utf8 "k") (some (utf8 "v")) [utf8 "a"])
      standing o.events (utf8 "k") = some r ∧ r.Fresh 50 w ∧
        (o.cache.get w (utf8 "k")).1 = .ok none := by
  refine ⟨⟨10000000000000000000, fun _ => .ok (utf8 "1"), utf8 "/"⟩, _, rfl, ⟨?_, ?_⟩, rfl⟩
  · exact .inr (by decide)
  · intro file hfile
    obtain ⟨path, -, rfl⟩ := List.mem_map.mp hfile
    rfl

/-- A file is still not there when another one takes the place of its directory, but a read of it
then fails in another way, and the value is stale. -/
theorem missing_file_appears :
    let after : Disk := ⟨[([utf8 "d"], .file (utf8 "1"))]⟩
    let w (d : Disk) : Surroundings := ⟨0, d.contentOf [], utf8 "/"⟩
    let o := ({} : Cache).perform (w {}) (.put (utf8 "k") (some (utf8 "v")) [utf8 "d/x"])
    (∃ r, standing o.events (utf8 "k") = some r ∧ r.files = [(utf8 "/d/x", none)]) ∧
      after.find? [utf8 "d", utf8 "x"] = none ∧
      (o.cache.get (w after) (utf8 "k")).1 = .ok none ∧
      (o.cache.get (w after) (utf8 "k")).2.1 = [⟨utf8 "k", .appeared (utf8 "/d/x")⟩] := by
  refine ⟨⟨_, rfl, ?_⟩, rfl, ?_, ?_⟩
  · decide
  · decide
  · decide

end Cache

end Stencil
