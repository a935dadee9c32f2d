import Mathlib.Data.Set.Function
import Stencil.Cache.Basic
import Stencil.Proofs.Result
import Stencil.Proofs.Text.Order

namespace Stencil

namespace Clock

def Fits (t : Int) : Prop :=
  -longest - 1 ≤ t ∧ t ≤ longest

instance (t : Int) : Decidable (Fits t) :=
  inferInstanceAs (Decidable (_ ∧ _))

theorem stamp_of_fits {t : Int} (h : Fits t) : stamp t = t := by
  obtain ⟨hlow, hhigh⟩ := h
  simp only [longest] at hlow hhigh
  exact Int.bmod_eq_of_le (by omega) (by omega)

theorem since_le_iff {now past span : Int} (hpos : 0 < span) (hless : span < longest) :
    since now past ≤ span ↔ now - past ≤ span := by
  simp only [since, longest] at hless ⊢
  omega

end Clock

def Reader.Sees (read : Reader) (path : Text) : Option Text → Prop
  | some content => read path = .ok content
  | none => ∃ e, read path = .error e ∧ e.isMissing = true

theorem Reader.Sees.toOption {read : Reader} {path : Text} {content : Option Text}
    (h : read.Sees path content) : (read path).toOption = content := by
  cases content with
  | none =>
    obtain ⟨e, he, -⟩ := h
    rw [he]
    rfl
  | some content =>
    have hread : read path = .ok content := h
    rw [hread]
    rfl

theorem Digest.eq_of_map_eq {C : Set Text} (hC : Set.InjOn ofText C) {new old : Option Text}
    (hnew : ∀ content, new = some content → content ∈ C)
    (hold : ∀ content, old = some content → content ∈ C) (h : new.map ofText = old.map ofText) :
    new = old := by
  cases old with
  | none => simpa using h
  | some old =>
    cases new with
    | none => simp at h
    | some new =>
      rw [Option.map_some, Option.map_some, Option.some.injEq] at h
      rw [hC (hnew new rfl) (hold old rfl) h]

namespace Store

theorem digestOf_eq_ok_iff {read : Reader} {path : Text} {digest : Option Text} :
    digestOf read path = .ok digest ↔
      ∃ content, read.Sees path content ∧ digest = content.map Digest.ofText := by
  unfold digestOf
  cases hread : read path with
  | ok content =>
    constructor
    · intro h
      cases h
      exact ⟨some content, hread, rfl⟩
    · rintro ⟨content', hsees, rfl⟩
      rw [← hsees.toOption, hread]
      rfl
  | error e =>
    constructor
    · intro h
      dsimp only at h
      split at h
      next he =>
        cases h
        exact ⟨none, ⟨e, hread, he⟩, rfl⟩
      · cases h
    · rintro ⟨content, hsees, rfl⟩
      cases content with
      | none =>
        obtain ⟨e', he', hmissing⟩ := hsees
        cases hread.symm.trans he'
        exact if_pos hmissing
      | some content => exact absurd (hread.symm.trans hsees) (by simp)

theorem change?_eq_none_iff {read : Reader} {d : Dependency} :
    Dependency.change? read d = none ↔ digestOf read d.path = .ok d.digest := by
  unfold Dependency.change?
  split
  next hdigest hread => simp [hdigest, hread]
  next hdigest hread =>
    simp only [hdigest, reduceCtorEq, false_iff]
    exact hread
  next hdigest hread => simp [hdigest, hread]
  next hdigest hread => simp [hdigest, hread]
  next hdigest hread =>
    split
    next heq => simp [hdigest, hread, heq]
    next hne => simpa [hdigest, hread] using Ne.symm hne

theorem digests_eq_ok_iff {read : Reader} {paths : List Text} {files : List (Text × Option Text)} :
    digests read paths = .ok files ↔
      (∀ path ∈ paths, ∃ content, read.Sees path content) ∧
        files = paths.eraseDups.map fun path =>
          (path, (read path).toOption.map Digest.ofText) := by
  have hfile : ∀ (path : Text) (file : Text × Option Text),
      (digestOf read path >>= fun digest => pure (path, digest)) = Except.ok file ↔
        (∃ content, read.Sees path content) ∧
          file = (path, (read path).toOption.map Digest.ofText) := by
    intro path file
    rw [bind_eq_ok_iff]
    constructor
    · rintro ⟨digest, hdigest, hfile⟩
      obtain ⟨content, hsees, rfl⟩ := digestOf_eq_ok_iff.mp hdigest
      cases hfile
      exact ⟨⟨content, hsees⟩, by rw [hsees.toOption]⟩
    · rintro ⟨⟨content, hsees⟩, rfl⟩
      rw [hsees.toOption]
      exact ⟨_, digestOf_eq_ok_iff.mpr ⟨content, hsees, rfl⟩, rfl⟩
  rw [digests, mapM_eq_ok_iff hfile]
  simp

end Store

structure Record where
  value : Text
  time : Int
  files : List (Text × Option Text)

namespace Record

def taken (w : Surroundings) (value : Text) (paths : List Text) : Record :=
  ⟨value, w.now, (paths.map (Path.absolute w.cwd)).eraseDups.map fun path =>
    (path, (w.read path).toOption)⟩

def entry (key : Text) (r : Record) : CacheEntry :=
  ⟨key, r.value, Clock.stamp r.time⟩

def digests (r : Record) : List (Text × Option Text) :=
  r.files.map fun file => (file.1, file.2.map Digest.ofText)

def rows (key : Text) (r : Record) : List Dependency :=
  r.digests.map fun file => ⟨key, file.1, file.2⟩

theorem filter_rows (key other : Text) (r : Record) :
    (r.rows key).filter (·.key = other) = if other = key then r.rows key else [] := by
  split
  next heq =>
    refine List.filter_eq_self.mpr fun d hd => ?_
    obtain ⟨file, -, rfl⟩ := List.mem_map.mp hd
    simp [heq]
  next hne =>
    refine List.filter_eq_nil_iff.mpr fun d hd => ?_
    obtain ⟨file, -, rfl⟩ := List.mem_map.mp hd
    simpa using Ne.symm hne

structure Lasts (ttl : Int) (w : Surroundings) (r : Record) : Prop where
  age : ttl ≤ 0 ∨ Clock.since w.now (Clock.stamp r.time) ≤ ttl
  files : ∀ file ∈ r.files, ∃ content, w.read.Sees file.1 content ∧
    content.map Digest.ofText = file.2.map Digest.ofText

theorem taken_lasts {ttl : Int} {w : Surroundings} {paths : List Text} (httl : ttl ≤ 0)
    (hsees : ∀ path ∈ paths, ∃ content, w.read.Sees (Path.absolute w.cwd path) content)
    (value : Text) : (taken w value paths).Lasts ttl w := by
  refine ⟨.inl httl, fun file hfile => ?_⟩
  obtain ⟨path, hpath, rfl⟩ := List.mem_map.mp hfile
  obtain ⟨given, hgiven, rfl⟩ := List.mem_map.mp (List.mem_eraseDups.mp hpath)
  obtain ⟨content, hcontent⟩ := hsees given hgiven
  exact ⟨content, hcontent, by rw [hcontent.toOption]⟩

end Record

namespace Store

/-- The store has one entry for each record that stands, with its rows, and nothing else. -/
structure Keeps (s : Store) (standing : Text → Option Record) : Prop where
  entries (key : Text) :
    s.entries.filter (·.key = key) = (standing key).toList.map (Record.entry key)
  rows (key : Text) :
    s.dependencies.filter (·.key = key) = (standing key).toList.flatMap (Record.rows key)

theorem filter_filter_ne {α : Type} (f : α → Text) (key other : Text) (l : List α) :
    (l.filter (f · ≠ key)).filter (f · = other) =
      if other = key then [] else l.filter (f · = other) := by
  rw [List.filter_filter]
  split
  next heq =>
    rw [heq, List.filter_eq_nil_iff]
    simp
  next hne =>
    refine List.filter_congr fun a _ => ?_
    by_cases ha : f a = other
    · simp [ha, hne]
    · simp [ha]

namespace Keeps

variable {s : Store} {standing : Text → Option Record}

theorem empty : Keeps {} fun _ => none :=
  ⟨fun _ => rfl, fun _ => rfl⟩

theorem erase (h : s.Keeps standing) (key : Text) :
    (s.erase key).Keeps fun other => if other = key then none else standing other := by
  constructor
  · intro other
    refine (filter_filter_ne CacheEntry.key key other s.entries).trans ?_
    split
    · rfl
    · exact h.entries other
  · intro other
    refine (filter_filter_ne Dependency.key key other s.dependencies).trans ?_
    split
    · rfl
    · exact h.rows other

theorem insert (h : s.Keeps standing) (key : Text) (r : Record) :
    (s.insert (r.entry key) r.digests).Keeps fun other =>
      if other = key then some r else standing other := by
  have herase := h.erase key
  constructor
  · intro other
    refine (List.filter_append ..).trans ?_
    rw [show (r.entry key).key = key from rfl, herase.entries other]
    by_cases heq : other = key
    · simp [heq, Record.entry]
    · simp [heq, Record.entry, Ne.symm heq]
  · intro other
    refine (List.filter_append ..).trans ?_
    rw [show (r.entry key).key = key from rfl, herase.rows other]
    refine (congrArg _ (r.filter_rows key other)).trans ?_
    by_cases heq : other = key
    · simp [heq]
    · simp [heq]

theorem find? (h : s.Keeps standing) (key : Text) :
    s.find? key = (standing key).map (Record.entry key) := by
  rw [Store.find?, ← List.head?_filter, h.entries]
  cases standing key <;> rfl

theorem owned (h : s.Keeps standing) {d : Dependency} (hd : d ∈ s.dependencies) :
    ∃ e ∈ s.entries, e.key = d.key := by
  have hrow : d ∈ s.dependencies.filter (·.key = d.key) := by simpa using hd
  have hentries := h.entries d.key
  rw [h.rows] at hrow
  cases hr : standing d.key with
  | none => simp [hr] at hrow
  | some r =>
    have hentry : r.entry d.key ∈ s.entries.filter (·.key = d.key) := by simp [hentries, hr]
    exact ⟨r.entry d.key, (List.mem_filter.mp hentry).1, rfl⟩

theorem findSome?_eq_none_iff (h : s.Keeps standing) {key : Text} {r : Record}
    (hr : standing key = some r) (read : Reader) :
    (s.dependenciesOf key).findSome? (Dependency.change? read) = none ↔
      ∀ file ∈ r.files, ∃ content, read.Sees file.1 content ∧
        content.map Digest.ofText = file.2.map Digest.ofText := by
  have hrows : s.dependencies.filter (·.key = key) = r.rows key := by
    rw [h.rows, hr]
    exact List.flatMap_singleton ..
  rw [List.findSome?_eq_none_iff, dependenciesOf, hrows]
  simp only [(Text.sortOn_perm _ _).mem_iff, Record.rows, Record.digests, List.map_map,
    List.forall_mem_map]
  refine forall₂_congr fun file _ => ?_
  rw [change?_eq_none_iff, digestOf_eq_ok_iff]
  exact exists_congr fun content => and_congr_right fun _ => eq_comm

theorem stale?_eq_none_iff (h : s.Keeps standing) {key : Text} {r : Record}
    (hr : standing key = some r) (ttl : Int) (w : Surroundings) :
    s.stale? ttl w (r.entry key) = none ↔ r.Lasts ttl w := by
  rw [stale?]
  split
  next hold =>
    simp only [reduceCtorEq, false_iff]
    intro hlasts
    have hage := hlasts.age
    simp only [Bool.and_eq_true, decide_eq_true_eq] at hold
    have hafter : ttl < Clock.since w.now (Clock.stamp r.time) := hold.2
    omega
  next hyoung =>
    rw [show (r.entry key).key = key from rfl, h.findSome?_eq_none_iff hr]
    refine ⟨fun hfiles => ⟨?_, hfiles⟩, Record.Lasts.files⟩
    simp only [Bool.and_eq_true, decide_eq_true_eq, not_and] at hyoung
    have hage : 0 < ttl → ¬ ttl < Clock.since w.now (Clock.stamp r.time) := hyoung
    omega

end Keeps

end Store

namespace Cache

def drop (c : Cache) (key : Text) : Cache :=
  { c with store := c.store.erase key }

def add (c : Cache) (key : Text) (r : Record) : Cache :=
  { c with store := c.store.insert (r.entry key) r.digests }

variable {c : Cache} {standing : Text → Option Record} {key : Text} {r : Record}
  {w : Surroundings}

theorem get_absent (hopen : c.isOpen = true) (h : c.store.Keeps standing)
    (hr : standing key = none) : c.get w key = (.ok none, [], c) := by
  have hfind : c.store.find? key = none := by rw [h.find?, hr]; rfl
  simp [get, hopen, Store.get, hfind]

theorem get_lasts (hopen : c.isOpen = true) (h : c.store.Keeps standing)
    (hr : standing key = some r) (hlasts : r.Lasts c.ttl w) :
    c.get w key = (.ok (some r.value), [], c) := by
  have hfind : c.store.find? key = some (r.entry key) := by rw [h.find?, hr]; rfl
  have hfresh := (h.stale?_eq_none_iff hr c.ttl w).mpr hlasts
  simp only [get, hopen, Store.get, hfind, hfresh]
  rfl

theorem get_stale (hopen : c.isOpen = true) (h : c.store.Keeps standing)
    (hr : standing key = some r) (hstale : ¬ r.Lasts c.ttl w) :
    ∃ reason, c.get w key = (.ok none, [⟨key, reason⟩], c.drop key) := by
  have hfind : c.store.find? key = some (r.entry key) := by rw [h.find?, hr]; rfl
  have hsome := mt (h.stale?_eq_none_iff hr c.ttl w).mp hstale
  obtain ⟨reason, hreason⟩ := Option.ne_none_iff_exists'.mp hsome
  exact ⟨reason, by simp [get, hopen, Store.get, hfind, hreason, drop]⟩

theorem get_add (hopen : c.isOpen = true) (h : c.store.Keeps standing)
    (hlasts : r.Lasts c.ttl w) :
    (c.add key r).get w key = (.ok (some r.value), [], c.add key r) :=
  get_lasts hopen (h.insert key r) (if_pos rfl) hlasts

theorem put_eq_ok_iff {value : Option Text} {paths : List Text} {c' : Cache}
    (hopen : c.isOpen = true) :
    c.put w key value paths = .ok c' ↔
      (∀ path ∈ paths, ∃ content, w.read.Sees (Path.absolute w.cwd path) content) ∧
        ∃ v, value = some v ∧ c' = c.add key (Record.taken w v paths) := by
  have htaken : ∀ v, (Record.taken w v paths).digests =
      (paths.map (Path.absolute w.cwd)).eraseDups.map fun path =>
        (path, (w.read path).toOption.map Digest.ofText) := by
    intro v
    simp [Record.taken, Record.digests]
  rw [put, bind_eq_ok_iff]
  constructor
  · rintro ⟨files, hfiles, hput⟩
    cases hdigests : Store.digests w.read (paths.map (Path.absolute w.cwd)) with
    | error e =>
      rw [hdigests] at hfiles
      cases hfiles
    | ok files' =>
      rw [hdigests] at hfiles
      cases hfiles
      obtain ⟨hsees, rfl⟩ := Store.digests_eq_ok_iff.mp hdigests
      rw [if_neg (by simp [hopen])] at hput
      cases value with
      | none => cases hput
      | some v =>
        cases hput
        exact ⟨by simpa using hsees, v, rfl, by rw [add, htaken]; rfl⟩
  · rintro ⟨hsees, v, rfl, rfl⟩
    have hdigests := Store.digests_eq_ok_iff.mpr
      ⟨by simpa using hsees, (htaken v : (Record.taken w v paths).digests = _)⟩
    refine ⟨_, by rw [hdigests]; rfl, ?_⟩
    rw [if_neg (by simp [hopen])]
    rfl

end Cache

end Stencil
