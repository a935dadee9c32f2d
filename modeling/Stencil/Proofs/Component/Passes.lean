import Mathlib.Data.List.Nodup
import Stencil.Component.Card
import Stencil.Proofs.Component.Forcing

namespace Stencil

namespace Deferred

variable {V α : Type}

def Original (c : CellId) (t : Transformation V) : Prop :=
  t.origin = c

structure Given (given : List (Transformation V)) (m : Machine V) : Prop where
  distinct : (given.map (·.origin)).Nodup
  older {t : Transformation V} : t ∈ given → t.origin < m.cells.length
  listed {c : CellId} {t : Transformation V} {previous : Option CellId} {kept : Option V} :
    m.cells[c]? = some (.pending t previous kept) → t ∈ given

theorem Given.eq_of_origin {given : List (Transformation V)} {m : Machine V} (h : Given given m)
    {t u : Transformation V} (ht : t ∈ given) (hu : u ∈ given) (horigin : t.origin = u.origin) :
    t = u :=
  List.inj_on_of_nodup_map h.distinct ht hu horigin

theorem Grows.length_le {own : CellId → Transformation V → Prop} {m m' : Machine V}
    (h : Grows own m m') : m.cells.length ≤ m'.cells.length := by
  cases hlength : m.cells.length with
  | zero => exact Nat.zero_le _
  | succ k =>
    have hk : k < m.cells.length := by omega
    obtain ⟨cell, hcell, -⟩ := h.old (List.getElem?_eq_getElem hk)
    exact (List.getElem?_eq_some_iff.mp hcell).1

theorem Given.push {given : List (Transformation V)} {m : Machine V} (h : Given given m)
    {cell : Cell V} (hcell : ∀ t previous kept, cell = .pending t previous kept → t ∈ given) :
    Given given (m.push cell) := by
  refine ⟨h.distinct, fun ht => ?_, fun hc => ?_⟩
  · rw [Machine.push_cells, List.length_append]
    exact Nat.lt_add_right _ (h.older ht)
  · obtain hc | ⟨-, hnew⟩ := Machine.of_push_cells hc
    · exact h.listed hc
    · exact hcell _ _ _ hnew.symm

theorem Given.grows {given : List (Transformation V)} {m m' : Machine V} (h : Given given m)
    (hm : Grows (fun _ _ => True) m m') : Given given m' := by
  refine ⟨h.distinct, fun ht => Nat.lt_of_lt_of_le (h.older ht) hm.length_le, fun hc => ?_⟩
  obtain ⟨kept, hc₀, -⟩ := hm.of_pending hc trivial
  exact h.listed hc₀

/-- The cells from `n` on are copies in chains, no two of one update. Those of a hole are copies of
cells below its limit. -/
structure Copied (n : Nat) (m : Machine V) (limit : Text → Nat) : Prop where
  base : n ≤ m.cells.length
  linked {c : CellId} {t : Transformation V} {previous : Option CellId} {kept : Option V} :
    m.cells[c]? = some (.pending t previous kept) → n ≤ c →
      Holds (fun c _ => n ≤ c) m t.hole previous ∧ height m previous ≤ c
  apart {c d : CellId} {t u : Transformation V} {previous previous' : Option CellId}
    {kept kept' : Option V} : n ≤ c → n ≤ d → m.cells[c]? = some (.pending t previous kept) →
      m.cells[d]? = some (.pending u previous' kept') → t.origin = u.origin → c = d
  low {c : CellId} {t : Transformation V} {previous : Option CellId} {kept : Option V} :
    m.cells[c]? = some (.pending t previous kept) → n ≤ c → t.origin < limit t.hole

theorem Copied.start (m : Machine V) : Copied m.cells.length m fun _ => 0 := by
  have hnone : ∀ {c : CellId} {cell : Cell V}, m.cells[c]? = some cell → ¬ m.cells.length ≤ c :=
    fun hc => Nat.not_le.mpr (List.getElem?_eq_some_iff.mp hc).1
  exact ⟨Nat.le_refl _, fun hc hn => absurd hn (hnone hc), fun hn _ hc => absurd hn (hnone hc),
    fun hc hn => absurd hn (hnone hc)⟩

theorem Copied.push {n : Nat} {m : Machine V} {limit limit' : Text → Nat} {t : Transformation V}
    {previous : Option CellId} (h : Copied n m limit)
    (hprevious : Holds (fun c _ => n ≤ c) m t.hole previous)
    (hother : ∀ {c u previous' kept}, m.cells[c]? = some (.pending u previous' kept) → n ≤ c →
      u.origin ≠ t.origin)
    (hlimit : ∀ hole, limit hole ≤ limit' hole) (ht : t.origin < limit' t.hole) :
    Copied n (m.push (.pending t previous none)) limit' := by
  have hgrows : Grows (fun _ _ => False) m (m.push (.pending t previous none)) :=
    .push m fun _ _ _ _ => id
  constructor
  case base =>
    rw [Machine.push_cells, List.length_append]
    exact Nat.le_add_right_of_le h.base
  case linked =>
    intro c u previous' kept hc hn
    obtain hc | ⟨rfl, hnew⟩ := Machine.of_push_cells hc
    · obtain ⟨hheld, hheight⟩ := h.linked hc hn
      exact ⟨hheld.grows hgrows, (hheld.height_grows hgrows).symm ▸ hheight⟩
    · cases hnew
      exact ⟨hprevious.grows hgrows,
        (hprevious.height_grows hgrows).symm ▸ height_le_length m previous⟩
  case apart =>
    intro c d u w previous' previous'' kept kept' hnc hnd hc hd horigin
    obtain hc | ⟨rfl, hnew⟩ := Machine.of_push_cells hc
    · obtain hd | ⟨rfl, hnew⟩ := Machine.of_push_cells hd
      · exact h.apart hnc hnd hc hd horigin
      · cases hnew
        exact absurd horigin (hother hc hnc)
    · cases hnew
      obtain hd | ⟨rfl, -⟩ := Machine.of_push_cells hd
      · exact absurd horigin.symm (hother hd hnd)
      · rfl
  case low =>
    intro c u previous' kept hc hn
    obtain hc | ⟨rfl, hnew⟩ := Machine.of_push_cells hc
    · exact Nat.lt_of_lt_of_le (h.low hc hn) (hlimit u.hole)
    · cases hnew
      exact ht

structure Copying (given : List (Transformation V)) (n : Nat) (limit : Text → Nat)
    (m m' : Machine V) : Prop where
  started : m'.started = m.started
  grows : Grows Original m m'
  given : Given given m'
  copied : Copied n m' limit

section

variable {fuel : Nat} {m m' : Machine V} {c : CellId}

theorem freshWithin_none : (freshWithin fuel none).run.run m = (.ok none, m) := by
  rw [freshWithin]
  rfl

theorem freshWithin_concrete {v : V} (hc : m.cells[c]? = some (.concrete v)) :
    (freshWithin fuel (some c)).run.run m = (.ok (some c), m) := by
  cases fuel with
  | zero => rfl
  | succ fuel =>
    rw [freshWithin]
    exact (bind_run_ok (cell?_run hc)).trans rfl

theorem freshWithin_pending {t : Transformation V} {previous copy : Option CellId}
    {kept : Option V} (hc : m.cells[c]? = some (.pending t previous kept))
    (hprevious : (freshWithin fuel previous).run.run m = (.ok copy, m')) :
    (freshWithin (fuel + 1) (some c)).run.run m =
      (.ok (some m'.cells.length), m'.push (.pending t copy none)) := by
  rw [freshWithin]
  refine (bind_run_ok (cell?_run hc)).trans ?_
  exact (bind_run_ok hprevious).trans rfl

end

theorem freshWithin_copies {given : List (Transformation V)} {n : Nat} {m : Machine V} {f : Frame}
    {limit : Text → Nat} {hole : Text} (hgiven : Given given m) (hwoven : Woven Original m f)
    (hcopied : Copied n m limit) (hlimit : limit hole = 0) {fuel : Nat} {c : Option CellId}
    (hc : Holds Original m hole c) (hfuel : height m c ≤ fuel) :
    ∃ copy m', (freshWithin fuel c).run.run m = (.ok copy, m') ∧ Copies c m copy m' ∧
      Holds (fun c _ => n ≤ c) m' hole copy ∧
      Copying given n (fun other => if other = hole then height m c else limit other) m m' := by
  have hsame : ∀ {c}, height m c = 0 →
      Copying given n (fun other => if other = hole then height m c else limit other) m m := by
    intro c hzero
    have hlimits : (fun other => if other = hole then height m c else limit other) = limit := by
      funext other
      split
      next heq => rw [heq, hlimit, hzero]
      · rfl
    rw [hlimits]
    exact ⟨rfl, .refl _ m, hgiven, hcopied⟩
  -- Down the chain, from each original to what it replaces.
  induction hk : height m c using Nat.strongRecOn generalizing c fuel with
  | _ k ih =>
    subst hk
    cases hc with
    | none => exact ⟨none, m, freshWithin_none, .none, .none, hsame rfl⟩
    | concrete hc =>
      exact ⟨_, m, freshWithin_concrete hc, .concrete hc, .concrete hc, hsame (height_concrete hc)⟩
    | @pending c t previous kept hc hown hhole =>
      obtain ⟨hprevious, hheight⟩ := hwoven.linked hc hown
      rw [hhole] at hprevious
      rw [height_pending hc] at hfuel ih ⊢
      cases fuel with
      | zero => exact absurd hfuel (Nat.not_succ_le_zero c)
      | succ fuel =>
        obtain ⟨copy, m₁, hrun, hcopies, hheld, hcopying⟩ :=
          ih (height m previous) (Nat.lt_succ_of_le hheight) hprevious
            (Nat.le_trans hheight (Nat.le_of_succ_le_succ hfuel)) rfl
        have ht : t ∈ given := hgiven.listed hc
        have hother : ∀ {d u previous' kept'},
            m₁.cells[d]? = some (.pending u previous' kept') → n ≤ d → u.origin ≠ t.origin := by
          intro d u previous' kept' hd hn horigin
          -- A copy of `t` itself would be of this hole, and those come from cells below `c`.
          have hu : u = t := hgiven.eq_of_origin (hcopying.given.listed hd) ht horigin
          have hlow := hcopying.copied.low hd hn
          rw [if_pos (by rw [hu, hhole]), horigin, hown] at hlow
          exact Nat.not_lt.mpr hheight hlow
        refine ⟨some m₁.cells.length, m₁.push (.pending t copy none),
          freshWithin_pending hc hrun, .pending hc hcopies,
          .pending (Machine.push_cells_new m₁ _) hcopying.copied.base hhole, ?_⟩
        refine ⟨hcopying.started, hcopying.grows.trans (.push m₁ ?_), hcopying.given.push ?_,
          hcopying.copied.push (hhole ▸ hheld) hother ?_ ?_⟩
        · rintro u previous' kept' hnew
          cases hnew
          exact Nat.ne_of_lt (hcopying.given.older ht)
        · rintro u previous' kept' hnew
          cases hnew
          exact ht
        · intro other
          split
          · exact Nat.le_succ_of_le hheight
          · exact Nat.le_refl _
        · rw [if_pos hhole, hown]
          exact Nat.lt_succ_self c

theorem height_le_succ (m : Machine V) (c : CellId) : height m (some c) ≤ c + 1 := by
  unfold height
  split
  · exact Nat.le_refl _
  · exact Nat.zero_le _

theorem Copies.isSome {m m' : Machine V} {c : CellId} {copy : Option CellId}
    (h : Copies (some c) m copy m') : ∃ d, copy = some d := by
  cases h with
  | concrete => exact ⟨_, rfl⟩
  | pending => exact ⟨_, rfl⟩

theorem fresh_copiesAll {given : List (Transformation V)} {n : Nat} {m : Machine V} {f : Frame}
    {limit : Text → Nat} (hgiven : Given given m) (hwoven : Woven Original m f)
    (hcopied : Copied n m limit) {holes : List (Text × CellId)}
    (hkeys : (holes.map Prod.fst).Nodup) (hlimit : ∀ hole ∈ holes.map Prod.fst, limit hole = 0)
    (hheld : ∀ entry ∈ holes, Holds Original m entry.1 (some entry.2)) :
    ∃ copies m' limit',
      (holes.mapM (m := Run V) fun entry => do
        return (entry.1, (← fresh (some entry.2)).getD entry.2)).run.run m = (.ok copies, m') ∧
      CopiesAll holes m copies m' ∧ Copying given n limit' m m' ∧
      ∀ hole, Holds (fun c _ => n ≤ c) m' hole (copies.lookup hole) := by
  induction holes generalizing m limit with
  | nil => exact ⟨[], m, limit, rfl, .nil, ⟨rfl, .refl _ m, hgiven, hcopied⟩, fun _ => .none⟩
  | cons entry holes ih =>
    obtain ⟨hole, c⟩ := entry
    rw [List.map_cons, List.nodup_cons] at hkeys
    have hc : Holds Original m hole (some c) := hheld (hole, c) (by simp)
    obtain ⟨copy, m₁, hrun, hcopies, hcopy, hcopying⟩ :=
      freshWithin_copies hgiven hwoven hcopied (hlimit hole (by simp)) hc
        (height_le_succ m c)
    obtain ⟨copy, rfl⟩ := hcopies.isSome
    obtain ⟨copies, m', limit', hruns, hcopiesAll, hcopyingAll, hcopiesHeld⟩ :=
      ih hcopying.given (hwoven.grows hcopying.grows) hcopying.copied hkeys.2
        (fun other hother => by
          have hne : other ≠ hole := fun heq => hkeys.1 (heq ▸ hother)
          rw [if_neg hne]
          exact hlimit other (by simp [hother]))
        (fun entry hentry => (hheld entry (by simp [hentry])).grows hcopying.grows)
    refine ⟨(hole, copy) :: copies, m', limit', ?_, .cons hcopies hcopiesAll, ?_, fun other => ?_⟩
    · rw [List.mapM_cons]
      have hfirst :
          (do return (hole, (← fresh (some c)).getD c) : Run V (Text × CellId)).run.run m =
            (.ok (hole, copy), m₁) := bind_run_ok hrun
      refine (bind_run_ok hfirst).trans ?_
      exact (bind_run_ok hruns).trans rfl
    · exact ⟨hcopyingAll.started.trans hcopying.started, hcopying.grows.trans hcopyingAll.grows,
        hcopyingAll.given, hcopyingAll.copied⟩
    · rw [Text.lookup_cons_ite]
      split
      next heq => exact heq ▸ hcopy.grows hcopyingAll.grows
      · exact hcopiesHeld other

structure Outside (given : List (Transformation V)) (m : Machine V) (f : Frame) : Prop
    extends Woven Original m f, Given given m where
  keys : (f.holes.map Prod.fst).Nodup
  outside : f.inPass = false

theorem pass_copies {given : List (Transformation V)} {m : Machine V} {f : Frame}
    (hout : Outside given m f) :
    ∃ inside m', (pass f).run.run m = (.ok inside, m') ∧ passes f m (.ok inside) m' ∧
      m'.started = m.started ∧ Inside m.cells.length m' inside ∧ Outside given m' f := by
  have hheld : ∀ entry ∈ f.holes, Holds Original m entry.1 (some entry.2) := by
    intro entry hentry
    have hfind := hout.held entry.1
    rwa [Frame.find?, Text.lookup_of_mem hout.keys hentry] at hfind
  obtain ⟨copies, m', limit, hrun, hcopies, hcopying, hcopiesHeld⟩ :=
    fresh_copiesAll hout.toGiven hout.toWoven (.start m) hout.keys (fun _ _ => rfl) hheld
  refine ⟨⟨copies, true⟩, m', (bind_run_ok hrun).trans rfl, ⟨copies, rfl, hcopies⟩,
    hcopying.started, ?_, ?_⟩
  · exact ⟨⟨hcopiesHeld, hcopying.copied.linked⟩, hcopying.copied.apart⟩
  · exact ⟨hout.toWoven.grows hcopying.grows, hcopying.given, hout.keys, hout.outside⟩

def RunsOnce (given : List (Transformation V)) (m m' : Machine V) : Prop :=
  ∃ ran, m'.started = m.started ++ ran ∧ ran.Nodup ∧
    ∀ key ∈ ran, ∃ t ∈ given, key = (t.hole, t.origin)

theorem pass_bind {given : List (Transformation V)} {m : Machine V} {f : Frame}
    (hout : Outside given m f) {x : Frame → Run V α} {y : Frame → Behavior V α}
    (hx : ∀ {n m inside}, Inside n m inside → Meets n inside m (x inside) (y inside)) :
    ∃ r m', (pass f >>= x).run.run m = (r, m') ∧ (passes f >>= y) m r m' ∧
      Outside given m' f ∧ RunsOnce given m m' := by
  obtain ⟨inside, m₁, hpass, hpasses, hstarted, hin, hout₁⟩ := pass_copies hout
  obtain ⟨r, m', ran, hrun, hy, hran⟩ := hx hin
  refine ⟨r, m', (bind_run_ok hpass).trans hrun, .inl ⟨inside, m₁, hpasses, hy⟩, ?_, ran,
    ?_, ?_, ?_⟩
  · exact ⟨hout₁.toWoven.grows (hran.grows.weaken fun _ _ _ => trivial),
      hout₁.toGiven.grows hran.grows, hout₁.keys, hout₁.outside⟩
  · rw [hran.started, hstarted]
  · exact .of_map Prod.snd hran.once
  · intro key hkey
    obtain ⟨c, t, previous, hfired⟩ := hran.fired key hkey
    exact ⟨t, hout₁.listed hfired.waited, hfired.named⟩

theorem keys_bind {f : Frame} (hkeys : (f.holes.map Prod.fst).Nodup) (hole : Text) (c : CellId) :
    ((f.bind hole (some c)).holes.map Prod.fst).Nodup := by
  simp only [Frame.bind, List.map_cons, List.nodup_cons]
  refine ⟨by simp, ?_⟩
  exact hkeys.sublist (List.filter_sublist.map Prod.fst)

theorem Outside.empty : Outside [] ({} : Machine V) {} := by
  have hnone : ∀ {c : CellId} {cell : Cell V}, ({} : Machine V).cells[c]? ≠ some cell := by simp
  exact ⟨⟨fun _ => .none, fun hc => absurd hc hnone⟩,
    ⟨List.nodup_nil, fun ht => absurd ht List.not_mem_nil, fun hc => absurd hc hnone⟩,
    List.nodup_nil, rfl⟩

theorem Outside.set {given : List (Transformation V)} {m : Machine V} {f : Frame}
    (h : Outside given m f) (hole : Text) (v : V) :
    Outside given (m.push (.concrete v)) (f.bind hole (some m.cells.length)) := by
  refine ⟨?_, ?_, keys_bind h.keys hole _, h.outside⟩
  · exact (h.toWoven.grows (.push_concrete m v)).bind (.concrete (Machine.push_cells_new m _))
  · exact h.toGiven.push fun _ _ _ hnew => absurd hnew (by simp)

theorem Outside.update {given : List (Transformation V)} {m : Machine V} {f : Frame}
    (h : Outside given m f) (hole : Text) (p : Program V) :
    Outside (given ++ [⟨p, hole, m.cells.length⟩])
      (m.push (.pending ⟨p, hole, m.cells.length⟩ (f.find? hole) none))
      (f.bind hole (some m.cells.length)) := by
  have hgrows : Grows (fun _ _ => False) m
      (m.push (.pending ⟨p, hole, m.cells.length⟩ (f.find? hole) none)) := .push m fun _ _ _ _ => id
  have hnew := Machine.push_cells_new m (.pending ⟨p, hole, m.cells.length⟩ (f.find? hole) none)
  have hwoven : Woven Original
      (m.push (.pending ⟨p, hole, m.cells.length⟩ (f.find? hole) none)) f := by
    refine ⟨fun other => (h.held other).grows hgrows, fun hc hown => ?_⟩
    obtain hc | ⟨rfl, hcell⟩ := Machine.of_push_cells hc
    · obtain ⟨hheld, hheight⟩ := h.linked hc hown
      exact ⟨hheld.grows hgrows, (hheld.height_grows hgrows).symm ▸ hheight⟩
    · cases hcell
      exact ⟨(h.held hole).grows hgrows,
        ((h.held hole).height_grows hgrows).symm ▸ height_le_length m _⟩
  refine ⟨hwoven.bind (.pending hnew rfl rfl), ⟨?_, ?_, ?_⟩, keys_bind h.keys hole _, h.outside⟩
  · rw [List.map_append, List.nodup_append]
    refine ⟨h.distinct, by simp, ?_⟩
    rintro o ho o' ho' rfl
    obtain ⟨t, ht, rfl⟩ := List.mem_map.mp ho
    exact absurd (List.mem_singleton.mp ho') (Nat.ne_of_lt (h.older ht))
  · intro t ht
    rw [Machine.push_cells, List.length_append]
    rcases List.mem_append.mp ht with ht | ht
    · exact Nat.lt_add_right _ (h.older ht)
    · rw [List.mem_singleton.mp ht]
      exact Nat.lt_succ_self _
  · intro c t previous kept hc
    obtain hc | ⟨-, hcell⟩ := Machine.of_push_cells hc
    · exact List.mem_append_left _ (h.listed hc)
    · cases hcell
      exact List.mem_append_right _ (List.mem_singleton_self _)

theorem Outside.runProgram {given : List (Transformation V)} {m : Machine V} {f : Frame}
    {read : Frame → Text → Run V V} (h : Outside given m f)
    (hread : ∀ {m f}, Outside given m f → ∀ hole r m', (read f hole).run.run m = (r, m') →
      Outside given m' f)
    (p : Program V) {r : Except Text V} {f' : Frame} {m' : Machine V}
    (hrun : (Deferred.runProgram read f p).run m = ((r, f'), m')) : Outside given m' f' := by
  induction p generalizing m f with
  | value v =>
    cases hrun
    exact h
  | panic message =>
    cases hrun
    exact h
  | get hole next ih =>
    rw [Deferred.runProgram, StateT.run_bind] at hrun
    rcases hs : (read f hole).run.run m with ⟨s, m₁⟩
    rw [hs] at hrun
    have h₁ := hread h hole s m₁ hs
    cases s with
    | error message =>
      cases hrun
      exact h₁
    | ok v => exact ih v h₁ hrun
  | set hole v next ih => exact ih (h.set hole v) hrun

end Deferred

open Deferred

namespace Blueprint

variable {given : List (Transformation Value)} {m : Machine Value} {f : Frame}

theorem read_meets (b : Blueprint) (hout : Outside given m f) (hole : Text) :
    ∃ r m', (b.read f hole).run.run m = (r, m') ∧ b.gets f hole m r m' ∧
      Outside given m' f ∧ RunsOnce given m m' := by
  unfold read gets
  rw [hout.outside]
  exact pass_bind hout fun hin => Deferred.read_meets b.zero hin hole

theorem value_meets (b : Blueprint) {n : Nat} (hin : Inside n m f) (e : Expr) :
    Meets n f m (e.value (Deferred.read b.zero f) {}) (e.value (m := Behavior Value)
      (Forces b.zero f) {}) := by
  have hR : Expr.Compatible fun α (x : Run Value α) (y : Behavior Value α) =>
      ∀ m, Inside n m f → Meets n f m x y :=
    ⟨fun a m _ => .pure n f m a,
      fun hx hg m hin => .bind hin (hx m hin) fun a m₁ hm => hg a m₁ (hin.grows hm)⟩
  exact Expr.value_related hR _ _ (fun hole m hin => Deferred.read_meets b.zero hin hole) {} e m hin

theorem render_meets (b : Blueprint) (hout : Outside given m f) :
    ∃ r m', (b.render f).run.run m = (r, m') ∧ b.renders f m r m' ∧
      Outside given m' f ∧ RunsOnce given m m' :=
  pass_bind hout fun hin =>
    .bind hin (b.value_meets hin b.body) fun v m₁ _ => .pure _ _ m₁ v.asNodes

theorem construct_outside (b : Blueprint) {m' : Machine Value}
    (h : b.construct.run {} = (f, m')) : Outside [] m' f := by
  have hfold : ∀ (entries : List (Text × HoleType)) {m : Machine Value} {g : Frame},
      Outside [] m g → (entries.foldlM (m := StateM (Machine Value)) (fun f entry => do
        let c ← alloc (.concrete (Value.zero entry.2))
        return f.bind entry.1 (some c)) g).run m = (f, m') → Outside [] m' f := by
    intro entries
    induction entries with
    | nil =>
      intro m g hout hrun
      cases hrun
      exact hout
    | cons entry entries ih =>
      intro m g hout hrun
      rw [List.foldlM_cons] at hrun
      exact ih (hout.set entry.1 (Value.zero entry.2)) hrun
  exact hfold b.symbols.entries .empty h

theorem setTo_outside (b : Blueprint) (hout : Outside given m f) (hole : Text) (p : Program Value)
    {r : Except Text PUnit} {f' : Frame} {m' : Machine Value}
    (h : (b.setTo f hole p).run m = ((r, f'), m')) : Outside given m' f' := by
  unfold setTo at h
  rw [StateT.run_bind] at h
  rcases hp : (runProgram b.read f p).run m with ⟨⟨s, f₁⟩, m₁⟩
  rw [hp] at h
  have hout₁ : Outside given m₁ f₁ := by
    refine hout.runProgram (fun {m f} hout hole r m' hrun => ?_) p hp
    obtain ⟨r', m'', hrun', -, hout', -⟩ := b.read_meets hout hole
    cases hrun.symm.trans hrun'
    exact hout'
  cases s with
  | error message =>
    cases h
    exact hout₁
  | ok v =>
    cases h
    exact hout₁.set hole v

end Blueprint

namespace Instance

inductive Reached (b : Blueprint) : List (Transformation Value) → Instance → Prop where
  | new : Reached b [] (Instance.new b)
  | zero : Reached b [] {}
  | update {given i} (hole : Text) (p : Program Value) : Reached b given i →
      Reached b (given ++ [⟨p, hole, i.machine.cells.length⟩]) (i.run b (.update hole p)).2
  | other {given i} (s : InstanceStep) : (∀ hole p, s ≠ .update hole p) → Reached b given i →
      Reached b given (i.run b s).2

theorem Reached.outside {b : Blueprint} {given : List (Transformation Value)} {i : Instance}
    (h : Reached b given i) : Outside given i.machine i.frame := by
  induction h with
  | new => exact b.construct_outside rfl
  | zero => exact .empty
  | update hole p _ ih => exact ih.update hole p
  | @other given i s hs _ ih =>
    cases s with
    | update hole p => exact absurd rfl (hs hole p)
    | copy => exact ih
    | get hole =>
      obtain ⟨r, m', hrun, -, hout, -⟩ := b.read_meets ih hole
      simpa only [run, hrun] using hout
    | render =>
      obtain ⟨r, m', hrun, -, hout, -⟩ := b.render_meets ih
      simpa only [run, hrun] using hout
    | set hole p => exact b.setTo_outside ih hole p rfl

/-- Whatever was set and updated before, a read of a hole and a rendering come to an end, by rules
that count no steps, with one result each; and neither runs an update twice. -/
theorem reads_end_once {b : Blueprint} {given : List (Transformation Value)} {i : Instance}
    (h : Reached b given i) :
    (given.map (·.origin)).Nodup ∧
      (∀ hole, ∃ r m', (b.gets i.frame hole).Only i.machine r m' ∧
        i.run b (.get hole) = (r.map .value, ⟨i.frame, m'⟩) ∧ RunsOnce given i.machine m') ∧
      ∃ r m', (b.renders i.frame).Only i.machine r m' ∧
        i.run b .render = (r.map .nodes, ⟨i.frame, m'⟩) ∧ RunsOnce given i.machine m' := by
  have hout := h.outside
  refine ⟨hout.distinct, fun hole => ?_, ?_⟩
  · obtain ⟨r, m', hrun, hgets, -, honce⟩ := b.read_meets hout hole
    exact ⟨r, m', (b.gets_functional i.frame hole).only hgets, by simp only [run, hrun], honce⟩
  · obtain ⟨r, m', hrun, hrenders, -, honce⟩ := b.render_meets hout
    exact ⟨r, m', (b.renders_functional i.frame).only hrenders, by simp only [run, hrun], honce⟩

theorem reads_end_once_crossed :
    ∃ given i, Reached Card.blueprint given i ∧
      given.map (fun t => (t.hole, t.origin)) = [(utf8 "title", 5), (utf8 "label", 6)] ∧
      (i.run Card.blueprint .render).2.machine.started = [(utf8 "title", 5), (utf8 "label", 6)] ∧
      RunsOnce given i.machine (i.run Card.blueprint .render).2.machine := by
  have h : Reached Card.blueprint _ _ :=
    .update (utf8 "label")
      (.get (utf8 "title") fun v => .value (.text (if v.asNodes.isEmpty then utf8 "none" else [])))
      (.update (utf8 "title")
        (.get (utf8 "label") fun v => .value (.nodes (Markup.textNodes v.asText))) .new)
  refine ⟨_, _, h, rfl, by decide +kernel, ?_⟩
  obtain ⟨-, -, r, m', -, hrun, honce⟩ := reads_end_once h
  rw [hrun]
  exact honce

end Instance

end Stencil
