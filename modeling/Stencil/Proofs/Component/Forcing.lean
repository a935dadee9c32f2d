import Stencil.Proofs.Component.Rules
import Stencil.Proofs.Text.Order

/-!
Inside a pass. The cells that a pass works on are copies of its own: those from a place `n` on. Each
belongs to one hole and comes after what it replaces, so a transformation that runs is out of reach
of everything it reads, and every read goes down.
-/

namespace Stencil.Deferred

variable {V α β : Type}

theorem Frame.find?_bind (f : Frame) (hole other : Text) (c : Option CellId) :
    (f.bind hole c).find? other = if other = hole then c else f.find? other := by
  cases c with
  | none => exact Text.lookup_filter_ne hole other f.holes
  | some c =>
    refine (Text.lookup_cons_ite hole other c _).trans ?_
    rw [Text.lookup_filter_ne]
    split <;> rfl

namespace Machine

@[simp]
theorem begin_cells (m : Machine V) (t : Transformation V) : (m.begin t).cells = m.cells := rfl

@[simp]
theorem begin_started (m : Machine V) (t : Transformation V) :
    (m.begin t).started = m.started ++ [(t.hole, t.origin)] := rfl

@[simp]
theorem push_cells (m : Machine V) (cell : Cell V) : (m.push cell).cells = m.cells ++ [cell] := rfl

theorem push_cells_old {m : Machine V} {c : CellId} {cell : Cell V} (hc : m.cells[c]? = some cell)
    (new : Cell V) : (m.push new).cells[c]? = some cell := by
  rw [push_cells, List.getElem?_append_left (List.getElem?_eq_some_iff.mp hc).1, hc]

theorem push_cells_new (m : Machine V) (cell : Cell V) :
    (m.push cell).cells[m.cells.length]? = some cell := by
  simp

theorem of_push_cells {m : Machine V} {c : CellId} {new cell : Cell V}
    (hc : (m.push new).cells[c]? = some cell) :
    m.cells[c]? = some cell ∨ c = m.cells.length ∧ cell = new := by
  rw [push_cells, List.getElem?_append] at hc
  split at hc
  · exact .inl hc
  next hle =>
    obtain ⟨hlt, hcell⟩ := List.getElem?_eq_some_iff.mp hc
    refine .inr ⟨Nat.le_antisymm ?_ (Nat.le_of_not_lt hle), by simpa using hcell.symm⟩
    exact Nat.le_of_sub_eq_zero (Nat.lt_one_iff.mp hlt)

@[simp]
theorem push_started (m : Machine V) (cell : Cell V) : (m.push cell).started = m.started := rfl

@[simp]
theorem keep_started (m : Machine V) (c : CellId) (r : Except Text V) :
    (m.keep c r).started = m.started := by
  cases r <;> rfl

theorem keep_cells_self {m : Machine V} {c : CellId} {t : Transformation V}
    {previous : Option CellId} {kept : Option V}
    (hc : m.cells[c]? = some (.pending t previous kept)) (v : V) :
    (m.keep c (.ok v)).cells[c]? = some (.pending t previous (some v)) := by
  simp [keep, hc]

theorem keep_cells_ne {m : Machine V} {c d : CellId} (h : c ≠ d) (r : Except Text V) :
    (m.keep c r).cells[d]? = m.cells[d]? := by
  cases r <;> simp [keep, h]

end Machine

inductive Cell.Settles : Cell V → Cell V → Prop where
  | same (cell : Cell V) : Settles cell cell
  | kept (t : Transformation V) (previous : Option CellId) (v : V) :
      Settles (.pending t previous none) (.pending t previous (some v))

theorem Cell.Settles.trans {a b c : Cell V} (hab : a.Settles b) (hbc : b.Settles c) :
    a.Settles c := by
  cases hab with
  | same => exact hbc
  | kept t previous v => cases hbc; exact .kept t previous v

theorem Cell.Settles.pending_iff {a b : Cell V} (h : a.Settles b) {t : Transformation V}
    {previous : Option CellId} :
    (∃ kept, a = .pending t previous kept) ↔ ∃ kept, b = .pending t previous kept := by
  cases h with
  | same => exact Iff.rfl
  | kept => simp

/-- `m'` has the cells of `m`, some with results, and no new transformation that counts as own. -/
structure Grows (own : CellId → Transformation V → Prop) (m m' : Machine V) : Prop where
  old {c : CellId} {cell : Cell V} : m.cells[c]? = some cell →
    ∃ cell', m'.cells[c]? = some cell' ∧ cell.Settles cell'
  new {c : CellId} {t : Transformation V} {previous : Option CellId} {kept : Option V} :
    m.cells[c]? = none → m'.cells[c]? = some (.pending t previous kept) → ¬ own c t

namespace Grows

variable {own own' : CellId → Transformation V → Prop} {m m₁ m' : Machine V}

theorem refl (own : CellId → Transformation V → Prop) (m : Machine V) : Grows own m m :=
  ⟨fun h => ⟨_, h, .same _⟩, fun h h' => absurd (h.symm.trans h') (by simp)⟩

theorem trans (h : Grows own m m₁) (h' : Grows own m₁ m') : Grows own m m' := by
  constructor
  · intro c cell hc
    obtain ⟨cell₁, hc₁, hs₁⟩ := h.old hc
    obtain ⟨cell', hc', hs'⟩ := h'.old hc₁
    exact ⟨cell', hc', hs₁.trans hs'⟩
  · intro c t previous kept hc hc'
    cases hc₁ : m₁.cells[c]? with
    | none => exact h'.new hc₁ hc'
    | some cell₁ =>
      obtain ⟨cell', hcell', hs⟩ := h'.old hc₁
      cases hc'.symm.trans hcell'
      obtain ⟨kept₁, rfl⟩ := hs.pending_iff.mpr ⟨kept, rfl⟩
      exact h.new hc hc₁

theorem weaken (h : Grows own m m') (hown : ∀ c t, own' c t → own c t) : Grows own' m m' :=
  ⟨h.old, fun hc hc' ho => h.new hc hc' (hown _ _ ho)⟩

theorem concrete (h : Grows own m m') {c : CellId} {v : V}
    (hc : m.cells[c]? = some (.concrete v)) : m'.cells[c]? = some (.concrete v) := by
  obtain ⟨cell, hc', hs⟩ := h.old hc
  cases hs
  exact hc'

theorem pending (h : Grows own m m') {c : CellId} {t : Transformation V}
    {previous : Option CellId} {kept : Option V}
    (hc : m.cells[c]? = some (.pending t previous kept)) :
    ∃ kept', m'.cells[c]? = some (.pending t previous kept') := by
  obtain ⟨cell, hc', hs⟩ := h.old hc
  obtain ⟨kept', rfl⟩ := hs.pending_iff.mp ⟨kept, rfl⟩
  exact ⟨kept', hc'⟩

theorem of_pending (h : Grows own m m') {c : CellId} {t : Transformation V}
    {previous : Option CellId} {kept : Option V}
    (hc : m'.cells[c]? = some (.pending t previous kept)) (hown : own c t) :
    ∃ kept₀, m.cells[c]? = some (.pending t previous kept₀) ∧ (kept = none → kept₀ = none) := by
  cases hc₀ : m.cells[c]? with
  | none => exact absurd hown (h.new hc₀ hc)
  | some cell =>
    obtain ⟨cell', hc', hs⟩ := h.old hc₀
    cases hc.symm.trans hc'
    cases hs with
    | same => exact ⟨kept, rfl, id⟩
    | kept => exact ⟨none, rfl, fun _ => rfl⟩

theorem begin (m : Machine V) (t : Transformation V) : Grows own m (m.begin t) :=
  ⟨(refl own m).old, (refl own m).new⟩

theorem push (m : Machine V) {cell : Cell V}
    (hcell : ∀ t previous kept, cell = .pending t previous kept → ¬ own m.cells.length t) :
    Grows own m (m.push cell) := by
  refine ⟨fun hc => ⟨_, Machine.push_cells_old hc cell, .same _⟩, fun hc hc' => ?_⟩
  obtain hc₀ | ⟨rfl, hcell'⟩ := Machine.of_push_cells hc'
  · exact absurd (hc.symm.trans hc₀) (by simp)
  · exact hcell _ _ _ hcell'.symm

theorem push_concrete (m : Machine V) (v : V) : Grows own m (m.push (.concrete v)) :=
  push m fun _ _ _ h => absurd h (by simp)

theorem keep (h : Grows own m m') {c : CellId} {t : Transformation V} {previous : Option CellId}
    (hc : m.cells[c]? = some (.pending t previous none)) (r : Except Text V) :
    Grows own m (m'.keep c r) := by
  cases r with
  | error message => exact h
  | ok v =>
    obtain ⟨kept, hc'⟩ := h.pending hc
    constructor
    · intro d cell hd
      by_cases hcd : c = d
      · subst hcd
        cases hc.symm.trans hd
        exact ⟨_, Machine.keep_cells_self hc' v, .kept t previous v⟩
      · rw [Machine.keep_cells_ne hcd]
        exact h.old hd
    · intro d u previous' kept' hd hd'
      by_cases hcd : c = d
      · subst hcd
        exact absurd (hc.symm.trans hd) (by simp)
      · rw [Machine.keep_cells_ne hcd] at hd'
        exact h.new hd hd'

end Grows

def height (m : Machine V) (c : Option CellId) : Nat :=
  match c.bind (m.cells[·]?) with
  | some (.pending _ _ _) => c.getD 0 + 1
  | _ => 0

inductive Holds (own : CellId → Transformation V → Prop) (m : Machine V) (hole : Text) :
    Option CellId → Prop where
  | none : Holds own m hole none
  | concrete {c v} : m.cells[c]? = some (.concrete v) → Holds own m hole (some c)
  | pending {c t previous kept} : m.cells[c]? = some (.pending t previous kept) → own c t →
      t.hole = hole → Holds own m hole (some c)

/-- The own cells fall into chains, one below each hole of the frame. -/
structure Woven (own : CellId → Transformation V → Prop) (m : Machine V) (f : Frame) : Prop where
  held (hole : Text) : Holds own m hole (f.find? hole)
  linked {c : CellId} {t : Transformation V} {previous : Option CellId} {kept : Option V} :
    m.cells[c]? = some (.pending t previous kept) → own c t →
      Holds own m t.hole previous ∧ height m previous ≤ c

section

variable {own own' : CellId → Transformation V → Prop} {m m' : Machine V} {f : Frame} {hole : Text}
  {c : Option CellId}

theorem height_pending {c : CellId} {t : Transformation V} {previous : Option CellId}
    {kept : Option V} (hc : m.cells[c]? = some (.pending t previous kept)) :
    height m (some c) = c + 1 := by
  simp [height, hc]

theorem height_concrete {c : CellId} {v : V} (hc : m.cells[c]? = some (.concrete v)) :
    height m (some c) = 0 := by
  simp [height, hc]

theorem height_le_length (m : Machine V) (c : Option CellId) : height m c ≤ m.cells.length := by
  unfold height
  split
  next t previous kept hc =>
    obtain ⟨d, rfl, hd⟩ := Option.bind_eq_some_iff.mp hc
    exact (List.getElem?_eq_some_iff.mp hd).1
  · exact Nat.zero_le _

theorem height_old (hm : Grows own m m') {c : CellId} {cell : Cell V}
    (hc : m.cells[c]? = some cell) : height m' (some c) = height m (some c) := by
  cases cell with
  | concrete v => rw [height_concrete hc, height_concrete (hm.concrete hc)]
  | pending t previous kept =>
    obtain ⟨kept', hc'⟩ := hm.pending hc
    rw [height_pending hc, height_pending hc']

theorem Holds.grows (h : Holds own m hole c) (hm : Grows own' m m') : Holds own m' hole c := by
  cases h with
  | none => exact .none
  | concrete hc => exact .concrete (hm.concrete hc)
  | pending hc hown hhole =>
    obtain ⟨kept, hc'⟩ := hm.pending hc
    exact .pending hc' hown hhole

theorem Holds.height_grows (h : Holds own m hole c) (hm : Grows own' m m') :
    height m' c = height m c := by
  cases h with
  | none => rfl
  | concrete hc => exact height_old hm hc
  | pending hc => exact height_old hm hc

theorem Woven.grows (h : Woven own m f) (hm : Grows own m m') : Woven own m' f := by
  refine ⟨fun hole => (h.held hole).grows hm, fun hc hown => ?_⟩
  obtain ⟨kept, hc₀, -⟩ := hm.of_pending hc hown
  obtain ⟨hprevious, hheight⟩ := h.linked hc₀ hown
  exact ⟨hprevious.grows hm, (hprevious.height_grows hm).symm ▸ hheight⟩

theorem Woven.bind (h : Woven own m f) (hc : Holds own m hole c) :
    Woven own m (f.bind hole c) := by
  refine ⟨fun other => ?_, h.linked⟩
  rw [Frame.find?_bind]
  split
  next heq => exact heq ▸ hc
  · exact h.held other

end

def depth (m : Machine V) (f : Frame) : Nat :=
  f.holes.foldr (fun entry below => height m (some entry.2) + below) 0

theorem depth_le_bound (m : Machine V) (f : Frame) : depth m f ≤ bound f m := by
  unfold depth bound
  induction f.holes with
  | nil => simp
  | cons entry holes ih =>
    have hheight := height_le_length m (some entry.2)
    rw [List.foldr_cons, List.length_cons, Nat.succ_mul]
    omega

theorem depth_bind_le (m : Machine V) (f : Frame) (hole : Text) (c : Option CellId) :
    depth m (f.bind hole c) + height m (f.find? hole) ≤ depth m f + height m c := by
  have hothers : ∀ holes : List (Text × CellId),
      (holes.filter (·.1 ≠ hole)).foldr (fun entry below => height m (some entry.2) + below) 0 +
          height m (holes.lookup hole) ≤
        holes.foldr (fun entry below => height m (some entry.2) + below) 0 := by
    intro holes
    induction holes with
    | nil => simp [height]
    | cons entry holes ih =>
      obtain ⟨name, d⟩ := entry
      rw [Text.lookup_cons_ite]
      by_cases hname : name = hole
      · rw [List.filter_cons_of_neg (by simpa using hname), if_pos hname.symm]
        simp only [List.foldr_cons]
        omega
      · rw [List.filter_cons_of_pos (by simpa using hname), if_neg (Ne.symm hname)]
        simp only [List.foldr_cons]
        omega
  have h := hothers f.holes
  cases c with
  | none =>
    simp only [depth, Frame.bind, Frame.find?]
    omega
  | some c =>
    simp only [depth, Frame.bind, Frame.find?, List.foldr_cons]
    omega

theorem height_run {m m' : Machine V} (hm : Grows (fun _ _ => True) m m') (c : Option CellId) :
    height m' c = height m c := by
  cases c with
  | none => rfl
  | some c =>
    cases hc : m.cells[c]? with
    | none =>
      have hzero : height m (some c) = 0 := by simp [height, hc]
      rw [hzero]
      cases hc' : m'.cells[c]? with
      | none => simp [height, hc']
      | some cell =>
        cases cell with
        | concrete v => exact height_concrete hc'
        | pending t previous kept => exact absurd trivial (hm.new hc hc')
    | some cell => exact height_old hm hc

theorem depth_run {m m' : Machine V} (hm : Grows (fun _ _ => True) m m') (f : Frame) :
    depth m' f = depth m f := by
  simp only [depth, height_run hm]

structure Inside (n : Nat) (m : Machine V) (f : Frame) : Prop
    extends Woven (fun c _ => n ≤ c) m f where
  apart {c d : CellId} {t u : Transformation V} {previous previous' : Option CellId}
    {kept kept' : Option V} : n ≤ c → n ≤ d → m.cells[c]? = some (.pending t previous kept) →
      m.cells[d]? = some (.pending u previous' kept') → t.origin = u.origin → c = d

theorem Inside.grows {n : Nat} {m m' : Machine V} {f : Frame} (h : Inside n m f)
    (hm : Grows (fun _ _ => True) m m') : Inside n m' f := by
  refine ⟨h.toWoven.grows (hm.weaken fun _ _ _ => trivial), fun hc hd ht hu horigin => ?_⟩
  obtain ⟨_, ht₀, -⟩ := hm.of_pending ht trivial
  obtain ⟨_, hu₀, -⟩ := hm.of_pending hu trivial
  exact h.apart hc hd ht₀ hu₀ horigin

theorem Inside.bind {n : Nat} {m : Machine V} {f : Frame} {hole : Text} {c : Option CellId}
    (h : Inside n m f) (hc : Holds (fun c _ => n ≤ c) m hole c) : Inside n m (f.bind hole c) :=
  ⟨h.toWoven.bind hc, h.apart⟩

theorem Inside.of_pending {n : Nat} {m : Machine V} {f : Frame} {hole : Text} {c : CellId}
    {t : Transformation V} {previous : Option CellId} {kept : Option V} (h : Inside n m f)
    (hf : f.find? hole = some c) (hc : m.cells[c]? = some (.pending t previous kept)) :
    n ≤ c ∧ t.hole = hole ∧ height m previous ≤ c := by
  have hheld := h.held hole
  rw [hf] at hheld
  cases hheld with
  | concrete hc' => exact absurd (hc.symm.trans hc') (by simp)
  | pending hc' hown hhole =>
    cases hc.symm.trans hc'
    exact ⟨hown, hhole, (h.linked hc hown).2⟩

/-- A run from the frame `f` started the update `key`: it waited below `f`, and it has a result
now unless the run broke off. -/
structure Fired (n : Nat) (f : Frame) (m : Machine V) (r : Except Text α) (m' : Machine V)
    (key : Text × CellId) (c : CellId) (t : Transformation V) (previous : Option CellId) :
    Prop where
  own : n ≤ c
  waited : m.cells[c]? = some (.pending t previous none)
  named : key = (t.hole, t.origin)
  below : c < height m (f.find? t.hole)
  kept : r.isOk = true → ∃ v, m'.cells[c]? = some (.pending t previous (some v))

theorem Fired.before {n : Nat} {f g : Frame} {m m₁ m' : Machine V} {r : Except Text α}
    {key : Text × CellId} {c : CellId} {t : Transformation V} {previous : Option CellId}
    (h : Fired n g m₁ r m' key c t previous) (hm : Grows (fun _ _ => True) m m₁)
    (hle : height m (g.find? t.hole) ≤ height m (f.find? t.hole)) :
    Fired n f m r m' key c t previous := by
  obtain ⟨kept, hc, hnone⟩ := hm.of_pending h.waited trivial
  cases hnone rfl
  refine ⟨h.own, hc, h.named, ?_, h.kept⟩
  have hbelow := h.below
  rw [height_run hm] at hbelow
  exact Nat.lt_of_lt_of_le hbelow hle

theorem Fired.out_of_reach {n : Nat} {f : Frame} {m m' : Machine V} {r : Except Text α}
    {hole : Text} {c d : CellId} {t u : Transformation V} {previous previous' : Option CellId}
    {key : Text × CellId} (hin : Inside n m f) (hf : f.find? hole = some c)
    (hc : m.cells[c]? = some (.pending t previous none))
    (h : Fired n (f.bind hole previous) (m.begin t) r m' key d u previous') :
    d ≠ c ∧ d < height m (f.find? u.hole) := by
  obtain ⟨-, hhole, hprevious⟩ := hin.of_pending hf hc
  have hbelow : d < height m ((f.bind hole previous).find? u.hole) := h.below
  rw [Frame.find?_bind] at hbelow
  -- The hole of `c` holds what `c` replaces, which lies below; other holes hold no cell of it.
  split at hbelow
  next hu =>
    have hdc := Nat.lt_of_lt_of_le hbelow hprevious
    rw [hu, hf, height_pending hc]
    exact ⟨Nat.ne_of_lt hdc, Nat.lt_succ_of_lt hdc⟩
  next hu =>
    refine ⟨?_, hbelow⟩
    rintro rfl
    cases hc.symm.trans h.waited
    exact hu hhole

structure Advances (n : Nat) (f : Frame) (m : Machine V) (r : Except Text α) (m' : Machine V)
    (ran : List (Text × CellId)) : Prop where
  grows : Grows (fun _ _ => True) m m'
  started : m'.started = m.started ++ ran
  once : (ran.map Prod.snd).Nodup
  fired : ∀ key ∈ ran, ∃ c t previous, Fired n f m r m' key c t previous

namespace Advances

variable {n : Nat} {f : Frame} {m m₁ m' : Machine V}

theorem refl (n : Nat) (f : Frame) (m : Machine V) (r : Except Text α) : Advances n f m r m [] :=
  ⟨.refl _ m, by simp, by simp, by simp⟩

theorem trans {a : α} {r : Except Text β} {ran ran' : List (Text × CellId)} (hin : Inside n m f)
    (h : Advances n f m (.ok a) m₁ ran) (h' : Advances n f m₁ r m' ran') :
    Advances n f m r m' (ran ++ ran') := by
  refine ⟨h.grows.trans h'.grows, by rw [h'.started, h.started, List.append_assoc], ?_, ?_⟩
  · rw [List.map_append, List.nodup_append]
    refine ⟨h.once, h'.once, ?_⟩
    rintro o ho o' ho' rfl
    obtain ⟨key, hkey, rfl⟩ := List.mem_map.mp ho
    obtain ⟨key', hkey', horigin⟩ := List.mem_map.mp ho'
    obtain ⟨c, t, previous, hfired⟩ := h.fired key hkey
    obtain ⟨d, u, previous', hfired'⟩ := h'.fired key' hkey'
    obtain ⟨v, hv⟩ := hfired.kept rfl
    -- One update has one copy; the first run left a result in it, the second found none.
    have hcd : c = d := (hin.grows h.grows).apart hfired.own hfired'.own hv hfired'.waited
      (by rw [hfired.named, hfired'.named] at horigin; exact horigin.symm)
    subst hcd
    exact absurd (hv.symm.trans hfired'.waited) (by simp)
  · intro key hkey
    rcases List.mem_append.mp hkey with hkey | hkey
    · obtain ⟨c, t, previous, hfired⟩ := h.fired key hkey
      refine ⟨c, t, previous, hfired.own, hfired.waited, hfired.named, hfired.below, fun _ => ?_⟩
      obtain ⟨v, hv⟩ := hfired.kept rfl
      obtain ⟨cell, hc, hsettles⟩ := h'.grows.old hv
      cases hsettles
      exact ⟨v, hc⟩
    · obtain ⟨c, t, previous, hfired⟩ := h'.fired key hkey
      exact ⟨c, t, previous, hfired.before h.grows (Nat.le_refl _)⟩

theorem moved {g : Frame} {r : Except Text α} {ran : List (Text × CellId)}
    (h : Advances n g m₁ r m' ran) (hm : Grows (fun _ _ => True) m m₁)
    (hstarted : m₁.started = m.started)
    (hle : ∀ hole, height m (g.find? hole) ≤ height m (f.find? hole)) :
    Advances n f m r m' ran := by
  refine ⟨hm.trans h.grows, by rw [h.started, hstarted], h.once, fun key hkey => ?_⟩
  obtain ⟨c, t, previous, hfired⟩ := h.fired key hkey
  exact ⟨c, t, previous, hfired.before hm (hle t.hole)⟩

theorem ran {hole : Text} {c : CellId} {t : Transformation V} {previous : Option CellId}
    {r : Except Text V} {ran : List (Text × CellId)} (hin : Inside n m f)
    (hf : f.find? hole = some c) (hc : m.cells[c]? = some (.pending t previous none))
    (h : Advances n (f.bind hole previous) (m.begin t) r m₁ ran) :
    Advances n f m r (m₁.keep c r) ((t.hole, t.origin) :: ran) := by
  obtain ⟨hown, hhole, -⟩ := hin.of_pending hf hc
  have hgrows : Grows (fun _ _ => True) m m₁ := (Grows.begin m t).trans h.grows
  refine ⟨hgrows.keep hc r, by simp [h.started], ?_, ?_⟩
  · rw [List.map_cons, List.nodup_cons]
    refine ⟨?_, h.once⟩
    intro ho
    obtain ⟨key, hkey, horigin⟩ := List.mem_map.mp ho
    obtain ⟨d, u, previous', hfired⟩ := h.fired key hkey
    refine (hfired.out_of_reach hin hf hc).1 (hin.apart hfired.own hown hfired.waited hc ?_)
    rw [hfired.named] at horigin
    exact horigin
  · intro key hkey
    rcases List.mem_cons.mp hkey with rfl | hkey
    · refine ⟨c, t, previous, hown, hc, rfl, ?_, fun hr => ?_⟩
      · rw [hhole, hf, height_pending hc]
        exact Nat.lt_succ_self c
      · cases r with
        | error message => exact absurd hr (by simp [Except.isOk, Except.toBool])
        | ok v =>
          obtain ⟨kept, hc'⟩ := hgrows.pending hc
          exact ⟨v, Machine.keep_cells_self hc' v⟩
    · obtain ⟨d, u, previous', hfired⟩ := h.fired key hkey
      obtain ⟨hdc, hbelow⟩ := hfired.out_of_reach hin hf hc
      refine ⟨d, u, previous', hfired.own, hfired.waited, hfired.named, hbelow, fun hr => ?_⟩
      rw [Machine.keep_cells_ne hdc.symm]
      exact hfired.kept hr

end Advances

section

variable {x : Run V α} {g : α → Run V β} {m n : Machine V}

theorem bind_run_ok {a : α} (h : x.run.run m = (.ok a, n)) :
    (x >>= g).run.run m = (g a).run.run n := by
  simp only [ExceptT.run_bind, StateT.run_bind, h]
  rfl

theorem bind_run_error {message : Text} (h : x.run.run m = (.error message, n)) :
    (x >>= g).run.run m = (.error message, n) := by
  simp only [ExceptT.run_bind, StateT.run_bind, h]
  rfl

end

theorem cell?_run {m : Machine V} {c : CellId} {cell : Cell V} (hc : m.cells[c]? = some cell) :
    (cell? c).run.run m = (.ok (some cell), m) :=
  congrArg (fun cell => (Except.ok cell, m)) hc

section

variable {zero : Text → V} {fuel : Nat} {f : Frame} {hole : Text} {m : Machine V} {c : CellId}

theorem force_unset (hf : f.find? hole = none) :
    (force zero fuel f hole).run.run m = (.ok (zero hole), m) := by
  rw [force, hf]
  rfl

theorem force_concrete {v : V} (hf : f.find? hole = some c)
    (hc : m.cells[c]? = some (.concrete v)) : (force zero fuel f hole).run.run m = (.ok v, m) := by
  rw [force, hf]
  exact (bind_run_ok (cell?_run hc)).trans rfl

theorem force_kept {t : Transformation V} {previous : Option CellId} {v : V}
    (hf : f.find? hole = some c) (hc : m.cells[c]? = some (.pending t previous (some v))) :
    (force zero fuel f hole).run.run m = (.ok v, m) := by
  rw [force, hf]
  exact (bind_run_ok (cell?_run hc)).trans rfl

theorem force_pending {t : Transformation V} {previous : Option CellId} {r : Except Text V}
    {f' : Frame} {m' : Machine V} (hf : f.find? hole = some c)
    (hc : m.cells[c]? = some (.pending t previous none))
    (hrun : (runProgram (force zero fuel) (f.bind hole previous) t.program).run (m.begin t) =
      ((r, f'), m')) :
    (force zero (fuel + 1) f hole).run.run m = (r, m'.keep c r) := by
  rw [force, hf]
  refine (bind_run_ok (cell?_run hc)).trans ?_
  refine (bind_run_ok (a := PUnit.unit) (n := m.begin t) rfl).trans ?_
  refine (bind_run_ok (a := (r, f')) (n := m') ?_).trans ?_
  · exact congrArg (fun p => (Except.ok p.1, p.2)) hrun
  · cases r <;> rfl

end

def Meets (n : Nat) (f : Frame) (m : Machine V) (x : Run V α) (y : Behavior V α) : Prop :=
  ∃ r m' ran, x.run.run m = (r, m') ∧ y m r m' ∧ Advances n f m r m' ran

namespace Meets

variable {n : Nat} {f : Frame} {m : Machine V}

theorem pure (n : Nat) (f : Frame) (m : Machine V) (a : α) :
    Meets n f m (Pure.pure a : Run V α) (Pure.pure a) :=
  ⟨.ok a, m, [], rfl, ⟨rfl, rfl⟩, .refl n f m _⟩

theorem bind {x : Run V α} {y : Behavior V α} {g : α → Run V β} {k : α → Behavior V β}
    (hin : Inside n m f) (hx : Meets n f m x y)
    (hg : ∀ a m₁, Grows (fun _ _ => True) m m₁ → Meets n f m₁ (g a) (k a)) :
    Meets n f m (x >>= g) (y >>= k) := by
  obtain ⟨r, m₁, ran, hrun, hy, hran⟩ := hx
  cases r with
  | error message =>
    refine ⟨.error message, m₁, ran, bind_run_error hrun, .inr ⟨message, hy, rfl⟩, ?_⟩
    refine ⟨hran.grows, hran.started, hran.once, fun key hkey => ?_⟩
    obtain ⟨c, t, previous, hfired⟩ := hran.fired key hkey
    exact ⟨c, t, previous, hfired.own, hfired.waited, hfired.named, hfired.below,
      fun h => absurd h (by simp [Except.isOk, Except.toBool])⟩
  | ok a =>
    obtain ⟨r, m', ran', hrun', hk, hran'⟩ := hg a m₁ hran.grows
    exact ⟨r, m', ran ++ ran', (bind_run_ok hrun).trans hrun', .inl ⟨a, m₁, hy, hk⟩,
      hran.trans hin hran'⟩

end Meets

def Adequate (zero : Text → V) (n fuel : Nat) : Prop :=
  ∀ {f : Frame} {m : Machine V}, Inside n m f → depth m f ≤ fuel → ∀ hole,
    Meets n f m (force zero fuel f hole) (Forces zero f hole)

theorem runProgram_meets {zero : Text → V} {n fuel : Nat} (hforce : Adequate zero n fuel)
    {f : Frame} {m : Machine V} (hin : Inside n m f) (hdepth : depth m f ≤ fuel) (p : Program V) :
    ∃ r f' m' ran, (runProgram (force zero fuel) f p).run m = ((r, f'), m') ∧
      Runs zero f p m r f' m' ∧ Advances n f m r m' ran := by
  induction p generalizing f m with
  | value v => exact ⟨.ok v, f, m, [], rfl, .value, .refl n f m _⟩
  | panic message => exact ⟨.error message, f, m, [], rfl, .panic, .refl n f m _⟩
  | get hole next ih =>
    obtain ⟨r, m₁, ran, hrun, hread, hran⟩ := hforce hin hdepth hole
    cases r with
    | error message =>
      refine ⟨.error message, f, m₁, ran, ?_, .stop hread, hran⟩
      rw [runProgram, StateT.run_bind, hrun]
      rfl
    | ok v =>
      obtain ⟨r, f', m', ran', hrun', hnext, hran'⟩ :=
        ih v (hin.grows hran.grows) (by rwa [depth_run hran.grows])
      refine ⟨r, f', m', ran ++ ran', ?_, .get hread hnext, hran.trans hin hran'⟩
      rw [runProgram, StateT.run_bind, hrun]
      exact hrun'
  | set hole v next ih =>
    have hgrows : Grows (fun _ _ => True) m (m.push (.concrete v)) := .push_concrete m v
    have hcell : (m.push (.concrete v)).cells[m.cells.length]? = some (.concrete v) :=
      Machine.push_cells_new m _
    have hzero : height (m.push (.concrete v)) (some m.cells.length) = 0 := height_concrete hcell
    have hbind := depth_bind_le (m.push (.concrete v)) f hole (some m.cells.length)
    rw [hzero, depth_run hgrows f] at hbind
    have hless : depth (m.push (.concrete v)) (f.bind hole (some m.cells.length)) ≤ fuel := by omega
    obtain ⟨r, f', m', ran, hrun, hnext, hran⟩ :=
      ih ((hin.grows hgrows).bind (.concrete hcell)) hless
    refine ⟨r, f', m', ran, hrun, .set hnext, hran.moved hgrows rfl fun other => ?_⟩
    rw [Frame.find?_bind]
    split
    · rw [← height_run hgrows, hzero]
      exact Nat.zero_le _
    · exact Nat.le_refl _

theorem force_meets {zero : Text → V} {n fuel : Nat}
    (hless : ∀ k, fuel = k + 1 → Adequate zero n k) : Adequate zero n fuel := by
  intro f m hin hdepth hole
  have hheld := hin.held hole
  cases hf : f.find? hole with
  | none => exact ⟨.ok (zero hole), m, [], force_unset hf, .unset hf, .refl n f m _⟩
  | some c =>
    rw [hf] at hheld
    cases hheld with
    | concrete hc => exact ⟨.ok _, m, [], force_concrete hf hc, .concrete hf hc, .refl n f m _⟩
    | @pending _ t previous kept hc hown hhole =>
      cases kept with
      | some v => exact ⟨.ok v, m, [], force_kept hf hc, .kept hf hc, .refl n f m _⟩
      | none =>
        obtain ⟨hprevious, hheight⟩ := hin.linked hc hown
        rw [hhole] at hprevious
        -- The transformation runs on a frame of smaller depth, so there is fuel left for it.
        have hbind := depth_bind_le m f hole previous
        rw [hf, height_pending hc] at hbind
        cases fuel with
        | zero => omega
        | succ k =>
          have hin' : Inside n (m.begin t) (f.bind hole previous) :=
            (hin.bind hprevious).grows (.begin m t)
          have hdepth' : depth (m.begin t) (f.bind hole previous) ≤ k := by
            change depth m (f.bind hole previous) ≤ k
            omega
          obtain ⟨r, f', m', ran, hrun, hruns, hran⟩ :=
            runProgram_meets (hless k rfl) hin' hdepth' t.program
          exact ⟨r, m'.keep c r, (t.hole, t.origin) :: ran, force_pending hf hc hrun,
            .ran hf hc hruns, hran.ran hin hf hc⟩

theorem adequate (zero : Text → V) (n fuel : Nat) : Adequate zero n fuel := by
  induction fuel with
  | zero => exact force_meets fun k hk => absurd hk (by simp)
  | succ fuel ih => exact force_meets fun k hk => Nat.succ.inj hk ▸ ih

theorem read_meets (zero : Text → V) {n : Nat} {f : Frame} {m : Machine V} (hin : Inside n m f)
    (hole : Text) : Meets n f m (read zero f hole) (Forces zero f hole) :=
  adequate zero n (bound f m) hin (depth_le_bound m f) hole

end Stencil.Deferred
