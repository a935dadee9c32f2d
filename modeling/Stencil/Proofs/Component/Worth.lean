import Stencil.Proofs.Component.Passes

namespace Stencil.Deferred

variable {V : Type}

inductive Pile (V : Type) where
  | unset
  | value (v : V)
  | update (p : Program V) (below : Pile V)

mutual

/-- The value of a hole that holds a pile, where the transformations of the holes `running` wait
for it. -/
inductive Worth (zero : Text → V) (holds : Text → Pile V) :
    List Text → Text → Pile V → V → Prop where
  | unset {running hole} : Worth zero holds running hole .unset (zero hole)
  | value {running hole v} : Worth zero holds running hole (.value v) v
  | update {running hole p below v} : Yields zero holds running hole below p v →
      Worth zero holds running hole (.update p below) v

inductive Yields (zero : Text → V) (holds : Text → Pile V) :
    List Text → Text → Pile V → Program V → V → Prop where
  | value {running hole below v} : Yields zero holds running hole below (.value v) v
  | own {running hole below next u v} : Worth zero holds running hole below u →
      Yields zero holds running hole below (next u) v →
      Yields zero holds running hole below (.get hole next) v
  | other {running hole below other next u v} : other ∉ hole :: running →
      Worth zero holds (hole :: running) other (holds other) u →
      Yields zero holds running hole below (next u) v →
      Yields zero holds running hole below (.get other next) v

end

theorem Worth.unique {zero : Text → V} {holds : Text → Pile V} {running running' : List Text}
    {hole : Text} {pile : Pile V} {v v' : V} (h : Worth zero holds running hole pile v)
    (h' : Worth zero holds running' hole pile v') : v = v' := by
  refine @Worth.rec V zero holds
    (fun _ hole pile v _ => ∀ {running' v'}, Worth zero holds running' hole pile v' → v = v')
    (fun _ hole below p v _ =>
      ∀ {running' v'}, Yields zero holds running' hole below p v' → v = v')
    ?unset ?value ?update ?done ?own ?other running hole pile v h running' v' h'
  case unset => intro _ _ _ _ h'; cases h'; rfl
  case value => intro _ _ _ _ _ h'; cases h'; rfl
  case update =>
    intro _ _ _ _ _ _ ih _ _ h'
    cases h' with
    | update h' => exact ih h'
  case done => intro _ _ _ _ _ _ h'; cases h'; rfl
  case own =>
    intro _ hole _ _ _ _ _ _ ihworth ihnext _ _ h'
    cases h' with
    | own hworth hnext =>
      cases ihworth hworth
      exact ihnext hnext
    | other hwaits => exact absurd List.mem_cons_self hwaits
  case other =>
    intro _ hole _ _ _ _ _ hwaits _ _ ihworth ihnext _ _ h'
    cases h' with
    | own => exact absurd List.mem_cons_self hwaits
    | other _ hworth hnext =>
      cases ihworth hworth
      exact ihnext hnext

inductive Piled (m : Machine V) : Option CellId → Pile V → Prop where
  | unset : Piled m none .unset
  | value {c v} : m.cells[c]? = some (.concrete v) → Piled m (some c) (.value v)
  | update {c t previous kept below} : m.cells[c]? = some (.pending t previous kept) →
      Piled m previous below → Piled m (some c) (.update t.program below)

namespace Piled

theorem unique {m : Machine V} {c : Option CellId} {pile pile' : Pile V} (h : Piled m c pile)
    (h' : Piled m c pile') : pile = pile' := by
  induction h generalizing pile' with
  | unset => cases h'; rfl
  | value hc =>
    cases h' with
    | value hc' => cases hc.symm.trans hc'; rfl
    | update hc' => exact absurd (hc.symm.trans hc') (by simp)
  | update hc _ ih =>
    cases h' with
    | value hc' => exact absurd (hc.symm.trans hc') (by simp)
    | update hc' hbelow =>
      cases hc.symm.trans hc'
      rw [ih hbelow]

theorem grows {own : CellId → Transformation V → Prop} {m m' : Machine V} {c : Option CellId}
    {pile : Pile V} (h : Piled m c pile) (hm : Grows own m m') : Piled m' c pile := by
  induction h with
  | unset => exact .unset
  | value hc => exact .value (hm.concrete hc)
  | update hc _ ih =>
    obtain ⟨kept, hc'⟩ := hm.pending hc
    exact .update hc' ih

theorem begin {m : Machine V} {c : Option CellId} {pile : Pile V} (h : Piled m c pile)
    (t : Transformation V) : Piled (m.begin t) c pile := by
  induction h with
  | unset => exact .unset
  | value hc => exact .value hc
  | update hc _ ih => exact .update hc ih

theorem push {m : Machine V} {c : Option CellId} {pile : Pile V} (h : Piled m c pile)
    (cell : Cell V) : Piled (m.push cell) c pile := by
  induction h with
  | unset => exact .unset
  | value hc => exact .value (Machine.push_cells_old hc cell)
  | update hc _ ih => exact .update (Machine.push_cells_old hc cell) ih

theorem keep {m : Machine V} {c : Option CellId} {pile : Pile V} (h : Piled m c pile) (d : CellId)
    (v : V) : Piled (m.keep d (.ok v)) c pile := by
  induction h with
  | unset => exact .unset
  | @value c u hc =>
    refine .value ?_
    by_cases hcd : d = c
    · simp [Machine.keep, hcd, hc]
    · rw [Machine.keep_cells_ne hcd, hc]
  | @update c t previous kept below hc _ ih =>
    by_cases hcd : d = c
    · subst hcd
      exact .update (Machine.keep_cells_self hc v) ih
    · exact .update ((Machine.keep_cells_ne hcd _).trans hc) ih

end Piled

theorem Copies.grows {m m' : Machine V} {c copy : Option CellId} (h : Copies c m copy m') :
    Grows (fun _ _ => False) m m' := by
  induction h with
  | none => exact .refl _ _
  | concrete => exact .refl _ _
  | pending _ _ ih => exact ih.trans (.push _ fun _ _ _ _ => id)

theorem Copies.piled {m m' : Machine V} {c copy : Option CellId} {pile : Pile V}
    (h : Copies c m copy m') (hpile : Piled m c pile) : Piled m' copy pile := by
  induction h generalizing pile with
  | none => exact hpile
  | concrete => exact hpile
  | @pending m c t previous kept copy m' hc hcopy ih =>
    cases hpile with
    | value hc' => exact absurd (hc.symm.trans hc') (by simp)
    | update hc' hbelow =>
      cases hc.symm.trans hc'
      exact .update (Machine.push_cells_new m' _) ((ih hbelow).push _)

theorem CopiesAll.grows {holes copies : List (Text × CellId)} {m m' : Machine V}
    (h : CopiesAll holes m copies m') : Grows (fun _ _ => False) m m' := by
  induction h with
  | nil => exact .refl _ _
  | cons hcopy _ ih => exact hcopy.grows.trans ih

theorem CopiesAll.piled {holes copies : List (Text × CellId)} {m m' : Machine V} {pile : Pile V}
    (h : CopiesAll holes m copies m') (hole : Text) (hpile : Piled m (holes.lookup hole) pile) :
    Piled m' (copies.lookup hole) pile := by
  induction h with
  | nil => exact hpile
  | cons hcopy hrest ih =>
    rw [Text.lookup_cons_ite] at hpile ⊢
    split at hpile
    next heq =>
      rw [if_pos heq]
      exact (hcopy.piled hpile).grows hrest.grows
    next hne =>
      rw [if_neg hne]
      exact ih (hpile.grows hcopy.grows)

def Idle (n : Nat) (m : Machine V) : Prop :=
  ∀ ⦃c : CellId⦄ ⦃t : Transformation V⦄ ⦃previous : Option CellId⦄ ⦃kept : Option V⦄,
    n ≤ c → m.cells[c]? = some (.pending t previous kept) → kept = none

theorem Idle.start (m : Machine V) : Idle m.cells.length m :=
  fun _ _ _ _ hn hc => absurd hn (Nat.not_le.mpr (List.getElem?_eq_some_iff.mp hc).1)

theorem Copies.idle {n : Nat} {m m' : Machine V} {c copy : Option CellId} (h : Copies c m copy m')
    (hidle : Idle n m) : Idle n m' := by
  induction h with
  | none => exact hidle
  | concrete => exact hidle
  | pending _ _ ih =>
    intro d t previous kept hd hcell
    obtain hcell | ⟨-, hnew⟩ := Machine.of_push_cells hcell
    · exact ih hidle hd hcell
    · cases hnew
      rfl

theorem CopiesAll.idle {n : Nat} {holes copies : List (Text × CellId)} {m m' : Machine V}
    (h : CopiesAll holes m copies m') (hidle : Idle n m) : Idle n m' := by
  induction h with
  | nil => exact hidle
  | cons hcopy _ ih => exact ih (hcopy.idle hidle)

structure Faithful (zero : Text → V) (holds : Text → Pile V) (n : Nat) (inside : Frame)
    (m : Machine V) : Prop where
  within : Inside n m inside
  piled (hole : Text) : Piled m (inside.find? hole) (holds hole)
  kept {c : CellId} {t : Transformation V} {previous : Option CellId} {v : V} : n ≤ c →
    m.cells[c]? = some (.pending t previous (some v)) →
      ∃ running below, Piled m previous below ∧
        Worth zero holds running t.hole (.update t.program below) v

namespace Faithful

variable {zero : Text → V} {holds : Text → Pile V} {n : Nat} {inside : Frame} {m m' : Machine V}

theorem begin (h : Faithful zero holds n inside m) (t : Transformation V) :
    Faithful zero holds n inside (m.begin t) := by
  refine ⟨h.within.grows (.begin m t), fun hole => (h.piled hole).begin t, fun hn hc => ?_⟩
  obtain ⟨running, below, hbelow, hworth⟩ := h.kept hn hc
  exact ⟨running, below, hbelow.begin t, hworth⟩

theorem keep (h : Faithful zero holds n inside m) (h' : Faithful zero holds n inside m')
    (hm : Grows (fun _ _ => True) m m') {c : CellId} {t : Transformation V}
    {previous : Option CellId} {below : Pile V} {running : List Text} {v : V}
    (hc : m.cells[c]? = some (.pending t previous none)) (hbelow : Piled m previous below)
    (hworth : Worth zero holds running t.hole (.update t.program below) v) :
    Faithful zero holds n inside (m'.keep c (.ok v)) := by
  refine ⟨h.within.grows (hm.keep hc _), fun hole => (h'.piled hole).keep c v, ?_⟩
  intro d u previous' w hn hd
  by_cases hcd : c = d
  · subst hcd
    obtain ⟨kept, hc'⟩ := hm.pending hc
    cases hd.symm.trans (Machine.keep_cells_self hc' v)
    exact ⟨running, below, (hbelow.grows hm).keep c v, hworth⟩
  · rw [Machine.keep_cells_ne hcd] at hd
    obtain ⟨running', below', hbelow', hworth'⟩ := h'.kept hn hd
    exact ⟨running', below', hbelow'.keep c v, hworth'⟩

theorem kept_eq (h : Faithful zero holds n inside m) {c : CellId} {t : Transformation V}
    {previous : Option CellId} {below : Pile V} {running : List Text} {v w : V} (hn : n ≤ c)
    (hc : m.cells[c]? = some (.pending t previous (some w))) (hbelow : Piled m previous below)
    (hworth : Worth zero holds running t.hole (.update t.program below) v) : w = v := by
  obtain ⟨running', below', hbelow', hworth'⟩ := h.kept hn hc
  rw [hbelow'.unique hbelow] at hworth'
  exact hworth'.unique hworth

end Faithful

structure Waiting (n : Nat) (inside : Frame) (running : List Text) (f : Frame) (m : Machine V) :
    Prop where
  within : Inside n m f
  same : ∀ hole, hole ∉ running → f.find? hole = inside.find? hole

namespace Waiting

variable {n : Nat} {inside f : Frame} {running : List Text} {m m' : Machine V}

theorem grows (h : Waiting n inside running f m) (hm : Grows (fun _ _ => True) m m') :
    Waiting n inside running f m' :=
  ⟨h.within.grows hm, h.same⟩

theorem weaken (h : Waiting n inside running f m) (hole : Text) :
    Waiting n inside (hole :: running) f m :=
  ⟨h.within, fun other hother => h.same other fun hmem => hother (List.mem_cons_of_mem _ hmem)⟩

theorem bind (h : Waiting n inside running f m) {hole : Text} {c : Option CellId}
    (hhole : hole ∈ running) (hc : Holds (fun c _ => n ≤ c) m hole c) :
    Waiting n inside running (f.bind hole c) m := by
  refine ⟨h.within.bind hc, fun other hother => ?_⟩
  have hne : other ≠ hole := fun heq => hother (heq ▸ hhole)
  rw [Frame.find?_bind, if_neg hne]
  exact h.same other hother

end Waiting

section

variable {zero : Text → V} {holds : Text → Pile V} {n : Nat} {inside : Frame}

def Finds (zero : Text → V) (holds : Text → Pile V) (n : Nat) (inside f : Frame) (hole : Text)
    (m : Machine V) (v : V) : Prop :=
  ∃ m', Forces zero f hole m (.ok v) m' ∧ Grows (fun _ _ => True) m m' ∧
    Faithful zero holds n inside m'

theorem finds_update {f : Frame} {m : Machine V} {running : List Text} {hole : Text}
    {p : Program V} {below : Pile V} {v : V}
    (hworth : Worth zero holds running hole (.update p below) v)
    (hrun : ∀ {f m}, Faithful zero holds n inside m → Waiting n inside (hole :: running) f m →
      Piled m (f.find? hole) below → ∃ f' m', Runs zero f p m (.ok v) f' m' ∧
        Grows (fun _ _ => True) m m' ∧ Faithful zero holds n inside m')
    (hpass : Faithful zero holds n inside m) (hwait : Waiting n inside (hole :: running) f m)
    (hpile : Piled m (f.find? hole) (.update p below)) : Finds zero holds n inside f hole m v := by
  generalize hf : f.find? hole = found at hpile
  cases hpile with
  | @update c t previous kept _ hc hbelow =>
    obtain ⟨hown, hhole, -⟩ := hwait.within.of_pending hf hc
    subst hhole
    cases kept with
    | some w =>
      cases hpass.kept_eq hown hc hbelow hworth
      exact ⟨m, .kept hf hc, .refl _ m, hpass⟩
    | none =>
      have hwait' : Waiting n inside (t.hole :: running) (f.bind t.hole previous) (m.begin t) :=
        (hwait.bind List.mem_cons_self (hwait.within.linked hc hown).1).grows (.begin m t)
      have hbelow' : Piled (m.begin t) ((f.bind t.hole previous).find? t.hole) below := by
        rw [Frame.find?_bind, if_pos rfl]
        exact hbelow.begin t
      obtain ⟨f', m', hruns, hgrows, hpass'⟩ := hrun (hpass.begin t) hwait' hbelow'
      have hm : Grows (fun _ _ => True) m m' := (Grows.begin m t).trans hgrows
      exact ⟨_, .ran hf hc hruns, hm.keep hc _, hpass.keep hpass' hm hc hbelow hworth⟩

theorem Worth.finds {running : List Text} {hole : Text} {pile : Pile V} {v : V}
    (h : Worth zero holds running hole pile v) {f : Frame} {m : Machine V}
    (hpass : Faithful zero holds n inside m) (hwait : Waiting n inside (hole :: running) f m)
    (hpile : Piled m (f.find? hole) pile) : Finds zero holds n inside f hole m v := by
  refine @Worth.rec V zero holds
    (fun running hole pile v _ => ∀ {f m}, Faithful zero holds n inside m →
      Waiting n inside (hole :: running) f m → Piled m (f.find? hole) pile →
        Finds zero holds n inside f hole m v)
    (fun running hole below p v _ => ∀ {f m}, Faithful zero holds n inside m →
      Waiting n inside (hole :: running) f m → Piled m (f.find? hole) below →
        ∃ f' m', Runs zero f p m (.ok v) f' m' ∧ Grows (fun _ _ => True) m m' ∧
          Faithful zero holds n inside m')
    ?unset ?value ?update ?done ?own ?other running hole pile v h f m hpass hwait hpile
  case unset =>
    intro running hole f m hpass _ hpile
    generalize hf : f.find? hole = found at hpile
    cases hpile
    exact ⟨m, .unset hf, .refl _ m, hpass⟩
  case value =>
    intro running hole v f m hpass _ hpile
    generalize hf : f.find? hole = found at hpile
    cases hpile with
    | value hc => exact ⟨m, .concrete hf hc, .refl _ m, hpass⟩
  case update =>
    intro running hole p below v hyields ih f m hpass hwait hpile
    exact finds_update (.update hyields) ih hpass hwait hpile
  case done =>
    intro running hole below v f m hpass _ _
    exact ⟨f, m, .value, .refl _ m, hpass⟩
  case own =>
    intro running hole below next u v _ _ ihworth ihnext f m hpass hwait hpile
    obtain ⟨m₁, hforces, hgrows, hpass₁⟩ := ihworth hpass hwait hpile
    obtain ⟨f', m', hruns, hgrows', hpass'⟩ :=
      ihnext hpass₁ (hwait.grows hgrows) (hpile.grows hgrows)
    exact ⟨f', m', .get hforces hruns, hgrows.trans hgrows', hpass'⟩
  case other =>
    intro running hole below other next u v hother _ _ ihworth ihnext f m hpass hwait hpile
    -- The other hole does not wait, so it holds what the pass gave it.
    have hheld : Piled m (f.find? other) (holds other) := by
      rw [hwait.same other hother]
      exact hpass.piled other
    obtain ⟨m₁, hforces, hgrows, hpass₁⟩ := ihworth hpass (hwait.weaken other) hheld
    obtain ⟨f', m', hruns, hgrows', hpass'⟩ :=
      ihnext hpass₁ (hwait.grows hgrows) (hpile.grows hgrows)
    exact ⟨f', m', .get hforces hruns, hgrows.trans hgrows', hpass'⟩

theorem Faithful.read {m : Machine V} (h : Faithful zero holds n inside m) {v : Text → V}
    (hv : ∀ hole, Worth zero holds [] hole (holds hole) (v hole)) (hole : Text) :
    ∃ m', (Deferred.read zero inside hole).run.run m = (.ok (v hole), m') ∧
      Faithful zero holds n inside m' := by
  have hwait : Waiting n inside [hole] inside m := ⟨h.within, fun _ _ => rfl⟩
  obtain ⟨m', hforces, -, hpass⟩ := (hv hole).finds h hwait (h.piled hole)
  obtain ⟨r, m'', ran, hrun, hforces', -⟩ := read_meets zero h.within hole
  obtain ⟨rfl, rfl⟩ := hforces.unique hforces'
  exact ⟨m', hrun, hpass⟩

theorem pass_faithful {given : List (Transformation V)} {m : Machine V} {f : Frame}
    (hout : Outside given m f) (hpiled : ∀ hole, Piled m (f.find? hole) (holds hole)) :
    ∃ inside m', (pass f).run.run m = (.ok inside, m') ∧
      Faithful zero holds m.cells.length inside m' := by
  obtain ⟨inside, m', hrun, ⟨copies, hinside, hcopies⟩, -, hin, -⟩ := pass_copies hout
  cases hinside
  refine ⟨_, m', hrun, hin, fun hole => hcopies.piled hole (hpiled hole), fun hn hc => ?_⟩
  exact absurd (hcopies.idle (Idle.start m) hn hc) (by simp)

end

def Program.ReadsOnly (allowed : Text → Prop) : Program V → Prop
  | .value _ => True
  | .panic _ => False
  | .get hole next => allowed hole ∧ ∀ v, (next v).ReadsOnly allowed
  | .set _ _ _ => False

def Pile.ReadsOnly (allowed : Text → Prop) : Pile V → Prop
  | .unset => True
  | .value _ => True
  | .update p below => p.ReadsOnly allowed ∧ below.ReadsOnly allowed

def ReadsWithin (may : Text → Text → Prop) (holds : Text → Pile V) : Prop :=
  ∀ hole, (holds hole).ReadsOnly (may hole)

theorem exists_worth {zero : Text → V} {holds : Text → Pile V} (rank : Text → Nat)
    (h : ReadsWithin (fun hole other => other = hole ∨ rank other < rank hole) holds)
    (hole : Text) : ∃ v, Worth zero holds [] hole (holds hole) v := by
  suffices hall : ∀ (running : List Text) (pile : Pile V), (∀ r ∈ running, rank hole < rank r) →
      pile.ReadsOnly (fun other => other = hole ∨ rank other < rank hole) →
        ∃ v, Worth zero holds running hole pile v from hall [] _ (by simp) (h hole)
  induction hk : rank hole using Nat.strongRecOn generalizing hole with
  | _ k ih =>
    subst hk
    intro running pile hrunning hpile
    induction pile with
    | unset => exact ⟨_, .unset⟩
    | value v => exact ⟨v, .value⟩
    | update p below ihbelow =>
      obtain ⟨hp, hbelow⟩ := hpile
      suffices hyields : ∃ v, Yields zero holds running hole below p v from
        hyields.imp fun _ => .update
      induction p with
      | value v => exact ⟨v, .value⟩
      | panic message => exact hp.elim
      | set other v next => exact hp.elim
      | get other next ihnext =>
        by_cases hother : other = hole
        · subst hother
          obtain ⟨u, hu⟩ := ihbelow hbelow
          obtain ⟨v, hv⟩ := ihnext u (hp.2 u)
          exact ⟨v, .own hu hv⟩
        · have hlower : rank other < rank hole := hp.1.resolve_left hother
          have hwaits : ∀ r ∈ hole :: running, rank other < rank r := by
            intro r hr
            rcases List.mem_cons.mp hr with rfl | hr
            · exact hlower
            · exact Nat.lt_trans hlower (hrunning r hr)
          obtain ⟨u, hu⟩ := ih (rank other) hlower other rfl (hole :: running) (holds other)
            hwaits (h other)
          obtain ⟨v, hv⟩ := ihnext u (hp.2 u)
          exact ⟨v, .other (fun hmem => Nat.lt_irrefl _ (hwaits other hmem)) hu hv⟩

end Stencil.Deferred
