import Stencil.Proofs.Component.Twins

namespace Stencil

namespace Deferred

variable {V α : Type}

theorem push_cells_lt {m : Machine V} {c : CellId} (hc : c < m.cells.length) (cell : Cell V) :
    (m.push cell).cells[c]? = m.cells[c]? := by
  rw [Machine.push_cells, List.getElem?_append_left hc]

theorem Copies.old {m m' : Machine V} {c copy : Option CellId} (h : Copies c m copy m') {d : CellId}
    (hd : d < m.cells.length) : m'.cells[d]? = m.cells[d]? := by
  induction h with
  | none => rfl
  | concrete => rfl
  | pending _ hcopy ih =>
    rw [push_cells_lt (Nat.lt_of_lt_of_le hd hcopy.grows.length_le), ih hd]

theorem CopiesAll.old {m m' : Machine V} {holes copies : List (Text × CellId)}
    (h : CopiesAll holes m copies m') {d : CellId} (hd : d < m.cells.length) :
    m'.cells[d]? = m.cells[d]? := by
  induction h with
  | nil => rfl
  | cons hcopy _ ih =>
    rw [ih (Nat.lt_of_lt_of_le hd hcopy.grows.length_le), hcopy.old hd]

structure Spares (n : Nat) (m m' : Machine V) : Prop where
  grows : Grows (fun _ _ => True) m m'
  old : ∀ c < n, m'.cells[c]? = m.cells[c]?

namespace Spares

variable {n : Nat} {m m₁ m' : Machine V}

theorem refl (n : Nat) (m : Machine V) : Spares n m m :=
  ⟨.refl _ m, fun _ _ => rfl⟩

theorem trans (h : Spares n m m₁) (h' : Spares n m₁ m') : Spares n m m' :=
  ⟨h.grows.trans h'.grows, fun c hc => (h'.old c hc).trans (h.old c hc)⟩

end Spares

theorem Forces.spares {zero : Text → V} {n : Nat} {m m' : Machine V} {f : Frame} {hole : Text}
    {r : Except Text V} (h : Forces zero f hole m r m') (hin : Inside n m f)
    (hn : n ≤ m.cells.length) : Spares n m m' := by
  refine @Forces.rec V zero
    (fun f _ m _ m' _ => Inside n m f → n ≤ m.cells.length → Spares n m m')
    (fun f _ m _ _ m' _ => Inside n m f → n ≤ m.cells.length → Spares n m m')
    ?unset ?concrete ?kept ?ran ?value ?panic ?get ?stop ?set f hole m r m' h hin hn
  case unset => exact fun _ _ _ => .refl n _
  case concrete => exact fun _ _ _ _ => .refl n _
  case kept => exact fun _ _ _ _ => .refl n _
  case ran =>
    intro f hole m c t previous r f' m' hf hc _ ih hin hn
    obtain ⟨hown, hhole, -⟩ := hin.of_pending hf hc
    have hprevious := (hin.linked hc hown).1
    rw [hhole] at hprevious
    have hruns := ih ((hin.bind hprevious).grows (.begin m t)) hn
    have hgrows : Grows (fun _ _ => True) m m' := (Grows.begin m t).trans hruns.grows
    refine ⟨hgrows.keep hc r, fun d hd => ?_⟩
    have hcd : c ≠ d := Nat.ne_of_gt (Nat.lt_of_lt_of_le hd hown)
    rw [Machine.keep_cells_ne hcd]
    exact hruns.old d hd
  case value => exact fun _ _ => .refl n _
  case panic => exact fun _ _ => .refl n _
  case get =>
    intro f hole next m v m₁ r f' m' _ _ ihforces ihruns hin hn
    have hforces := ihforces hin hn
    have hle := hforces.grows.length_le
    exact hforces.trans (ihruns (hin.grows hforces.grows) (by omega))
  case stop => exact fun _ ih hin hn => ih hin hn
  case set =>
    intro f hole v next m r f' m' _ ih hin hn
    have hgrows : Grows (fun _ _ => True) m (m.push (.concrete v)) := .push_concrete m v
    have hpush : Spares n m (m.push (.concrete v)) :=
      ⟨hgrows, fun c hc => push_cells_lt (Nat.lt_of_lt_of_le hc hn) _⟩
    have hle := hgrows.length_le
    have hin' : Inside n (m.push (.concrete v)) (f.bind hole (some m.cells.length)) :=
      (hin.grows hgrows).bind (.concrete (Machine.push_cells_new m _))
    exact hpush.trans (ih hin' (by omega))

theorem pass_bind_old {given : List (Transformation V)} {m m' : Machine V} {f : Frame}
    (hout : Outside given m f) {y : Frame → Behavior V α}
    (hy : ∀ {n m inside r m'}, Inside n m inside → n ≤ m.cells.length → y inside m r m' →
      Spares n m m') {r : Except Text α} (h : (passes f >>= y) m r m') {c : CellId}
    (hc : c < m.cells.length) : m'.cells[c]? = m.cells[c]? := by
  obtain ⟨inside, m₁, -, hpasses, -, hin, -⟩ := pass_copies hout
  have hpasses' := hpasses
  obtain ⟨copies, -, hcopies⟩ := hpasses'
  rcases h with ⟨inside', m₁', h₁, h₂⟩ | ⟨message, h₁, -⟩
  · obtain ⟨hinside, rfl⟩ := passes_functional f hpasses h₁
    cases hinside
    rw [(hy hin hcopies.grows.length_le h₂).old c hc, hcopies.old hc]
  · obtain ⟨hinside, -⟩ := passes_functional f hpasses h₁
    cases hinside

theorem Laid.lookup {m : Machine V} {holes : List (Text × CellId)} {piles : List (Text × Pile V)}
    (h : Laid m holes piles) (hole : Text) :
    Piled m (holes.lookup hole) ((piles.lookup hole).getD .unset) := by
  induction h with
  | nil => exact .unset
  | @cons entry pile holes piles hfirst _ ih =>
    obtain ⟨name, c⟩ := entry
    obtain ⟨name', pile⟩ := pile
    obtain ⟨rfl, hpile⟩ := hfirst
    rw [Text.lookup_cons_ite, Text.lookup_cons_ite]
    split
    · exact hpile
    · exact ih

theorem Laid.filter {m : Machine V} {holes : List (Text × CellId)} {piles : List (Text × Pile V)}
    (h : Laid m holes piles) (hole : Text) :
    Laid m (holes.filter (·.1 ≠ hole)) (piles.filter (·.1 ≠ hole)) := by
  induction h with
  | nil => exact .nil
  | @cons entry pile holes piles hfirst _ ih =>
    by_cases hname : entry.1 = hole
    · have hname' : pile.1 = hole := hfirst.1.symm.trans hname
      rw [List.filter_cons_of_neg (by simpa using hname),
        List.filter_cons_of_neg (by simpa using hname')]
      exact ih
    · have hname' : pile.1 ≠ hole := fun heq => hname (hfirst.1.trans heq)
      rw [List.filter_cons_of_pos (by simpa using hname),
        List.filter_cons_of_pos (by simpa using hname')]
      exact .cons hfirst ih

theorem Laid.grows {own : CellId → Transformation V → Prop} {m m' : Machine V}
    {holes : List (Text × CellId)} {piles : List (Text × Pile V)} (h : Laid m holes piles)
    (hm : Grows own m m') : Laid m' holes piles :=
  h.imp fun _ _ hfirst => ⟨hfirst.1, hfirst.2.grows hm⟩

def putPile (piles : List (Text × Pile V)) (hole : Text) (pile : Pile V) : List (Text × Pile V) :=
  (hole, pile) :: piles.filter (·.1 ≠ hole)

theorem Laid.bind {m : Machine V} {f : Frame} {piles : List (Text × Pile V)}
    (h : Laid m f.holes piles) (hole : Text) {c : CellId} {pile : Pile V}
    (hpile : Piled m (some c) pile) :
    Laid m (f.bind hole (some c)).holes (putPile piles hole pile) :=
  .cons ⟨rfl, hpile⟩ (h.filter hole)

namespace GroundsAll

variable {zero : Text → V} {piles piles' : List (Text × Pile V)}

theorem refl (zero : Text → V) (piles : List (Text × Pile V)) : GroundsAll zero piles piles := by
  induction piles with
  | nil => exact .rest (List.forall_mem_nil _)
  | cons entry piles ih => exact .cons (.refl _ entry.2) ih

theorem lookup_rest {more : List (Text × Pile V)}
    (h : ∀ entry ∈ more, entry.2 = .value (zero entry.1)) (hole : Text) :
    Pile.Grounds (zero hole) .unset ((more.lookup hole).getD .unset) := by
  induction more with
  | nil => exact .unset
  | cons entry more ih =>
    obtain ⟨hentry, hmore⟩ := List.forall_mem_cons.mp h
    rw [Text.lookup_cons_ite]
    split
    next heq =>
      rw [Option.getD_some, hentry, heq]
      exact .ground
    · exact ih hmore

theorem lookup (h : GroundsAll zero piles piles') (hole : Text) :
    Pile.Grounds (zero hole) ((piles.lookup hole).getD .unset)
      ((piles'.lookup hole).getD .unset) := by
  induction h with
  | rest hmore => exact lookup_rest hmore hole
  | cons hpile _ ih =>
    rw [Text.lookup_cons_ite, Text.lookup_cons_ite]
    split
    next heq => exact heq ▸ hpile
    · exact ih

theorem filter (h : GroundsAll zero piles piles') (hole : Text) :
    GroundsAll zero (piles.filter (·.1 ≠ hole)) (piles'.filter (·.1 ≠ hole)) := by
  induction h with
  | rest hmore => exact .rest fun entry hentry => hmore entry (List.mem_filter.mp hentry).1
  | @cons name pile pile' piles piles' hpile _ ih =>
    by_cases hname : name = hole
    · rw [List.filter_cons_of_neg (by simpa using hname),
        List.filter_cons_of_neg (by simpa using hname)]
      exact ih
    · rw [List.filter_cons_of_pos (by simpa using hname),
        List.filter_cons_of_pos (by simpa using hname)]
      exact .cons hpile ih

theorem put (h : GroundsAll zero piles piles') {hole : Text} {pile pile' : Pile V}
    (hpile : Pile.Grounds (zero hole) pile pile') :
    GroundsAll zero (putPile piles hole pile) (putPile piles' hole pile') :=
  .cons hpile (h.filter hole)

end GroundsAll

def Unkept (m : Machine V) : Prop :=
  ∀ ⦃c : CellId⦄ ⦃t : Transformation V⦄ ⦃previous : Option CellId⦄ ⦃kept : Option V⦄,
    m.cells[c]? = some (.pending t previous kept) → Original c t → kept = none

theorem Unkept.push {m : Machine V} (h : Unkept m) {cell : Cell V}
    (hcell : ∀ t previous kept, cell = .pending t previous kept → kept = none) :
    Unkept (m.push cell) := by
  intro c t previous kept hc hown
  obtain hc | ⟨-, hnew⟩ := Machine.of_push_cells hc
  · exact h hc hown
  · exact hcell t previous kept hnew.symm

structure Stacked (piles : List (Text × Pile V)) (m : Machine V) (f : Frame) : Prop where
  outside : ∃ given, Outside given m f
  unkept : Unkept m
  laid : Laid m f.holes piles

namespace Stacked

variable {piles : List (Text × Pile V)} {m m' : Machine V} {f f' : Frame}

theorem empty : Stacked [] ({} : Machine V) {} :=
  ⟨⟨[], .empty⟩, fun _ _ _ _ hc => absurd hc (by simp), .nil⟩

theorem set (h : Stacked piles m f) (hole : Text) (v : V) :
    Stacked (putPile piles hole (.value v)) (m.push (.concrete v))
      (f.bind hole (some m.cells.length)) := by
  obtain ⟨given, hout⟩ := h.outside
  have hgrows : Grows (fun _ _ => False) m (m.push (.concrete v)) := .push_concrete m v
  refine ⟨⟨given, hout.set hole v⟩, h.unkept.push (by simp), ?_⟩
  exact (h.laid.grows hgrows).bind hole (.value (Machine.push_cells_new m _))

theorem update (h : Stacked piles m f) (hole : Text) (p : Program V) :
    Stacked (putPile piles hole (.update p ((piles.lookup hole).getD .unset)))
      (m.push (.pending ⟨p, hole, m.cells.length⟩ (f.find? hole) none))
      (f.bind hole (some m.cells.length)) := by
  obtain ⟨given, hout⟩ := h.outside
  have hgrows : Grows (fun _ _ => False) m
      (m.push (.pending ⟨p, hole, m.cells.length⟩ (f.find? hole) none)) := .push m fun _ _ _ _ => id
  refine ⟨⟨_, hout.update hole p⟩, h.unkept.push ?_, (h.laid.grows hgrows).bind hole ?_⟩
  · rintro t previous kept hnew
    cases hnew
    rfl
  · exact .update (Machine.push_cells_new m _) ((h.laid.lookup hole).grows hgrows)

theorem read (h : Stacked piles m f) {given : List (Transformation V)} (hout : Outside given m f)
    (hout' : Outside given m' f) (hgrows : Grows (fun _ _ => False) m m')
    (hold : ∀ c < m.cells.length, m'.cells[c]? = m.cells[c]?) : Stacked piles m' f := by
  refine ⟨⟨given, hout'⟩, fun c t previous kept hc hown => ?_, h.laid.grows hgrows⟩
  have hlt : c < m.cells.length := hown ▸ hout.older (hout'.listed hc)
  rw [hold c hlt] at hc
  exact h.unkept hc hown

end Stacked

def Alike (zero : Text → V) (m : Machine V) (f : Frame) (m' : Machine V) (f' : Frame) : Prop :=
  ∃ piles piles', Stacked piles m f ∧ Stacked piles' m' f' ∧ GroundsAll zero piles piles'

namespace Alike

variable {zero : Text → V} {m m' : Machine V} {f f' : Frame}

theorem set (h : Alike zero m f m' f') (hole : Text) (v : V) :
    Alike zero (m.push (.concrete v)) (f.bind hole (some m.cells.length))
      (m'.push (.concrete v)) (f'.bind hole (some m'.cells.length)) := by
  obtain ⟨piles, piles', hm, hm', hground⟩ := h
  exact ⟨_, _, hm.set hole v, hm'.set hole v, hground.put (.value v)⟩

theorem update (h : Alike zero m f m' f') (hole : Text) (p : Program V) :
    Alike zero (m.push (.pending ⟨p, hole, m.cells.length⟩ (f.find? hole) none))
      (f.bind hole (some m.cells.length))
      (m'.push (.pending ⟨p, hole, m'.cells.length⟩ (f'.find? hole) none))
      (f'.bind hole (some m'.cells.length)) := by
  obtain ⟨piles, piles', hm, hm', hground⟩ := h
  exact ⟨_, _, hm.update hole p, hm'.update hole p, hground.put (.update p (hground.lookup hole))⟩

theorem passes_twin (h : Alike zero m f m' f') {inside : Frame} {m₁ : Machine V}
    (hpass : passes f m (.ok inside) m₁) :
    ∃ inside' m₁', passes f' m' (.ok inside') m₁' ∧
      TwinFrames zero m.cells.length m'.cells.length m₁ m₁' inside inside' := by
  obtain ⟨piles, piles', hm, hm', hground⟩ := h
  obtain ⟨copies, hinside, hcopies⟩ := hpass
  cases hinside
  have hlevel : Level m.cells.length m'.cells.length m m' := ⟨0, rfl, rfl⟩
  obtain ⟨copies', m₁', hcopies', -, htwins⟩ := hcopies.twin hlevel hm.laid hm'.laid hground
  exact ⟨⟨copies', true⟩, m₁', ⟨copies', rfl, hcopies'⟩, htwins⟩

theorem pass_bind_twin (h : Alike zero m f m' f') {y : Frame → Behavior V α}
    (hy : ∀ {n n' m m' inside inside' r m₁}, TwinFrames zero n n' m m' inside inside' →
      y inside m r m₁ → ∃ m₁', y inside' m' r m₁') {r : Except Text α} {m₁ : Machine V}
    (hr : (passes f >>= y) m r m₁) : ∃ m₁', (passes f' >>= y) m' r m₁' := by
  rcases hr with ⟨inside, m₂, hpass, hrest⟩ | ⟨message, ⟨copies, hpass, -⟩, -⟩
  · obtain ⟨inside', m₂', hpass', htwins⟩ := h.passes_twin hpass
    obtain ⟨m₁', hrest'⟩ := hy htwins hrest
    exact ⟨m₁', .inl ⟨inside', m₂', hpass', hrest'⟩⟩
  · cases hpass

end Alike

/-- A cell that the state of a frame holds: one that a hole holds, or one below such a cell. -/
inductive Stored (m : Machine V) (f : Frame) : CellId → Prop where
  | held {hole c} : f.find? hole = some c → Stored m f c
  | under {c d t kept} : Stored m f c → m.cells[c]? = some (.pending t (some d) kept) →
      Stored m f d

theorem Holds.original {m : Machine V} {hole : Text} {c : CellId} {t : Transformation V}
    {previous : Option CellId} {kept : Option V} (h : Holds Original m hole (some c))
    (hc : m.cells[c]? = some (.pending t previous kept)) : Original c t := by
  cases h with
  | concrete hc' => exact absurd (hc.symm.trans hc') (by simp)
  | pending hc' hown => cases hc.symm.trans hc'; exact hown

theorem Stored.original {given : List (Transformation V)} {m : Machine V} {f : Frame}
    (hout : Outside given m f) {c : CellId} (h : Stored m f c) {t : Transformation V}
    {previous : Option CellId} {kept : Option V}
    (hc : m.cells[c]? = some (.pending t previous kept)) : Original c t := by
  induction h generalizing t previous kept with
  | @held hole c hf =>
    have hheld := hout.held hole
    rw [hf] at hheld
    exact hheld.original hc
  | under _ hcell ih => exact (hout.linked hcell (ih hcell)).1.original hc

end Deferred

open Deferred

namespace Blueprint

variable {piles : List (Text × Pile Value)} {m m' : Machine Value} {f f' : Frame}

theorem read_stacked (b : Blueprint) (h : Stacked piles m f) (hole : Text) :
    (∀ c < m.cells.length, ((b.read f hole).run.run m).2.cells[c]? = m.cells[c]?) ∧
      Stacked piles ((b.read f hole).run.run m).2 f := by
  obtain ⟨given, hout⟩ := h.outside
  have hgrows := pass_bind_grows hout fun hin => Deferred.read_meets b.zero hin hole
  rw [← b.read_outside hout.outside] at hgrows
  obtain ⟨r, m₁, hrun, hgets, hout₁, -⟩ := b.read_meets hout hole
  rw [hrun] at hgrows ⊢
  rw [gets, hout.outside] at hgets
  have hold : ∀ c < m.cells.length, m₁.cells[c]? = m.cells[c]? := fun c hc =>
    pass_bind_old hout (fun hin hn hforces => hforces.spares hin hn) hgets hc
  exact ⟨hold, h.read hout hout₁ hgrows hold⟩

theorem read_same (b : Blueprint) (h : Alike b.zero m f m' f') (hole : Text) :
    ((b.read f hole).run.run m).1 = ((b.read f' hole).run.run m').1 ∧
      Alike b.zero ((b.read f hole).run.run m).2 f ((b.read f' hole).run.run m').2 f' := by
  have halike := h
  obtain ⟨piles, piles', hm, hm', hground⟩ := halike
  refine ⟨?_, piles, piles', (b.read_stacked hm hole).2, (b.read_stacked hm' hole).2, hground⟩
  obtain ⟨given, hout⟩ := hm.outside
  obtain ⟨given', hout'⟩ := hm'.outside
  obtain ⟨r, m₁, hrun, hgets, -⟩ := b.read_meets hout hole
  obtain ⟨r', m₁', hrun', hgets', -⟩ := b.read_meets hout' hole
  rw [hrun, hrun']
  have htwin : ∃ m₂, b.gets f' hole m' r m₂ := by
    rw [gets, hout.outside] at hgets
    rw [gets, hout'.outside]
    refine h.pass_bind_twin (fun htwins hforces => ?_) hgets
    exact (hforces.twin htwins).imp fun _ hforces' => hforces'.1
  obtain ⟨m₂, hgets₂⟩ := htwin
  exact (b.gets_functional f' hole hgets₂ hgets').1

theorem value_spares (b : Blueprint) {n : Nat} {inside : Frame} {r : Except Text Value}
    (hin : Inside n m inside) (hn : n ≤ m.cells.length) {e : Expr}
    (h : e.value (m := Behavior Value) (Forces b.zero inside) {} m r m') : Spares n m m' := by
  have hR : Expr.Compatible (n := Behavior Value) fun α (x : Behavior Value α) _ =>
      ∀ m r m', Inside n m inside → n ≤ m.cells.length → x m r m' → Spares n m m' := by
    constructor
    · rintro α a m r m' - - ⟨-, rfl⟩
      exact .refl n m'
    · rintro α β x y g k hx hg m r m' hin hn (⟨a, m₁, h₁, h₂⟩ | ⟨message, h₁, -⟩)
      · have hspares := hx m _ m₁ hin hn h₁
        have hle := hspares.grows.length_le
        exact hspares.trans (hg a m₁ r m' (hin.grows hspares.grows) (by omega) h₂)
      · exact hx m _ m' hin hn h₁
  exact Expr.value_related hR _ (Forces b.zero inside)
    (fun hole m r m' hin hn h => h.spares hin hn) {} e m r m' hin hn h

theorem value_twin (b : Blueprint) {n n' : Nat} {inside inside' : Frame} {m₁ : Machine Value}
    {r : Except Text Value} (htwins : TwinFrames b.zero n n' m m' inside inside') {e : Expr}
    (h : e.value (m := Behavior Value) (Forces b.zero inside) {} m r m₁) :
    ∃ m₁', e.value (m := Behavior Value) (Forces b.zero inside') {} m' r m₁' := by
  have hR : Expr.Compatible fun α (x y : Behavior Value α) =>
      ∀ m m' r m₁, TwinFrames b.zero n n' m m' inside inside' → x m r m₁ →
        ∃ m₁', y m' r m₁' ∧ StayTwins b.zero n n' m m' m₁ m₁' := by
    constructor
    · rintro α a m m' r m₁ - ⟨rfl, rfl⟩
      exact ⟨m', ⟨rfl, rfl⟩, .refl b.zero n n' m₁ m'⟩
    · rintro α β x y g k hx hg m m' r m₂ htwins (⟨a, m₁, h₁, h₂⟩ | ⟨message, h₁, rfl⟩)
      · obtain ⟨m₁', h₁', hstay⟩ := hx m m' _ m₁ htwins h₁
        obtain ⟨m₂', h₂', hstay'⟩ := hg a m₁ m₁' r m₂ (htwins.later hstay) h₂
        exact ⟨m₂', .inl ⟨a, m₁', h₁', h₂'⟩, hstay.trans hstay'⟩
      · obtain ⟨m₂', h₁', hstay⟩ := hx m m' _ m₂ htwins h₁
        exact ⟨m₂', .inr ⟨message, h₁', rfl⟩, hstay⟩
  obtain ⟨m₁', h', -⟩ := Expr.value_related hR _ _
    (fun hole m m' r m₁ htwins hforces => hforces.twin htwins) {} e m m' r m₁ htwins h
  exact ⟨m₁', h'⟩

theorem render_stacked (b : Blueprint) (h : Stacked piles m f) :
    (∀ c < m.cells.length, ((b.render f).run.run m).2.cells[c]? = m.cells[c]?) ∧
      Stacked piles ((b.render f).run.run m).2 f := by
  obtain ⟨given, hout⟩ := h.outside
  have hgrows : Grows (fun _ _ => False) m ((b.render f).run.run m).2 :=
    pass_bind_grows hout fun hin =>
      .bind hin (b.value_meets hin b.body) fun v m₁ _ => .pure _ _ m₁ v.asNodes
  obtain ⟨r, m₁, hrun, hrenders, hout₁, -⟩ := b.render_meets hout
  rw [hrun] at hgrows ⊢
  have hold : ∀ c < m.cells.length, m₁.cells[c]? = m.cells[c]? := by
    intro c hc
    refine pass_bind_old hout (fun hin hn hbody => ?_) hrenders hc
    rcases hbody with ⟨v, m₂, hvalue, -, rfl⟩ | ⟨message, hvalue, -⟩
    · exact b.value_spares hin hn hvalue
    · exact b.value_spares hin hn hvalue
  exact ⟨hold, h.read hout hout₁ hgrows hold⟩

theorem render_same (b : Blueprint) (h : Alike b.zero m f m' f') :
    ((b.render f).run.run m).1 = ((b.render f').run.run m').1 ∧
      Alike b.zero ((b.render f).run.run m).2 f ((b.render f').run.run m').2 f' := by
  have halike := h
  obtain ⟨piles, piles', hm, hm', hground⟩ := halike
  refine ⟨?_, piles, piles', (b.render_stacked hm).2, (b.render_stacked hm').2, hground⟩
  obtain ⟨given, hout⟩ := hm.outside
  obtain ⟨given', hout'⟩ := hm'.outside
  obtain ⟨r, m₁, hrun, hrenders, -⟩ := b.render_meets hout
  obtain ⟨r', m₁', hrun', hrenders', -⟩ := b.render_meets hout'
  rw [hrun, hrun']
  have htwin : ∃ m₂, b.renders f' m' r m₂ := by
    refine h.pass_bind_twin (fun htwins hbody => ?_) hrenders
    rcases hbody with ⟨v, m₂, hvalue, hpure⟩ | ⟨message, hvalue, hmessage⟩
    · obtain ⟨m₂', hvalue'⟩ := b.value_twin htwins hvalue
      exact ⟨m₂', .inl ⟨v, m₂', hvalue', hpure.1, rfl⟩⟩
    · obtain ⟨m₂', hvalue'⟩ := b.value_twin htwins hvalue
      exact ⟨m₂', .inr ⟨message, hvalue', hmessage⟩⟩
  obtain ⟨m₂, hrenders₂⟩ := htwin
  exact (b.renders_functional f' hrenders₂ hrenders').1

theorem runProgram_same (b : Blueprint) (p : Program Value) (h : Alike b.zero m f m' f') :
    ∃ r g m₁ g' m₁', (runProgram b.read f p).run m = ((r, g), m₁) ∧
      (runProgram b.read f' p).run m' = ((r, g'), m₁') ∧ Alike b.zero m₁ g m₁' g' := by
  induction p generalizing m m' f f' with
  | value v => exact ⟨.ok v, f, m, f', m', rfl, rfl, h⟩
  | panic message => exact ⟨.error message, f, m, f', m', rfl, rfl, h⟩
  | get hole next ih =>
    obtain ⟨hsame, h₁⟩ := b.read_same h hole
    rw [runProgram, runProgram, StateT.run_bind, StateT.run_bind]
    rcases hr : (b.read f hole).run.run m with ⟨r, m₁⟩
    rcases hr' : (b.read f' hole).run.run m' with ⟨r', m₁'⟩
    rw [hr, hr'] at hsame h₁
    dsimp only at hsame
    subst hsame
    cases r with
    | error message => exact ⟨.error message, f, m₁, f', m₁', rfl, rfl, h₁⟩
    | ok v => exact ih v h₁
  | set hole v next ih => exact ih (h.set hole v)

theorem setTo_same (b : Blueprint) (hole : Text) (p : Program Value)
    (h : Alike b.zero m f m' f') :
    ∃ r g m₁ g' m₁', (b.setTo f hole p).run m = ((r, g), m₁) ∧
      (b.setTo f' hole p).run m' = ((r, g'), m₁') ∧ Alike b.zero m₁ g m₁' g' := by
  obtain ⟨r, g, m₁, g', m₁', hrun, hrun', h₁⟩ := b.runProgram_same p h
  unfold setTo
  rw [StateT.run_bind, StateT.run_bind, hrun, hrun']
  cases r with
  | error message => exact ⟨.error message, g, m₁, g', m₁', rfl, rfl, h₁⟩
  | ok v => exact ⟨.ok (), _, _, _, _, rfl, rfl, h₁.set hole v⟩

theorem construct_stacked (b : Blueprint) {f : Frame} (h : b.construct.run {} = (f, m)) :
    ∃ piles, Stacked piles m f ∧ ∀ entry ∈ piles, ∃ type,
      (entry.1, type) ∈ b.symbols.entries ∧ entry.2 = .value (Value.zero type) := by
  have hfold : ∀ (entries : List (Text × HoleType)) {m' : Machine Value} {g : Frame}
      {piles : List (Text × Pile Value)}, Stacked piles m' g →
      (∀ entry ∈ piles, ∃ type,
        (entry.1, type) ∈ b.symbols.entries ∧ entry.2 = .value (Value.zero type)) →
      (∀ entry ∈ entries, entry ∈ b.symbols.entries) →
      (entries.foldlM (m := StateM (Machine Value)) (fun f entry => do
        let c ← alloc (.concrete (Value.zero entry.2))
        return f.bind entry.1 (some c)) g).run m' = (f, m) →
      ∃ piles, Stacked piles m f ∧ ∀ entry ∈ piles, ∃ type,
        (entry.1, type) ∈ b.symbols.entries ∧ entry.2 = .value (Value.zero type) := by
    intro entries
    induction entries with
    | nil =>
      intro m' g piles hstacked hzeros _ hrun
      cases hrun
      exact ⟨piles, hstacked, hzeros⟩
    | cons entry entries ih =>
      intro m' g piles hstacked hzeros hsymbols hrun
      obtain ⟨hentry, hentries⟩ := List.forall_mem_cons.mp hsymbols
      rw [List.foldlM_cons] at hrun
      refine ih (hstacked.set entry.1 (Value.zero entry.2)) ?_ hentries hrun
      refine List.forall_mem_cons.mpr ⟨⟨entry.2, hentry, rfl⟩, fun other hother => ?_⟩
      exact hzeros other (List.mem_filter.mp hother).1
  exact hfold b.symbols.entries .empty (List.forall_mem_nil _) (fun _ => id) h

end Blueprint

def InstanceStep.isRead : InstanceStep → Bool
  | .get _ | .render => true
  | _ => false

namespace Instance

def after (b : Blueprint) (i : Instance) (steps : List InstanceStep) : Instance :=
  steps.foldl (fun i s => (i.run b s).2) i

def answers (b : Blueprint) (i : Instance) : List InstanceStep → List (Except Text InstanceAnswer)
  | [] => []
  | s :: steps => (i.run b s).1 :: answers b (i.run b s).2 steps

def Stacks (piles : List (Text × Pile Value)) (i : Instance) : Prop :=
  Stacked piles i.machine i.frame

variable {b : Blueprint} {piles : List (Text × Pile Value)} {i j : Instance}

def Twins (b : Blueprint) (i j : Instance) : Prop :=
  Alike b.zero i.machine i.frame j.machine j.frame

theorem Stacks.twins (hi : Stacks piles i) (hj : Stacks piles j) : Twins b i j :=
  ⟨piles, piles, hi, hj, .refl b.zero piles⟩

theorem run_twins (h : Twins b i j) (s : InstanceStep) :
    (i.run b s).1 = (j.run b s).1 ∧ Twins b (i.run b s).2 (j.run b s).2 := by
  cases s with
  | set hole p =>
    obtain ⟨r, g, m, g', m', hrun, hrun', halike⟩ := b.setTo_same hole p h
    simp only [run, hrun, hrun']
    exact ⟨trivial, halike⟩
  | update hole p => exact ⟨rfl, Alike.update h hole p⟩
  | get hole =>
    obtain ⟨hsame, halike⟩ := b.read_same h hole
    exact ⟨congrArg (Except.map InstanceAnswer.value) hsame, halike⟩
  | render =>
    obtain ⟨hsame, halike⟩ := b.render_same h
    exact ⟨congrArg (Except.map InstanceAnswer.nodes) hsame, halike⟩
  | copy => exact ⟨rfl, h⟩

theorem run_same (hi : Stacks piles i) (hj : Stacks piles j) (s : InstanceStep) :
    (i.run b s).1 = (j.run b s).1 ∧ Twins b (i.run b s).2 (j.run b s).2 :=
  run_twins (hi.twins hj) s

theorem run_read (hi : Stacks piles i) {s : InstanceStep} (hs : s.isRead = true) :
    (i.run b s).2.frame = i.frame ∧
      (∀ c < i.machine.cells.length, (i.run b s).2.machine.cells[c]? = i.machine.cells[c]?) ∧
      Stacks piles (i.run b s).2 := by
  cases s with
  | get hole => exact ⟨rfl, b.read_stacked hi hole⟩
  | render => exact ⟨rfl, b.render_stacked hi⟩
  | set hole p => exact absurd hs (by simp [InstanceStep.isRead])
  | update hole p => exact absurd hs (by simp [InstanceStep.isRead])
  | copy => exact absurd hs (by simp [InstanceStep.isRead])

theorem Reached.stacks {given : List (Transformation Value)} (h : Reached b given i) :
    ∃ piles, Stacks piles i := by
  induction h with
  | new => exact (b.construct_stacked rfl).imp fun _ => And.left
  | zero => exact ⟨[], .empty⟩
  | update hole p _ ih =>
    obtain ⟨piles, hi⟩ := ih
    obtain ⟨-, piles', -, hi', -⟩ := run_same hi hi (.update hole p)
    exact ⟨piles', hi'⟩
  | other s _ _ ih =>
    obtain ⟨piles, hi⟩ := ih
    obtain ⟨-, piles', -, hi', -⟩ := run_same hi hi s
    exact ⟨piles', hi'⟩

theorem answers_twins (h : Twins b i j) {marked : List (InstanceStep × Bool)}
    (hmarked : ∀ entry ∈ marked, entry.2 = false → entry.1.isRead = true) :
    (((i.answers b (marked.map Prod.fst)).zip (marked.map Prod.snd)).filter Prod.snd).map Prod.fst =
      j.answers b ((marked.filter Prod.snd).map Prod.fst) := by
  induction marked generalizing i j with
  | nil => rfl
  | cons entry marked ih =>
    obtain ⟨s, stays⟩ := entry
    have hrest : ∀ entry ∈ marked, entry.2 = false → entry.1.isRead = true :=
      fun entry hentry => hmarked entry (List.mem_cons_of_mem _ hentry)
    cases stays with
    | false =>
      have hread : s.isRead = true := hmarked (s, false) List.mem_cons_self rfl
      obtain ⟨piles, piles', hi, hj, hground⟩ := h
      have htwins : Twins b (i.run b s).2 j :=
        ⟨piles, piles', (run_read hi hread).2.2, hj, hground⟩
      simpa [answers] using ih htwins hrest
    | true =>
      obtain ⟨hanswer, htwins⟩ := run_twins h s
      simpa [answers, hanswer] using ih htwins hrest

theorem answers_same (hi : Stacks piles i) (hj : Stacks piles j)
    {marked : List (InstanceStep × Bool)}
    (hmarked : ∀ entry ∈ marked, entry.2 = false → entry.1.isRead = true) :
    (((i.answers b (marked.map Prod.fst)).zip (marked.map Prod.snd)).filter Prod.snd).map Prod.fst =
      j.answers b ((marked.filter Prod.snd).map Prod.fst) :=
  answers_twins (hi.twins hj) hmarked

theorem after_renders (hi : Stacks piles i) (k : Nat) :
    Stacks piles (i.after b (List.replicate k .render)) := by
  induction k generalizing i with
  | zero => exact hi
  | succ k ih => exact ih (b.render_stacked hi).2

/-- Whatever reads and renderings are left out of a run, the steps that stay are answered as before;
a state renders to the same nodes however often it has been rendered. A read leaves the state and
every cell as they were, and no cell that a state holds has a result. -/
theorem reads_leave_state {given : List (Transformation Value)} (h : Reached b given i) :
    (∀ marked : List (InstanceStep × Bool),
      (∀ entry ∈ marked, entry.2 = false → entry.1.isRead = true) →
      (((i.answers b (marked.map Prod.fst)).zip (marked.map Prod.snd)).filter Prod.snd).map
          Prod.fst =
        i.answers b ((marked.filter Prod.snd).map Prod.fst)) ∧
      (∀ k, ((i.after b (List.replicate k .render)).run b .render).1 = (i.run b .render).1) ∧
      (∀ s : InstanceStep, s.isRead = true → (i.run b s).2.frame = i.frame ∧
        ∀ c < i.machine.cells.length,
          (i.run b s).2.machine.cells[c]? = i.machine.cells[c]?) ∧
      ∀ c t previous kept, Stored i.machine i.frame c →
        i.machine.cells[c]? = some (.pending t previous kept) → kept = none := by
  obtain ⟨piles, hi⟩ := h.stacks
  refine ⟨fun marked hmarked => answers_same hi hi hmarked, fun k => ?_, fun s hs => ?_, ?_⟩
  · exact (run_same (after_renders hi k) hi .render).1
  · obtain ⟨hframe, hcells, -⟩ := run_read (b := b) hi hs
    exact ⟨hframe, hcells⟩
  · intro c t previous kept hstored hc
    exact hi.unkept hc (hstored.original h.outside hc)

theorem reads_leave_state_crossed :
    ∃ given i, Reached Card.blueprint given i ∧
      (i.run Card.blueprint (.get (utf8 "label"))).2.machine.started =
        [(utf8 "label", 2), (utf8 "title", 0)] ∧
      (((i.answers Card.blueprint [.get (utf8 "label"), .render]).zip [false, true]).filter
        Prod.snd).map Prod.fst = i.answers Card.blueprint [.render] ∧
      Stored i.machine i.frame 2 ∧ ∀ t previous kept,
        i.machine.cells[2]? = some (.pending t previous kept) → kept = none := by
  have h : Reached Card.blueprint _ _ :=
    .update (utf8 "label")
      (.get (utf8 "title") fun v => .value (.text (if v.asNodes.isEmpty then utf8 "none" else [])))
      (.other (.set (utf8 "label") (.value (.text (utf8 "home")))) (by simp)
        (.update (utf8 "title")
          (.get (utf8 "label") fun v => .value (.nodes (Markup.textNodes v.asText))) .zero))
  obtain ⟨hanswers, -, -, hkept⟩ := reads_leave_state h
  refine ⟨_, _, h, by decide +kernel, ?answers, ?stored,
    fun t previous kept => hkept 2 t previous kept ?stored⟩
  case answers =>
    refine hanswers [(.get (utf8 "label"), false), (.render, true)] fun entry hentry hstays => ?_
    rcases List.mem_cons.mp hentry with rfl | hentry
    · rfl
    · cases List.mem_singleton.mp hentry
      exact absurd hstays (by simp)
  case stored => exact @Stored.held _ _ _ (utf8 "label") 2 rfl

end Instance

end Stencil
