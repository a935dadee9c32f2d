import Stencil.Proofs.Component.Agreement

namespace Stencil

namespace Deferred

variable {V α : Type}

/-- Cells of two machines that stand for the same in a hole: nothing and its zero value, the same
value, or copies at the same distance of one program, with the same result if any, and with twins
below. -/
inductive Twin (zero : Text → V) (n n' : Nat) (m m' : Machine V) (hole : Text) :
    Option CellId → Option CellId → Prop where
  | none : Twin zero n n' m m' hole none none
  | ground {c'} : m'.cells[c']? = some (.concrete (zero hole)) →
      Twin zero n n' m m' hole none (some c')
  | concrete {c c' v} : m.cells[c]? = some (.concrete v) → m'.cells[c']? = some (.concrete v) →
      Twin zero n n' m m' hole (some c) (some c')
  | pending {k t t' previous previous' kept} :
      m.cells[n + k]? = some (.pending t previous kept) →
      m'.cells[n' + k]? = some (.pending t' previous' kept) → t.program = t'.program →
      Twin zero n n' m m' hole previous previous' →
      Twin zero n n' m m' hole (some (n + k)) (some (n' + k))

def StayTwins (zero : Text → V) (n n' : Nat) (m m' m₁ m₁' : Machine V) : Prop :=
  ∀ hole c c', Twin zero n n' m m' hole c c' → Twin zero n n' m₁ m₁' hole c c'

def TwinFrames (zero : Text → V) (n n' : Nat) (m m' : Machine V) (f f' : Frame) : Prop :=
  ∀ hole, Twin zero n n' m m' hole (f.find? hole) (f'.find? hole)

section

variable {zero : Text → V} {n n' : Nat} {m m' m₁ m₁' : Machine V} {hole : Text}
  {c c' : Option CellId} {f f' : Frame}

theorem Twin.begin (h : Twin zero n n' m m' hole c c') (t t' : Transformation V) :
    Twin zero n n' (m.begin t) (m'.begin t') hole c c' := by
  induction h with
  | none => exact .none
  | ground hc' => exact .ground hc'
  | concrete hc hc' => exact .concrete hc hc'
  | pending hc hc' hp _ ih => exact .pending hc hc' hp ih

theorem Twin.push (h : Twin zero n n' m m' hole c c') (cell cell' : Cell V) :
    Twin zero n n' (m.push cell) (m'.push cell') hole c c' := by
  induction h with
  | none => exact .none
  | ground hc' => exact .ground (Machine.push_cells_old hc' cell')
  | concrete hc hc' =>
    exact .concrete (Machine.push_cells_old hc cell) (Machine.push_cells_old hc' cell')
  | pending hc hc' hp _ ih =>
    exact .pending (Machine.push_cells_old hc cell) (Machine.push_cells_old hc' cell') hp ih

theorem keep_cells_concrete {c d : CellId} {v : V} (hc : m.cells[c]? = some (.concrete v))
    (r : Except Text V) : (m.keep d r).cells[c]? = some (.concrete v) := by
  by_cases hdc : d = c
  · subst hdc
    cases r with
    | error message => exact hc
    | ok w => simp [Machine.keep, hc]
  · rw [Machine.keep_cells_ne hdc, hc]

theorem Twin.keep (h : Twin zero n n' m m' hole c c') (k : Nat) (r : Except Text V) :
    Twin zero n n' (m.keep (n + k) r) (m'.keep (n' + k) r) hole c c' := by
  induction h with
  | none => exact .none
  | ground hc' => exact .ground (keep_cells_concrete hc' r)
  | concrete hc hc' => exact .concrete (keep_cells_concrete hc r) (keep_cells_concrete hc' r)
  | @pending j t t' previous previous' kept hc hc' hp hbelow ih =>
    cases r with
    | error message => exact .pending hc hc' hp hbelow
    | ok v =>
      by_cases hkj : k = j
      · subst hkj
        exact .pending (Machine.keep_cells_self hc v) (Machine.keep_cells_self hc' v) hp ih
      · have hne : n + k ≠ n + j := by omega
        have hne' : n' + k ≠ n' + j := by omega
        exact .pending ((Machine.keep_cells_ne hne _).trans hc)
          ((Machine.keep_cells_ne hne' _).trans hc') hp ih

theorem StayTwins.refl (zero : Text → V) (n n' : Nat) (m m' : Machine V) :
    StayTwins zero n n' m m' m m' :=
  fun _ _ _ h => h

theorem StayTwins.trans {m₂ m₂' : Machine V} (h : StayTwins zero n n' m m' m₁ m₁')
    (h' : StayTwins zero n n' m₁ m₁' m₂ m₂') : StayTwins zero n n' m m' m₂ m₂' :=
  fun hole c c' hc => h' hole c c' (h hole c c' hc)

theorem TwinFrames.later (h : TwinFrames zero n n' m m' f f')
    (hm : StayTwins zero n n' m m' m₁ m₁') : TwinFrames zero n n' m₁ m₁' f f' :=
  fun hole => hm _ _ _ (h hole)

theorem TwinFrames.bind (h : TwinFrames zero n n' m m' f f')
    (hc : Twin zero n n' m m' hole c c') :
    TwinFrames zero n n' m m' (f.bind hole c) (f'.bind hole c') := by
  intro other
  rw [Frame.find?_bind, Frame.find?_bind]
  split
  next heq => exact heq ▸ hc
  · exact h other

end

theorem Forces.twin {zero : Text → V} {n n' : Nat} {m m' m₁ : Machine V} {f f' : Frame}
    {hole : Text} {r : Except Text V} (h : Forces zero f hole m r m₁)
    (hf : TwinFrames zero n n' m m' f f') :
    ∃ m₁', Forces zero f' hole m' r m₁' ∧ StayTwins zero n n' m m' m₁ m₁' := by
  refine @Forces.rec V zero
    (fun f hole m r m₁ _ => ∀ {f' m'}, TwinFrames zero n n' m m' f f' →
      ∃ m₁', Forces zero f' hole m' r m₁' ∧ StayTwins zero n n' m m' m₁ m₁')
    (fun f p m r _ m₁ _ => ∀ {f' m'}, TwinFrames zero n n' m m' f f' →
      ∃ g' m₁', Runs zero f' p m' r g' m₁' ∧ StayTwins zero n n' m m' m₁ m₁')
    ?unset ?concrete ?kept ?ran ?value ?panic ?get ?stop ?set f hole m r m₁ h f' m' hf
  case unset =>
    intro f hole m hunset f' m' hf
    have htwin := hf hole
    rw [hunset] at htwin
    generalize hf' : f'.find? hole = found at htwin
    cases htwin with
    | none => exact ⟨m', .unset hf', .refl zero n n' m m'⟩
    | ground hc' => exact ⟨m', .concrete hf' hc', .refl zero n n' m m'⟩
  case concrete =>
    intro f hole m c v hheld hc f' m' hf
    have htwin := hf hole
    rw [hheld] at htwin
    generalize hf' : f'.find? hole = found at htwin
    cases htwin with
    | concrete hc₁ hc' =>
      cases hc.symm.trans hc₁
      exact ⟨m', .concrete hf' hc', .refl zero n n' m m'⟩
    | pending hc₁ => exact absurd (hc.symm.trans hc₁) (by simp)
  case kept =>
    intro f hole m c t previous v hheld hc f' m' hf
    have htwin := hf hole
    rw [hheld] at htwin
    generalize hf' : f'.find? hole = found at htwin
    cases htwin with
    | concrete hc₁ => exact absurd (hc.symm.trans hc₁) (by simp)
    | pending hc₁ hc' =>
      cases hc.symm.trans hc₁
      exact ⟨m', .kept hf' hc', .refl zero n n' m m'⟩
  case ran =>
    intro f hole m c t previous r g m₁ hheld hc _ ih f' m' hf
    have htwin := hf hole
    rw [hheld] at htwin
    generalize hf' : f'.find? hole = found at htwin
    cases htwin with
    | concrete hc₁ => exact absurd (hc.symm.trans hc₁) (by simp)
    | @pending k _ t' _ previous' _ hc₁ hc' hp hbelow =>
      cases hc.symm.trans hc₁
      have hbegin : TwinFrames zero n n' (m.begin t) (m'.begin t') (f.bind hole previous)
          (f'.bind hole previous') :=
        (hf.bind hbelow).later fun _ _ _ htwin => htwin.begin t t'
      obtain ⟨g', m₁', hruns, hstay⟩ := ih hbegin
      rw [hp] at hruns
      refine ⟨m₁'.keep (n' + k) r, .ran hf' hc' hruns, fun other d d' htwin => ?_⟩
      exact (hstay other d d' (htwin.begin t t')).keep k r
  case value =>
    intro f v m f' m' _
    exact ⟨f', m', .value, .refl zero n n' m m'⟩
  case panic =>
    intro f message m f' m' _
    exact ⟨f', m', .panic, .refl zero n n' m m'⟩
  case get =>
    intro f hole next m v m₁ r g m₂ _ _ ihforces ihruns f' m' hf
    obtain ⟨m₁', hforces, hstay⟩ := ihforces hf
    obtain ⟨g', m₂', hruns, hstay'⟩ := ihruns (hf.later hstay)
    exact ⟨g', m₂', .get hforces hruns, hstay.trans hstay'⟩
  case stop =>
    intro f hole next m message m₁ _ ihforces f' m' hf
    obtain ⟨m₁', hforces, hstay⟩ := ihforces hf
    exact ⟨f', m₁', .stop hforces, hstay⟩
  case set =>
    intro f hole v next m r g m₁ _ ih f' m' hf
    have hstay : StayTwins zero n n' m m' (m.push (.concrete v)) (m'.push (.concrete v)) :=
      fun _ _ _ htwin => htwin.push _ _
    have hnew : Twin zero n n' (m.push (.concrete v)) (m'.push (.concrete v)) hole
        (some m.cells.length) (some m'.cells.length) :=
      .concrete (Machine.push_cells_new m _) (Machine.push_cells_new m' _)
    obtain ⟨g', m₁', hruns, hstay'⟩ := ih ((hf.later hstay).bind hnew)
    exact ⟨g', m₁', .set hruns, hstay.trans hstay'⟩

def Level (n n' : Nat) (m m' : Machine V) : Prop :=
  ∃ k, m.cells.length = n + k ∧ m'.cells.length = n' + k

theorem Level.push {n n' : Nat} {m m' : Machine V} (h : Level n n' m m') (cell cell' : Cell V) :
    Level n n' (m.push cell) (m'.push cell') := by
  obtain ⟨k, hk, hk'⟩ := h
  refine ⟨k + 1, ?_, ?_⟩ <;> simp only [Machine.push_cells, List.length_append,
    List.length_singleton] <;> omega

inductive Pile.Grounds (z : V) : Pile V → Pile V → Prop where
  | unset : Grounds z .unset .unset
  | ground : Grounds z .unset (.value z)
  | value (v : V) : Grounds z (.value v) (.value v)
  | update {below below' : Pile V} (p : Program V) : Grounds z below below' →
      Grounds z (.update p below) (.update p below')

theorem Pile.Grounds.refl (z : V) (pile : Pile V) : Pile.Grounds z pile pile := by
  induction pile with
  | unset => exact .unset
  | value v => exact .value v
  | update p _ ih => exact .update p ih

theorem Copies.twin {zero : Text → V} {n n' : Nat} {m m' m₁ : Machine V} {hole : Text}
    {c c' copy : Option CellId} {pile pile' : Pile V} (h : Copies c m copy m₁)
    (hlevel : Level n n' m m') (hpile : Piled m c pile) (hpile' : Piled m' c' pile')
    (hground : Pile.Grounds (zero hole) pile pile') :
    ∃ copy' m₁', Copies c' m' copy' m₁' ∧ Level n n' m₁ m₁' ∧
      Twin zero n n' m₁ m₁' hole copy copy' ∧ StayTwins zero n n' m m' m₁ m₁' := by
  induction h generalizing c' pile pile' with
  | @none m =>
    cases hpile
    cases hground with
    | unset =>
      cases hpile'
      exact ⟨_, m', .none, hlevel, .none, .refl zero n n' m m'⟩
    | ground =>
      cases hpile' with
      | value hc' => exact ⟨_, m', .concrete hc', hlevel, .ground hc', .refl zero n n' m m'⟩
  | @concrete m c v hc =>
    cases hpile with
    | value hc₁ =>
      cases hground
      cases hpile' with
      | value hc' => exact ⟨_, m', .concrete hc', hlevel, .concrete hc₁ hc', .refl zero n n' m m'⟩
    | update hc₁ => exact absurd (hc.symm.trans hc₁) (by simp)
  | @pending m c t previous kept copy m₁ hc hcopy ih =>
    cases hpile with
    | value hc₁ => exact absurd (hc.symm.trans hc₁) (by simp)
    | @update _ u _ _ below hc₁ hbelow =>
      cases hc.symm.trans hc₁
      generalize hprogram : t.program = p at hground
      cases hground with
      | @update _ below' _ hground =>
        cases hpile' with
        | @update d u previous' kept' _ hc' hbelow' =>
          obtain ⟨copy', m₁', hcopy', ⟨k, hk, hk'⟩, htwin, hstay⟩ :=
            ih hlevel hbelow hbelow' hground
          have hpush : StayTwins zero n n' m₁ m₁' (m₁.push (.pending t copy Option.none))
              (m₁'.push (.pending u copy' Option.none)) := fun _ _ _ htwin => htwin.push _ _
          refine ⟨_, _, .pending hc' hcopy', Level.push ⟨k, hk, hk'⟩ _ _, ?_, hstay.trans hpush⟩
          have hnew := Machine.push_cells_new m₁ (.pending t copy Option.none)
          have hnew' := Machine.push_cells_new m₁' (.pending u copy' Option.none)
          rw [hk] at hnew ⊢
          rw [hk'] at hnew' ⊢
          exact .pending hnew hnew' hprogram (hpush _ _ _ htwin)

def Laid (m : Machine V) (holes : List (Text × CellId)) (piles : List (Text × Pile V)) : Prop :=
  List.Forall₂ (fun entry pile => entry.1 = pile.1 ∧ Piled m (some entry.2) pile.2) holes piles

inductive GroundsAll (zero : Text → V) : List (Text × Pile V) → List (Text × Pile V) → Prop where
  | rest {more : List (Text × Pile V)} : (∀ entry ∈ more, entry.2 = .value (zero entry.1)) →
      GroundsAll zero [] more
  | cons {hole : Text} {pile pile' : Pile V} {piles piles' : List (Text × Pile V)} :
      Pile.Grounds (zero hole) pile pile' → GroundsAll zero piles piles' →
      GroundsAll zero ((hole, pile) :: piles) ((hole, pile') :: piles')

theorem Laid.copiesAll_ground {zero : Text → V} {n n' : Nat} {m m' : Machine V}
    {holes : List (Text × CellId)} {more : List (Text × Pile V)} (h : Laid m' holes more)
    (hmore : ∀ entry ∈ more, entry.2 = .value (zero entry.1)) :
    CopiesAll holes m' holes m' ∧
      ∀ hole, Twin zero n n' m m' hole Option.none (holes.lookup hole) := by
  induction h with
  | nil => exact ⟨.nil, fun _ => .none⟩
  | @cons entry pile holes more hfirst _ ih =>
    obtain ⟨hpile, hmore⟩ := List.forall_mem_cons.mp hmore
    obtain ⟨hcopies, htwins⟩ := ih hmore
    obtain ⟨name, c⟩ := entry
    obtain ⟨hname, hc⟩ := hfirst
    rw [hpile, ← hname] at hc
    cases hc with
    | value hc =>
      refine ⟨.cons (.concrete hc) hcopies, fun hole => ?_⟩
      rw [Text.lookup_cons_ite]
      split
      next heq => exact .ground (heq ▸ hc)
      · exact htwins hole

theorem CopiesAll.twin {zero : Text → V} {n n' : Nat} {m m' m₁ : Machine V}
    {holes holes' copies : List (Text × CellId)} {piles piles' : List (Text × Pile V)}
    (h : CopiesAll holes m copies m₁) (hlevel : Level n n' m m') (hlaid : Laid m holes piles)
    (hlaid' : Laid m' holes' piles') (hground : GroundsAll zero piles piles') :
    ∃ copies' m₁', CopiesAll holes' m' copies' m₁' ∧ StayTwins zero n n' m m' m₁ m₁' ∧
      ∀ hole, Twin zero n n' m₁ m₁' hole (copies.lookup hole) (copies'.lookup hole) := by
  induction h generalizing m' holes' piles piles' with
  | @nil m =>
    cases hlaid
    cases hground with
    | rest hmore =>
      obtain ⟨hcopies, htwins⟩ := hlaid'.copiesAll_ground hmore
      exact ⟨holes', m', hcopies, .refl zero n n' m m', htwins⟩
  | @cons hole c holes m copy m₁ copies m₂ hcopy hrest ih =>
    cases hlaid with
    | @cons _ pile _ piles hfirst hlaid =>
      cases hground with
      | @cons name pile pile' _ piles' hpile hground =>
        cases hlaid' with
        | @cons entry _ holes' _ hfirst' hlaid' =>
          obtain ⟨copy', m₁', hcopy', hlevel₁, htwin, hstay⟩ :=
            hcopy.twin hlevel hfirst.2 hfirst'.2 hpile
          obtain ⟨copy', rfl⟩ := hcopy'.isSome
          have hlater : Laid m₁ holes piles := hlaid.imp fun _ _ hpile =>
            ⟨hpile.1, hpile.2.grows hcopy.grows⟩
          have hlater' : Laid m₁' holes' piles' := hlaid'.imp fun _ _ hpile =>
            ⟨hpile.1, hpile.2.grows hcopy'.grows⟩
          obtain ⟨copies', m₂', hrest', hstay', htwins⟩ := ih hlevel₁ hlater hlater' hground
          obtain ⟨name', c'⟩ := entry
          obtain ⟨rfl, -⟩ := hfirst
          obtain ⟨rfl, -⟩ := hfirst'
          refine ⟨(name', copy') :: copies', m₂', .cons hcopy' hrest', hstay.trans hstay', ?_⟩
          intro other
          rw [Text.lookup_cons_ite, Text.lookup_cons_ite]
          split
          next heq => exact heq ▸ hstay' _ _ _ htwin
          · exact htwins other

end Deferred

end Stencil
