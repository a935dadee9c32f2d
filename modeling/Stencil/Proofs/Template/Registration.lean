import Stencil.Proofs.Template.Reading

namespace Stencil

namespace HoleType

def mixture (isFunction : Bool) : HoleType :=
  if isFunction then .stringFunction else .string

theorem mixture_isFunction (b : Bool) : (mixture b).isFunction = b := by
  cases b <;> rfl

theorem unify?_self (a : HoleType) : a.unify? a = some a := by
  simp [unify?]

theorem unify?_of_ne {a b c : HoleType} (hne : a ≠ b) (h : a.unify? b = some c) :
    c = mixture a.isFunction := by
  unfold unify? at h
  split at h
  · cases h
  · unfold mixture
    split at h <;> simp_all

theorem unify?_mixture {isFunction : Bool} {b c : HoleType}
    (h : (mixture isFunction).unify? b = some c) : c = mixture isFunction := by
  by_cases he : mixture isFunction = b
  · rw [← he, unify?_self] at h
    exact (Option.some.inj h).symm
  · rw [unify?_of_ne he h, mixture_isFunction]

theorem unify?_isFunction {a b c : HoleType} (h : a.unify? b = some c) :
    a.isFunction = c.isFunction ∧ b.isFunction = c.isFunction := by
  have hab : a.isFunction = b.isFunction := by
    apply Decidable.byContradiction
    intro hne
    rw [(unify?_eq_none_iff a b).mpr hne] at h
    cases h
  by_cases he : a = b
  · rw [← he, unify?_self] at h
    cases h
    exact ⟨rfl, hab.symm⟩
  · rw [unify?_of_ne he h, mixture_isFunction]
    exact ⟨rfl, hab.symm⟩

end HoleType

namespace Symbols

inductive Comes (made : List Use) (hole : Text) : Option HoleType → Prop where
  | unused : (∀ u ∈ made, u.hole ≠ hole) → Comes made hole none
  | agreed {u} : u ∈ made → u.hole = hole → (∀ v ∈ made, v.hole = hole → v.type = u.type) →
      Comes made hole (some u.type)
  | mixed {u v} : u ∈ made → v ∈ made → u.hole = hole → v.hole = hole → u.type ≠ v.type →
      Comes made hole (some (.mixture u.type.isFunction))

namespace Comes

variable {made other : List Use} {hole : Text} {type : Option HoleType}

theorem congr (h : Comes made hole type) (hm : ∀ u, u ∈ made ↔ u ∈ other) :
    Comes other hole type := by
  cases h with
  | unused hno => exact .unused fun u hu => hno u ((hm u).mpr hu)
  | agreed hu hhole hall =>
    exact .agreed ((hm _).mp hu) hhole fun v hv => hall v ((hm v).mpr hv)
  | mixed hu hv hhole hhole' hne => exact .mixed ((hm _).mp hu) ((hm _).mp hv) hhole hhole' hne

theorem unique {type' : Option HoleType} (ha : Agree made) (h : Comes made hole type)
    (h' : Comes made hole type') : type = type' := by
  cases h with
  | unused hno =>
    cases h' with
    | unused => rfl
    | agreed hu hhole => exact absurd hhole (hno _ hu)
    | mixed hu _ hhole => exact absurd hhole (hno _ hu)
  | agreed hu hhole hall =>
    cases h' with
    | unused hno => exact absurd hhole (hno _ hu)
    | agreed hv hhole' => rw [hall _ hv hhole']
    | mixed hv hw hhole' hhole'' hne =>
      exact absurd ((hall _ hv hhole').trans (hall _ hw hhole'').symm) hne
  | mixed hu hv hhole hhole' hne =>
    cases h' with
    | unused hno => exact absurd hhole (hno _ hu)
    | agreed hw _ hall => exact absurd ((hall _ hu hhole).trans (hall _ hv hhole').symm) hne
    | mixed hw _ hwhole =>
      have hshape := ha _ hu _ hw (hhole.trans hwhole.symm)
      rw [hshape]

theorem other_hole {u : Use} (h : Comes made hole type) (hne : u.hole ≠ hole) :
    Comes (made ++ [u]) hole type := by
  cases h with
  | unused hno =>
    refine .unused fun v hv => ?_
    rcases List.mem_append.mp hv with hv | hv
    · exact hno v hv
    · rwa [List.mem_singleton.mp hv]
  | agreed hv hhole hall =>
    refine .agreed (List.mem_append_left _ hv) hhole fun w hw hwhole => ?_
    rcases List.mem_append.mp hw with hw | hw
    · exact hall w hw hwhole
    · rw [List.mem_singleton.mp hw] at hwhole
      exact absurd hwhole hne
  | mixed hv hw hhole hhole' hdiff =>
    exact .mixed (List.mem_append_left _ hv) (List.mem_append_left _ hw) hhole hhole' hdiff

theorem first {u : Use} (h : Comes made u.hole none) :
    Comes (made ++ [u]) u.hole (some u.type) := by
  cases h with
  | unused hno =>
    refine .agreed (by simp) rfl fun v hv hhole => ?_
    rcases List.mem_append.mp hv with hv | hv
    · exact absurd hhole (hno v hv)
    · rw [List.mem_singleton.mp hv]

theorem unify {u : Use} {existing unified : HoleType} (h : Comes made u.hole (some existing))
    (hu : existing.unify? u.type = some unified) :
    Comes (made ++ [u]) u.hole (some unified) := by
  have hlast : u ∈ made ++ [u] := by simp
  generalize hs : some existing = seen at h
  cases h with
  | unused => cases hs
  | @agreed v hv hhole hall =>
    cases hs
    by_cases he : v.type = u.type
    · rw [he, HoleType.unify?_self] at hu
      cases hu
      refine .agreed hlast rfl fun w hw hwhole => ?_
      rcases List.mem_append.mp hw with hw | hw
      · rw [hall w hw hwhole, he]
      · rw [List.mem_singleton.mp hw]
    · rw [HoleType.unify?_of_ne he hu]
      exact .mixed (List.mem_append_left _ hv) hlast hhole rfl he
  | mixed hv hw hhole hhole' hdiff =>
    cases hs
    rw [HoleType.unify?_mixture hu]
    exact .mixed (List.mem_append_left _ hv) (List.mem_append_left _ hw) hhole hhole' hdiff

theorem isFunction_eq {type : HoleType} {v : Use} (ha : Agree made)
    (h : Comes made hole (some type)) (hv : v ∈ made) (hhole : v.hole = hole) :
    v.type.isFunction = type.isFunction := by
  generalize hs : some type = seen at h
  cases h with
  | unused => cases hs
  | agreed _ _ hall =>
    cases hs
    rw [hall v hv hhole]
  | @mixed u _ hu _ huhole =>
    cases hs
    rw [ha v hv u hu (hhole.trans huhole.symm), HoleType.mixture_isFunction]

end Comes

structure Tells (table : Symbols) (made : List Use) : Prop where
  ascending : table.Ascending
  agree : Agree made
  comes : ∀ hole, Comes made hole (table.lookup? hole)

theorem tells_empty : empty.Tells [] where
  ascending := .nil
  agree := by simp [Agree]
  comes := fun _ => .unused (by simp)

theorem Ascending.nodup {table : Symbols} (h : table.Ascending) : table.entries.Nodup := by
  refine List.Pairwise.imp ?_ h
  intro a b hlt heq
  rw [heq, Text.lt_irrefl] at hlt
  cases hlt

theorem eq_of_lookup? {table other : Symbols} (h : table.Ascending) (h' : other.Ascending)
    (hl : ∀ hole, table.lookup? hole = other.lookup? hole) : table = other := by
  have hmem : ∀ entry, entry ∈ table.entries ↔ entry ∈ other.entries := by
    rintro ⟨name, type⟩
    constructor
    · intro hm
      exact mem_entries_of_lookup? ((hl name).symm.trans (lookup?_of_mem h hm))
    · intro hm
      exact mem_entries_of_lookup? ((hl name).trans (lookup?_of_mem h' hm))
  have hperm : table.entries.Perm other.entries :=
    (List.perm_ext_iff_of_nodup h.nodup h'.nodup).mpr hmem
  have hentries : table.entries = other.entries := by
    refine hperm.eq_of_pairwise ?_ h h'
    intro a b _ _ hab hba
    have hloop := Text.lt_trans hab hba
    rw [Text.lt_irrefl] at hloop
    cases hloop
  cases table
  cases other
  exact congrArg Symbols.mk hentries

namespace Tells

variable {table : Symbols} {made : List Use}

theorem unique {next : Symbols} {others : List Use} (h : table.Tells made) (h' : next.Tells others)
    (hm : ∀ u, u ∈ made ↔ u ∈ others) : table = next := by
  refine eq_of_lookup? h.ascending h'.ascending fun hole => ?_
  exact ((h.comes hole).congr hm).unique h'.agree (h'.comes hole)

theorem insert {u : Use} {type : HoleType} (h : table.Tells made)
    (hagree : ∀ v ∈ made, v.hole = u.hole → v.type.isFunction = u.type.isFunction)
    (ht : Comes (made ++ [u]) u.hole (some type)) :
    (table.insert u.hole type).Tells (made ++ [u]) := by
  refine ⟨insert_ascending h.ascending _ _, ?_, ?_⟩
  · intro v hv w hw he
    rcases List.mem_append.mp hv with hv | hv <;> rcases List.mem_append.mp hw with hw | hw
    · exact h.agree v hv w hw he
    · rw [List.mem_singleton.mp hw] at he ⊢
      exact hagree v hv he
    · rw [List.mem_singleton.mp hv] at he ⊢
      exact (hagree w hw he.symm).symm
    · rw [List.mem_singleton.mp hv, List.mem_singleton.mp hw]
  · intro hole
    rw [lookup?_insert]
    split
    · rename_i he
      rw [he]
      exact ht
    · rename_i hne
      exact (h.comes hole).other_hole (Ne.symm hne)

theorem register (h : table.Tells made) (u : Use) :
    (∃ next, table.register u.hole u.type = .ok next ∧ next.Tells (made ++ [u])) ∨
      ∃ clash, table.register u.hole u.type = .error clash ∧
        ∃ v ∈ made, v.hole = u.hole ∧ v.type.isFunction ≠ u.type.isFunction := by
  unfold Symbols.register
  have hcomes := h.comes u.hole
  cases hl : table.lookup? u.hole with
  | none =>
    rw [hl] at hcomes
    refine .inl ⟨_, rfl, h.insert ?_ hcomes.first⟩
    intro v hv hhole
    cases hcomes with
    | unused hno => exact absurd hhole (hno v hv)
  | some existing =>
    rw [hl] at hcomes
    have hshape : ∀ v ∈ made, v.hole = u.hole → v.type.isFunction = existing.isFunction :=
      fun v hv hhole => hcomes.isFunction_eq h.agree hv hhole
    cases hu : existing.unify? u.type with
    | some unified =>
      refine .inl ⟨_, by simp only [hu], h.insert ?_ (hcomes.unify hu)⟩
      intro v hv hhole
      have hsame : ¬ existing.isFunction ≠ u.type.isFunction := by
        rw [← HoleType.unify?_eq_none_iff, hu]
        simp
      rw [hshape v hv hhole]
      exact Decidable.not_not.mp hsame
    | none =>
      refine .inr ⟨⟨u.hole, existing, u.type⟩, by simp only [hu], ?_⟩
      have hdiff := (HoleType.unify?_eq_none_iff _ _).mp hu
      obtain ⟨v, hv, hhole⟩ : ∃ v ∈ made, v.hole = u.hole := by
        cases hcomes with
        | agreed hv hhole => exact ⟨_, hv, hhole⟩
        | mixed hv _ hhole => exact ⟨_, hv, hhole⟩
      exact ⟨v, hv, hhole, by rwa [hshape v hv hhole]⟩

theorem register_again (h : table.Tells made) {u : Use} (hu : u ∈ made) :
    table.register u.hole u.type = .ok table := by
  obtain ⟨next, hok, hnext⟩ | ⟨clash, _, v, hv, hhole, hne⟩ := h.register u
  · have hmem : ∀ v, v ∈ made ++ [u] ↔ v ∈ made := by
      intro v
      simp only [List.mem_append, List.mem_singleton, or_iff_left_iff_imp]
      rintro rfl
      exact hu
    rw [hok, hnext.unique h hmem]
  · exact absurd (h.agree v hv u hu hhole) hne

end Tells

/-! Whether a hole takes arguments is settled by its first registration, whatever table they start
from. -/

def HasShape (table : Symbols) (hole : Text) (isFunction : Bool) : Prop :=
  ∃ type, table.lookup? hole = some type ∧ type.isFunction = isFunction

theorem hasShape_insert {table : Symbols} {hole name : Text} {type : HoleType} {shape : Bool}
    (h : table.HasShape hole shape) (ht : hole = name → type.isFunction = shape) :
    (table.insert name type).HasShape hole shape := by
  unfold HasShape
  rw [lookup?_insert]
  split
  · rename_i he
    exact ⟨type, rfl, ht he⟩
  · exact h

theorem HasShape.register {table next : Symbols} {hole : Text} {shape : Bool} {u : Use}
    (h : table.HasShape hole shape) (hr : table.register u.hole u.type = .ok next) :
    next.HasShape hole shape := by
  unfold Symbols.register at hr
  split at hr
  · rename_i hl
    cases hr
    refine hasShape_insert h fun he => ?_
    obtain ⟨type, ht, -⟩ := h
    rw [he, hl] at ht
    cases ht
  · rename_i existing hl
    split at hr
    · cases hr
    · rename_i unified hu
      cases hr
      refine hasShape_insert h fun he => ?_
      obtain ⟨type, ht, hshape⟩ := h
      rw [he, hl] at ht
      cases ht
      rw [← (HoleType.unify?_isFunction hu).1, hshape]

theorem hasShape_of_register {table next : Symbols} {u : Use}
    (hr : table.register u.hole u.type = .ok next) : next.HasShape u.hole u.type.isFunction := by
  unfold Symbols.register at hr
  split at hr
  · cases hr
    exact ⟨u.type, by simp [lookup?_insert], rfl⟩
  · split at hr
    · cases hr
    · rename_i unified hu
      cases hr
      exact ⟨unified, by simp [lookup?_insert], (HoleType.unify?_isFunction hu).2.symm⟩

theorem registerAll_cons_ok {table next : Symbols} {u : Use} {rest : List Use}
    (h : table.registerAll (u :: rest) = .ok next) :
    ∃ middle, table.register u.hole u.type = .ok middle ∧ middle.registerAll rest = .ok next := by
  rw [registerAll] at h
  cases hr : table.register u.hole u.type with
  | ok middle =>
    rw [hr] at h
    exact ⟨middle, rfl, h⟩
  | error clash => rw [hr] at h; cases h

theorem HasShape.registerAll {table next : Symbols} {hole : Text} {shape : Bool} {uses : List Use}
    (h : table.HasShape hole shape) (hr : table.registerAll uses = .ok next) :
    next.HasShape hole shape := by
  induction uses generalizing table with
  | nil => cases hr; exact h
  | cons u rest ih =>
    obtain ⟨middle, hu, hrest⟩ := registerAll_cons_ok hr
    exact ih (h.register hu) hrest

theorem hasShape_of_registerAll {table next : Symbols} {uses : List Use}
    (h : table.registerAll uses = .ok next) :
    ∀ u ∈ uses, next.HasShape u.hole u.type.isFunction := by
  induction uses generalizing table with
  | nil => simp
  | cons u rest ih =>
    obtain ⟨middle, hu, hrest⟩ := registerAll_cons_ok h
    exact List.forall_mem_cons.mpr ⟨(hasShape_of_register hu).registerAll hrest, ih hrest⟩

theorem agree_of_registerAll {table next : Symbols} {uses : List Use}
    (h : table.registerAll uses = .ok next) : Agree uses := by
  intro u hu v hv he
  obtain ⟨type, ht, hshape⟩ := hasShape_of_registerAll h u hu
  obtain ⟨type', ht', hshape'⟩ := hasShape_of_registerAll h v hv
  rw [he, ht'] at ht
  cases ht
  rw [← hshape, hshape']

end Symbols

/-! Runs of registrations. -/

namespace Registration

def run (uses : List Use) : StateM Symbols (List (Except TextError Unit)) :=
  uses.mapM fun u => (Scan.register u.hole u.type).run

def results (uses : List Use) : List (Except TextError Unit) :=
  ((run uses).run Symbols.empty).1

def table (uses : List Use) : Symbols :=
  ((run uses).run Symbols.empty).2

def Conflicts (uses : List Use) : Prop :=
  ∃ e, .error e ∈ results uses

/-- The registrations that were made: those that clashed are left out. -/
def accepted : List Use → List (Except TextError Unit) → List Use
  | u :: rest, .ok _ :: results => u :: accepted rest results
  | _ :: rest, .error _ :: results => accepted rest results
  | _, _ => []

theorem run_cons_ok {start next : Symbols} {u : Use} (rest : List Use)
    (h : start.register u.hole u.type = .ok next) :
    (run (u :: rest)).run start =
      (.ok () :: ((run rest).run next).1, ((run rest).run next).2) := by
  have hfirst : StateT.run (Scan.register u.hole u.type).run start = (.ok (), next) := by
    have hrun := Scan.run_register u.hole u.type start
    rw [h] at hrun
    exact hrun
  rw [run, List.mapM_cons, StateT.run_bind, hfirst]
  rfl

theorem run_cons_error {start : Symbols} {u : Use} (rest : List Use) {clash : Clash}
    (h : start.register u.hole u.type = .error clash) :
    (run (u :: rest)).run start =
      (.error (.conflict ⟨clash, {}⟩) :: ((run rest).run start).1, ((run rest).run start).2) := by
  have hfirst : StateT.run (Scan.register u.hole u.type).run start =
      (.error (.conflict ⟨clash, {}⟩), start) := by
    have hrun := Scan.run_register u.hole u.type start
    rw [h] at hrun
    exact hrun
  rw [run, List.mapM_cons, StateT.run_bind, hfirst]
  rfl

theorem register_error {start next : Symbols} {u : Use} {e : TextError}
    (h : StateT.run (Scan.register u.hole u.type).run start = (.error e, next)) : next = start := by
  have hrun := Scan.run_register u.hole u.type start
  cases hr : start.register u.hole u.type with
  | ok after =>
    rw [hr] at hrun
    cases hrun.symm.trans h
  | error clash =>
    rw [hr] at hrun
    cases hrun.symm.trans h
    rfl

section

variable {start : Symbols} {made uses : List Use}

theorem tells_run (h : start.Tells made) (uses : List Use) :
    ((run uses).run start).2.Tells (made ++ accepted uses ((run uses).run start).1) := by
  induction uses generalizing start made with
  | nil =>
    have hnil : made ++ accepted [] ((run []).run start).1 = made := by simp [accepted]
    rw [hnil]
    exact h
  | cons u rest ih =>
    obtain ⟨next, hok, hnext⟩ | ⟨clash, herror, -⟩ := h.register u
    · rw [run_cons_ok rest hok]
      have hrest := ih hnext
      rwa [List.append_assoc] at hrest
    · rw [run_cons_error rest herror]
      exact ih h

theorem run_cases (h : start.Tells made) (uses : List Use) :
    ((∀ r ∈ ((run uses).run start).1, r = .ok ()) ∧ Symbols.Agree (made ++ uses) ∧
        accepted uses ((run uses).run start).1 = uses) ∨
      (∃ e, .error e ∈ ((run uses).run start).1) ∧ ¬ Symbols.Agree (made ++ uses) := by
  induction uses generalizing start made with
  | nil =>
    refine .inl ⟨?_, by simpa using h.agree, rfl⟩
    intro r hr
    cases hr
  | cons u rest ih =>
    obtain ⟨next, hok, hnext⟩ | ⟨clash, herror, v, hv, hhole, hne⟩ := h.register u
    · have hrest := ih hnext
      rw [List.append_assoc] at hrest
      rw [run_cons_ok rest hok]
      obtain ⟨hall, hagree, haccepted⟩ | ⟨⟨e, he⟩, hclash⟩ := hrest
      · exact .inl ⟨List.forall_mem_cons.mpr ⟨rfl, hall⟩, hagree, congrArg (u :: ·) haccepted⟩
      · exact .inr ⟨⟨e, List.mem_cons_of_mem _ he⟩, hclash⟩
    · rw [run_cons_error rest herror]
      refine .inr ⟨⟨_, List.mem_cons_self⟩, fun hagree => hne ?_⟩
      exact hagree v (List.mem_append_left _ hv) u (by simp) hhole

theorem run_again (h : start.Tells made) {again : List Use} (hagain : ∀ u ∈ again, u ∈ made) :
    (run again).run start = (again.map fun _ => .ok (), start) := by
  induction again with
  | nil => rfl
  | cons u rest ih =>
    have hu := h.register_again (hagain u List.mem_cons_self)
    rw [run_cons_ok rest hu, ih fun v hv => hagain v (List.mem_cons_of_mem _ hv)]
    rfl

end

theorem conflicts_iff (uses : List Use) : Conflicts uses ↔ ¬ Symbols.Agree uses := by
  obtain ⟨hall, hagree, -⟩ | ⟨hsome, hclash⟩ := run_cases Symbols.tells_empty uses
  · refine iff_of_false ?_ (not_not_intro hagree)
    rintro ⟨e, he⟩
    cases hall _ he
  · exact iff_of_true hsome hclash

theorem not_agree_iff (uses : List Use) :
    ¬ Symbols.Agree uses ↔ ∃ u ∈ uses, ∃ v ∈ uses, u.hole = v.hole ∧
      u.type.isFunction = true ∧ v.type.isFunction = false := by
  constructor
  · intro hno
    apply Classical.byContradiction
    intro hnone
    apply hno
    intro u hu v hv he
    cases hfu : u.type.isFunction <;> cases hfv : v.type.isFunction <;> try rfl
    · exact absurd ⟨v, hv, u, hu, he.symm, hfv, hfu⟩ hnone
    · exact absurd ⟨u, hu, v, hv, he, hfu, hfv⟩ hnone
  · rintro ⟨u, hu, v, hv, he, hfu, hfv⟩ hagree
    have hsame := hagree u hu v hv he
    rw [hfu, hfv] at hsame
    cases hsame

theorem tells_table {uses : List Use} (h : ¬ Conflicts uses) : (table uses).Tells uses := by
  obtain ⟨-, -, haccepted⟩ | ⟨hsome, -⟩ := run_cases Symbols.tells_empty uses
  · have htells := tells_run Symbols.tells_empty uses
    rwa [haccepted] at htells
  · exact absurd hsome h

/-- Whether registrations clash does not depend on their order, and neither does the table they
come to; making them again changes nothing, and one that fails leaves the table as it was. -/
theorem order_independent {uses other : List Use} (h : uses.Perm other) :
    (Conflicts uses ↔ Conflicts other) ∧
    (Conflicts uses ↔ ∃ u ∈ uses, ∃ v ∈ uses, u.hole = v.hole ∧
      u.type.isFunction = true ∧ v.type.isFunction = false) ∧
    (¬ Conflicts uses → table uses = table other ∧
      ∀ hole, Symbols.Comes uses hole ((table uses).lookup? hole)) ∧
    (∀ again, (∀ u ∈ again, u ∈ accepted uses (results uses)) →
      (run again).run (table uses) = (again.map fun _ => .ok (), table uses)) ∧
    ∀ (start next : Symbols) (u : Use) (e : TextError),
      StateT.run (Scan.register u.hole u.type).run start = (.error e, next) → next = start := by
  have hmixed := (conflicts_iff uses).trans (not_agree_iff uses)
  have hsame : Conflicts uses ↔ Conflicts other := by
    rw [hmixed, conflicts_iff, not_agree_iff]
    simp only [h.mem_iff]
  refine ⟨hsame, hmixed, ?_, ?_, fun start next u e => register_error⟩
  · intro hno
    have htells := tells_table hno
    refine ⟨htells.unique (tells_table (mt hsame.mpr hno)) fun u => h.mem_iff, htells.comes⟩
  · intro again hagain
    exact run_again (tells_run Symbols.tells_empty uses) hagain

theorem order_independent_unknown :
    table [⟨utf8 "b", .invalid 7⟩, ⟨utf8 "a", .fragmentFunction⟩, ⟨utf8 "b", .fragment⟩] =
      table [⟨utf8 "b", .fragment⟩, ⟨utf8 "b", .invalid 7⟩, ⟨utf8 "a", .fragmentFunction⟩] ∧
    (table [⟨utf8 "b", .fragment⟩, ⟨utf8 "b", .invalid 7⟩,
      ⟨utf8 "a", .fragmentFunction⟩]).lookup? (utf8 "b") = some .string := by
  let two : List Use := [⟨utf8 "b", .invalid 7⟩, ⟨utf8 "a", .fragmentFunction⟩]
  let last : List Use := [⟨utf8 "b", .fragment⟩]
  have hno : ¬ Conflicts (two ++ last) := by
    rintro ⟨e, he⟩
    have hresults : results (two ++ last) = [.ok (), .ok (), .ok ()] := rfl
    rw [hresults] at he
    simp at he
  have hperm : (two ++ last).Perm (last ++ two) := List.perm_append_comm
  exact ⟨((order_independent hperm).2.2.1 hno).1, rfl⟩

end Registration

end Stencil
