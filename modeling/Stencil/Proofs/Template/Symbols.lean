import Stencil.Proofs.Text.Order
import Stencil.Template.Hole

namespace Stencil

namespace HoleType

def IsValid (t : HoleType) : Prop :=
  ∀ code, t ≠ .invalid code

theorem unify?_eq_none_iff (a b : HoleType) :
    a.unify? b = none ↔ a.isFunction ≠ b.isFunction := by
  unfold unify?
  split
  · simp_all
  · split
    · simp_all
    · split <;> simp_all

theorem unify?_shape {a b c : HoleType} (ha : a.IsValid) (hb : b.IsValid)
    (h : a.unify? b = some c) :
    c.IsValid ∧ c.isFunction = a.isFunction ∧ c.isString = (a.isString || b.isString) := by
  cases a <;> cases b <;> simp_all [unify?, isFunction, isString, IsValid] <;> subst h <;> simp

end HoleType

namespace Symbols

theorem lookup_insertInto (name other : Text) (type : HoleType) (list : List (Text × HoleType)) :
    (insertInto name type list).lookup other =
      if other = name then some type else list.lookup other := by
  induction list with
  | nil => simp [insertInto, Text.lookup_cons_ite]
  | cons entry rest ih =>
    obtain ⟨n, t⟩ := entry
    unfold insertInto
    split
    · rename_i he
      subst he
      by_cases h : other = n <;> simp [Text.lookup_cons_ite, h]
    · rename_i hne
      split
      · simp [Text.lookup_cons_ite]
      · by_cases h : other = n
        · subst h
          simp [hne]
        · simp [Text.lookup_cons_ite, ih, h]

theorem lookup?_insert (table : Symbols) (name other : Text) (type : HoleType) :
    (table.insert name type).lookup? other =
      if other = name then some type else table.lookup? other :=
  lookup_insertInto name other type table.entries

theorem mem_names_iff (table : Symbols) (name : Text) :
    name ∈ table.names ↔ ∃ type, table.lookup? name = some type := by
  unfold names lookup?
  induction table.entries with
  | nil => simp
  | cons entry rest ih =>
    obtain ⟨n, t⟩ := entry
    by_cases h : name = n <;> simp [Text.lookup_cons_ite, h, ih]

theorem mem_entries_of_lookup? {table : Symbols} {name : Text} {type : HoleType}
    (h : table.lookup? name = some type) : (name, type) ∈ table.entries := by
  obtain ⟨entries⟩ := table
  simp only [lookup?] at h ⊢
  induction entries with
  | nil => simp at h
  | cons entry rest ih =>
    obtain ⟨n, t⟩ := entry
    rw [Text.lookup_cons_ite] at h
    split at h
    · simp_all
    · exact List.mem_cons_of_mem _ (ih h)

def Ascending (table : Symbols) : Prop :=
  table.entries.Pairwise fun a b => Text.lt a.1 b.1

theorem mem_insertInto {name : Text} {type : HoleType} {list : List (Text × HoleType)}
    {entry : Text × HoleType} (h : entry ∈ insertInto name type list) :
    entry = (name, type) ∨ entry ∈ list := by
  induction list with
  | nil => simpa [insertInto] using h
  | cons first rest ih =>
    obtain ⟨n, t⟩ := first
    unfold insertInto at h
    split at h
    · rcases List.mem_cons.mp h with h | h
      · exact .inl h
      · exact .inr (List.mem_cons_of_mem _ h)
    · split at h
      · exact List.mem_cons.mp h
      · rcases List.mem_cons.mp h with h | h
        · exact .inr (by simp [h])
        · exact (ih h).imp_right (List.mem_cons_of_mem _)

theorem insertInto_ascending {list : List (Text × HoleType)}
    (h : list.Pairwise fun a b => Text.lt a.1 b.1) (name : Text) (type : HoleType) :
    (insertInto name type list).Pairwise fun a b => Text.lt a.1 b.1 := by
  induction list with
  | nil => simp [insertInto]
  | cons first rest ih =>
    obtain ⟨n, t⟩ := first
    obtain ⟨hfirst, hrest⟩ := List.pairwise_cons.mp h
    simp only [insertInto]
    split
    · rename_i he
      subst he
      exact List.pairwise_cons.mpr ⟨hfirst, hrest⟩
    · rename_i hne
      split
      · rename_i hlt
        refine List.pairwise_cons.mpr ⟨?_, h⟩
        intro e he
        rcases List.mem_cons.mp he with rfl | he
        · exact hlt
        · exact Text.lt_trans hlt (hfirst e he)
      · rename_i hlt
        refine List.pairwise_cons.mpr ⟨?_, ih hrest⟩
        intro e he
        rcases mem_insertInto he with rfl | he
        · exact (Text.lt_or_lt_of_ne hne).resolve_right hlt
        · exact hfirst e he

theorem insert_ascending {table : Symbols} (h : table.Ascending) (name : Text) (type : HoleType) :
    (table.insert name type).Ascending :=
  insertInto_ascending h name type

theorem lookup?_of_mem {table : Symbols} (h : table.Ascending) {name : Text} {type : HoleType}
    (hm : (name, type) ∈ table.entries) : table.lookup? name = some type := by
  refine Text.lookup_of_mem ?_ hm
  refine List.pairwise_map.mpr (h.imp fun {a b} hlt heq => ?_)
  rw [heq, Text.lt_irrefl] at hlt
  exact Bool.false_ne_true hlt

end Symbols

structure HoleType.SumsUp (asked : List HoleType) (type : HoleType) : Prop where
  ne_nil : asked ≠ []
  valid : type.IsValid
  function : ∀ t ∈ asked, t.isFunction = type.isFunction
  string : type.isString = asked.any isString

namespace HoleType.SumsUp

theorem single {t : HoleType} (ht : t.IsValid) : SumsUp [t] t :=
  ⟨by simp, ht, by simp, by simp⟩

theorem unify {asked : List HoleType} {a b c : HoleType} (h : SumsUp asked a) (hb : b.IsValid)
    (hu : a.unify? b = some c) : SumsUp (asked ++ [b]) c := by
  obtain ⟨hvalid, hfunction, hstring⟩ := unify?_shape h.valid hb hu
  have hab : a.isFunction = b.isFunction := by
    apply Decidable.byContradiction
    intro hne
    rw [(unify?_eq_none_iff a b).mpr hne] at hu
    cases hu
  refine ⟨by simp, hvalid, ?_, ?_⟩
  · intro t ht
    rcases List.mem_append.mp ht with ht | ht
    · rw [h.function t ht, hfunction]
    · rw [List.mem_singleton.mp ht, ← hab, hfunction]
  · simp [hstring, h.string]

theorem isString_iff {asked : List HoleType} {type : HoleType} (h : SumsUp asked type) :
    type.isString = true ↔ ∃ t ∈ asked, t.isString = true := by
  rw [h.string, List.any_eq_true]

end HoleType.SumsUp

structure Use where
  hole : Text
  type : HoleType

def Use.asked (uses : List Use) (hole : Text) : List HoleType :=
  (uses.filter (·.hole = hole)).map Use.type

theorem Use.asked_append (first second : List Use) (hole : Text) :
    asked (first ++ second) hole = asked first hole ++ asked second hole := by
  simp [asked]

theorem Use.asked_single (u : Use) (hole : Text) :
    asked [u] hole = if hole = u.hole then [u.type] else [] := by
  by_cases h : u.hole = hole
  · simp [asked, h]
  · simp [asked, h, Ne.symm h]

theorem Use.mem_asked_iff (uses : List Use) (hole : Text) (t : HoleType) :
    t ∈ asked uses hole ↔ ∃ u ∈ uses, u.hole = hole ∧ u.type = t := by
  simp [asked, and_assoc]

namespace Symbols

def registerAll (table : Symbols) : List Use → Except Clash Symbols
  | [] => .ok table
  | u :: rest =>
    match table.register u.hole u.type with
    | .ok next => next.registerAll rest
    | .error clash => .error clash

theorem registerAll_append (table : Symbols) (first second : List Use) :
    table.registerAll (first ++ second) =
      match table.registerAll first with
      | .ok next => next.registerAll second
      | .error clash => .error clash := by
  induction first generalizing table with
  | nil => rfl
  | cons u rest ih =>
    simp only [List.cons_append, registerAll]
    cases table.register u.hole u.type with
    | ok next => exact ih next
    | error clash => rfl

structure Records (table : Symbols) (uses : List Use) : Prop where
  ascending : table.Ascending
  unused : ∀ hole, table.lookup? hole = none → Use.asked uses hole = []
  used : ∀ hole type, table.lookup? hole = some type → HoleType.SumsUp (Use.asked uses hole) type

theorem records_empty : empty.Records [] :=
  ⟨.nil, fun _ _ => rfl, by simp [empty, lookup?]⟩

theorem Records.insert {table : Symbols} {uses : List Use} (h : table.Records uses) (u : Use)
    {type : HoleType} (ht : HoleType.SumsUp (Use.asked (uses ++ [u]) u.hole) type) :
    (table.insert u.hole type).Records (uses ++ [u]) := by
  have hother : ∀ hole, hole ≠ u.hole → Use.asked (uses ++ [u]) hole = Use.asked uses hole := by
    intro hole hne
    simp [Use.asked_append, Use.asked_single, hne]
  refine ⟨insert_ascending h.ascending _ _, ?_, ?_⟩
  · intro hole hl
    rw [lookup?_insert] at hl
    split at hl
    · cases hl
    · rw [hother hole ‹_›]
      exact h.unused hole hl
  · intro hole t hl
    rw [lookup?_insert] at hl
    split at hl
    · cases hl
      subst hole
      exact ht
    · rw [hother hole ‹_›]
      exact h.used hole t hl

theorem Records.register {table : Symbols} {uses : List Use} (h : table.Records uses) {u : Use}
    (hu : u.type.IsValid) :
    (∃ next, table.register u.hole u.type = .ok next ∧ next.Records (uses ++ [u])) ∨
      ∃ clash, table.register u.hole u.type = .error clash ∧
        ∃ v ∈ uses, v.hole = u.hole ∧ v.type.isFunction ≠ u.type.isFunction := by
  have happend : Use.asked (uses ++ [u]) u.hole = Use.asked uses u.hole ++ [u.type] := by
    simp [Use.asked_append, Use.asked_single]
  unfold Symbols.register
  cases hl : table.lookup? u.hole with
  | none =>
    refine .inl ⟨_, rfl, h.insert u ?_⟩
    rw [happend, h.unused _ hl]
    exact .single hu
  | some existing =>
    have hsum := h.used _ _ hl
    cases hun : existing.unify? u.type with
    | none =>
      refine .inr ⟨⟨u.hole, existing, u.type⟩, by simp only [hun], ?_⟩
      obtain ⟨t, rest, hcons⟩ := List.exists_cons_of_ne_nil hsum.ne_nil
      have ht : t ∈ Use.asked uses u.hole := by simp [hcons]
      obtain ⟨v, hmem, hhole, rfl⟩ := (Use.mem_asked_iff _ _ _).mp ht
      refine ⟨v, hmem, hhole, ?_⟩
      rw [hsum.function _ ht]
      exact (HoleType.unify?_eq_none_iff _ _).mp hun
    | some unified =>
      refine .inl ⟨_, by simp only [hun]; rfl, h.insert u ?_⟩
      rw [happend]
      exact hsum.unify hu hun

def Agree (uses : List Use) : Prop :=
  ∀ u ∈ uses, ∀ v ∈ uses, u.hole = v.hole → u.type.isFunction = v.type.isFunction

theorem Records.agree {table : Symbols} {uses : List Use} (h : table.Records uses) :
    Agree uses := by
  intro u hu v hv he
  cases hl : table.lookup? u.hole with
  | none =>
    have hmem := (Use.mem_asked_iff uses u.hole u.type).mpr ⟨u, hu, rfl, rfl⟩
    rw [h.unused _ hl] at hmem
    cases hmem
  | some type =>
    have hsum := h.used _ _ hl
    rw [hsum.function u.type ((Use.mem_asked_iff _ _ _).mpr ⟨u, hu, rfl, rfl⟩),
      hsum.function v.type ((Use.mem_asked_iff _ _ _).mpr ⟨v, hv, he.symm, rfl⟩)]

theorem Records.registerAll {table : Symbols} {before uses : List Use} (h : table.Records before)
    (hu : ∀ u ∈ uses, u.type.IsValid) :
    (∃ next, table.registerAll uses = .ok next ∧ next.Records (before ++ uses)) ∨
      ((∃ clash, table.registerAll uses = .error clash) ∧ ¬ Agree (before ++ uses)) := by
  -- The table records what came before; a clash ends the fold for good.
  induction uses generalizing table before with
  | nil => exact .inl ⟨table, rfl, by simpa using h⟩
  | cons u rest ih =>
    simp only [Symbols.registerAll]
    rcases h.register (hu u (by simp)) with ⟨next, heq, hnext⟩ | ⟨clash, heq, v, hv, hhole, hne⟩
    · rw [heq]
      have hrest := ih hnext (fun w hw => hu w (by simp [hw]))
      simpa using hrest
    · rw [heq]
      exact .inr ⟨⟨clash, rfl⟩, fun ha => hne (ha v (by simp [hv]) u (by simp) hhole)⟩

theorem registerAll_ok_iff {uses : List Use} (hu : ∀ u ∈ uses, u.type.IsValid) :
    (∃ table, empty.registerAll uses = .ok table) ↔ Agree uses := by
  rcases records_empty.registerAll hu with ⟨next, heq, hnext⟩ | ⟨⟨clash, heq⟩, hne⟩
  · exact ⟨fun _ => hnext.agree, fun _ => ⟨next, heq⟩⟩
  · simp only [List.nil_append] at hne
    constructor
    · rintro ⟨table, ht⟩
      rw [heq] at ht
      cases ht
    · exact fun ha => absurd ha hne

theorem records_of_registerAll {uses : List Use} (hu : ∀ u ∈ uses, u.type.IsValid) {table : Symbols}
    (h : empty.registerAll uses = .ok table) : table.Records uses := by
  rcases records_empty.registerAll hu with ⟨next, heq, hnext⟩ | ⟨⟨clash, heq⟩, -⟩
  · rw [heq] at h
    cases h
    exact hnext
  · rw [heq] at h
    cases h

end Symbols

end Stencil
