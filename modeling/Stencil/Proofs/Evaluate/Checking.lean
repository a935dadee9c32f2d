import Stencil.Proofs.Evaluate.Rules

namespace Stencil

open Text

theorem HoleType.satisfies_iff {bound used : HoleType} (hb : bound.IsValid) (hu : used.IsValid) :
    bound.satisfies used = true ↔
      bound.isFunction = used.isFunction ∧ (used.isString = true → bound.isString = true) := by
  cases bound <;> cases used <;>
    simp_all [satisfies, unify?, HoleType.isFunction, HoleType.isString, IsValid]

theorem Binding.type_isValid (b : Binding) : b.type.IsValid := by
  cases b <;> simp [type, HoleType.IsValid]

theorem BindingTable.lookup_bindings (table : BindingTable) (name : Text) :
    table.bindings.lookup name = (table.lookup name).join := by
  induction table with
  | nil => rfl
  | cons entry rest ih =>
    obtain ⟨key, b⟩ := entry
    cases b with
    | some b =>
      rw [bindings, lookup_cons_ite, lookup_cons_ite, ih]
      split <;> rfl
    | none =>
      rw [bindings, lookup_filter_ne, lookup_cons_ite, ih]
      split <;> rfl

namespace Document

/-- A hole of the document for which the table has nothing, or something that cannot serve one of
the occurrences of the hole. -/
inductive Lacks (doc : Document) (table : BindingTable) : Text → Prop where
  | unbound {o} : o ∈ Tree.occurrencesIn doc.tree → table.lookup o.hole = none →
      Lacks doc table o.hole
  | empty {o} : o ∈ Tree.occurrencesIn doc.tree → table.lookup o.hole = some none →
      Lacks doc table o.hole
  | unfit {o b} : o ∈ Tree.occurrencesIn doc.tree → table.lookup o.hole = some (some b) →
      ¬ b.Fits o → Lacks doc table o.hole

variable {doc : Document}

theorem lacks_iff {table : BindingTable} {hole : Text} :
    doc.Lacks table hole ↔
      ∃ o ∈ Tree.occurrencesIn doc.tree, o.hole = hole ∧ ¬ o.Served table.bindings := by
  constructor
  · rintro (⟨ho, hl⟩ | ⟨ho, hl⟩ | ⟨ho, hl, hfits⟩)
    all_goals
      refine ⟨_, ho, rfl, ?_⟩
      rintro ⟨b, hb, hb'⟩
      rw [table.lookup_bindings, hl] at hb
    · cases hb
    · cases hb
    · cases hb
      exact hfits hb'
  · rintro ⟨o, ho, rfl, hserved⟩
    cases hl : table.lookup o.hole with
    | none => exact .unbound ho hl
    | some entry =>
      cases entry with
      | none => exact .empty ho hl
      | some b =>
        refine .unfit ho hl fun hfits => hserved ⟨b, ?_, hfits⟩
        rw [table.lookup_bindings, hl]
        rfl

theorem Scanned.satisfies_iff (h : doc.Scanned) {hole : Text} {used : HoleType}
    (hl : doc.symbols.lookup? hole = some used) (b : Binding) :
    b.type.satisfies used = true ↔
      ∀ o ∈ Tree.occurrencesIn doc.tree, o.hole = hole → b.Fits o := by
  have hsum := h.records.used _ _ hl
  have hfunction : ∀ o ∈ Tree.occurrencesIn doc.tree, o.hole = hole →
      o.hasArgs = used.isFunction := by
    intro o ho hhole
    rw [← (h.wellFormed o ho).use_isFunction]
    exact hsum.function _ ((mem_asked_iff hole _).mpr ⟨o, ho, hhole, rfl⟩)
  rw [HoleType.satisfies_iff b.type_isValid hsum.valid, hsum.isString_iff]
  constructor
  · rintro ⟨hf, hs⟩ o ho hhole
    refine ⟨hf.trans (hfunction o ho hhole).symm, fun hc => hs ⟨o.use.type, ?_, ?_⟩⟩
    · exact (mem_asked_iff hole _).mpr ⟨o, ho, hhole, rfl⟩
    · rw [o.use_isString, hc]
      rfl
  · intro hfits
    constructor
    -- a hole in the table occurs somewhere, and its occurrences agree on whether it is a function
    · have hname := (Symbols.mem_names_iff doc.symbols hole).mpr ⟨used, hl⟩
      obtain ⟨o, ho, hhole⟩ := (h.mem_names_iff hole).mp hname
      exact (hfits o ho hhole).1.trans (hfunction o ho hhole)
    · rintro ⟨t, ht, hs⟩
      obtain ⟨o, ho, hhole, rfl⟩ := (mem_asked_iff hole t).mp ht
      refine (hfits o ho hhole).2 ?_
      rw [o.use_isString] at hs
      simpa using hs

end Document

namespace Evaluate

def Passes (bindings : Bindings) (entry : Text × HoleType) : Prop :=
  ∃ b, bindings.lookup entry.1 = some b ∧ b.type.satisfies entry.2 = true

inductive Refuses (path : Text) (bindings : Bindings) (name : Text) (used : HoleType) :
    RenderFault → Prop where
  | unbound : bindings.lookup name = none → Refuses path bindings name used (.unbound name)
  | mismatch {b} : bindings.lookup name = some b → b.type.satisfies used = false →
      Refuses path bindings name used (.mismatch ⟨⟨name, used, b.type⟩, { path := path }⟩)

section

variable {path : Text} {bindings : Bindings} {entries : List (Text × HoleType)}

theorem Refuses.not_passes {name : Text} {used : HoleType} {fault : RenderFault}
    (h : Refuses path bindings name used fault) : ¬ Passes bindings (name, used) := by
  rintro ⟨b, hb, hs⟩
  cases h with
  | unbound hl =>
    rw [hl] at hb
    cases hb
  | mismatch hl hno =>
    rw [hl] at hb
    cases hb
    rw [hno] at hs
    cases hs

theorem Refuses.names {name : Text} {used : HoleType} {fault : RenderFault}
    (h : Refuses path bindings name used fault) : quoted name <:+: fault.message := by
  cases h with
  | unbound => exact ⟨_, _, rfl⟩
  | mismatch =>
    refine ⟨utf8 "type conflict" ++ Place.describe { path := path } ++ utf8 ": hole ", ?_, ?_⟩
    rotate_left
    · simp only [RenderFault.message, Conflict.message, List.append_assoc]
      rfl

theorem check_cases (path : Text) (bindings : Bindings) (entries : List (Text × HoleType)) :
    (check path bindings entries = none ∧ ∀ entry ∈ entries, Passes bindings entry) ∨
      ∃ before name used after fault, check path bindings entries = some fault ∧
        entries = before ++ (name, used) :: after ∧ (∀ entry ∈ before, Passes bindings entry) ∧
        Refuses path bindings name used fault := by
  induction entries with
  | nil => exact .inl ⟨rfl, by simp⟩
  | cons entry rest ih =>
    obtain ⟨name, used⟩ := entry
    rw [check]
    cases hl : bindings.lookup name with
    | none => exact .inr ⟨[], name, used, rest, _, rfl, rfl, by simp, .unbound hl⟩
    | some b =>
      dsimp only
      by_cases hs : b.type.satisfies used = true
      · rw [if_pos hs]
        have hpasses : Passes bindings (name, used) := ⟨b, hl, hs⟩
        obtain ⟨hcheck, hall⟩ | ⟨before, other, type, after, fault, hcheck, rfl, hall, hfault⟩ := ih
        · exact .inl ⟨hcheck, List.forall_mem_cons.mpr ⟨hpasses, hall⟩⟩
        · exact .inr ⟨(name, used) :: before, other, type, after, fault, hcheck, rfl,
            List.forall_mem_cons.mpr ⟨hpasses, hall⟩, hfault⟩
      · rw [if_neg hs]
        exact .inr ⟨[], name, used, rest, _, rfl, rfl, by simp,
          .mismatch hl (Bool.eq_false_iff.mpr hs)⟩

theorem check_some_least (hentries : entries.Pairwise fun a b => Text.lt a.1 b.1)
    {fault : RenderFault} (h : check path bindings entries = some fault) :
    ∃ name used, (name, used) ∈ entries ∧ Refuses path bindings name used fault ∧
      ∀ entry ∈ entries, ¬ Passes bindings entry → Text.lt entry.1 name = false := by
  obtain ⟨hnone, -⟩ | ⟨before, name, used, after, fault', hsome, rfl, hbefore, hrefuses⟩ :=
    check_cases path bindings entries
  · rw [hnone] at h
    cases h
  · rw [hsome] at h
    cases h
    refine ⟨name, used, by simp, hrefuses, ?_⟩
    intro entry hentry hno
    rcases List.mem_append.mp hentry with hentry | hentry
    · exact absurd (hbefore entry hentry) hno
    · have hafter := (List.pairwise_cons.mp (List.pairwise_append.mp hentries).2.1).1
      rcases List.mem_cons.mp hentry with rfl | hentry
      · exact Text.lt_irrefl _
      · apply Bool.eq_false_iff.mpr
        intro hlt
        have hloop := Text.lt_trans hlt (hafter entry hentry)
        rw [Text.lt_irrefl] at hloop
        cases hloop

end

variable {doc : Document} {table : BindingTable}

theorem passes_iff (h : doc.Scanned) {hole : Text} {used : HoleType}
    (hl : doc.symbols.lookup? hole = some used) :
    Passes table.bindings (hole, used) ↔ ¬ doc.Lacks table hole := by
  have hname := (Symbols.mem_names_iff doc.symbols hole).mpr ⟨used, hl⟩
  obtain ⟨first, hfirst, hhole⟩ := (h.mem_names_iff hole).mp hname
  rw [Document.lacks_iff]
  constructor
  · rintro ⟨b, hb, hs⟩ ⟨o, ho, rfl, hno⟩
    exact hno ⟨b, hb, (h.satisfies_iff hl b).mp hs o ho rfl⟩
  · intro hno
    have hserved : ∀ o ∈ Tree.occurrencesIn doc.tree, o.hole = hole → o.Served table.bindings :=
      fun o ho heq => Classical.byContradiction fun h => hno ⟨o, ho, heq, h⟩
    obtain ⟨b, hb, -⟩ := hserved first hfirst hhole
    rw [hhole] at hb
    refine ⟨b, hb, (h.satisfies_iff hl b).mpr fun o ho heq => ?_⟩
    obtain ⟨b', hb', hfits⟩ := hserved o ho heq
    rw [heq, hb] at hb'
    cases hb'
    exact hfits

theorem allServed_of_check (h : doc.Scanned) {bindings : Bindings}
    (hcheck : check doc.path bindings doc.symbols.entries = none) :
    AllServed bindings (Tree.occurrencesIn doc.tree) := by
  intro o ho
  refine ⟨h.wellFormed o ho, ?_⟩
  obtain ⟨used, hl, -⟩ := h.lookup?_of_mem ho
  obtain ⟨-, hall⟩ | ⟨_, _, _, _, _, hsome, -⟩ :=
    check_cases doc.path bindings doc.symbols.entries
  · obtain ⟨b, hb, hs⟩ := hall _ (Symbols.mem_entries_of_lookup? hl)
    exact ⟨b, hb, (h.satisfies_iff hl b).mp hs o ho rfl⟩
  · rw [hsome] at hcheck
    cases hcheck

theorem render_of_check {bindings : Bindings} (h : doc.Scanned)
    (hcheck : check doc.path bindings doc.symbols.entries = none) :
    ∃ out calls skipped, render doc bindings = (.ok out, Trace.add {} calls) ∧
      FillsNodes bindings 0 doc.tree calls skipped out ∧ Answered doc.page bindings [] calls := by
  obtain ⟨calls, out, hrun, ⟨skipped, hfills⟩, hanswered⟩ :=
    nodes_does doc.page (allServed_of_check h hcheck) 0 {}
  refine ⟨out, calls, skipped, ?_, hfills, hanswered⟩
  rw [render, hcheck]
  dsimp only
  rw [hrun]

theorem check_eq_none_iff (h : doc.Scanned) :
    check doc.path table.bindings doc.symbols.entries = none ↔ ∀ hole, ¬ doc.Lacks table hole := by
  have hpasses : ∀ entry ∈ doc.symbols.entries,
      (Passes table.bindings entry ↔ ¬ doc.Lacks table entry.1) :=
    fun entry he => passes_iff h (Symbols.lookup?_of_mem h.records.ascending he)
  constructor
  · intro hcheck hole hlacks
    obtain ⟨o, ho, rfl, hno⟩ := Document.lacks_iff.mp hlacks
    exact hno (allServed_of_check h hcheck o ho).2
  · intro hno
    obtain ⟨hnone, -⟩ | ⟨before, name, used, after, fault, -, hentries, -, hrefuses⟩ :=
      check_cases doc.path table.bindings doc.symbols.entries
    · exact hnone
    · have hmem : (name, used) ∈ doc.symbols.entries := by simp [hentries]
      exact absurd ((hpasses _ hmem).mpr (hno name)) hrefuses.not_passes

theorem render_of_some {bindings : Bindings} {fault : RenderFault}
    (hcheck : check doc.path bindings doc.symbols.entries = some fault) :
    render doc bindings = (.error fault, {}) := by
  rw [render, hcheck]

/-- A rendering fails exactly if a hole of the document has nothing bound to it or something that
cannot serve all its occurrences; the fault is about the first such hole, and nothing was called.
Otherwise every occurrence is served, and the rendering goes by the rules. -/
theorem binding_check_exact {o : Origin} {doc : Document} (hdoc : o.document = .ok doc)
    (table : BindingTable) :
    ((∃ fault trace, render doc table.bindings = (.error fault, trace)) ↔
      ∃ hole, doc.Lacks table hole) ∧
    (∀ fault trace, render doc table.bindings = (.error fault, trace) →
      trace.calls = [] ∧ trace.failures = [] ∧
      ∃ hole used, doc.Lacks table hole ∧
        (∀ other, doc.Lacks table other → Text.lt other hole = false) ∧
        doc.symbols.lookup? hole = some used ∧
        Refuses doc.path table.bindings hole used fault ∧ quoted hole <:+: fault.message) ∧
    ((∀ hole, ¬ doc.Lacks table hole) →
      (∀ u ∈ Tree.occurrencesIn doc.tree, u.Served table.bindings) ∧
      ∃ out calls skipped, render doc table.bindings = (.ok out, Trace.add {} calls) ∧
        FillsNodes table.bindings 0 doc.tree calls skipped out) := by
  have h := Document.scanned hdoc
  refine ⟨?_, ?_, ?_⟩
  · constructor
    · rintro ⟨fault, trace, hrender⟩
      apply Classical.byContradiction
      intro hno
      have hnone := (check_eq_none_iff h).mpr (not_exists.mp hno)
      obtain ⟨out, calls, skipped, hok, -⟩ := render_of_check h hnone
      rw [hok] at hrender
      cases hrender
    · rintro ⟨hole, hlacks⟩
      cases hcheck : check doc.path table.bindings doc.symbols.entries with
      | none => exact absurd hlacks ((check_eq_none_iff h).mp hcheck hole)
      | some fault => exact ⟨fault, {}, render_of_some hcheck⟩
  · intro fault trace hrender
    cases hcheck : check doc.path table.bindings doc.symbols.entries with
    | none =>
      obtain ⟨out, calls, skipped, hok, -⟩ := render_of_check h hcheck
      rw [hok] at hrender
      cases hrender
    | some fault' =>
      rw [render_of_some hcheck] at hrender
      cases hrender
      obtain ⟨hole, used, hmem, hrefuses, hleast⟩ := check_some_least h.records.ascending hcheck
      have hl := Symbols.lookup?_of_mem h.records.ascending hmem
      refine ⟨rfl, rfl, hole, used, ?_, ?_, hl, hrefuses, hrefuses.names⟩
      · exact Classical.not_not.mp (mt (passes_iff h hl).mpr hrefuses.not_passes)
      · intro other hlacks
        obtain ⟨o, ho, rfl, -⟩ := Document.lacks_iff.mp hlacks
        obtain ⟨type, hother, -⟩ := h.lookup?_of_mem ho
        exact hleast _ (Symbols.mem_entries_of_lookup? hother)
          fun hpasses => (passes_iff h hother).mp hpasses hlacks
  · intro hno
    have hnone := (check_eq_none_iff h).mpr hno
    obtain ⟨out, calls, skipped, hrender, hfills, -⟩ := render_of_check h hnone
    exact ⟨fun u hu => (allServed_of_check h hnone u hu).2, out, calls, skipped, hrender, hfills⟩

theorem binding_check_exact_two :
    ∃ doc, (Origin.nodes none [] [.text (utf8 "$\x7bz\x7d$\x7bm\x7d"),
        .element [] (utf8 "p") [⟨[], utf8 "ml:content", utf8 "a x"⟩] []]).document = .ok doc ∧
      ∃ hole used, doc.Lacks [(utf8 "z", none), (utf8 "m", some (.fragment [])),
          (utf8 "a", some (.stringFunction fun _ _ _ => .panic []))] hole ∧
        doc.symbols.lookup? hole = some used ∧
        quoted hole <:+: RenderFault.message
          (.mismatch ⟨⟨utf8 "m", .string, .fragment⟩, { path := [] }⟩) := by
  refine ⟨_, rfl, ?_⟩
  obtain ⟨-, -, hole, used, hlacks, -, hl, -, hnames⟩ :=
    (binding_check_exact (o := .nodes none [] [.text (utf8 "$\x7bz\x7d$\x7bm\x7d"),
      .element [] (utf8 "p") [⟨[], utf8 "ml:content", utf8 "a x"⟩] []]) rfl
      [(utf8 "z", none), (utf8 "m", some (.fragment [])),
        (utf8 "a", some (.stringFunction fun _ _ _ => .panic []))]).2.1 _ _ rfl
  exact ⟨hole, used, hlacks, hl, hnames⟩

end Evaluate

end Stencil
