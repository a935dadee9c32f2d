import Stencil.Proofs.Template.Reading

namespace Stencil

inductive Origin where
  | file (fs : FileSystem) (name : Text)
  | nodes (fs : Option FileSystem) (dir : Text) (list : List Markup.Node)

namespace Origin

def document : Origin → Except TemplateError Document
  | .file fs name => Document.read fs name
  | .nodes fs dir list => Document.ofNodes fs dir list

def path : Origin → Text
  | .file _ name => name
  | .nodes _ _ _ => []

def page : Origin → Except TemplateError (List PageNode × Page.Sources)
  | .file fs name =>
    match fs.read name with
    | .error e => .error (.unreadable name e)
    | .ok content =>
      (Page.expand (some fs) [name] ⟨name, Path.dir name⟩ (Markup.parse content)).run
        ⟨[(name, content)]⟩
  | .nodes fs dir list =>
    (Page.expand fs [] ⟨[], if dir.isEmpty then [Ascii.dot] else dir⟩ list).run {}

theorem document_eq (o : Origin) :
    o.document = o.page.bind fun p => Document.ofPage o.path p.1 p.2 := by
  cases o with
  | file fs name =>
    unfold document page Document.read
    dsimp only
    cases fs.read name with
    | error e => rfl
    | ok content => rfl
  | nodes fs dir list => rfl

end Origin

namespace Occurrence

theorem use_hole (o : Occurrence) : o.use.hole = o.hole := by
  cases o <;> rfl

theorem use_isValid (o : Occurrence) : o.use.type.IsValid := by
  cases o with
  | value hole => simp [use, HoleType.IsValid]
  | call hole args => simp [use, HoleType.IsValid]
  | content hole args => cases args <;> simp [use, Scan.contentType, HoleType.IsValid]

theorem use_isString (o : Occurrence) : o.use.type.isString = !o.isContent := by
  cases o with
  | value hole => rfl
  | call hole args => rfl
  | content hole args => cases args <;> rfl

theorem WellFormed.use_isFunction {o : Occurrence} (h : o.WellFormed) :
    o.use.type.isFunction = o.hasArgs := by
  cases o with
  | value hole => rfl
  | call hole args =>
    cases args with
    | nil => exact absurd rfl h.2
    | cons arg args => rfl
  | content hole args => cases args <;> rfl

def Typed (symbols : Symbols) : Occurrence → Prop
  | .value hole => symbols.lookup? hole = some .string
  | .call hole args => args ≠ [] ∧ symbols.lookup? hole = some .stringFunction
  | .content hole [] =>
    symbols.lookup? hole = some .fragment ∨ symbols.lookup? hole = some .string
  | .content hole (_ :: _) =>
    symbols.lookup? hole = some .fragmentFunction ∨ symbols.lookup? hole = some .stringFunction

end Occurrence

namespace Document

structure Scanned (doc : Document) : Prop where
  wellFormed : ∀ o ∈ Tree.occurrencesIn doc.tree, o.WellFormed
  records : doc.symbols.Records ((Tree.occurrencesIn doc.tree).map Occurrence.use)

theorem use_isValid_of_mem {list : List Occurrence} :
    ∀ u ∈ list.map Occurrence.use, u.type.IsValid := by
  intro u hu
  obtain ⟨o, -, rfl⟩ := List.mem_map.mp hu
  exact o.use_isValid

theorem ofPage_of_agree (path : Text) {page : List PageNode} (sources : Page.Sources)
    {tree : List Tree} (ht : Reading.nodes? page = some tree)
    (ha : Symbols.Agree ((Tree.occurrencesIn tree).map Occurrence.use)) :
    ∃ symbols, ofPage path page sources =
      .ok ⟨path, PageNode.toNodes page, tree, symbols, sources.names⟩ := by
  obtain ⟨symbols, hs⟩ := (Symbols.registerAll_ok_iff use_isValid_of_mem).mpr ha
  refine ⟨symbols, ?_⟩
  rw [ofPage, (Scan.nodes_follows sources path page).done ht hs]

theorem ofPage_of_not_agree {path : Text} {page : List PageNode} {sources : Page.Sources}
    {tree : List Tree} (ht : Reading.nodes? page = some tree)
    (ha : ¬ Symbols.Agree ((Tree.occurrencesIn tree).map Occurrence.use)) :
    ∃ e, ofPage path page sources = .error (.text (.conflict e)) := by
  cases hr : Symbols.empty.registerAll ((Tree.occurrencesIn tree).map Occurrence.use) with
  | ok symbols => exact absurd ((Symbols.registerAll_ok_iff use_isValid_of_mem).mp ⟨symbols, hr⟩) ha
  | error clash =>
    obtain ⟨place, next, he⟩ := (Scan.nodes_follows sources path page).clash ht hr
    exact ⟨⟨clash, place⟩, by rw [ofPage, he]⟩

theorem ofPage_eq_ok_iff {path : Text} {page : List PageNode} {sources : Page.Sources}
    {doc : Document} :
    ofPage path page sources = .ok doc ↔ ∃ tree symbols, Reading.nodes? page = some tree ∧
      Symbols.empty.registerAll ((Tree.occurrencesIn tree).map Occurrence.use) = .ok symbols ∧
      doc = ⟨path, PageNode.toNodes page, tree, symbols, sources.names⟩ := by
  have hscan := Scan.nodes_follows sources path page
  constructor
  · intro h
    cases ht : Reading.nodes? page with
    | none =>
      obtain ⟨e, next, he⟩ := hscan.fails ht Symbols.empty
      rw [ofPage, he] at h
      cases h
    | some tree =>
      cases hr : Symbols.empty.registerAll ((Tree.occurrencesIn tree).map Occurrence.use) with
      | error clash =>
        obtain ⟨place, next, he⟩ := hscan.clash ht hr
        rw [ofPage, he] at h
        cases h
      | ok symbols =>
        rw [ofPage, hscan.done ht hr] at h
        cases h
        exact ⟨tree, symbols, rfl, hr, rfl⟩
  · rintro ⟨tree, symbols, ht, hr, rfl⟩
    rw [ofPage, hscan.done ht hr]

theorem scanned_of_ofPage {path : Text} {page : List PageNode} {sources : Page.Sources}
    {doc : Document} (h : ofPage path page sources = .ok doc) : doc.Scanned := by
  obtain ⟨tree, symbols, ht, hr, rfl⟩ := ofPage_eq_ok_iff.mp h
  exact ⟨Reading.nodes?_wellFormed ht, Symbols.records_of_registerAll use_isValid_of_mem hr⟩

theorem scanned {o : Origin} {doc : Document} (h : o.document = .ok doc) : doc.Scanned := by
  rw [o.document_eq] at h
  cases hp : o.page with
  | error e => rw [hp] at h; cases h
  | ok p => rw [hp] at h; exact scanned_of_ofPage h

namespace Scanned

variable {doc : Document}

theorem mem_asked_iff (hole : Text) (t : HoleType) :
    t ∈ Use.asked ((Tree.occurrencesIn doc.tree).map Occurrence.use) hole ↔
      ∃ o ∈ Tree.occurrencesIn doc.tree, o.hole = hole ∧ o.use.type = t := by
  rw [Use.mem_asked_iff]
  constructor
  · rintro ⟨u, hu, rfl, rfl⟩
    obtain ⟨o, ho, rfl⟩ := List.mem_map.mp hu
    exact ⟨o, ho, o.use_hole.symm, rfl⟩
  · rintro ⟨o, ho, rfl, rfl⟩
    exact ⟨o.use, List.mem_map_of_mem ho, o.use_hole, rfl⟩

theorem lookup?_of_mem (h : doc.Scanned) {o : Occurrence} (ho : o ∈ Tree.occurrencesIn doc.tree) :
    ∃ type, doc.symbols.lookup? o.hole = some type ∧ type.IsValid ∧ type.isFunction = o.hasArgs ∧
      (o.isContent = false → type.isString = true) := by
  have hasked := (mem_asked_iff o.hole o.use.type).mpr ⟨o, ho, rfl, rfl⟩
  cases hl : doc.symbols.lookup? o.hole with
  | none =>
    rw [h.records.unused _ hl] at hasked
    cases hasked
  | some type =>
    have hsum := h.records.used _ _ hl
    refine ⟨type, rfl, hsum.valid, ?_, ?_⟩
    · rw [← hsum.function _ hasked]
      exact (h.wellFormed o ho).use_isFunction
    · intro hc
      exact hsum.isString_iff.mpr ⟨_, hasked, by rw [o.use_isString, hc]; rfl⟩

theorem mem_names_iff (h : doc.Scanned) (hole : Text) :
    hole ∈ doc.symbols.names ↔ ∃ o ∈ Tree.occurrencesIn doc.tree, o.hole = hole := by
  rw [Symbols.mem_names_iff]
  constructor
  · rintro ⟨type, hl⟩
    obtain ⟨t, rest, hcons⟩ := List.exists_cons_of_ne_nil (h.records.used _ _ hl).ne_nil
    have ht : t ∈ Use.asked ((Tree.occurrencesIn doc.tree).map Occurrence.use) hole := by
      simp [hcons]
    obtain ⟨o, ho, hhole, -⟩ := (mem_asked_iff hole t).mp ht
    exact ⟨o, ho, hhole⟩
  · rintro ⟨o, ho, rfl⟩
    obtain ⟨type, hl, -⟩ := h.lookup?_of_mem ho
    exact ⟨type, hl⟩

theorem typed (h : doc.Scanned) {o : Occurrence} (ho : o ∈ Tree.occurrencesIn doc.tree) :
    o.Typed doc.symbols := by
  obtain ⟨type, hl, hvalid, hfunction, hstring⟩ := h.lookup?_of_mem ho
  cases o with
  | value hole =>
    have hs := hstring rfl
    cases type <;> simp_all [HoleType.isFunction, HoleType.isString, Occurrence.hasArgs,
      Occurrence.Typed, Occurrence.hole]
  | call hole args =>
    have hs := hstring rfl
    have ha := (h.wellFormed _ ho).2
    refine ⟨ha, ?_⟩
    cases type <;> simp_all [HoleType.isFunction, HoleType.isString, Occurrence.hasArgs,
      Occurrence.hole]
  | content hole args =>
    cases args <;> cases type <;> simp_all [HoleType.isFunction, Occurrence.hasArgs,
      Occurrence.Typed, Occurrence.hole, HoleType.IsValid]

theorem isFragment_iff (h : doc.Scanned) {hole : Text} {type : HoleType}
    (hl : doc.symbols.lookup? hole = some type) :
    (type = .fragment ∨ type = .fragmentFunction) ↔
      ∀ o ∈ Tree.occurrencesIn doc.tree, o.hole = hole → o.isContent = true := by
  have hsum := h.records.used _ _ hl
  have hshape : (type = .fragment ∨ type = .fragmentFunction) ↔ ¬ type.isString = true := by
    have := hsum.valid
    cases type <;> simp_all [HoleType.isString, HoleType.IsValid]
  rw [hshape, hsum.isString_iff]
  constructor
  · intro hno o ho hhole
    cases hc : o.isContent with
    | true => rfl
    | false =>
      refine absurd ⟨o.use.type, (mem_asked_iff hole _).mpr ⟨o, ho, hhole, rfl⟩, ?_⟩ hno
      rw [o.use_isString, hc]
      rfl
  · rintro hall ⟨t, ht, hs⟩
    obtain ⟨o, ho, hhole, rfl⟩ := (mem_asked_iff hole t).mp ht
    rw [o.use_isString, hall o ho hhole] at hs
    cases hs

end Scanned

theorem not_agree_iff {list : List Occurrence} (h : ∀ o ∈ list, o.WellFormed) :
    ¬ Symbols.Agree (list.map Occurrence.use) ↔
      ∃ u ∈ list, ∃ v ∈ list, u.hole = v.hole ∧ u.hasArgs = true ∧ v.hasArgs = false := by
  constructor
  · intro hne
    apply Classical.byContradiction
    intro hno
    apply hne
    intro u' hu' v' hv' he
    obtain ⟨u, hu, rfl⟩ := List.mem_map.mp hu'
    obtain ⟨v, hv, rfl⟩ := List.mem_map.mp hv'
    rw [u.use_hole, v.use_hole] at he
    rw [(h u hu).use_isFunction, (h v hv).use_isFunction]
    cases hau : u.hasArgs <;> cases hav : v.hasArgs <;> try rfl
    · exact absurd ⟨v, hv, u, hu, he.symm, hav, hau⟩ hno
    · exact absurd ⟨u, hu, v, hv, he, hau, hav⟩ hno
  · rintro ⟨u, hu, v, hv, he, hau, hav⟩ hagree
    have hf := hagree u.use (List.mem_map_of_mem hu) v.use (List.mem_map_of_mem hv)
      (by rw [u.use_hole, v.use_hole, he])
    rw [(h u hu).use_isFunction, (h v hv).use_isFunction, hau, hav] at hf
    cases hf

/-- The table has exactly the holes of the tree, with the types that all their occurrences come to;
and a page whose directives and placeholders can be read is refused exactly if a hole is used both
with and without arguments. -/
theorem symbols_sound_principal (o : Origin) :
    (∀ doc, o.document = .ok doc →
      (∀ hole, hole ∈ doc.symbols.names ↔ ∃ u ∈ Tree.occurrencesIn doc.tree, u.hole = hole) ∧
      (∀ u ∈ Tree.occurrencesIn doc.tree, isHoleName u.hole = true ∧ u.Typed doc.symbols) ∧
      ∀ hole type, doc.symbols.lookup? hole = some type →
        ((type = .fragment ∨ type = .fragmentFunction) ↔
          ∀ u ∈ Tree.occurrencesIn doc.tree, u.hole = hole → u.isContent = true)) ∧
    ∀ page sources tree, o.page = .ok (page, sources) → Reading.nodes? page = some tree →
      ((∃ e, o.document = .error (.text (.conflict e))) ↔
        ∃ u ∈ Tree.occurrencesIn tree, ∃ v ∈ Tree.occurrencesIn tree,
          u.hole = v.hole ∧ u.hasArgs = true ∧ v.hasArgs = false) := by
  constructor
  · intro doc hdoc
    have h := scanned hdoc
    refine ⟨h.mem_names_iff, ?_, fun hole type => h.isFragment_iff⟩
    intro u hu
    exact ⟨(h.wellFormed u hu).hole, h.typed hu⟩
  · intro page sources tree hp ht
    rw [← not_agree_iff (Reading.nodes?_wellFormed ht), o.document_eq, hp]
    constructor
    · rintro ⟨e, he⟩ hagree
      obtain ⟨symbols, hs⟩ := ofPage_of_agree o.path sources ht hagree
      simp only [Except.bind, hs] at he
      cases he
    · intro hagree
      exact ofPage_of_not_agree ht hagree

theorem symbols_sound_principal_mixed :
    (∃ doc, (Origin.nodes none [] [.element [] (utf8 "p") [⟨[], utf8 "ml:content", utf8 "a"⟩] [],
        .text (utf8 "$\x7ba\x7d")]).document = .ok doc ∧ utf8 "a" ∈ doc.symbols.names ∧
      ∀ u ∈ Tree.occurrencesIn doc.tree, isHoleName u.hole = true ∧ u.Typed doc.symbols) ∧
    ∃ e, (Origin.nodes none [] [.text (utf8 "$\x7ba\x7d$\x7ba b\x7d")]).document =
      .error (.text (.conflict e)) := by
  constructor
  · obtain ⟨hnames, htyped, -⟩ := (symbols_sound_principal (.nodes none []
      [.element [] (utf8 "p") [⟨[], utf8 "ml:content", utf8 "a"⟩] [],
        .text (utf8 "$\x7ba\x7d")])).1 _ rfl
    exact ⟨_, rfl, (hnames (utf8 "a")).mpr ⟨.value (utf8 "a"), by decide, rfl⟩, htyped⟩
  · apply ((symbols_sound_principal (.nodes none [] [.text (utf8 "$\x7ba\x7d$\x7ba b\x7d")])).2
      _ _ _ rfl rfl).mpr
    exact ⟨.call (utf8 "a") [utf8 "b"], by decide, .value (utf8 "a"), by decide, rfl, rfl, rfl⟩

end Document

end Stencil
