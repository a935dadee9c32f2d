import Stencil.Proofs.Unit.Headers
import Stencil.Proofs.Unit.Typing
import Mathlib.Data.List.Nodup
import Mathlib.Data.List.TakeWhile

namespace Stencil

open Ascii Text

namespace Row

def field? : Row → Option (Text × Text)
  | .field name type => some (name, type)
  | _ => none

def opening? : Row → Option Text
  | .line 0 text => if startsWith text (utf8 "func (") then some text else none
  | _ => none

def fields (rows : List Row) : List (Text × Text) :=
  rows.filterMap field?

def methods (typeName : Text) (rows : List Row) : List Header :=
  (rows.filterMap opening?).filterMap (Header.ofDeclaration? typeName)

def isTop (text : Text) : Row → Bool
  | .line 0 t => t = text
  | _ => false

def interfaceOpening (name : Text) : Text :=
  utf8 "type " ++ name ++ utf8 " interface \x7b"

def listed (name : Text) (rows : List Row) : List Text :=
  (((rows.dropWhile (!isTop (interfaceOpening name) ·)).drop 1).takeWhile
    (!isTop (utf8 "\x7d") ·)).map source

def members (name : Text) (rows : List Row) : List Header :=
  (listed name rows).filterMap Header.ofMember?

def embedded (name : Text) (rows : List Row) : List Text :=
  (listed name rows).filter fun line => (Header.ofMember? line).isNone

theorem listed_eq {name : Text} {before after : List Row} {members : List Text}
    (hbefore : ∀ row ∈ before, isTop (interfaceOpening name) row = false) :
    listed name (before ++ .line 0 (interfaceOpening name) :: (members.map (Row.line 1) ++
      .line 0 (utf8 "\x7d") :: after)) = members := by
  have hopen : ∀ row ∈ before, (!isTop (interfaceOpening name) row) = true := by simpa using hbefore
  have hmembers : ∀ row ∈ members.map (Row.line 1), (!isTop (utf8 "\x7d") row) = true := by
    intro row hrow
    obtain ⟨text, -, rfl⟩ := List.mem_map.mp hrow
    rfl
  have hclose : isTop (utf8 "\x7d") (.line 0 (utf8 "\x7d")) = true := rfl
  rw [listed, List.dropWhile_append_of_pos hopen, List.dropWhile_cons_of_neg (by simp [isTop]),
    List.drop_one, List.tail_cons, List.takeWhile_append_of_pos hmembers,
    List.takeWhile_cons_of_neg (by simp [hclose]), List.append_nil, List.map_map]
  exact List.map_id _

end Row

namespace Expr

theorem toUpper_lt {c d : UInt8} (hc : Ascii.isLower c = true) (hd : Ascii.isLower d = true)
    (h : c < d) : Ascii.toUpper c < Ascii.toUpper d := by
  simp only [Ascii.toUpper, hc, hd, if_true]
  simp only [Ascii.isLower, Bool.and_eq_true, decide_eq_true_eq] at hc hd
  have hle : ∀ e : UInt8, 97 ≤ e → (e - 32).toNat = e.toNat - 32 := fun e he =>
    UInt8.toNat_sub_of_le e 32 (UInt8.le_trans (by decide) he)
  have hc' : 97 ≤ c.toNat := UInt8.le_iff_toNat_le.mp hc.1
  rw [UInt8.lt_iff_toNat_lt] at h ⊢
  rw [hle c hc.1, hle d hd.1]
  omega

theorem holeName_lt {a b : Text} (ha : isHoleName a = true) (hb : isHoleName b = true)
    (h : lt a b = true) : lt (holeName a) (holeName b) = true := by
  cases a with
  | nil => cases ha
  | cons c a =>
    cases b with
    | nil => cases hb
    | cons d b =>
      simp only [isHoleName, Bool.and_eq_true] at ha hb
      simp only [holeName, lt, beq_iff_eq] at h ⊢
      by_cases hcd : c = d
      · subst hcd
        simpa using h
      · rw [if_neg hcd, decide_eq_true_eq] at h
        rw [if_neg fun he => hcd (toUpper_injective ha.1 hb.1 he), decide_eq_true_eq]
        exact toUpper_lt ha.1 hb.1 h

end Expr

theorem Text.lt_append_left (p : Text) {s t : Text} (h : lt s t = true) :
    lt (p ++ s) (p ++ t) = true := by
  induction p with
  | nil => exact h
  | cons c p ih => simpa [lt] using ih

namespace Component

variable {c : Component}

/-! What is declared, by what it is for. -/

inductive Member where
  | field (hole : Text)
  | inPass
  | setter (hole : Text)
  | updater (hole : Text)
  | getter (hole : Text)
  | pass
  | render
  deriving DecidableEq

namespace Member

def name (c : Component) : Member → Text
  | .field hole => fieldName hole
  | .inPass => utf8 "inPass"
  | .setter hole => c.setterName hole
  | .updater hole => utf8 "Update" ++ Expr.holeName hole
  | .getter hole => utf8 "Get" ++ Expr.holeName hole
  | .pass => utf8 "pass"
  | .render => utf8 "Render"

def hole? : Member → Option Text
  | .field hole | .setter hole | .updater hole | .getter hole => some hole
  | .inPass | .pass | .render => none

def letter : Member → UInt8
  | .field _ => 104
  | .inPass => 105
  | .setter _ => 115
  | .updater _ => 117
  | .getter _ => 103
  | .pass => 112
  | .render => 114

theorem head?_name (c : Component) (m : Member) :
    (m.name c).head?.map Ascii.toLower = some m.letter := by
  cases m with
  | setter hole =>
    simp only [name, setterName]
    split <;> rfl
  | _ => rfl

theorem name_injective {a b : Member} (ha : ∀ hole ∈ a.hole?, isHoleName hole = true)
    (hb : ∀ hole ∈ b.hole?, isHoleName hole = true) (h : a.name c = b.name c) : a = b := by
  have hletter : a.letter = b.letter := by
    have hhead := head?_name c a
    rw [h, head?_name] at hhead
    exact (Option.some.inj hhead).symm
  have hsame {x y : Text} (hx : x ∈ a.hole?) (hy : y ∈ b.hole?)
      (hxy : Expr.holeName x = Expr.holeName y) : x = y :=
    Expr.holeName_injective (ha x hx) (hb y hy) hxy
  cases a with
  | field x =>
    cases b with
    | field y => rw [hsame rfl rfl (List.append_cancel_left h)]
    | _ => cases hletter
  | setter x =>
    cases b with
    | setter y =>
      simp only [name, setterName] at h
      rw [hsame rfl rfl (List.append_inj_right h (by split <;> split <;> rfl))]
    | _ => cases hletter
  | updater x =>
    cases b with
    | updater y => rw [hsame rfl rfl (List.append_cancel_left h)]
    | _ => cases hletter
  | getter x =>
    cases b with
    | getter y => rw [hsame rfl rfl (List.append_cancel_left h)]
    | _ => cases hletter
  | inPass =>
    cases b with
    | inPass => rfl
    | _ => cases hletter
  | pass =>
    cases b with
    | pass => rfl
    | _ => cases hletter
  | render =>
    cases b with
    | render => rfl
    | _ => cases hletter

end Member

def accessors (hole : Text) : List Member :=
  [.setter hole, .updater hole, .getter hole]

def fieldMembers (c : Component) : List Member :=
  if c.symbols.names.isEmpty then [] else c.symbols.names.map Member.field ++ [.inPass]

def methodMembers (c : Component) : List Member :=
  c.symbols.names.flatMap accessors ++ [.pass, .render]

theorem fields_names (c : Component) :
    c.fields.map Prod.fst = c.fieldMembers.map (Member.name c) := by
  simp only [fields, fieldMembers, Symbols.names, List.isEmpty_map]
  split
  · rfl
  · simp [Member.name, Function.comp_def]

theorem methods_names (c : Component) :
    c.methods.map (·.signature.name) = c.methodMembers.map (Member.name c) := by
  simp only [methods, methodMembers, Symbols.names, List.map_append, List.flatMap_map,
    List.map_flatMap]
  rfl

theorem names_nodup (ha : c.symbols.Ascending) : c.symbols.names.Nodup := by
  refine List.pairwise_map.mpr (ha.imp fun {x y} hlt heq => ?_)
  rw [heq, lt_irrefl] at hlt
  cases hlt

theorem accessors_nodup {names : List Text} (h : names.Nodup) :
    (names.flatMap accessors).Nodup := by
  rw [List.nodup_flatMap]
  refine ⟨fun hole _ => by simp [accessors], h.imp fun {x y} hne => ?_⟩
  intro m hx hy
  simp only [accessors, List.mem_cons, List.not_mem_nil, or_false] at hx hy
  rcases hx with rfl | rfl | rfl <;> simp [hne] at hy

theorem members_nodup (ha : c.symbols.Ascending) : (c.fieldMembers ++ c.methodMembers).Nodup := by
  have hnames := names_nodup ha
  have hfields : c.fieldMembers.Nodup := by
    unfold fieldMembers
    split
    · exact List.nodup_nil
    · rw [List.nodup_append]
      refine ⟨hnames.map fun x y hxy => Member.field.inj hxy, List.nodup_singleton _, ?_⟩
      simp
  have hmethods : c.methodMembers.Nodup := by
    rw [methodMembers, List.nodup_append]
    refine ⟨accessors_nodup hnames, by simp, ?_⟩
    rintro m hm m' hm' rfl
    obtain ⟨hole, -, hm⟩ := List.mem_flatMap.mp hm
    simp only [accessors, List.mem_cons, List.not_mem_nil, or_false] at hm hm'
    rcases hm' with rfl | rfl <;> simp at hm
  rw [List.nodup_append]
  refine ⟨hfields, hmethods, ?_⟩
  rintro m hm m' hm' rfl
  simp only [methodMembers, accessors, List.mem_append, List.mem_flatMap, List.mem_cons,
    List.not_mem_nil, or_false] at hm'
  unfold fieldMembers at hm
  split at hm
  · cases hm
  · simp only [List.mem_append, List.mem_map, List.mem_singleton] at hm
    rcases hm with ⟨hole, -, rfl⟩ | rfl <;> simp at hm'

theorem mem_names_of_hole? {m : Member} (hm : m ∈ c.fieldMembers ++ c.methodMembers) {hole : Text}
    (h : hole ∈ m.hole?) : hole ∈ c.symbols.names := by
  rcases List.mem_append.mp hm with hm | hm
  · unfold fieldMembers at hm
    split at hm
    · cases hm
    · simp only [List.mem_append, List.mem_map, List.mem_singleton] at hm
      rcases hm with ⟨hole', hmem, rfl⟩ | rfl
      · cases h
        exact hmem
      · cases h
  · simp only [methodMembers, accessors, List.mem_append, List.mem_flatMap, List.mem_cons,
      List.not_mem_nil, or_false] at hm
    rcases hm with ⟨hole', hmem, rfl | rfl | rfl⟩ | rfl | rfl
    · cases h
      exact hmem
    · cases h
      exact hmem
    · cases h
      exact hmem
    · cases h
    · cases h

theorem declared_nodup (hn : ∀ hole ∈ c.symbols.names, isHoleName hole = true)
    (ha : c.symbols.Ascending) :
    (c.fields.map Prod.fst ++ c.methods.map (·.signature.name)).Nodup := by
  rw [fields_names, methods_names, ← List.map_append]
  refine List.Nodup.map_on (fun x hx y hy hxy => ?_) (members_nodup ha)
  exact Member.name_injective (fun hole h => hn hole (mem_names_of_hole? hx h))
    (fun hole h => hn hole (mem_names_of_hole? hy h)) hxy

/-! Reading the units. -/

def Quiet (rows : List Row) : Prop :=
  ∀ row ∈ rows, row.opening? = none ∧ row.field? = none

theorem mem_header {imports : List Text} {row : Row} (h : row ∈ c.header imports) :
    row = .blank ∨ (∃ path, row = .line 1 path) ∨
      ∃ b s, row = .line 0 (b :: s) ∧ b ≠ 102 ∧ b ≠ 116 := by
  have htop (b : UInt8) (s : Text) (hb : b ≠ 102 ∧ b ≠ 116) : .line 0 (b :: s) = Row.blank ∨
      (∃ path, .line 0 (b :: s) = Row.line 1 path) ∨
        ∃ b' s', Row.line 0 (b :: s) = .line 0 (b' :: s') ∧ b' ≠ 102 ∧ b' ≠ 116 :=
    .inr (.inr ⟨b, s, rfl, hb⟩)
  unfold header at h
  rcases List.mem_append.mp h with h | h
  · simp only [List.mem_cons, List.not_mem_nil, or_false] at h
    rcases h with rfl | rfl | rfl | rfl
    · exact htop 47 _ (by decide)
    · exact .inl rfl
    · exact htop 112 _ (by decide)
    · exact .inl rfl
  · split at h
    · cases h
    · simp only [List.mem_cons, List.not_mem_nil, or_false] at h
      rcases h with rfl | rfl
      · exact htop 105 _ (by decide)
      · exact .inl rfl
    · simp only [List.mem_append, List.mem_map, List.mem_cons, List.not_mem_nil, or_false] at h
      rcases h with (rfl | ⟨path, -, rfl⟩) | rfl | rfl
      · exact htop 105 _ (by decide)
      · exact .inr (.inl ⟨path, rfl⟩)
      · exact htop 41 _ (by decide)
      · exact .inl rfl

theorem quiet_header (c : Component) (imports : List Text) : Quiet (c.header imports) := by
  intro row hrow
  obtain rfl | ⟨path, rfl⟩ | ⟨b, s, rfl, hb, -⟩ := mem_header hrow
  · exact ⟨rfl, rfl⟩
  · exact ⟨rfl, rfl⟩
  · have hstart : ¬ startsWith (b :: s) (utf8 "func (") = true := by
      intro hstart
      obtain ⟨rest, hrest⟩ := Option.isSome_iff_exists.mp hstart
      exact hb (List.cons.inj (cutPrefix?_eq_some_iff.mp hrest)).1
    exact ⟨if_neg hstart, rfl⟩

theorem quiet_constructor (c : Component) : Quiet c.constructorRows := by
  intro row hrow
  simp only [constructorRows, List.mem_append, List.mem_cons, List.not_mem_nil, or_false] at hrow
  rcases hrow with ((rfl | rfl) | hrow) | rfl | rfl
  · exact ⟨rfl, rfl⟩
  · exact ⟨rfl, rfl⟩
  · split at hrow
    · rw [List.mem_singleton.mp hrow]
      exact ⟨rfl, rfl⟩
    · simp only [List.mem_append, List.mem_map, List.mem_singleton] at hrow
      rcases hrow with (rfl | ⟨⟨hole, type⟩, -, rfl⟩) | rfl <;> exact ⟨rfl, rfl⟩
  · exact ⟨rfl, rfl⟩
  · exact ⟨rfl, rfl⟩

theorem quiet_body {m : Method} (hm : m ∈ c.methods) : Quiet m.body := by
  intro row hrow
  simp only [methods, List.mem_append, List.mem_flatMap, List.mem_cons, List.not_mem_nil,
    or_false] at hm
  rcases hm with ⟨⟨hole, type⟩, -, rfl | rfl | rfl⟩ | rfl | rfl
  · rw [List.mem_singleton.mp hrow]
    exact ⟨rfl, rfl⟩
  · rw [List.mem_singleton.mp hrow]
    exact ⟨rfl, rfl⟩
  · simp only [getMethod, List.mem_cons, List.not_mem_nil, or_false] at hrow
    rcases hrow with rfl | rfl | rfl | rfl | rfl | rfl | rfl | rfl <;> exact ⟨rfl, rfl⟩
  · simp only [passMethod, List.mem_append, List.mem_map, List.mem_singleton] at hrow
    rcases hrow with ((rfl | hrow) | ⟨hole, -, rfl⟩) | rfl
    · exact ⟨rfl, rfl⟩
    · split at hrow
      · cases hrow
      · rw [List.mem_singleton.mp hrow]
        exact ⟨rfl, rfl⟩
    · exact ⟨rfl, rfl⟩
    · exact ⟨rfl, rfl⟩
  · simp only [renderMethod, List.mem_append, List.mem_singleton] at hrow
    rcases hrow with hrow | rfl
    · split at hrow
      · cases hrow
      · rw [List.mem_singleton.mp hrow]
        exact ⟨rfl, rfl⟩
    · exact ⟨rfl, rfl⟩

theorem Quiet.filterMap {rows : List Row} (h : Quiet rows) :
    rows.filterMap Row.opening? = [] ∧ rows.filterMap Row.field? = [] :=
  ⟨List.filterMap_eq_nil_iff.mpr fun row hrow => (h row hrow).1,
    List.filterMap_eq_nil_iff.mpr fun row hrow => (h row hrow).2⟩

theorem opening?_opening (receiver : Text) (s : Signature) :
    (Row.line 0 (s.opening receiver)).opening? = some (s.opening receiver) := by
  have hstart : startsWith (s.opening receiver) (utf8 "func (") = true := by
    simp only [Signature.opening, List.append_assoc]
    rfl
  rw [Row.opening?, if_pos hstart]

theorem filterMap_methodRows {m : Method} (hm : m ∈ c.methods) :
    (c.methodRows m).filterMap Row.opening? = [m.signature.opening c.typeName] ∧
      (c.methodRows m).filterMap Row.field? = [] := by
  have hdoc : Quiet (m.doc.map Row.doc) := by
    intro row hrow
    obtain ⟨text, -, rfl⟩ := List.mem_map.mp hrow
    exact ⟨rfl, rfl⟩
  have hbody := (quiet_body hm).filterMap
  simp only [methodRows, List.filterMap_append, hdoc.filterMap, hbody, List.filterMap_cons,
    opening?_opening]
  exact ⟨rfl, rfl⟩

theorem filterMap_methods {methods : List Method} (h : ∀ m ∈ methods, m ∈ c.methods) :
    ((methods.map c.methodRows).intersperse [Row.blank]).flatten.filterMap Row.opening? =
        methods.map (·.signature.opening c.typeName) ∧
      ((methods.map c.methodRows).intersperse [Row.blank]).flatten.filterMap Row.field? = [] := by
  induction methods with
  | nil => exact ⟨rfl, rfl⟩
  | cons m methods ih =>
    obtain ⟨hm, hrest⟩ := List.forall_mem_cons.mp h
    obtain ⟨hopen, hfield⟩ := filterMap_methodRows hm
    cases methods with
    | nil =>
      simp only [List.map_cons, List.map_nil, List.intersperse_singleton, List.flatten_singleton]
      exact ⟨hopen, hfield⟩
    | cons m' methods =>
      obtain ⟨ihopen, ihfield⟩ := ih hrest
      simp only [List.map_cons, List.intersperse_cons_cons, List.flatten_cons,
        List.filterMap_append, hopen, hfield] at ihopen ihfield ⊢
      rw [ihopen, ihfield]
      exact ⟨rfl, rfl⟩

theorem filterMap_typeRows (c : Component) :
    c.typeRows.filterMap Row.opening? = [] ∧ c.typeRows.filterMap Row.field? = c.fields := by
  have hrows (fields : List (Text × Text)) :
      (fields.map fun field => Row.field field.1 field.2).filterMap Row.opening? = [] ∧
        (fields.map fun field => Row.field field.1 field.2).filterMap Row.field? = fields := by
    induction fields with
    | nil => exact ⟨rfl, rfl⟩
    | cons field fields ih => exact ⟨ih.1, congrArg (field :: ·) ih.2⟩
  simp only [typeRows]
  split
  next hempty =>
    rw [List.isEmpty_iff.mp hempty]
    exact ⟨rfl, rfl⟩
  next =>
    obtain ⟨hopen, hfield⟩ := hrows c.fields
    simp only [List.filterMap_append, hopen, hfield]
    exact ⟨rfl, (List.append_nil _).trans (List.append_nil _)⟩

theorem filterMap_implementation (c : Component) (imports : List Text) :
    (c.implementation imports).filterMap Row.opening? =
        c.methods.map (·.signature.opening c.typeName) ∧
      (c.implementation imports).filterMap Row.field? = c.fields := by
  obtain ⟨hopen, hfield⟩ := filterMap_methods (fun m (hm : m ∈ c.methods) => hm)
  obtain ⟨hheader, hheader'⟩ := (c.quiet_header imports).filterMap
  obtain ⟨hmake, hmake'⟩ := c.quiet_constructor.filterMap
  obtain ⟨htype, htype'⟩ := c.filterMap_typeRows
  simp only [implementation, List.filterMap_append, hopen, hfield, hheader, hheader', hmake, hmake',
    htype, htype', List.nil_append, List.append_nil, and_self]

/-! The interfaces. -/

theorem header_isTop (c : Component) (imports : List Text) (name : Text) :
    ∀ row ∈ c.header imports, Row.isTop (Row.interfaceOpening name) row = false := by
  intro row hrow
  obtain rfl | ⟨path, rfl⟩ | ⟨b, s, rfl, -, hb⟩ := mem_header hrow
  · rfl
  · rfl
  · exact decide_eq_false fun he => hb (List.cons.inj he).1

def templateName (c : Component) : Text :=
  c.typeName ++ utf8 "Template"

def advancedName (c : Component) : Text :=
  c.typeName ++ utf8 "Advanced"

theorem interface_eq (c : Component) (imports : List Text) :
    ∃ before between after, c.interface imports = c.header imports ++ [.doc before] ++
      .line 0 (Row.interfaceOpening c.templateName) ::
        (c.templateInterface.map (Row.line 1) ++ .line 0 (utf8 "\x7d") ::
          .blank :: .doc between :: .line 0 (Row.interfaceOpening c.advancedName) ::
            ((c.templateName :: c.advancedInterface).map (Row.line 1) ++
              .line 0 (utf8 "\x7d") :: after)) := by
  simp only [interface, templateName, advancedName, Row.interfaceOpening, List.append_assoc,
    List.cons_append, List.nil_append, List.map_cons]
  exact ⟨_, _, _, rfl⟩

theorem listed_template (c : Component) (imports : List Text) :
    Row.listed c.templateName (c.interface imports) = c.templateInterface := by
  obtain ⟨before, between, after, heq⟩ := c.interface_eq imports
  rw [heq]
  apply Row.listed_eq
  exact List.forall_mem_append.mpr ⟨c.header_isTop imports _, List.forall_mem_singleton.mpr rfl⟩

theorem listed_advanced (c : Component) (imports : List Text) :
    Row.listed c.advancedName (c.interface imports) = c.templateName :: c.advancedInterface := by
  obtain ⟨before, between, after, heq⟩ := c.interface_eq imports
  have hother : Row.isTop (Row.interfaceOpening c.advancedName)
      (.line 0 (Row.interfaceOpening c.templateName)) = false := by
    refine decide_eq_false fun he => ?_
    simp only [Row.interfaceOpening, templateName, advancedName, List.append_assoc,
      List.append_cancel_left_eq] at he
    cases he
  -- the other interface stands in front, and none of its rows opens this one
  have hbefore : ∀ row ∈ c.header imports ++ [.doc before] ++
      .line 0 (Row.interfaceOpening c.templateName) ::
        (c.templateInterface.map (Row.line 1) ++
          [.line 0 (utf8 "\x7d"), .blank, .doc between]),
      Row.isTop (Row.interfaceOpening c.advancedName) row = false := by
    simp only [List.forall_mem_append, List.forall_mem_cons, hother, true_and]
    refine ⟨⟨c.header_isTop imports _, rfl, by simp⟩, ?_, rfl, rfl, rfl, by simp⟩
    intro row hrow
    obtain ⟨text, -, rfl⟩ := List.mem_map.mp hrow
    rfl
  have hlist := @Row.listed_eq c.advancedName _ after
    (c.templateName :: c.advancedInterface) hbefore
  rw [heq]
  simpa only [List.append_assoc, List.cons_append, List.nil_append] using hlist

/-! What is read. -/

def setHeader (hole : Text) (type : HoleType) : Header :=
  ⟨utf8 "Set" ++ Expr.holeName hole, [type.codeType], []⟩

def hiddenSetHeader (hole : Text) (type : HoleType) : Header :=
  ⟨utf8 "set" ++ Expr.holeName hole, [type.codeType], []⟩

def setterHeader (c : Component) (hole : Text) (type : HoleType) : Header :=
  if hole ∈ c.hidden then hiddenSetHeader hole type else setHeader hole type

def updateHeader (c : Component) (hole : Text) (type : HoleType) : Header :=
  ⟨utf8 "Update" ++ Expr.holeName hole,
    [utf8 "func(*" ++ c.typeName ++ utf8 ") " ++ type.codeType], []⟩

def getHeader (hole : Text) (type : HoleType) : Header :=
  ⟨utf8 "Get" ++ Expr.holeName hole, [], type.codeType⟩

def passHeader (c : Component) : Header :=
  ⟨utf8 "pass", [], utf8 "*" ++ c.typeName⟩

def renderHeader : Header :=
  ⟨utf8 "Render", [], utf8 "[]*html.Node"⟩

def headers (c : Component) : List Header :=
  c.symbols.entries.flatMap (fun e =>
    [c.setterHeader e.1 e.2, c.updateHeader e.1 e.2, getHeader e.1 e.2]) ++
    [c.passHeader, renderHeader]

section Reading

variable {hole : Text} {type : HoleType}

theorem openParen_not_mem_holeName (h : isHoleName hole = true) :
    openParen ∉ Expr.holeName hole := by
  cases hole with
  | nil => cases h
  | cons b rest =>
    simp only [isHoleName, Bool.and_eq_true, List.all_eq_true] at h
    intro hmem
    rcases List.mem_cons.mp hmem with hb | hrest
    · rw [Ascii.toUpper, if_pos h.1] at hb
      have hb' : b = openParen + 32 := by rw [hb, UInt8.sub_add_cancel]
      rw [hb'] at h
      exact absurd h.1 (by decide)
    · exact absurd (h.2 _ hrest) (by decide)

theorem codeType_plain (type : HoleType) : type.codeType ≠ [] ∧
    ∀ b ∈ type.codeType, b ≠ openParen ∧ b ≠ closeParen ∧ b ≠ comma ∧ b ≠ space := by
  have hcases : type.codeType ∈ [utf8 "[]*html.Node", utf8 "runtime.HTMLFunc",
      utf8 "runtime.StringFunc", utf8 "string"] := by
    cases type <;> simp [HoleType.codeType]
  have htexts : ∀ text ∈ [utf8 "[]*html.Node", utf8 "runtime.HTMLFunc", utf8 "runtime.StringFunc",
      utf8 "string"], text ≠ [] ∧ openParen ∉ text ∧ closeParen ∉ text ∧ comma ∉ text ∧
        space ∉ text := by
    decide
  obtain ⟨hne, hopen, hclose, hcomma, hspace⟩ := htexts _ hcases
  exact ⟨hne, fun b hb => ⟨ne_of_mem_of_not_mem hb hopen, ne_of_mem_of_not_mem hb hclose,
    ne_of_mem_of_not_mem hb hcomma, ne_of_mem_of_not_mem hb hspace⟩⟩

theorem balanced_codeType (type : HoleType) : Header.Balanced type.codeType :=
  Header.balanced_of_forall fun b hb =>
    ⟨((codeType_plain type).2 b hb).1, ((codeType_plain type).2 b hb).2.1⟩

theorem head?_codeType (type : HoleType) : type.codeType.head? ≠ some space := by
  intro hhead
  exact ((codeType_plain type).2 _ (List.mem_of_head? hhead)).2.2.2 rfl

theorem paramType_codeType (type : HoleType) : Header.paramType type.codeType = type.codeType := by
  have hdrop : type.codeType.dropWhile (· != space) = [] :=
    List.dropWhile_eq_nil_iff.mpr fun b hb => by simpa using ((codeType_plain type).2 b hb).2.2.2
  rw [Header.paramType, hdrop]

theorem paramTypes_codeType (type : HoleType) :
    Header.paramTypes type.codeType = [type.codeType] := by
  obtain ⟨hne, hplain⟩ := codeType_plain type
  rw [Header.paramTypes_single hne (fun h => (hplain _ h).2.2.1 rfl) (head?_codeType type),
    paramType_codeType]

def PlainType (c : Component) : Prop :=
  ∀ b ∈ c.typeName, b ≠ openParen ∧ b ≠ closeParen ∧ b ≠ comma

def updateType (c : Component) (type : HoleType) : Text :=
  utf8 "func(*" ++ c.typeName ++ utf8 ") " ++ type.codeType

theorem balanced_updateType (ht : c.PlainType) (type : HoleType) :
    Header.Balanced (c.updateType type) := by
  have hgroup : Header.Balanced (openParen :: (utf8 "*" ++ c.typeName ++ [closeParen])) :=
    .group ((Header.balanced_of_not_mem (by decide) (by decide)).append
      (Header.balanced_of_forall fun b hb => ⟨(ht b hb).1, (ht b hb).2.1⟩))
  have heq : c.updateType type = utf8 "func" ++ (openParen :: (utf8 "*" ++ c.typeName ++
      [closeParen]) ++ (utf8 " " ++ type.codeType)) := by
    simp only [updateType, List.append_assoc, List.cons_append]
    rfl
  rw [heq]
  exact (Header.balanced_of_not_mem (by decide) (by decide)).append
    (hgroup.append ((Header.balanced_of_not_mem (by decide) (by decide)).append
      (balanced_codeType type)))

theorem comma_not_mem_updateType (ht : c.PlainType) (type : HoleType) :
    comma ∉ c.updateType type := by
  simp only [updateType, List.mem_append, not_or]
  refine ⟨⟨⟨by decide, fun h => (ht _ h).2.2 rfl⟩, by decide⟩, fun h => ?_⟩
  exact ((codeType_plain type).2 _ h).2.2.1 rfl

-- The word in front of the first space starts with `func(` and so is no name.
theorem paramType_updateType (c : Component) (type : HoleType) :
    Header.paramType (c.updateType type) = c.updateType type := by
  have hword : Header.isParamName ((c.updateType type).takeWhile (· != space)) = false := by
    rw [updateType, List.append_assoc, List.append_assoc,
      List.takeWhile_append_of_pos (List.all_eq_true.mp rfl)]
    rfl
  rw [Header.paramType, hword]
  split <;> simp

theorem paramTypes_updateType (ht : c.PlainType) (type : HoleType) :
    Header.paramTypes (c.updateType type) = [c.updateType type] := by
  have hhead : (c.updateType type).head? = some 102 := rfl
  have hne : c.updateType type ≠ [] := fun h => by simp [h] at hhead
  rw [Header.paramTypes_single hne (comma_not_mem_updateType ht type) (by rw [hhead]; decide),
    paramType_updateType]

theorem openParen_not_mem_name {lead : Text} (hlead : openParen ∉ lead)
    (h : isHoleName hole = true) : openParen ∉ lead ++ Expr.holeName hole := by
  rw [List.mem_append, not_or]
  exact ⟨hlead, openParen_not_mem_holeName h⟩

theorem ofMember?_set (h : isHoleName hole = true) (type : HoleType) :
    Header.ofMember? (utf8 "Set" ++ Expr.holeName hole ++ utf8 "(" ++ type.codeType ++ utf8 ")") =
      some (setHeader hole type) := by
  have hread := @Header.ofMember?_eq (utf8 "Set" ++ Expr.holeName hole) type.codeType []
    (openParen_not_mem_name (by decide) h) (balanced_codeType type)
  rw [paramTypes_codeType] at hread
  rw [List.append_assoc, List.append_assoc]
  exact hread

theorem ofMember?_update (ht : c.PlainType) (h : isHoleName hole = true) (type : HoleType) :
    Header.ofMember? (utf8 "Update" ++ Expr.holeName hole ++ utf8 "(func(*" ++ c.typeName ++
      utf8 ") " ++ type.codeType ++ utf8 ")") = some (c.updateHeader hole type) := by
  have hline : utf8 "Update" ++ Expr.holeName hole ++ utf8 "(func(*" ++ c.typeName ++ utf8 ") " ++
      type.codeType ++ utf8 ")" =
        utf8 "Update" ++ Expr.holeName hole ++ openParen :: (c.updateType type ++ [closeParen]) := by
    simp only [updateType, List.append_assoc]
    rfl
  rw [hline, Header.ofMember?_eq (openParen_not_mem_name (by decide) h)
    (balanced_updateType ht type), paramTypes_updateType ht]
  rfl

theorem ofMember?_get (h : isHoleName hole = true) (type : HoleType) :
    Header.ofMember? (utf8 "Get" ++ Expr.holeName hole ++ utf8 "() " ++ type.codeType) =
      some (getHeader hole type) := by
  have hread := @Header.ofMember?_eq (utf8 "Get" ++ Expr.holeName hole) [] (space :: type.codeType)
    (openParen_not_mem_name (by decide) h) .nil
  rw [List.dropWhile_cons, if_pos (by decide), Header.dropWhile_space (head?_codeType type)] at hread
  rw [List.append_assoc]
  exact hread

theorem ofMember?_templateName (ht : c.PlainType) : Header.ofMember? c.templateName = none := by
  have hending : openParen ∉ utf8 "Template" := by decide
  have hdrop : c.templateName.dropWhile (· != openParen) = [] := by
    refine List.dropWhile_eq_nil_iff.mpr fun b hb => bne_iff_ne.mpr ?_
    rcases List.mem_append.mp hb with hb | hb
    · exact (ht b hb).1
    · exact ne_of_mem_of_not_mem hb hending
  rw [Header.ofMember?, hdrop]

/-! Each signature of the implementation can be read. -/

theorem readable_setter (h : isHoleName hole = true) (type : HoleType) :
    (c.setter hole type).Readable where
  name := by
    simp only [setter, setterName]
    split <;> exact openParen_not_mem_name (by decide) h
  params := by
    refine .inr ⟨_, _, rfl, by decide, by decide, by decide, ?_, ?_⟩
    · exact (Header.balanced_of_not_mem (by decide) (by decide)).append (s := utf8 "v ")
        (balanced_codeType type)
    · simp only [List.mem_append, List.mem_cons, not_or]
      exact ⟨by decide, by decide, fun hc => ((codeType_plain type).2 _ hc).2.2.1 rfl⟩
  result := nofun

theorem readable_updater (ht : c.PlainType) (h : isHoleName hole = true) (type : HoleType) :
    (c.updater hole type).Readable where
  name := openParen_not_mem_name (by decide) h
  params := by
    refine .inr ⟨_, _, rfl, by decide, by decide, by decide, ?_, ?_⟩
    · exact (Header.balanced_of_not_mem (by decide) (by decide)).append (s := utf8 "f ")
        (balanced_updateType ht type)
    · have hcomma : comma ∉ c.updateType type := comma_not_mem_updateType ht type
      rw [List.mem_append, List.mem_cons, not_or, not_or]
      exact ⟨by decide, by decide, hcomma⟩
  result := nofun

theorem readable_getter (h : isHoleName hole = true) (type : HoleType) :
    (getter hole type).Readable where
  name := openParen_not_mem_name (by decide) h
  params := .inl rfl
  result := head?_codeType type

theorem readable_pass (c : Component) : c.passMethod.signature.Readable where
  name := show openParen ∉ utf8 "pass" by decide
  params := .inl rfl
  result := show some 42 ≠ some space by decide

theorem readable_renderer : renderer.Readable where
  name := by decide
  params := .inl rfl
  result := by decide

end Reading

section Units

def declared (c : Component) (imports : List Text) : List Header :=
  Row.methods c.typeName (c.implementation imports)

def templateMembers (c : Component) (imports : List Text) : List Header :=
  Row.members c.templateName (c.interface imports)

def advancedMembers (c : Component) (imports : List Text) : List Header :=
  Row.members c.advancedName (c.interface imports)

theorem filterMap_of_map_eq {α β : Type} {f : α → Option β} {list : List α} {out : List β}
    (h : list.map f = out.map some) : list.filterMap f = out := by
  have hid : list.filterMap f = (list.map f).filterMap id := by simp [List.filterMap_map]
  rw [hid, h]
  simp [List.filterMap_map]

variable (hn : ∀ hole ∈ c.symbols.names, isHoleName hole = true) (ht : c.PlainType)

include hn in
theorem map_templateInterface : c.templateInterface.map Header.ofMember? =
    (renderHeader :: (c.symbols.entries.filter fun e => !c.isHidden e.1).map fun e =>
      setHeader e.1 e.2).map some := by
  rw [templateInterface, List.map_cons, List.map_cons, List.map_map, List.map_map]
  congr 1
  refine List.map_congr_left fun e he => ?_
  exact ofMember?_set (hn e.1 (List.mem_map_of_mem (List.mem_filter.mp he).1)) e.2

include hn ht in
theorem map_advancedInterface : c.advancedInterface.map Header.ofMember? =
    (c.symbols.entries.flatMap fun e =>
      [c.updateHeader e.1 e.2, getHeader e.1 e.2]).map some := by
  rw [advancedInterface, List.map_flatMap, List.map_flatMap]
  refine List.flatMap_congr fun e he => ?_
  have hname := hn e.1 (List.mem_map_of_mem he)
  simp only [List.map_cons, List.map_nil, ofMember?_update ht hname, ofMember?_get hname]

include hn ht in
theorem map_openings : (c.methods.map (·.signature.opening c.typeName)).map
    (Header.ofDeclaration? c.typeName) = (c.methods.map (·.signature.header)).map some := by
  have htype : ∀ b ∈ c.typeName, b ≠ openParen ∧ b ≠ closeParen :=
    fun b hb => ⟨(ht b hb).1, (ht b hb).2.1⟩
  rw [List.map_map, List.map_map]
  refine List.map_congr_left fun m hm => ?_
  refine Signature.Readable.ofDeclaration?_opening ?_ htype
  simp only [methods, List.mem_append, List.mem_flatMap, List.mem_cons, List.not_mem_nil, or_false,
    Prod.exists] at hm
  obtain ⟨hole, type, hmem, rfl | rfl | rfl⟩ | rfl | rfl := hm
  · exact readable_setter (hn hole (List.mem_map_of_mem hmem)) type
  · exact readable_updater ht (hn hole (List.mem_map_of_mem hmem)) type
  · exact readable_getter (hn hole (List.mem_map_of_mem hmem)) type
  · exact readable_pass c
  · exact readable_renderer

theorem header_setter (c : Component) (hole : Text) (type : HoleType) :
    (c.setter hole type).header = c.setterHeader hole type := by
  rw [setter, setterName, setterHeader]
  by_cases h : hole ∈ c.hidden
  · rw [if_pos (by simpa [isHidden] using h), if_pos h]
    rfl
  · rw [if_neg (by simpa [isHidden] using h), if_neg h]
    rfl

theorem headers_eq (c : Component) : c.methods.map (·.signature.header) = c.headers := by
  simp only [methods, headers, List.map_append, List.map_flatMap, List.map_cons, List.map_nil,
    setMethod, header_setter]
  rfl

include hn ht in
theorem declared_eq (imports : List Text) : c.declared imports = c.headers := by
  rw [declared, Row.methods, (c.filterMap_implementation imports).1,
    filterMap_of_map_eq (map_openings hn ht), headers_eq]

include hn in
theorem templateMembers_eq (imports : List Text) : c.templateMembers imports =
    renderHeader :: (c.symbols.entries.filter fun e => !c.isHidden e.1).map fun e =>
      setHeader e.1 e.2 := by
  rw [templateMembers, Row.members, listed_template]
  exact filterMap_of_map_eq (map_templateInterface hn)

include hn ht in
theorem advancedMembers_eq (imports : List Text) : c.advancedMembers imports =
    c.symbols.entries.flatMap fun e => [c.updateHeader e.1 e.2, getHeader e.1 e.2] := by
  rw [advancedMembers, Row.members, listed_advanced,
    List.filterMap_cons_none (ofMember?_templateName ht)]
  exact filterMap_of_map_eq (map_advancedInterface hn ht)

theorem filter_isNone_of_map_eq {α β : Type} {f : α → Option β} {list : List α} {out : List β}
    (h : list.map f = out.map some) : list.filter (fun a => (f a).isNone) = [] := by
  refine List.filter_eq_nil_iff.mpr fun a ha => ?_
  have hmem : f a ∈ out.map some := h ▸ List.mem_map_of_mem ha
  obtain ⟨b, -, hb⟩ := List.mem_map.mp hmem
  simp [← hb]

include hn in
theorem embedded_template (imports : List Text) :
    Row.embedded c.templateName (c.interface imports) = [] := by
  rw [Row.embedded, listed_template]
  exact filter_isNone_of_map_eq (map_templateInterface hn)

include hn ht in
theorem embedded_advanced (imports : List Text) :
    Row.embedded c.advancedName (c.interface imports) = [c.templateName] := by
  rw [Row.embedded, listed_advanced,
    List.filter_cons_of_pos (by simp [ofMember?_templateName ht]),
    filter_isNone_of_map_eq (map_advancedInterface hn ht)]

end Units

theorem mem_headers {h : Header} : h ∈ c.headers ↔
    (∃ hole type, (hole, type) ∈ c.symbols.entries ∧
      (h = c.setterHeader hole type ∨ h = c.updateHeader hole type ∨ h = getHeader hole type)) ∨
    h = c.passHeader ∨ h = renderHeader := by
  simp [headers]

theorem mem_templateMembers (hn : ∀ hole ∈ c.symbols.names, isHoleName hole = true)
    {imports : List Text} {h : Header} :
    h ∈ c.templateMembers imports ↔ h = renderHeader ∨ ∃ hole type,
      (hole, type) ∈ c.symbols.entries ∧ hole ∉ c.hidden ∧ h = setHeader hole type := by
  have hfilter (e : Text × HoleType) :
      e ∈ c.symbols.entries.filter (fun e => !c.isHidden e.1) ↔
        e ∈ c.symbols.entries ∧ e.1 ∉ c.hidden := by
    simp [List.mem_filter, isHidden]
  simp only [templateMembers_eq hn, List.mem_cons, List.mem_map, hfilter, Prod.exists, and_assoc,
    @eq_comm _ h]

theorem mem_advancedMembers (hn : ∀ hole ∈ c.symbols.names, isHoleName hole = true)
    (ht : c.PlainType) {imports : List Text} {h : Header} :
    h ∈ c.advancedMembers imports ↔ ∃ hole type, (hole, type) ∈ c.symbols.entries ∧
      (h = c.updateHeader hole type ∨ h = getHeader hole type) := by
  simp [advancedMembers_eq hn ht]

theorem templateMembers_ascending (hn : ∀ hole ∈ c.symbols.names, isHoleName hole = true)
    (ha : c.symbols.Ascending) (imports : List Text) :
    ((c.templateMembers imports).map Header.name).Pairwise fun a b => lt a b = true := by
  rw [templateMembers_eq hn, List.map_cons, List.pairwise_cons, List.map_map]
  constructor
  · intro name hname
    obtain ⟨e, -, rfl⟩ := List.mem_map.mp hname
    rfl
  · rw [List.pairwise_map]
    refine List.Pairwise.imp_of_mem ?_ (ha.filter _)
    intro e e' hmem hmem' hlt
    have hlt := Expr.holeName_lt (hn e.1 (List.mem_map_of_mem (List.mem_filter.mp hmem).1))
      (hn e'.1 (List.mem_map_of_mem (List.mem_filter.mp hmem').1)) hlt
    exact lt_append_left (utf8 "Set") hlt

theorem not_exported_of_hidden (hn : ∀ hole ∈ c.symbols.names, isHoleName hole = true) {hole : Text}
    (hhole : hole ∈ c.symbols.names) (hhidden : hole ∈ c.hidden) {h : Header}
    (hmem : h ∈ c.headers) : h.name ≠ utf8 "Set" ++ Expr.holeName hole := by
  intro hname
  obtain ⟨other, type, hother, rfl | rfl | rfl⟩ | rfl | rfl := mem_headers.mp hmem
  · rw [setterHeader] at hname
    split at hname
    next => cases hname
    next hno =>
      have hsame := Expr.holeName_injective (hn other (List.mem_map_of_mem hother)) (hn hole hhole)
        (List.append_cancel_left hname)
      exact hno (hsame ▸ hhidden)
  · cases hname
  · cases hname
  · cases hname
  · cases hname

/-- Read back from their lines, the fields and methods of the implementation have different names,
and the interfaces list methods that it declares with the same types. -/
theorem units_fit_together (c : Component) (hn : ∀ hole ∈ c.symbols.names, isHoleName hole = true)
    (ha : c.symbols.Ascending)
    (ht : ∀ b ∈ c.typeName, b ≠ openParen ∧ b ≠ closeParen ∧ b ≠ comma)
    (imports imports' : List Text) :
    (Row.fields (c.implementation imports) = c.fields ∧
      c.declared imports = c.headers ∧
      ((c.implementation imports).filterMap Row.opening?).length = (c.declared imports).length ∧
      Row.embedded c.templateName (c.interface imports') = [] ∧
      Row.embedded c.advancedName (c.interface imports') = [c.templateName]) ∧
    ((Row.fields (c.implementation imports)).map Prod.fst ++
      (c.declared imports).map Header.name).Nodup ∧
    (∀ h ∈ c.templateMembers imports' ++ c.advancedMembers imports', h ∈ c.declared imports) ∧
    (∀ h, h ∈ c.templateMembers imports' ↔ h = renderHeader ∨ ∃ hole type,
      (hole, type) ∈ c.symbols.entries ∧ hole ∉ c.hidden ∧ h = setHeader hole type) ∧
    ((c.templateMembers imports').map Header.name).Pairwise (fun a b => lt a b = true) ∧
    (∀ hole type, (hole, type) ∈ c.symbols.entries →
      (c.updateHeader hole type ∈ c.declared imports ∧
        c.updateHeader hole type ∈ c.advancedMembers imports') ∧
      getHeader hole type ∈ c.declared imports ∧
        getHeader hole type ∈ c.advancedMembers imports') ∧
    ∀ hole type, (hole, type) ∈ c.symbols.entries → hole ∈ c.hidden →
      hiddenSetHeader hole type ∈ c.declared imports ∧
      ∀ h ∈ c.declared imports, h.name ≠ utf8 "Set" ++ Expr.holeName hole := by
  obtain ⟨hopening, hfield⟩ := c.filterMap_implementation imports
  have hdeclared := declared_eq hn ht imports
  have hnames : (c.declared imports).map Header.name = c.methods.map (·.signature.name) := by
    rw [hdeclared, ← headers_eq, List.map_map]
    rfl
  refine ⟨⟨hfield, hdeclared, ?_, embedded_template hn imports', embedded_advanced hn ht imports'⟩,
    ?_, fun h hmem => ?_, fun h => mem_templateMembers hn, templateMembers_ascending hn ha imports',
    fun hole type hmem => ?_, fun hole type hmem hhidden => ?_⟩
  · rw [hopening, hdeclared, ← headers_eq, List.length_map, List.length_map]
  · rw [Row.fields, hfield, hnames]
    exact declared_nodup hn ha
  · rw [hdeclared, mem_headers]
    rcases List.mem_append.mp hmem with hmem | hmem
    · obtain rfl | ⟨hole, type, hentry, hno, rfl⟩ := (mem_templateMembers hn).mp hmem
      · exact .inr (.inr rfl)
      · exact .inl ⟨hole, type, hentry, .inl (if_neg hno).symm⟩
    · obtain ⟨hole, type, hentry, hh⟩ := (mem_advancedMembers hn ht).mp hmem
      exact .inl ⟨hole, type, hentry, .inr hh⟩
  · rw [hdeclared]
    exact ⟨⟨mem_headers.mpr (.inl ⟨hole, type, hmem, .inr (.inl rfl)⟩),
        (mem_advancedMembers hn ht).mpr ⟨hole, type, hmem, .inl rfl⟩⟩,
      mem_headers.mpr (.inl ⟨hole, type, hmem, .inr (.inr rfl)⟩),
      (mem_advancedMembers hn ht).mpr ⟨hole, type, hmem, .inr rfl⟩⟩
  · rw [hdeclared]
    exact ⟨mem_headers.mpr (.inl ⟨hole, type, hmem, .inl (if_pos hhidden).symm⟩),
      fun h => not_exported_of_hidden hn (List.mem_map_of_mem hmem) hhidden⟩

theorem units_fit_together_hidden :
    ∃ c : Component, c.symbols.names = [utf8 "getX", utf8 "render"] ∧ c.hidden = [utf8 "getX"] ∧
      ((Row.fields (c.implementation [])).map Prod.fst ++
        (c.declared []).map Header.name).Nodup ∧
      c.templateMembers [] = [⟨utf8 "Render", [], utf8 "[]*html.Node"⟩,
        ⟨utf8 "SetRender", [utf8 "string"], []⟩] ∧
      c.advancedMembers [] = [⟨utf8 "UpdateGetX", [utf8 "func(*Page) []*html.Node"], []⟩,
        ⟨utf8 "GetGetX", [], utf8 "[]*html.Node"⟩,
        ⟨utf8 "UpdateRender", [utf8 "func(*Page) string"], []⟩,
        ⟨utf8 "GetRender", [], utf8 "string"⟩] ∧
      (∀ h ∈ c.templateMembers [] ++ c.advancedMembers [], h ∈ c.declared []) ∧
      ⟨utf8 "setGetX", [utf8 "[]*html.Node"], []⟩ ∈ c.declared [] ∧
      ∀ h ∈ c.declared [], h.name ≠ utf8 "SetGetX" := by
  let c : Component := ⟨[], utf8 "pages", utf8 "Page",
    ⟨[(utf8 "getX", .fragment), (utf8 "render", .string)]⟩, [], [utf8 "getX"]⟩
  have hnames : ∀ hole ∈ c.symbols.names, isHoleName hole = true := by decide +kernel
  have hascending : c.symbols.Ascending := by
    simp only [Symbols.Ascending, c, List.pairwise_cons, List.forall_mem_singleton]
    exact ⟨rfl, by simp⟩
  have htype : ∀ b ∈ c.typeName, b ≠ openParen ∧ b ≠ closeParen ∧ b ≠ comma := by decide +kernel
  obtain ⟨-, hnodup, hlisted, -, -, -, hhidden⟩ :=
    units_fit_together c hnames hascending htype [] []
  have hget := hhidden (utf8 "getX") .fragment List.mem_cons_self List.mem_cons_self
  exact ⟨c, rfl, rfl, hnodup, templateMembers_eq hnames [], advancedMembers_eq hnames htype [],
    hlisted, hget.1, hget.2⟩

end Component

end Stencil
