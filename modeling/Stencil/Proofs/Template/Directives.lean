import Stencil.Proofs.Template.Inclusion
import Stencil.Proofs.Text.Split

namespace Stencil.Directive

open Ascii Text

def Leads (a : Markup.Attribute) : Prop :=
  a.ns = [] ∧ lead <+: a.key

def Fills (a : Markup.Attribute) : Prop :=
  a.ns = [] ∧ (a.key = utf8 "ml:content" ∨ a.key = utf8 "ml:replace")

def Strips (a : Markup.Attribute) : Prop :=
  a.ns = [] ∧ (a.key = utf8 "ml:replace" ∨ a.key = utf8 "ml:strip")

instance (a : Markup.Attribute) : Decidable (Leads a) :=
  inferInstanceAs (Decidable (_ ∧ _))

instance (a : Markup.Attribute) : Decidable (Fills a) :=
  inferInstanceAs (Decidable (_ ∧ _))

instance (a : Markup.Attribute) : Decidable (Strips a) :=
  inferInstanceAs (Decidable (_ ∧ _))

def modeOf (a : Markup.Attribute) : Strip :=
  if a.key = utf8 "ml:replace" then .always else stripOf a.value

/-- An attribute that can be read: if it is a directive, then one of the three, and its value names
a hole where it should. -/
def Sound (a : Markup.Attribute) : Prop :=
  Leads a → (Fills a ∨ Strips a) ∧
    (Fills a → ∃ hole args, Words.split? a.value = some (hole :: args) ∧ isHoleName hole = true)

inductive Refuses (a : Markup.Attribute) : TextError → Prop where
  | unknown : Leads a → ¬ Fills a → ¬ Strips a → Refuses a (.malformed ⟨.malformedDirective,
      fragment a, utf8 "unknown directive " ++ quoted a.key ++
        didYouMean (a.key.drop lead.length) names lead, {}⟩)
  | unclosed : Fills a → Words.split? a.value = none →
      Refuses a (.malformed ⟨.unterminatedQuote, fragment a, [], {}⟩)
  | nameless : Fills a → Words.split? a.value = some [] →
      Refuses a (.malformed ⟨.malformedDirective, fragment a, utf8 "missing hole name", {}⟩)
  | misnamed {word : Text} {args : List Text} : Fills a →
      Words.split? a.value = some (word :: args) → isHoleName word = false →
      Refuses a (.malformed ⟨.invalidIdentifier, fragment a,
        quoted word ++ utf8 " is not a valid hole name", {}⟩)

def write (d : Directive) (a : Markup.Attribute) : Directive where
  hole := if Fills a then (Words.split? a.value).bind List.head? else d.hole
  args := if Fills a then ((Words.split? a.value).getD []).tail else d.args
  strip := if Strips a then modeOf a else d.strip

section

variable {a : Markup.Attribute} {name : Text} {e : TextError} {d : Directive}

theorem nameOf?_eq_some_iff : nameOf? a = some name ↔ a.ns = [] ∧ a.key = lead ++ name := by
  unfold nameOf?
  split
  next hns => rw [cutPrefix?_eq_some_iff, and_iff_right (List.isEmpty_iff.mp hns)]
  next hns =>
    have hns' : a.ns ≠ [] := mt List.isEmpty_iff.mpr hns
    simp [hns']

theorem nameOf?_of_not_leads (h : ¬ Leads a) : nameOf? a = none := by
  refine Option.eq_none_iff_forall_ne_some.mpr fun name hname => h ?_
  obtain ⟨hns, hkey⟩ := nameOf?_eq_some_iff.mp hname
  exact ⟨hns, name, hkey.symm⟩

theorem Leads.exists_name (h : Leads a) : ∃ name, nameOf? a = some name := by
  obtain ⟨hns, name, hkey⟩ := h
  exact ⟨name, nameOf?_eq_some_iff.mpr ⟨hns, hkey.symm⟩⟩

theorem Fills.leads (h : Fills a) : Leads a := by
  obtain ⟨hns, hkey | hkey⟩ := h
  · exact ⟨hns, utf8 "content", hkey.symm⟩
  · exact ⟨hns, utf8 "replace", hkey.symm⟩

theorem Strips.leads (h : Strips a) : Leads a := by
  obtain ⟨hns, hkey | hkey⟩ := h
  · exact ⟨hns, utf8 "replace", hkey.symm⟩
  · exact ⟨hns, utf8 "strip", hkey.symm⟩

theorem Refuses.leads (h : Refuses a e) : Leads a := by
  cases h with
  | unknown hleads => exact hleads
  | unclosed hfills => exact hfills.leads
  | nameless hfills => exact hfills.leads
  | misnamed hfills => exact hfills.leads

theorem not_sound_iff : ¬ Sound a ↔ ∃ e, Refuses a e := by
  constructor
  · intro h
    by_cases hfills : Fills a
    · cases hsplit : Words.split? a.value with
      | none => exact ⟨_, .unclosed hfills hsplit⟩
      | some words =>
        cases words with
        | nil => exact ⟨_, .nameless hfills hsplit⟩
        | cons word args =>
          refine ⟨_, .misnamed hfills hsplit (Bool.eq_false_iff.mpr fun hword => h fun _ => ?_)⟩
          exact ⟨.inl hfills, fun _ => ⟨word, args, hsplit, hword⟩⟩
    · obtain ⟨hleads, h⟩ := Classical.not_imp.mp h
      have hstrips : ¬ Strips a := fun hstrips => h ⟨.inr hstrips, fun h => absurd h hfills⟩
      exact ⟨_, .unknown hleads hfills hstrips⟩
  · rintro ⟨e, he⟩ hsound
    cases he with
    | unknown hleads hfills hstrips => exact (hsound hleads).1.elim hfills hstrips
    | unclosed hfills hsplit =>
      obtain ⟨hole, args, hsplit', -⟩ := (hsound hfills.leads).2 hfills
      exact absurd (hsplit.symm.trans hsplit') (by simp)
    | nameless hfills hsplit =>
      obtain ⟨hole, args, hsplit', -⟩ := (hsound hfills.leads).2 hfills
      exact absurd (hsplit.symm.trans hsplit') (by simp)
    | misnamed hfills hsplit hword =>
      obtain ⟨hole, args, hsplit', hhole⟩ := (hsound hfills.leads).2 hfills
      cases hsplit.symm.trans hsplit'
      exact absurd (hword.symm.trans hhole) (by simp)

theorem holeOf_eq_ok {hole : Text} {args : List Text}
    (hsplit : Words.split? a.value = some (hole :: args)) (hhole : isHoleName hole = true) :
    holeOf a = .ok (hole, args) := by
  rw [holeOf, hsplit]
  exact if_pos hhole

theorem update_content {hole : Text} {args : List Text} (hns : a.ns = [])
    (hkey : a.key = utf8 "ml:content") (hsplit : Words.split? a.value = some (hole :: args))
    (hhole : isHoleName hole = true) : d.update (utf8 "content") a = .ok (d.write a) := by
  have hfills : Fills a := ⟨hns, .inl hkey⟩
  have hstrips : ¬ Strips a := by
    rintro ⟨-, h | h⟩
    · exact absurd (hkey.symm.trans h) (by decide)
    · exact absurd (hkey.symm.trans h) (by decide)
  rw [update, if_pos rfl, holeOf_eq_ok hsplit hhole, write, if_pos hfills, if_pos hfills,
    if_neg hstrips, hsplit]
  rfl

theorem update_replace {hole : Text} {args : List Text} (hns : a.ns = [])
    (hkey : a.key = utf8 "ml:replace") (hsplit : Words.split? a.value = some (hole :: args))
    (hhole : isHoleName hole = true) : d.update (utf8 "replace") a = .ok (d.write a) := by
  have hfills : Fills a := ⟨hns, .inr hkey⟩
  have hstrips : Strips a := ⟨hns, .inl hkey⟩
  rw [update, if_neg (by decide), if_pos rfl, holeOf_eq_ok hsplit hhole, write, if_pos hfills,
    if_pos hfills, if_pos hstrips, hsplit, modeOf, if_pos hkey]
  rfl

theorem update_strip (hns : a.ns = []) (hkey : a.key = utf8 "ml:strip") :
    d.update (utf8 "strip") a = .ok (d.write a) := by
  have hfills : ¬ Fills a := by
    rintro ⟨-, h | h⟩
    · exact absurd (hkey.symm.trans h) (by decide)
    · exact absurd (hkey.symm.trans h) (by decide)
  have hstrips : Strips a := ⟨hns, .inr hkey⟩
  have hreplace : a.key ≠ utf8 "ml:replace" := fun h => absurd (hkey.symm.trans h) (by decide)
  rw [update, if_neg (by decide), if_neg (by decide), if_pos rfl, write, if_neg hfills,
    if_neg hfills, if_pos hstrips, modeOf, if_neg hreplace]
  rfl

theorem update_of_sound (hname : nameOf? a = some name) (h : Sound a) :
    d.update name a = .ok (d.write a) := by
  obtain ⟨hns, hkey⟩ := nameOf?_eq_some_iff.mp hname
  obtain ⟨hknown, hhole⟩ := h ⟨hns, name, hkey.symm⟩
  have hname : ∀ word, a.key = lead ++ word → name = word := fun word hword =>
    List.append_cancel_left (hkey.symm.trans hword)
  have hreplace (hkey : a.key = utf8 "ml:replace") : d.update name a = .ok (d.write a) := by
    obtain ⟨hole, args, hsplit, hvalid⟩ := hhole ⟨hns, .inr hkey⟩
    rw [hname (utf8 "replace") hkey]
    exact update_replace hns hkey hsplit hvalid
  rcases hknown with ⟨-, hkey | hkey⟩ | ⟨-, hkey | hkey⟩
  · obtain ⟨hole, args, hsplit, hvalid⟩ := hhole ⟨hns, .inl hkey⟩
    rw [hname (utf8 "content") hkey]
    exact update_content hns hkey hsplit hvalid
  · exact hreplace hkey
  · exact hreplace hkey
  · rw [hname (utf8 "strip") hkey]
    exact update_strip hns hkey

theorem update_of_fills (hname : nameOf? a = some name) (hfills : Fills a)
    (hhole : holeOf a = .error e) : d.update name a = .error e := by
  obtain ⟨-, hkey⟩ := nameOf?_eq_some_iff.mp hname
  obtain ⟨-, h | h⟩ := hfills
  · have hcontent : name = utf8 "content" := List.append_cancel_left (hkey.symm.trans h)
    rw [update, if_pos hcontent, hhole]
    rfl
  · have hreplace : name = utf8 "replace" := List.append_cancel_left (hkey.symm.trans h)
    rw [hreplace, update, if_neg (by decide), if_pos rfl, hhole]
    rfl

theorem update_of_refuses (hname : nameOf? a = some name) (h : Refuses a e) :
    d.update name a = .error e := by
  cases h with
  | unclosed hfills hsplit => exact update_of_fills hname hfills (by rw [holeOf, hsplit])
  | nameless hfills hsplit => exact update_of_fills hname hfills (by rw [holeOf, hsplit])
  | misnamed hfills hsplit hword =>
    refine update_of_fills hname hfills ?_
    rw [holeOf, hsplit]
    exact if_neg (by simp [hword])
  | unknown _ hfills hstrips =>
    obtain ⟨hns, hkey⟩ := nameOf?_eq_some_iff.mp hname
    have hcontent : name ≠ utf8 "content" := fun h => hfills ⟨hns, .inl (hkey.trans (h ▸ rfl))⟩
    have hreplace : name ≠ utf8 "replace" := fun h => hfills ⟨hns, .inr (hkey.trans (h ▸ rfl))⟩
    have hstrip : name ≠ utf8 "strip" := fun h => hstrips ⟨hns, .inr (hkey.trans (h ▸ rfl))⟩
    have hdrop : a.key.drop lead.length = name := by rw [hkey, List.drop_left]
    rw [update, if_neg hcontent, if_neg hreplace, if_neg hstrip, hdrop]

theorem write_of_not_leads (h : ¬ Leads a) : d.write a = d := by
  have hfills : ¬ Fills a := fun hfills => h hfills.leads
  have hstrips : ¬ Strips a := fun hstrips => h hstrips.leads
  rw [write, if_neg hfills, if_neg hfills, if_neg hstrips]

end

section

variable {attrs before after : List Markup.Attribute} {a : Markup.Attribute} {e : TextError}

theorem readFrom_cons_of_name {name : Text} (h : nameOf? a = some name) (d : Directive) :
    readFrom d (a :: attrs) = d.update name a >>= fun d => readFrom d attrs := by
  rw [readFrom, h]

theorem readFrom_cons_of_not_leads (h : ¬ Leads a) (d : Directive) :
    readFrom d (a :: attrs) = (readFrom d attrs).map fun p => (p.1, a :: p.2) := by
  rw [readFrom, nameOf?_of_not_leads h]
  rfl

theorem readFrom_of_sound (d : Directive) (h : ∀ a ∈ attrs, Sound a) :
    readFrom d attrs = .ok (attrs.foldl write d, attrs.filter fun a => ¬ Leads a) := by
  induction attrs generalizing d with
  | nil => rfl
  | cons a attrs ih =>
    obtain ⟨ha, hrest⟩ := List.forall_mem_cons.mp h
    rw [List.foldl_cons]
    by_cases hleads : Leads a
    · obtain ⟨name, hname⟩ := hleads.exists_name
      rw [readFrom_cons_of_name hname, update_of_sound hname ha,
        List.filter_cons_of_neg (by simpa using hleads)]
      exact ih (d.write a) hrest
    · rw [readFrom_cons_of_not_leads hleads, ih d hrest, write_of_not_leads hleads,
        List.filter_cons_of_pos (by simpa using hleads)]
      rfl

theorem readFrom_of_refuses (d : Directive) (h : ∀ x ∈ before, Sound x) (ha : Refuses a e) :
    readFrom d (before ++ a :: after) = .error e := by
  induction before generalizing d with
  | nil =>
    obtain ⟨name, hname⟩ := ha.leads.exists_name
    rw [List.nil_append, readFrom_cons_of_name hname, update_of_refuses hname ha]
    rfl
  | cons x before ih =>
    obtain ⟨hx, hrest⟩ := List.forall_mem_cons.mp h
    rw [List.cons_append]
    by_cases hleads : Leads x
    · obtain ⟨name, hname⟩ := hleads.exists_name
      rw [readFrom_cons_of_name hname, update_of_sound hname hx]
      exact ih (d.write x) hrest
    · rw [readFrom_cons_of_not_leads hleads, ih d hrest]
      rfl

theorem exists_first_refused (h : ¬ ∀ a ∈ attrs, Sound a) :
    ∃ before a after e, attrs = before ++ a :: after ∧ (∀ x ∈ before, Sound x) ∧ Refuses a e := by
  induction attrs with
  | nil => exact absurd (List.forall_mem_nil _) h
  | cons a attrs ih =>
    by_cases ha : Sound a
    · obtain ⟨before, x, after, e, rfl, hbefore, hx⟩ :=
        ih fun hrest => h (List.forall_mem_cons.mpr ⟨ha, hrest⟩)
      exact ⟨a :: before, x, after, e, rfl, List.forall_mem_cons.mpr ⟨ha, hbefore⟩, hx⟩
    · obtain ⟨e, he⟩ := not_sound_iff.mp ha
      exact ⟨[], a, attrs, e, rfl, List.forall_mem_nil _, he⟩

theorem read_ok_iff : (∃ p, read attrs = .ok p) ↔ ∀ a ∈ attrs, Sound a := by
  refine ⟨fun ⟨p, hp⟩ => ?_, fun h => ⟨_, readFrom_of_sound {} h⟩⟩
  by_contra h
  obtain ⟨before, a, after, e, rfl, hbefore, ha⟩ := exists_first_refused h
  exact absurd (hp.symm.trans (readFrom_of_refuses {} hbefore ha)) (by simp)

theorem read_error_iff : read attrs = .error e ↔
    ∃ before a after, attrs = before ++ a :: after ∧ (∀ x ∈ before, Sound x) ∧ Refuses a e := by
  constructor
  · intro h
    have hsound : ¬ ∀ a ∈ attrs, Sound a := fun hsound =>
      absurd (h.symm.trans (readFrom_of_sound {} hsound)) (by simp)
    obtain ⟨before, a, after, e', rfl, hbefore, ha⟩ := exists_first_refused hsound
    cases h.symm.trans (readFrom_of_refuses {} hbefore ha)
    exact ⟨before, a, after, rfl, hbefore, ha⟩
  · rintro ⟨before, a, after, rfl, hbefore, ha⟩
    exact readFrom_of_refuses {} hbefore ha

theorem foldl_write {β : Type} (part : Directive → β) (p : Markup.Attribute → Prop)
    [DecidablePred p] (f : Markup.Attribute → β)
    (hwrite : ∀ d a, part (write d a) = if p a then f a else part d) (d : Directive) :
    part (attrs.foldl write d) =
      (((attrs.filter fun a => p a).getLast?).map f).getD (part d) := by
  induction attrs generalizing d with
  | nil => rfl
  | cons a attrs ih =>
    rw [List.foldl_cons, ih, hwrite]
    by_cases ha : p a
    · rw [List.filter_cons_of_pos (by simpa using ha), List.getLast?_cons, if_pos ha]
      cases (attrs.filter fun a => p a).getLast? <;> rfl
    · rw [List.filter_cons_of_neg (by simpa using ha), if_neg ha]

theorem readFrom_filter_leads (d : Directive) : (readFrom d attrs).map Prod.fst =
    (readFrom d (attrs.filter fun a => Leads a)).map Prod.fst := by
  induction attrs generalizing d with
  | nil => rfl
  | cons a attrs ih =>
    by_cases hleads : Leads a
    · obtain ⟨name, hname⟩ := hleads.exists_name
      rw [List.filter_cons_of_pos (by simpa using hleads), readFrom_cons_of_name hname,
        readFrom_cons_of_name hname]
      cases d.update name a with
      | error e => rfl
      | ok d' => exact ih d'
    · rw [List.filter_cons_of_neg (by simpa using hleads), ← ih d,
        readFrom_cons_of_not_leads hleads]
      cases readFrom d attrs <;> rfl

end

structure LastWins (attrs : List Markup.Attribute) (d : Directive) : Prop where
  filled {a : Markup.Attribute} : (attrs.filter fun a => Fills a).getLast? = some a →
    ∃ hole, d.hole = some hole ∧ Words.split? a.value = some (hole :: d.args)
  unfilled : (∀ a ∈ attrs, ¬ Fills a) → d.hole = none ∧ d.args = []
  stripped {a : Markup.Attribute} : (attrs.filter fun a => Strips a).getLast? = some a →
    d.strip = modeOf a
  kept : (∀ a ∈ attrs, ¬ Strips a) → d.strip = .none

theorem foldl_write_lastWins {attrs : List Markup.Attribute} (h : ∀ a ∈ attrs, Sound a) :
    LastWins attrs (attrs.foldl write {}) := by
  have hnone {p : Markup.Attribute → Prop} [DecidablePred p] (hp : ∀ a ∈ attrs, ¬ p a) :
      attrs.filter (fun a => p a) = [] :=
    List.filter_eq_nil_iff.mpr fun a ha => by simpa using hp a ha
  have hhole : (attrs.foldl write {}).hole = _ := foldl_write hole Fills _ (fun _ _ => rfl) {}
  have hargs : (attrs.foldl write {}).args = _ := foldl_write args Fills _ (fun _ _ => rfl) {}
  have hstrip : (attrs.foldl write {}).strip = _ := foldl_write strip Strips _ (fun _ _ => rfl) {}
  constructor
  case filled =>
    intro a hlast
    obtain ⟨hmem, hfills⟩ := List.mem_filter.mp (List.mem_of_getLast? hlast)
    have hfills : Fills a := of_decide_eq_true hfills
    obtain ⟨hole, args, hsplit, -⟩ := (h a hmem hfills.leads).2 hfills
    rw [hhole, hargs, hlast, Option.map_some, Option.map_some, hsplit]
    exact ⟨hole, rfl, rfl⟩
  case unfilled =>
    intro hfills
    rw [hhole, hargs, hnone hfills]
    exact ⟨rfl, rfl⟩
  case stripped =>
    intro a hlast
    rw [hstrip, hlast]
    rfl
  case kept =>
    intro hstrips
    rw [hstrip, hnone hstrips]
    rfl

/-- Reading succeeds where every directive can be read, and else reports the first that cannot. It
leaves the ordinary attributes in their order, in which no directive is found any more, and what the
last writers wrote. Lists that differ in ordinary attributes only, put in, left out or moved, have
the same directive. -/
theorem read_last_writers (attrs : List Markup.Attribute) :
    ((∃ p, read attrs = .ok p) ↔ ∀ a ∈ attrs, Sound a) ∧
      (∀ e, read attrs = .error e ↔ ∃ before a after, attrs = before ++ a :: after ∧
        (∀ x ∈ before, Sound x) ∧ ¬ Sound a ∧ Refuses a e) ∧
      (∀ d ordinary, read attrs = .ok (d, ordinary) →
        (ordinary = attrs.filter fun a => ¬ Leads a) ∧ LastWins attrs d ∧
          read ordinary = .ok ({}, ordinary)) ∧
      ∀ attrs' : List Markup.Attribute,
        (attrs'.filter fun a => Leads a) = (attrs.filter fun a => Leads a) →
          (read attrs').map Prod.fst = (read attrs).map Prod.fst := by
  refine ⟨read_ok_iff, fun e => ?_, fun d ordinary h => ?_, fun attrs' h => ?_⟩
  · rw [read_error_iff]
    refine exists_congr fun before => exists_congr fun a => exists_congr fun after => ?_
    refine and_congr_right fun _ => and_congr_right fun _ => ?_
    exact ⟨fun ha => ⟨not_sound_iff.mpr ⟨e, ha⟩, ha⟩, And.right⟩
  · have hsound := read_ok_iff.mp ⟨_, h⟩
    cases h.symm.trans (readFrom_of_sound {} hsound)
    exact ⟨rfl, foldl_write_lastWins hsound, read_ordinary h⟩
  · rw [read, read, readFrom_filter_leads, h, ← readFrom_filter_leads]

theorem read_last_writers_overlaid :
    ∃ directives ordinary : List Markup.Attribute, ∃ attrs, List.Perm attrs (directives ++ ordinary) ∧
      read attrs = .ok (⟨some (utf8 "second"), [utf8 "a"], .ifEmpty⟩, ordinary) ∧
      ordinary.map (·.key) = [utf8 "class", utf8 "ml:content", utf8 "id"] ∧
      LastWins attrs ⟨some (utf8 "second"), [utf8 "a"], .ifEmpty⟩ ∧
      read ordinary = .ok ({}, ordinary) ∧
      (read (directives ++ ordinary)).map Prod.fst = (read attrs).map Prod.fst := by
  let box : Markup.Attribute := ⟨[], utf8 "class", utf8 "c"⟩
  let look : Markup.Attribute := ⟨utf8 "x", utf8 "ml:content", utf8 "third"⟩
  let mark : Markup.Attribute := ⟨[], utf8 "id", utf8 "i"⟩
  let content : Markup.Attribute := ⟨[], utf8 "ml:content", utf8 "first"⟩
  let replace : Markup.Attribute := ⟨[], utf8 "ml:replace", utf8 "second a"⟩
  let strip : Markup.Attribute := ⟨[], utf8 "ml:strip", utf8 "ifempty"⟩
  have hread : read [box, content, replace, look, strip, mark] =
      .ok (⟨some (utf8 "second"), [utf8 "a"], .ifEmpty⟩, [box, look, mark]) := rfl
  obtain ⟨-, -, hok, hmoved⟩ := read_last_writers [box, content, replace, look, strip, mark]
  obtain ⟨-, hlast, hordinary⟩ := hok _ _ hread
  exact ⟨[content, replace, strip], [box, look, mark], _, by decide, hread, rfl, hlast, hordinary,
    hmoved _ rfl⟩

end Stencil.Directive
