import Stencil.Proofs.Template.Layout
import Stencil.Proofs.Template.Registration
import Stencil.Proofs.Template.Words

namespace Stencil

open Ascii Text

/-! What a placeholder and a layout are read as. -/

inductive Names : Text → Segment → Prop
  | value {p name : Text} : Words.split? p = some [name] → isHoleName name = true →
      Names p (.variable name)
  | call {p name : Text} {args : List Text} : Words.split? p = some (name :: args) → args ≠ [] →
      isHoleName name = true → Names p (.call name args)

def Segments.ofLiteral (l : Text) : Segments :=
  if l.isEmpty then [] else [.literal l]

inductive Layout.Shows : Layout → Segments → Prop
  | last (l : Text) : Shows (.last l) (Segments.ofLiteral l)
  | next (l : Text) {p : Text} {rest : Layout} {segment : Segment} {segments : Segments} :
      Names p segment → Shows rest segments →
      Shows (.next l p rest) (Segments.ofLiteral l ++ segment :: segments)

def Segments.uses (segments : Segments) : List Use :=
  (Segments.occurrences segments).map Occurrence.use

namespace Segments

theorem uses_append (first second : Segments) :
    uses (first ++ second) = uses first ++ uses second := by
  simp [uses, occurrences]

theorem uses_cons (segment : Segment) (rest : Segments) :
    uses (segment :: rest) = uses [segment] ++ uses rest :=
  uses_append [segment] rest

theorem uses_ofLiteral (l : Text) : uses (ofLiteral l) = [] := by
  unfold ofLiteral
  split <;> rfl

theorem registerAll_ofLiteral (table : Symbols) (l : Text) :
    table.registerAll (uses (ofLiteral l)) = .ok table := by
  rw [uses_ofLiteral]
  rfl

theorem uses_valid (segments : Segments) : ∀ u ∈ uses segments, u.type.IsValid := by
  intro u hu
  obtain ⟨o, ho, rfl⟩ := List.mem_map.mp hu
  obtain ⟨segment, -, ho⟩ := List.mem_flatMap.mp ho
  cases segment with
  | literal l => cases ho
  | «variable» name => rw [List.mem_singleton.mp ho]; exact fun _ => HoleType.noConfusion
  | call name args => rw [List.mem_singleton.mp ho]; exact fun _ => HoleType.noConfusion

end Segments

inductive Refused (table : Symbols) : Text → TextError → Prop
  | unclosed {p : Text} : closeBrace ∉ p →
      Refused table p (.malformed ⟨.unterminatedPlaceholder, opening ++ p, [], {}⟩)
  | openQuote {p : Text} (rest : Text) : closeBrace ∉ p → Words.split? p = none →
      Refused table (p ++ closeBrace :: rest)
        (.malformed ⟨.unterminatedQuote, opening ++ p ++ [closeBrace], [], {}⟩)
  | empty {p : Text} (rest : Text) : closeBrace ∉ p → Words.split? p = some [] →
      Refused table (p ++ closeBrace :: rest)
        (.malformed ⟨.invalidIdentifier, opening ++ p ++ [closeBrace],
          utf8 "empty placeholder", {}⟩)
  | badName {p name : Text} {args : List Text} (rest : Text) : closeBrace ∉ p →
      Words.split? p = some (name :: args) → isHoleName name = false →
      Refused table (p ++ closeBrace :: rest)
        (.malformed ⟨.invalidIdentifier, opening ++ p ++ [closeBrace],
          quoted name ++ utf8 " is not a valid hole name", {}⟩)
  | clash {p : Text} {segment : Segment} {clash : Clash} (rest : Text) : closeBrace ∉ p →
      Names p segment → table.registerAll (Segments.uses [segment]) = .error clash →
      Refused table (p ++ closeBrace :: rest) (.conflict ⟨clash, {}⟩)

namespace Scan

def Accepts (table : Symbols) (s : Text) (segments : Segments) (next : Symbols) : Prop :=
  ∃ layout : Layout, layout.Fits ∧ s = layout.text ∧ layout.Shows segments ∧
    table.registerAll segments.uses = .ok next

def Rejects (table : Symbols) (s : Text) (e : TextError) (next : Symbols) : Prop :=
  ∃ (layout : Layout) (rest : Text) (segments : Segments),
    layout.Fits ∧ s = layout.text ++ opening ++ rest ∧ layout.Shows segments ∧
      table.registerAll segments.uses = .ok next ∧ Refused next rest e

def record (segment : Segment) : Scan Segment :=
  match segment with
  | .literal _ => return segment
  | .variable name => do
    register name .string
    return segment
  | .call name _ => do
    register name .stringFunction
    return segment

theorem record_follows (segment : Segment) :
    Follows (record segment) (some segment) (fun s => s.occurrences.map Occurrence.use) := by
  cases segment with
  | literal l => exact .pure rfl
  | «variable» name => exact .recorded rfl
  | call name args => exact .recorded rfl

theorem records_run {segments : Segments} {table next : Symbols}
    (h : table.registerAll segments.uses = .ok next) :
    (segments.mapM record).run table = (.ok segments, next) := by
  have hread : segments.mapM some = some segments :=
    (List.mapM_pure (f := id)).trans (congrArg some (List.map_id segments))
  refine (Follows.mapM record_follows segments).done hread ?_
  rwa [Segments.uses, Segments.occurrences, List.map_flatMap] at h

theorem record_clash {segment : Segment} {table : Symbols} {clash : Clash}
    (h : table.registerAll (Segments.uses [segment]) = .error clash) :
    (record segment).run table = (.error (.conflict ⟨clash, {}⟩), table) := by
  have hsingle : ∀ name type, table.registerAll [⟨name, type⟩] = .error clash →
      table.register name type = .error clash := by
    intro name type hr
    rw [Symbols.registerAll] at hr
    cases ht : table.register name type with
    | ok next => rw [ht] at hr; cases hr
    | error other => rw [ht] at hr; exact hr
  cases segment with
  | literal l => cases h
  | «variable» name =>
    rw [record, run_bind, run_register, hsingle _ _ h]
  | call name args =>
    rw [record, run_bind, run_register, hsingle _ _ h]

theorem placeholder_of_names {p : Text} {segment : Segment} (h : Names p segment) :
    placeholder p = record segment := by
  cases h with
  | value hw hn => simp [placeholder, record, hw, hn]
  | call hw ha hn => simp [placeholder, record, hw, ha, hn]

theorem literals_mapM (l : Text) {list : List Stretch} {rest : Segments}
    (h : list.mapM stretch = rest.mapM record) :
    (Stretch.literals l.reverse list).mapM stretch =
      (Segments.ofLiteral l ++ rest).mapM record := by
  cases l with
  | nil => exact h
  | cons c l =>
    have hne : (c :: l).reverse.isEmpty = false := by simp
    rw [Stretch.literals, hne, List.reverse_reverse]
    simp only [Segments.ofLiteral, List.isEmpty_cons, Bool.false_eq_true, if_false,
      List.singleton_append, List.mapM_cons, h]
    rfl

theorem stretches_of_shows {layout : Layout} {segments : Segments} (h : layout.Shows segments) :
    layout.stretches.mapM stretch = segments.mapM record := by
  induction h with
  | last l =>
    have hnil : List.mapM stretch [] = List.mapM record [] := rfl
    have hlast := literals_mapM l hnil
    rwa [List.append_nil] at hlast
  | @next l p rest segment segments hp hrest ih =>
    apply literals_mapM
    rw [List.mapM_cons, List.mapM_cons, ih, stretch, placeholder_of_names hp]

theorem text_of_shows {layout : Layout} {segments : Segments} (hf : layout.Fits)
    (hs : layout.Shows segments) : text layout.text = segments.mapM record := by
  rw [text, Layout.ofText_text hf, stretches_of_shows hs]

theorem opening_eq : utf8 "$\x7b" = opening := by
  decide

theorem closed_run {table : Symbols} {p : Text} {e : TextError} (hp : closeBrace ∉ p)
    (h : (placeholder p).run table = (.error e, table)) (rest : Text) :
    ((Stretch.read true [] (p ++ closeBrace :: rest)).mapM stretch).run table =
      (.error e, table) := by
  rw [Stretch.read_closed hp, List.reverse_nil, List.nil_append, List.mapM_cons, run_bind, stretch,
    h]

theorem refused_run {table : Symbols} {rest : Text} {e : TextError} (h : Refused table rest e) :
    ((Stretch.read true [] rest).mapM stretch).run table = (.error e, table) := by
  cases h with
  | unclosed hp =>
    rw [Stretch.read_unclosed hp, List.mapM_cons, stretch, opening_eq]
    rfl
  | openQuote rest hp hw =>
    apply closed_run hp
    simp only [placeholder, hw, opening_eq]
    rfl
  | empty rest hp hw =>
    apply closed_run hp
    simp only [placeholder, hw, opening_eq]
    rfl
  | badName rest hp hw hn =>
    apply closed_run hp
    simp only [placeholder, hw, hn, opening_eq]
    rfl
  | clash rest hp hnames hr =>
    apply closed_run hp
    rw [placeholder_of_names hnames, record_clash hr]

theorem run_of_accepts {table next : Symbols} {s : Text} {segments : Segments}
    (h : Accepts table s segments next) : (text s).run table = (.ok segments, next) := by
  obtain ⟨layout, hfits, rfl, hshows, hr⟩ := h
  rw [text_of_shows hfits hshows]
  exact records_run hr

theorem run_of_rejects {table next : Symbols} {s : Text} {e : TextError}
    (h : Rejects table s e next) : (text s).run table = (.error e, next) := by
  obtain ⟨layout, rest, segments, hfits, rfl, hshows, hr, hrefused⟩ := h
  rw [text, Layout.ofText_append hfits, List.mapM_append, stretches_of_shows hshows, run_bind,
    records_run hr]
  simp only
  rw [run_bind, refused_run hrefused]

/-! Every text is accepted or rejected. -/

theorem names_or_refused (table : Symbols) {p : Text} (hp : closeBrace ∉ p) (rest : Text) :
    (∃ segment next, Names p segment ∧ table.registerAll (Segments.uses [segment]) = .ok next) ∨
      ∃ e, Refused table (p ++ closeBrace :: rest) e := by
  have hrecord : ∀ segment, Names p segment →
      (∃ segment next, Names p segment ∧ table.registerAll (Segments.uses [segment]) = .ok next) ∨
        ∃ e, Refused table (p ++ closeBrace :: rest) e := by
    intro segment hnames
    cases hr : table.registerAll (Segments.uses [segment]) with
    | ok next => exact .inl ⟨segment, next, hnames, hr⟩
    | error clash => exact .inr ⟨_, .clash rest hp hnames hr⟩
  cases hw : Words.split? p with
  | none => exact .inr ⟨_, .openQuote rest hp hw⟩
  | some words =>
    cases words with
    | nil => exact .inr ⟨_, .empty rest hp hw⟩
    | cons name args =>
      cases hn : isHoleName name with
      | false => exact .inr ⟨_, .badName rest hp hw hn⟩
      | true =>
        cases args with
        | nil => exact hrecord _ (.value hw hn)
        | cons arg args => exact hrecord _ (.call hw (by simp) hn)

theorem layout_cases {layout : Layout} (hf : layout.Fits) (table : Symbols) (tail : Text) :
    (∃ segments next, layout.Shows segments ∧ table.registerAll segments.uses = .ok next) ∨
      ∃ e next, Rejects table (layout.text ++ tail) e next := by
  induction layout generalizing table with
  | last l => exact .inl ⟨_, table, .last l, Segments.registerAll_ofLiteral table l⟩
  | next l p rest ih =>
    obtain ⟨hl, hp, hrest⟩ := hf
    -- the rest is recorded in the table that the first placeholder leaves
    rcases names_or_refused table hp (rest.text ++ tail) with
      ⟨segment, middle, hnames, hr⟩ | ⟨e, he⟩
    · have huses : ∀ others : Segments, table.registerAll
          (Segments.uses (Segments.ofLiteral l ++ segment :: others)) =
            middle.registerAll others.uses := by
        intro others
        rw [Segments.uses_append, Segments.uses_ofLiteral, List.nil_append, Segments.uses_cons,
          Symbols.registerAll_append, hr]
      rcases ih hrest middle with ⟨others, next, hshows, hnext⟩ | ⟨e, next, hrejects⟩
      · exact .inl ⟨_, next, .next l hnames hshows, (huses others).trans hnext⟩
      · obtain ⟨before, after, others, hfits, htext, hshows, hnext, hrefused⟩ := hrejects
        refine .inr ⟨e, next, .next l p before, after, _, ⟨hl, hp, hfits⟩, ?_,
          .next l hnames hshows, (huses others).trans hnext, hrefused⟩
        simp only [Layout.text, List.append_assoc, List.cons_append] at htext ⊢
        rw [htext]
    · have hliteral := Segments.registerAll_ofLiteral table l
      refine .inr ⟨e, table, .last l, _, _, hl, ?_, .last l, hliteral, he⟩
      simp [Layout.text]

theorem accepts_or_rejects (table : Symbols) (s : Text) :
    (∃ segments next, Accepts table s segments next) ∨ ∃ e next, Rejects table s e next := by
  obtain ⟨layout, hfits, hs⟩ := Layout.exists_text s
  rcases hs with rfl | ⟨p, hp, rfl⟩
  · rcases layout_cases hfits table [] with ⟨segments, next, hshows, hr⟩ | hrejects
    · exact .inl ⟨segments, next, layout, hfits, rfl, hshows, hr⟩
    · rw [List.append_nil] at hrejects
      exact .inr hrejects
  · rcases layout_cases hfits table (opening ++ p) with ⟨segments, next, hshows, hr⟩ | hrejects
    · exact .inr ⟨_, next, layout, p, segments, hfits, rfl, hshows, hr, .unclosed hp⟩
    · rw [← List.append_assoc] at hrejects
      exact .inr hrejects

theorem run_ok_iff {table next : Symbols} {s : Text} {segments : Segments} :
    (text s).run table = (.ok segments, next) ↔ Accepts table s segments next := by
  refine ⟨?_, run_of_accepts⟩
  intro h
  rcases accepts_or_rejects table s with ⟨segments', next', ha⟩ | ⟨e, next', hr⟩
  · cases h.symm.trans (run_of_accepts ha)
    exact ha
  · cases h.symm.trans (run_of_rejects hr)

theorem run_error_iff {table next : Symbols} {s : Text} {e : TextError} :
    (text s).run table = (.error e, next) ↔ Rejects table s e next := by
  refine ⟨?_, run_of_rejects⟩
  intro h
  rcases accepts_or_rejects table s with ⟨segments', next', ha⟩ | ⟨e', next', hr⟩
  · cases h.symm.trans (run_of_accepts ha)
  · cases h.symm.trans (run_of_rejects hr)
    exact hr

end Scan

/-! Segments that were read have no empty literals and no two literals side by side. -/

def Segments.Normal (segments : Segments) : Prop :=
  (∀ l, Segment.literal l ∈ segments → l ≠ []) ∧
    ∀ l m, ¬ [Segment.literal l, Segment.literal m] <:+: segments

theorem Names.ne_literal {p : Text} {segment : Segment} (h : Names p segment) (l : Text) :
    segment ≠ .literal l := by
  cases h <;> exact Segment.noConfusion

namespace Segments

theorem normal_ofLiteral (l : Text) : Normal (ofLiteral l) := by
  unfold ofLiteral
  split
  · exact ⟨by simp, by simp⟩
  · rename_i hne
    refine ⟨by simpa using hne, ?_⟩
    intro m n hpair
    simpa using hpair.length_le

theorem Normal.cons {segment : Segment} {rest : Segments} (h : Normal rest)
    (hs : ∀ l, segment ≠ .literal l) : Normal (segment :: rest) := by
  refine ⟨?_, ?_⟩
  · intro l hl
    exact h.1 l ((List.mem_cons.mp hl).resolve_left fun he => hs l he.symm)
  · intro l m hpair
    rcases List.infix_cons_iff.mp hpair with hfirst | hlater
    · exact hs l (List.cons_prefix_cons.mp hfirst).1.symm
    · exact h.2 l m hlater

theorem Normal.ofLiteral_append {segment : Segment} {rest : Segments} (h : Normal (segment :: rest))
    (hs : ∀ l, segment ≠ .literal l) (l : Text) : Normal (ofLiteral l ++ segment :: rest) := by
  unfold ofLiteral
  split
  · exact h
  · rename_i hne
    refine ⟨?_, ?_⟩
    · intro m hm
      rcases List.mem_cons.mp hm with he | hm
      · cases he
        simpa using hne
      · exact h.1 m hm
    · intro m n hpair
      rcases List.infix_cons_iff.mp hpair with hfirst | hlater
      · obtain ⟨-, hsecond⟩ := List.cons_prefix_cons.mp hfirst
        exact hs n (List.cons_prefix_cons.mp hsecond).1.symm
      · exact h.2 m n hlater

end Segments

theorem Layout.Shows.normal {layout : Layout} {segments : Segments} (h : layout.Shows segments) :
    segments.Normal := by
  induction h with
  | last l => exact Segments.normal_ofLiteral l
  | next l hnames _ ih => exact (ih.cons hnames.ne_literal).ofLiteral_append hnames.ne_literal l

/-! Printing. -/

def Segment.print : Segment → Text
  | .literal l => l
  | .variable name => opening ++ (name ++ [closeBrace])
  | .call name args => opening ++ (Words.join (name :: args) ++ [closeBrace])

def Segments.print (segments : Segments) : Text :=
  segments.flatMap Segment.print

theorem isSpace_of_isAlphanumeric {c : UInt8} (h : (isAlphanumeric c || c = underscore) = true) :
    isSpace c = false := by
  unfold isSpace
  split
  case h_7 => rfl
  all_goals exact absurd h (by decide)

theorem Words.isBare_of_isHoleName {name : Text} (h : isHoleName name = true) :
    Words.isBare name = true := by
  cases name with
  | nil => cases h
  | cons c rest =>
    obtain ⟨hc, hrest⟩ := Bool.and_eq_true_iff.mp h
    have hfirst : (isAlphanumeric c || c = underscore) = true := by
      simp [isAlphanumeric, Ascii.isLetter, hc]
    refine Words.isBare_cons.mpr ⟨?_, ?_⟩
    · rintro rfl
      cases hc
    · intro d hd
      apply isSpace_of_isAlphanumeric
      rcases List.mem_cons.mp hd with rfl | hd
      · exact hfirst
      · exact List.all_eq_true.mp hrest d hd

theorem Names.print {p : Text} {segment : Segment} (h : Names p segment) (hp : closeBrace ∉ p) :
    ∃ q, Names q segment ∧ closeBrace ∉ q ∧ segment.print = opening ++ (q ++ [closeBrace]) := by
  have hspace : closeBrace ≠ space := by decide
  have hquote : closeBrace ≠ quote := by decide
  have hjoin : ∀ words, Words.split? p = some words →
      Words.split? (Words.join words) = some words ∧ closeBrace ∉ Words.join words := by
    intro words hw
    have hsound : Words.State.Sound .between := trivial
    refine ⟨Words.split?_join (Words.writable_of_read hsound hw), ?_⟩
    exact Words.not_mem_join hspace hquote (Words.not_mem_of_read List.not_mem_nil hp hw)
  cases h with
  | @value name hw hn =>
    have hbare : Words.join [name] = name := by
      rw [Words.join, List.map_singleton, Text.joinWith, Words.write,
        if_pos (Words.isBare_of_isHoleName hn)]
    obtain ⟨hsplit, hclose⟩ := hjoin _ hw
    rw [hbare] at hsplit hclose
    exact ⟨name, .value hsplit hn, hclose, rfl⟩
  | call hw ha hn =>
    obtain ⟨hsplit, hclose⟩ := hjoin _ hw
    exact ⟨_, .call hsplit ha hn, hclose, rfl⟩

theorem Segments.print_ofLiteral (l : Text) : (Segments.ofLiteral l).print = l := by
  unfold Segments.ofLiteral
  split
  · rename_i hl
    rw [List.isEmpty_iff.mp hl]
    rfl
  · exact List.append_nil l

theorem Layout.Shows.print {layout : Layout} {segments : Segments} (h : layout.Shows segments)
    (hf : layout.Fits) :
    ∃ printed : Layout, printed.Fits ∧ printed.Shows segments ∧ segments.print = printed.text := by
  induction h with
  | last l => exact ⟨.last l, hf, .last l, Segments.print_ofLiteral l⟩
  | @next l p rest segment segments hnames _ ih =>
    obtain ⟨hl, hp, hrest⟩ := hf
    obtain ⟨printed, hfits, hshows, htext⟩ := ih hrest
    obtain ⟨q, hq, hclose, hprint⟩ := hnames.print hp
    refine ⟨.next l q printed, ⟨hl, hclose, hfits⟩, .next l hq hshows, ?_⟩
    have hliteral := Segments.print_ofLiteral l
    unfold Segments.print at hliteral htext ⊢
    rw [List.flatMap_append, hliteral, List.flatMap_cons, hprint, htext, Layout.text]
    simp

namespace Scan

theorem text_print {table next : Symbols} {s : Text} {segments : Segments}
    (h : Accepts table s segments next) : text segments.print = text s := by
  obtain ⟨layout, hfits, rfl, hshows, -⟩ := h
  obtain ⟨printed, hfits', hshows', htext⟩ := hshows.print hfits
  rw [htext, text_of_shows hfits' hshows', text_of_shows hfits hshows]

theorem accepts_empty {table next : Symbols} {s : Text} {segments : Segments}
    (h : Accepts table s segments next) : ∃ fresh, Accepts .empty s segments fresh := by
  obtain ⟨layout, hfits, htext, hshows, hr⟩ := h
  -- the uses agree with each other, whatever was in the table
  have hagree := Symbols.agree_of_registerAll hr
  obtain ⟨fresh, hfresh⟩ := (Symbols.registerAll_ok_iff segments.uses_valid).mpr hagree
  exact ⟨fresh, layout, hfits, htext, hshows, hfresh⟩

theorem accepts_exactly_the_grammar (s : Text) (table : Symbols) :
    (∀ a b : Layout, a.Fits → b.Fits → a.text = s → b.text = s → a = b) ∧
    (∀ segments next,
      (text s).run table = (.ok segments, next) ↔ Accepts table s segments next) ∧
    (∀ e next, (text s).run table = (.error e, next) ↔ Rejects table s e next) ∧
    ∀ segments next, Accepts table s segments next →
      segments.Normal ∧ (∀ other, (text segments.print).run other = (text s).run other) ∧
        ∃ fresh, (text segments.print).run .empty = (.ok segments, fresh) := by
  refine ⟨?_, fun _ _ => run_ok_iff, fun _ _ => run_error_iff, ?_⟩
  · rintro a b ha hb rfl htext
    exact Layout.unique ha hb htext.symm
  · intro segments next h
    have hprint := text_print h
    obtain ⟨fresh, hfresh⟩ := accepts_empty h
    obtain ⟨layout, -, -, hshows, -⟩ := h
    refine ⟨hshows.normal, fun other => by rw [hprint], fresh, ?_⟩
    rw [hprint]
    exact run_of_accepts hfresh

end Scan

end Stencil
