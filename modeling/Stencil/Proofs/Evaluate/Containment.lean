import Stencil.Proofs.Evaluate.Checking

namespace Stencil

open Text

namespace Evaluate

def Call.site (c : Call) : Occurrence × Nat :=
  (c.occurrence, c.place)

/-- The occurrences, numbered from `k`, that have arguments and are not passed over. -/
def callSites (list : List Occurrence) (k : Nat) (skipped : List Nat) : List (Occurrence × Nat) :=
  (list.zipIdx k).filter fun p => p.1.hasArgs && decide (p.2 ∉ skipped)

def Within (k : Nat) (list : List Occurrence) (skipped : List Nat) : Prop :=
  ∀ n ∈ skipped, k ≤ n ∧ n < k + list.length

theorem within_nil (k : Nat) (list : List Occurrence) : Within k list [] := by
  simp [Within]

theorem within_range' (k : Nat) (list : List Occurrence) :
    Within k list (List.range' k list.length) :=
  fun _ hn => List.mem_range'_1.mp hn

theorem Within.append {k : Nat} {first second : List Occurrence} {skipped passed : List Nat}
    (hskipped : Within k first skipped) (hpassed : Within (k + first.length) second passed) :
    Within k (first ++ second) (skipped ++ passed) := by
  intro n hn
  rw [List.length_append]
  rcases List.mem_append.mp hn with hn | hn
  · have := hskipped n hn
    omega
  · have := hpassed n hn
    omega

theorem callSites_append {first second : List Occurrence} {k : Nat} {skipped passed : List Nat}
    (hskipped : Within k first skipped) (hpassed : Within (k + first.length) second passed) :
    callSites (first ++ second) k (skipped ++ passed) =
      callSites first k skipped ++ callSites second (k + first.length) passed := by
  unfold callSites
  rw [List.zipIdx_append, List.filter_append]
  congr 1
  · apply List.filter_congr
    rintro ⟨o, n⟩ hp
    have hn := (List.mem_zipIdx hp).2.1
    have hno : n ∉ passed := fun h => absurd (hpassed n h).1 (by omega)
    simp [hno]
  · apply List.filter_congr
    rintro ⟨o, n⟩ hp
    have hn := (List.mem_zipIdx hp).1
    have hno : n ∉ skipped := fun h => absurd (hskipped n h).2 (by omega)
    simp [hno]

theorem callSites_append_nil (first second : List Occurrence) (k : Nat) :
    callSites (first ++ second) k [] =
      callSites first k [] ++ callSites second (k + first.length) [] :=
  callSites_append (within_nil k first) (within_nil _ second)

theorem callSites_range' (list : List Occurrence) (k : Nat) :
    callSites list k (List.range' k list.length) = [] := by
  apply List.filter_eq_nil_iff.mpr
  rintro ⟨o, n⟩ hp
  obtain ⟨hle, hlt, -⟩ := List.mem_zipIdx hp
  have hmem : n ∈ List.range' k list.length := List.mem_range'_1.mpr ⟨hle, hlt⟩
  simp [hmem]

variable {bindings : Bindings}

theorem FillsSegment.sites {k : Nat} {s : Segment} {calls : List Call} {text : Text}
    (h : FillsSegment bindings k s calls text) :
    calls.map Call.site = callSites s.occurrences k [] := by
  cases h with
  | literal => rfl
  | string => rfl
  | returned hargs | failed hargs =>
    simp [callSites, Segment.occurrences, Call.site, Occurrence.hasArgs, hargs]

theorem FillsText.sites {k : Nat} {segments : Segments} {calls : List Call} {text : Text}
    (h : FillsText bindings k segments calls text) :
    calls.map Call.site = callSites (Segments.occurrences segments) k [] := by
  induction h with
  | nil => rfl
  | cons hfirst _ ih =>
    rw [List.map_append, hfirst.sites, ih]
    exact (callSites_append_nil _ _ _).symm

theorem FillsAttrs.sites {k : Nat} {attrs : List Attr} {calls : List Call}
    {list : List Markup.Attribute} (h : FillsAttrs bindings k attrs calls list) :
    calls.map Call.site = callSites (attrs.flatMap Attr.occurrences) k [] := by
  induction h with
  | nil => rfl
  | cons hvalue _ ih =>
    rw [List.map_append, hvalue.sites, ih]
    exact (callSites_append_nil _ _ _).symm

theorem FillsContent.sites {k : Nat} {replaced : List Markup.Node} {hole : Text} {args : List Text}
    {calls : List Call} {inner : List Markup.Node} {isEmpty : Bool}
    (h : FillsContent bindings k replaced hole args calls inner isEmpty) :
    calls.map Call.site = callSites [.content hole args] k [] := by
  cases h with
  | fragment => rfl
  | string => rfl
  | nodesReturned hargs | textReturned hargs | failed hargs =>
    simp [callSites, Call.site, Occurrence.hasArgs, hargs]

def Covers (list : List Occurrence) (k : Nat) (calls : List Call) (skipped : List Nat) : Prop :=
  Within k list skipped ∧ (calls.map Call.site).Perm (callSites list k skipped)

theorem covers_shown {first second : List Occurrence} {k : Nat} {calls others : List Call}
    {skipped : List Nat} (hsecond : Covers second (k + first.length) calls skipped)
    (hfirst : others.map Call.site = callSites first k []) :
    Covers (first ++ second) k (calls ++ others) skipped := by
  refine ⟨(within_nil k first).append hsecond.1, ?_⟩
  have happend := callSites_append (within_nil k first) hsecond.1
  rw [List.nil_append] at happend
  rw [happend, List.map_append, hfirst]
  -- the attributes come first in the document and are evaluated last
  exact List.perm_append_comm.trans (hsecond.2.append_left _)

theorem covers_bare {first second : List Occurrence} {k : Nat} {calls : List Call}
    {skipped : List Nat} (hsecond : Covers second (k + first.length) calls skipped) :
    Covers (first ++ second) k calls (List.range' k first.length ++ skipped) := by
  have hfirst := within_range' k first
  refine ⟨hfirst.append hsecond.1, ?_⟩
  rw [callSites_append hfirst hsecond.1, callSites_range', List.nil_append]
  exact hsecond.2

theorem FillsContent.covers {k : Nat} {replaced : List Markup.Node} {hole : Text}
    {args : List Text} {calls : List Call} {inner : List Markup.Node} {isEmpty : Bool}
    (h : FillsContent bindings k replaced hole args calls inner isEmpty) :
    Covers [.content hole args] k calls [] :=
  ⟨within_nil k _, .of_eq h.sites⟩

mutual

theorem FillsNode.covers {k : Nat} {t : Tree} {calls : List Call} {skipped : List Nat}
    {out : List Markup.Node} (h : FillsNode bindings k t calls skipped out) :
    Covers t.occurrences k calls skipped := by
  match h with
  | .data htext => exact ⟨within_nil k _, .of_eq htext.sites⟩
  | .comment => exact ⟨within_nil k _, .nil⟩
  | .doctype => exact ⟨within_nil k _, .nil⟩
  | .element hinner _ hattrs => exact covers_shown hinner.covers hattrs.sites
  | .bareElement hinner _ => exact covers_bare hinner.covers
  | .hole hcontent _ hattrs => exact covers_shown hcontent.covers hattrs.sites
  | .bareHole hcontent | .droppedHole hcontent =>
    have hbare := covers_bare hcontent.covers
    rw [List.append_nil] at hbare
    exact hbare

theorem FillsNodes.covers {k : Nat} {list : List Tree} {calls : List Call} {skipped : List Nat}
    {out : List Markup.Node} (h : FillsNodes bindings k list calls skipped out) :
    Covers (Tree.occurrencesIn list) k calls skipped := by
  match h with
  | .nil => exact ⟨within_nil k _, .nil⟩
  | .cons hfirst hrest =>
    obtain ⟨hwithin, hperm⟩ := hfirst.covers
    obtain ⟨hwithin', hperm'⟩ := hrest.covers
    refine ⟨hwithin.append hwithin', ?_⟩
    rw [Tree.occurrencesIn, callSites_append hwithin hwithin', List.map_append]
    exact hperm.append hperm'

end

/-- With bindings that pass the check a rendering gives a tree, whatever the callbacks do. Each
occurrence that is evaluated calls its callback once, the failed calls are reported in the order of
the calls, and what is shown goes by the rules. -/
theorem callback_failures_contained {o : Origin} {doc : Document} (hdoc : o.document = .ok doc)
    (bindings : Bindings) (hcheck : check doc.path bindings doc.symbols.entries = none) :
    ∃ out calls skipped,
      render doc bindings = (.ok out,
        { calls := calls.map Call.hole, failures := calls.filterMap Call.failure? }) ∧
      (calls.map Call.site).Perm (callSites (Tree.occurrencesIn doc.tree) 0 skipped) ∧
      Answered doc.page bindings [] calls ∧ FillsNodes bindings 0 doc.tree calls skipped out := by
  obtain ⟨out, calls, skipped, hrender, hfills, hanswered⟩ :=
    render_of_check (Document.scanned hdoc) hcheck
  exact ⟨out, calls, skipped, hrender, hfills.covers.2, hanswered, hfills⟩

theorem callback_failures_contained_twice :
    ∃ (bindings : Bindings) (doc : Document) (calls : List Call) (skipped : List Nat),
      bindings = [(utf8 "f", .fragmentFunction fun _ _ _ => .panic (utf8 "stop")),
        (utf8 "g", .stringFunction fun n _ _ =>
          if n = 1 then .error (utf8 "no") else .value (utf8 "yes"))] ∧
      (Origin.nodes none [] [.element [] (utf8 "p") [⟨[], utf8 "title", utf8 "$\x7bg a\x7d"⟩,
        ⟨[], utf8 "ml:content", utf8 "f x"⟩, ⟨[], utf8 "ml:strip", utf8 "ifempty"⟩] [],
        .text (utf8 "$\x7bg b\x7d")]).document = .ok doc ∧
      check doc.path bindings doc.symbols.entries = none ∧
      calls.filterMap Call.failure? =
        [⟨utf8 "f", [utf8 "x"], utf8 "panic: stop"⟩, ⟨utf8 "g", [utf8 "a"], utf8 "no"⟩] ∧
      (calls.map Call.site).Perm (callSites [.call (utf8 "g") [utf8 "a"],
        .content (utf8 "f") [utf8 "x"], .call (utf8 "g") [utf8 "b"]] 0 skipped) ∧
      FillsNodes bindings 0 doc.tree calls skipped
        [.element [] (utf8 "p") [⟨[], utf8 "title", utf8 "[hole \"g\" (a): no]"⟩]
            [.element [] (utf8 "code") [⟨[], utf8 "class", utf8 "ml-error"⟩]
              [.text (utf8 "hole \"f\" (x): panic: stop")]],
          .text (utf8 "yes")] := by
  obtain ⟨out, calls, skipped, hrender, hcalls, -, hfills⟩ := callback_failures_contained
    (o := .nodes none [] [.element [] (utf8 "p") [⟨[], utf8 "title", utf8 "$\x7bg a\x7d"⟩,
        ⟨[], utf8 "ml:content", utf8 "f x"⟩, ⟨[], utf8 "ml:strip", utf8 "ifempty"⟩] [],
        .text (utf8 "$\x7bg b\x7d")]) rfl
    [(utf8 "f", .fragmentFunction fun _ _ _ => .panic (utf8 "stop")),
      (utf8 "g", .stringFunction fun n _ _ =>
        if n = 1 then .error (utf8 "no") else .value (utf8 "yes"))] rfl
  have hout := Except.ok.inj (congrArg Prod.fst hrender)
  have hfailures := congrArg (·.2.failures) hrender
  refine ⟨_, _, calls, skipped, rfl, rfl, rfl, hfailures.symm, hcalls, ?_⟩
  rw [← hout] at hfills
  exact hfills

end Evaluate

end Stencil
