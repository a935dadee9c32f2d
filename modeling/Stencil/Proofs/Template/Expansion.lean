import Stencil.Proofs.Template.Including

/-!
Rules for putting files into a page. They count no steps, and say besides the page what was done on
the way to it: the attempts to put in a file, and when the expansion of a file began and ended.
Every expansion goes by the rules, and they allow one outcome.
-/

namespace Stencil

open Ascii Text

namespace Page

inductive Finding where
  | escapes
  | cyclic
  | unreadable (e : ReadError)
  | opened (content : Text)

structure Visit where
  active : List Text
  site : Site
  arg : Text
  finding : Finding

namespace Visit

def target (v : Visit) : Text :=
  targetOf v.site.dir v.arg

def fault? (v : Visit) : Option TemplateError :=
  match v.finding with
  | .escapes => some (escape v.site v.arg)
  | .cyclic => some (cycle v.active v.site v.arg)
  | .unreadable e => some (unreadable v.site v.arg e)
  | .opened _ => none

end Visit

inductive Event where
  | visit (v : Visit)
  | enter (target : Text)
  | leave

namespace Sources

def step (s : Sources) : Event → Sources
  | .visit v =>
    match v.finding with
    | .opened content => s.record v.target content
    | _ => s
  | _ => s

def after (s : Sources) (log : List Event) : Sources :=
  log.foldl step s

theorem after_append (s : Sources) (log later : List Event) :
    s.after (log ++ later) = (s.after log).after later :=
  List.foldl_append

end Sources

def markupOf? (target content : Text) : Option (List Markup.Node) :=
  match FileKind.ofPath target with
  | .markup => some (Markup.parse content)
  | .markdown => some (Markup.parse (Markdown.toHtml content))
  | .data => none

def wrapped (ns tag : Text) (ordinary : List Markup.Attribute) (strip : Strip)
    (content : List PageNode) : List PageNode :=
  match strip with
  | .always => content
  | .ifEmpty => if content.isEmpty then [] else [.element none ns tag ordinary content]
  | .none => [.element none ns tag ordinary content]

def nameless (site : Site) (s : Sources) : TemplateError :=
  .text (TextError.locate site.file (s.find? site.file)
    (.malformed ⟨.malformedDirective, utf8 "ml:content=\"include\"",
      utf8 "include needs at least one file name", {}⟩))

def isLeaf : Markup.Node → Bool
  | .comment _ | .doctype _ _ | .raw _ | .error _ => true
  | _ => false

section Rules

variable (fs : FileSystem)

inductive Finds (active : List Text) (target : Text) : Finding → Prop where
  | escapes : Path.isValid target = false → Finds active target .escapes
  | cyclic : Path.isValid target = true → target ∈ active → Finds active target .cyclic
  | unreadable {e} : Path.isValid target = true → target ∉ active → fs.read target = .error e →
      Finds active target (.unreadable e)
  | opened {content} : Path.isValid target = true → target ∉ active →
      fs.read target = .ok content → Finds active target (.opened content)

mutual

/-- Putting in one file under the chain `active`. The files `s` were read before. -/
inductive Includes : List Text → Sources → Site → Text → List Event →
    Except TemplateError (List PageNode) → Prop where
  | refused {active s site arg finding e} : Finds fs active (targetOf site.dir arg) finding →
      Visit.fault? ⟨active, site, arg, finding⟩ = some e →
      Includes active s site arg [.visit ⟨active, site, arg, finding⟩] (.error e)
  | data {active s site arg content} :
      Finds fs active (targetOf site.dir arg) (.opened content) →
      markupOf? (targetOf site.dir arg) content = none →
      Includes active s site arg [.visit ⟨active, site, arg, .opened content⟩]
        (.ok (if content.isEmpty then [] else [.verbatim (some (targetOf site.dir arg)) content]))
  | markup {active s site arg content nodes log r} :
      Finds fs active (targetOf site.dir arg) (.opened content) →
      markupOf? (targetOf site.dir arg) content = some nodes →
      ExpandsAll (active ++ [targetOf site.dir arg]) (s.record (targetOf site.dir arg) content)
        ⟨targetOf site.dir arg, Path.dir (targetOf site.dir arg)⟩ nodes log r →
      Includes active s site arg (.visit ⟨active, site, arg, .opened content⟩ ::
        .enter (targetOf site.dir arg) :: log ++ [.leave])
          (r.map (List.map (PageNode.mark (targetOf site.dir arg))))

inductive IncludesEach : List Text → Sources → Site → List Text → List Event →
    Except TemplateError (List PageNode) → Prop where
  | nil {active s site} : IncludesEach active s site [] [] (.ok [])
  | cons {active s site arg args log first later r} : Includes active s site arg log (.ok first) →
      IncludesEach active (s.after log) site args later r →
      IncludesEach active s site (arg :: args) (log ++ later) (r.map (first ++ ·))
  | stop {active s site arg args log e} : Includes active s site arg log (.error e) →
      IncludesEach active s site (arg :: args) log (.error e)

inductive ExpandsNode : List Text → Sources → Site → Markup.Node → List Event →
    Except TemplateError (List PageNode) → Prop where
  | document {active s site children log r} : ExpandsAll active s site children log r →
      ExpandsNode active s site (.document children) log r
  | malformed {active s site ns tag attrs children e} : Directive.read attrs = .error e →
      ExpandsNode active s site (.element ns tag attrs children) []
        (.error (.text (e.locate site.file (s.find? site.file))))
  | kept {active s site ns tag attrs children d ordinary log r} :
      Directive.read attrs = .ok (d, ordinary) → d.hole ≠ some Directive.includeHole →
      ExpandsAll active s site children log r →
      ExpandsNode active s site (.element ns tag attrs children) log
        (r.map fun content => [.element none ns tag attrs content])
  | noFile {active s site ns tag attrs children d ordinary} :
      Directive.read attrs = .ok (d, ordinary) → d.hole = some Directive.includeHole →
      d.args = [] →
      ExpandsNode active s site (.element ns tag attrs children) [] (.error (nameless site s))
  | replaced {active s site ns tag attrs children d ordinary log r} :
      Directive.read attrs = .ok (d, ordinary) → d.hole = some Directive.includeHole →
      d.args ≠ [] → IncludesEach active s site d.args log r →
      ExpandsNode active s site (.element ns tag attrs children) log
        (r.map (wrapped ns tag ordinary d.strip))
  | text {active s site data} :
      ExpandsNode active s site (.text data) [] (.ok [.text none data])
  | leaf {active s site node} : isLeaf node = true →
      ExpandsNode active s site node [] (.ok [.leaf none node])

inductive ExpandsAll : List Text → Sources → Site → List Markup.Node → List Event →
    Except TemplateError (List PageNode) → Prop where
  | nil {active s site} : ExpandsAll active s site [] [] (.ok [])
  | cons {active s site node rest log first later r} :
      ExpandsNode active s site node log (.ok first) →
      ExpandsAll active (s.after log) site rest later r →
      ExpandsAll active s site (node :: rest) (log ++ later) (r.map (first ++ ·))
  | stop {active s site node rest log e} : ExpandsNode active s site node log (.error e) →
      ExpandsAll active s site (node :: rest) log (.error e)

end

end Rules

/-! Every expansion goes by the rules. -/

def Runs {α : Type} (x : Expand α) (s : Sources)
    (spec : List Event → Except TemplateError α → Prop) : Prop :=
  ∃ log r, x.run s = r.map (·, s.after log) ∧ spec log r

section Runs

variable {α β : Type} {s : Sources}

theorem Runs.pure {spec : List Event → Except TemplateError α → Prop} {a : α}
    (h : spec [] (.ok a)) : Runs (Pure.pure a) s spec :=
  ⟨[], .ok a, rfl, h⟩

theorem Runs.bind {x : Expand α} {f : α → Expand β}
    {spec : List Event → Except TemplateError α → Prop}
    {total : List Event → Except TemplateError β → Prop} (h : Runs x s spec)
    (hok : ∀ log a, spec log (.ok a) →
      Runs (f a) (s.after log) fun later r => total (log ++ later) r)
    (hstop : ∀ log e, spec log (.error e) → total log (.error e)) : Runs (x >>= f) s total := by
  obtain ⟨log, r, hrun, hspec⟩ := h
  cases r with
  | error e =>
    refine ⟨log, .error e, ?_, hstop log e hspec⟩
    rw [run_bind, hrun]
    rfl
  | ok a =>
    obtain ⟨later, r, hrun', htotal⟩ := hok log a hspec
    refine ⟨log ++ later, r, ?_, htotal⟩
    rw [run_bind, hrun, s.after_append]
    exact hrun'

theorem Runs.map {x : Expand α} {f : α → β} {spec : List Event → Except TemplateError α → Prop}
    {total : List Event → Except TemplateError β → Prop} (h : Runs x s spec)
    (hf : ∀ log r, spec log r → total log (r.map f)) :
    Runs (x >>= fun a => Pure.pure (f a)) s total := by
  refine h.bind (fun log a ha => .pure ?_) fun log e he => hf log _ he
  rw [List.append_nil]
  exact hf log _ ha

end Runs

section Adequacy

variable {fs : FileSystem} {active : List Text} {site : Site}
  {included : Site → Text → Expand (List PageNode)}

theorem mapM_runs
    (h : ∀ s arg, Runs (included site arg) s (Includes fs active s site arg)) (args : List Text)
    (s : Sources) :
    Runs (args.mapM (included site)) s fun log r =>
      IncludesEach fs active s site args log (r.map List.flatten) := by
  induction args generalizing s with
  | nil => exact .pure .nil
  | cons arg args ih =>
    rw [List.mapM_cons]
    refine (h s arg).bind (fun log first hfirst => ?_) fun log e he => .stop he
    refine (ih (s.after log)).map fun later r hr => ?_
    have hcons := IncludesEach.cons hfirst hr
    cases r <;> exact hcons

theorem includeAll_runs
    (h : ∀ s arg, Runs (included site arg) s (Includes fs active s site arg)) (arg : Text)
    (args : List Text) (s : Sources) :
    Runs (includeAll included site (arg :: args)) s
      (IncludesEach fs active s site (arg :: args)) :=
  (mapM_runs h (arg :: args) s).map fun _ _ hr => hr

mutual

theorem expandNode_runs (h : ∀ s arg, Runs (included site arg) s (Includes fs active s site arg))
    (n : Markup.Node) (s : Sources) :
    Runs (expandNode included site n) s (ExpandsNode fs active s site n) := by
  match n with
  | .document children =>
    obtain ⟨log, r, hrun, hr⟩ := expandAll_runs h children s
    exact ⟨log, r, hrun, .document hr⟩
  | .element ns tag attrs children =>
    rw [expandNode]
    cases hread : Directive.read attrs with
    | error e => exact ⟨[], _, rfl, .malformed hread⟩
    | ok p =>
      obtain ⟨d, ordinary⟩ := p
      dsimp only
      by_cases hhole : d.hole = some Directive.includeHole
      · rw [if_pos hhole]
        cases hargs : d.args with
        | nil => exact ⟨[], _, rfl, .noFile hread hhole hargs⟩
        | cons arg args =>
          have hreplaced : ∀ log r, IncludesEach fs active s site (arg :: args) log r →
              ExpandsNode fs active s site (.element ns tag attrs children) log
                (r.map (wrapped ns tag ordinary d.strip)) :=
            fun log r hr => .replaced hread hhole (by simp [hargs]) (hargs ▸ hr)
          have hall := includeAll_runs h arg args s
          cases hstrip : d.strip <;> rw [hstrip] at hreplaced <;> exact hall.map hreplaced
      · rw [if_neg hhole]
        exact (expandAll_runs h children s).map fun log r hr => .kept hread hhole hr
  | .text data => exact .pure .text
  | .comment data => exact .pure (.leaf rfl)
  | .doctype name attrs => exact .pure (.leaf rfl)
  | .raw data => exact .pure (.leaf rfl)
  | .error data => exact .pure (.leaf rfl)

theorem expandAll_runs (h : ∀ s arg, Runs (included site arg) s (Includes fs active s site arg))
    (nodes : List Markup.Node) (s : Sources) :
    Runs (expandAll included site nodes) s (ExpandsAll fs active s site nodes) := by
  match nodes with
  | [] => exact .pure .nil
  | n :: rest =>
    rw [expandAll]
    refine (expandNode_runs h n s).bind (fun log first hfirst => ?_) fun log e he => .stop he
    exact (expandAll_runs h rest (s.after log)).map fun later r hr => .cons hfirst hr

end

theorem openFile_runs {arg : Text} {next : Text → Text → Expand (List PageNode)} {s : Sources}
    (hnext : ∀ content, Finds fs active (targetOf site.dir arg) (.opened content) →
      Runs (next (targetOf site.dir arg) content) (s.record (targetOf site.dir arg) content)
        fun log r => Includes fs active s site arg
          (.visit ⟨active, site, arg, .opened content⟩ :: log) r) :
    Runs (openFile fs active site arg next) s (Includes fs active s site arg) := by
  unfold openFile
  dsimp only
  split
  next hvalid => exact ⟨_, _, rfl, .refused (.escapes (by simpa using hvalid)) rfl⟩
  next hvalid =>
    have hvalid : Path.isValid (targetOf site.dir arg) = true := by simpa using hvalid
    split
    next hactive => exact ⟨_, _, rfl, .refused (.cyclic hvalid (by simpa using hactive)) rfl⟩
    next hactive =>
      have hactive : targetOf site.dir arg ∉ active := by simpa using hactive
      cases hread : fs.read (targetOf site.dir arg) with
      | error e => exact ⟨_, _, rfl, .refused (.unreadable hvalid hactive hread) rfl⟩
      | ok content =>
        obtain ⟨log, r, hrun, hr⟩ := hnext content (.opened hvalid hactive hread)
        exact ⟨.visit ⟨active, site, arg, .opened content⟩ :: log, r, hrun, hr⟩

theorem contentNodes_runs {arg content : Text} {s : Sources}
    {expand : List Markup.Node → Expand (List PageNode)}
    (hfinds : Finds fs active (targetOf site.dir arg) (.opened content))
    (hexpand : ∀ nodes, Runs (expand nodes) (s.record (targetOf site.dir arg) content)
      (ExpandsAll fs (active ++ [targetOf site.dir arg])
        (s.record (targetOf site.dir arg) content)
        ⟨targetOf site.dir arg, Path.dir (targetOf site.dir arg)⟩ nodes)) :
    Runs (contentNodes expand (targetOf site.dir arg) content)
      (s.record (targetOf site.dir arg) content) fun log r =>
        Includes fs active s site arg (.visit ⟨active, site, arg, .opened content⟩ :: log) r := by
  have hmarkup : ∀ nodes, markupOf? (targetOf site.dir arg) content = some nodes →
      Runs (contentNodes.marked expand (targetOf site.dir arg) nodes)
        (s.record (targetOf site.dir arg) content) fun log r =>
          Includes fs active s site arg (.visit ⟨active, site, arg, .opened content⟩ :: log) r := by
    intro nodes hnodes
    obtain ⟨log, r, hrun, hr⟩ := hexpand nodes
    refine ⟨.enter (targetOf site.dir arg) :: log ++ [Event.leave],
      r.map (List.map (PageNode.mark (targetOf site.dir arg))), ?_, .markup hfinds hnodes hr⟩
    rw [contentNodes.marked, run_bind, hrun, Sources.after_append]
    cases r <;> rfl
  unfold contentNodes
  unfold markupOf? at hmarkup
  cases hkind : FileKind.ofPath (targetOf site.dir arg) with
  | markup => exact hmarkup _ (by rw [hkind])
  | markdown => exact hmarkup _ (by rw [hkind])
  | data => exact .pure (.data hfinds (by rw [markupOf?, hkind]))

end Adequacy

section Fuel

variable {fs : FileSystem} {start chain : List Text}

theorem Finds.longer {target content : Text}
    (h : Finds fs (start ++ chain) target (.opened content)) (hdistinct : chain.Nodup)
    (hchain : chain ⊆ fs.names) :
    (chain ++ [target]).Nodup ∧ chain ++ [target] ⊆ fs.names := by
  cases h with
  | opened _ hnew hread =>
    have hnotin : target ∉ chain := fun h => hnew (List.mem_append_right start h)
    refine ⟨?_, List.append_subset.mpr ⟨hchain, by simpa using fs.mem_names hread⟩⟩
    simpa [List.nodup_append] using ⟨hdistinct, fun name hname heq => hnotin (heq ▸ hname)⟩

theorem includeFile_runs (fuel : Nat) (hdistinct : chain.Nodup) (hchain : chain ⊆ fs.names)
    (hfuel : fs.names.length ≤ fuel + chain.length) (s : Sources) (site : Site) (arg : Text) :
    Runs (includeFile fs fuel (start ++ chain) site arg) s
      (Includes fs (start ++ chain) s site arg) := by
  induction fuel generalizing chain s site arg with
  | zero =>
    refine openFile_runs fun content hfinds => ?_
    -- the chain has as many files as can be read, so there is none left to open
    obtain ⟨hnodup, hsubset⟩ := hfinds.longer hdistinct hchain
    have hle := (List.subperm_of_subset hnodup hsubset).length_le
    rw [List.length_append, List.length_singleton] at hle
    omega
  | succ fuel ih =>
    refine openFile_runs fun content hfinds => ?_
    obtain ⟨hnodup, hsubset⟩ := hfinds.longer hdistinct hchain
    refine contentNodes_runs hfinds fun nodes => expandAll_runs (fun s' arg' => ?_) nodes _
    rw [List.append_assoc]
    refine ih hnodup hsubset ?_ s' _ arg'
    rw [List.length_append, List.length_singleton]
    omega

theorem expand_runs (fs : FileSystem) (start : List Text) (site : Site)
    (nodes : List Markup.Node) (s : Sources) :
    Runs (expand (some fs) start site nodes) s (ExpandsAll fs start s site nodes) := by
  refine expandAll_runs (fun s' arg => ?_) nodes s
  have hfile : Runs (includeFile fs fs.names.length (start ++ []) site arg) s'
      (Includes fs (start ++ []) s' site arg) :=
    includeFile_runs _ .nil (List.nil_subset _) (Nat.le_refl _) s' site arg
  rwa [List.append_nil] at hfile

end Fuel

/-! The rules allow one outcome. -/

def Only (rule : List Event → Except TemplateError (List PageNode) → Prop) (log : List Event)
    (r : Except TemplateError (List PageNode)) : Prop :=
  ∀ log' r', rule log' r' → log' = log ∧ r' = r

section Uniqueness

variable {fs : FileSystem} {active : List Text} {s : Sources} {site : Site}

theorem Finds.unique {target : Text} {finding finding' : Finding}
    (h : Finds fs active target finding) (h' : Finds fs active target finding') :
    finding = finding' := by
  cases h <;> cases h' <;> simp_all

theorem Finds.not_fault {arg content : Text} {finding : Finding} {e : TemplateError}
    (h : Finds fs active (targetOf site.dir arg) (.opened content))
    (h' : Finds fs active (targetOf site.dir arg) finding) :
    Visit.fault? ⟨active, site, arg, finding⟩ ≠ some e := by
  cases h.unique h'
  intro he
  cases he

theorem only_refused {arg : Text} {finding : Finding} {e : TemplateError}
    (hfinds : Finds fs active (targetOf site.dir arg) finding)
    (he : Visit.fault? ⟨active, site, arg, finding⟩ = some e) :
    Only (Includes fs active s site arg) [.visit ⟨active, site, arg, finding⟩] (.error e) := by
  rintro _ _ (⟨hfinds', he'⟩ | ⟨hfinds', -⟩ | ⟨hfinds', -, -⟩)
  · cases hfinds.unique hfinds'
    rw [he] at he'
    cases he'
    exact ⟨rfl, rfl⟩
  · exact absurd he (hfinds'.not_fault hfinds)
  · exact absurd he (hfinds'.not_fault hfinds)

theorem only_data {arg content : Text}
    (hfinds : Finds fs active (targetOf site.dir arg) (.opened content))
    (hdata : markupOf? (targetOf site.dir arg) content = none) :
    Only (Includes fs active s site arg) [.visit ⟨active, site, arg, .opened content⟩]
      (.ok (if content.isEmpty then [] else [.verbatim (some (targetOf site.dir arg)) content])) := by
  rintro _ _ (⟨hfinds', he⟩ | ⟨hfinds', -⟩ | ⟨hfinds', hmarkup, -⟩)
  · exact absurd he (hfinds.not_fault hfinds')
  · cases hfinds.unique hfinds'
    exact ⟨rfl, rfl⟩
  · cases hfinds.unique hfinds'
    cases hdata.symm.trans hmarkup

theorem only_markup {arg content : Text} {nodes : List Markup.Node} {log : List Event}
    {r : Except TemplateError (List PageNode)}
    (hfinds : Finds fs active (targetOf site.dir arg) (.opened content))
    (hmarkup : markupOf? (targetOf site.dir arg) content = some nodes)
    (hall : Only (ExpandsAll fs (active ++ [targetOf site.dir arg])
      (s.record (targetOf site.dir arg) content)
      ⟨targetOf site.dir arg, Path.dir (targetOf site.dir arg)⟩ nodes) log r) :
    Only (Includes fs active s site arg) (.visit ⟨active, site, arg, .opened content⟩ ::
      .enter (targetOf site.dir arg) :: log ++ [.leave])
        (r.map (List.map (PageNode.mark (targetOf site.dir arg)))) := by
  rintro _ _ (⟨hfinds', he⟩ | ⟨hfinds', hdata⟩ | ⟨hfinds', hmarkup', hall'⟩)
  · exact absurd he (hfinds.not_fault hfinds')
  · cases hfinds.unique hfinds'
    cases hdata.symm.trans hmarkup
  · cases hfinds.unique hfinds'
    cases hmarkup.symm.trans hmarkup'
    obtain ⟨rfl, rfl⟩ := hall _ _ hall'
    exact ⟨rfl, rfl⟩

inductive Then (first : List Event → Except TemplateError (List PageNode) → Prop)
    (rest : List Event → List Event → Except TemplateError (List PageNode) → Prop) :
    List Event → Except TemplateError (List PageNode) → Prop where
  | both {log later page r} : first log (.ok page) → rest log later r →
      Then first rest (log ++ later) (r.map (page ++ ·))
  | stop {log e} : first log (.error e) → Then first rest log (.error e)

theorem only_both {first : List Event → Except TemplateError (List PageNode) → Prop}
    {rest : List Event → List Event → Except TemplateError (List PageNode) → Prop}
    {log later : List Event} {page : List PageNode} {r : Except TemplateError (List PageNode)}
    (hfirst : Only first log (.ok page)) (hrest : Only (rest log) later r) :
    Only (Then first rest) (log ++ later) (r.map (page ++ ·)) := by
  rintro _ _ (⟨hfirst', hrest'⟩ | ⟨hfirst'⟩)
  · obtain ⟨rfl, he⟩ := hfirst _ _ hfirst'
    cases he
    obtain ⟨rfl, rfl⟩ := hrest _ _ hrest'
    exact ⟨rfl, rfl⟩
  · cases (hfirst _ _ hfirst').2

theorem only_stop {first : List Event → Except TemplateError (List PageNode) → Prop}
    {rest : List Event → List Event → Except TemplateError (List PageNode) → Prop}
    {log : List Event} {e : TemplateError} (hfirst : Only first log (.error e)) :
    Only (Then first rest) log (.error e) := by
  rintro _ _ (⟨hfirst', -⟩ | ⟨hfirst'⟩)
  · cases (hfirst _ _ hfirst').2
  · obtain ⟨rfl, he⟩ := hfirst _ _ hfirst'
    cases he
    exact ⟨rfl, rfl⟩

theorem includesEach_cons {arg : Text} {args : List Text} :
    IncludesEach fs active s site (arg :: args) = Then (Includes fs active s site arg)
      fun log => IncludesEach fs active (s.after log) site args := by
  funext log r
  apply propext
  constructor
  · rintro (⟨⟩ | ⟨hfirst, hrest⟩ | ⟨hfirst⟩)
    · exact .both hfirst hrest
    · exact .stop hfirst
  · rintro (⟨hfirst, hrest⟩ | ⟨hfirst⟩)
    · exact .cons hfirst hrest
    · exact .stop hfirst

theorem expandsAll_cons {n : Markup.Node} {rest : List Markup.Node} :
    ExpandsAll fs active s site (n :: rest) = Then (ExpandsNode fs active s site n)
      fun log => ExpandsAll fs active (s.after log) site rest := by
  funext log r
  apply propext
  constructor
  · rintro (⟨⟩ | ⟨hfirst, hrest⟩ | ⟨hfirst⟩)
    · exact .both hfirst hrest
    · exact .stop hfirst
  · rintro (⟨hfirst, hrest⟩ | ⟨hfirst⟩)
    · exact .cons hfirst hrest
    · exact .stop hfirst

section Elements

variable {ns tag : Text} {attrs : List Markup.Attribute} {children : List Markup.Node}
  {d : Directive} {ordinary : List Markup.Attribute} {log : List Event}
  {r : Except TemplateError (List PageNode)}

theorem only_malformed {e : TextError} (hread : Directive.read attrs = .error e) :
    Only (ExpandsNode fs active s site (.element ns tag attrs children)) []
      (.error (.text (e.locate site.file (s.find? site.file)))) := by
  intro log' r' h'
  cases h' with
  | malformed hread' =>
    cases hread.symm.trans hread'
    exact ⟨rfl, rfl⟩
  | kept hread' | noFile hread' | replaced hread' => cases hread.symm.trans hread'
  | leaf hleaf => cases hleaf

theorem only_kept (hread : Directive.read attrs = .ok (d, ordinary))
    (hhole : d.hole ≠ some Directive.includeHole)
    (hall : Only (ExpandsAll fs active s site children) log r) :
    Only (ExpandsNode fs active s site (.element ns tag attrs children)) log
      (r.map fun content => [.element none ns tag attrs content]) := by
  intro log' r' h'
  cases h' with
  | malformed hread' => cases hread.symm.trans hread'
  | kept _ _ hall' =>
    obtain ⟨rfl, rfl⟩ := hall _ _ hall'
    exact ⟨rfl, rfl⟩
  | noFile hread' hhole' | replaced hread' hhole' =>
    cases hread.symm.trans hread'
    exact absurd hhole' hhole
  | leaf hleaf => cases hleaf

theorem only_noFile (hread : Directive.read attrs = .ok (d, ordinary))
    (hhole : d.hole = some Directive.includeHole) (hargs : d.args = []) :
    Only (ExpandsNode fs active s site (.element ns tag attrs children)) []
      (.error (nameless site s)) := by
  intro log' r' h'
  cases h' with
  | malformed hread' => cases hread.symm.trans hread'
  | kept hread' hhole' =>
    cases hread.symm.trans hread'
    exact absurd hhole hhole'
  | noFile => exact ⟨rfl, rfl⟩
  | replaced hread' _ hargs' =>
    cases hread.symm.trans hread'
    exact absurd hargs hargs'
  | leaf hleaf => cases hleaf

theorem only_replaced (hread : Directive.read attrs = .ok (d, ordinary))
    (hhole : d.hole = some Directive.includeHole) (hargs : d.args ≠ [])
    (heach : Only (IncludesEach fs active s site d.args) log r) :
    Only (ExpandsNode fs active s site (.element ns tag attrs children)) log
      (r.map (wrapped ns tag ordinary d.strip)) := by
  intro log' r' h'
  cases h' with
  | malformed hread' => cases hread.symm.trans hread'
  | kept hread' hhole' =>
    cases hread.symm.trans hread'
    exact absurd hhole hhole'
  | noFile hread' _ hargs' =>
    cases hread.symm.trans hread'
    exact absurd hargs' hargs
  | replaced hread' _ _ heach' =>
    cases hread.symm.trans hread'
    obtain ⟨rfl, rfl⟩ := heach _ _ heach'
    exact ⟨rfl, rfl⟩
  | leaf hleaf => cases hleaf

end Elements

mutual

theorem Includes.only {active : List Text} {s : Sources} {site : Site} {arg : Text}
    {log : List Event} {r : Except TemplateError (List PageNode)}
    (h : Includes fs active s site arg log r) : Only (Includes fs active s site arg) log r := by
  match h with
  | .refused hfinds he => exact only_refused hfinds he
  | .data hfinds hdata => exact only_data hfinds hdata
  | .markup hfinds hmarkup hall => exact only_markup hfinds hmarkup hall.only

theorem IncludesEach.only {active : List Text} {s : Sources} {site : Site} {args : List Text}
    {log : List Event} {r : Except TemplateError (List PageNode)}
    (h : IncludesEach fs active s site args log r) :
    Only (IncludesEach fs active s site args) log r := by
  match h with
  | .nil =>
    rintro _ _ ⟨⟩
    exact ⟨rfl, rfl⟩
  | .cons hfirst hrest =>
    rw [includesEach_cons]
    exact only_both hfirst.only hrest.only
  | .stop hfirst =>
    rw [includesEach_cons]
    exact only_stop hfirst.only

theorem ExpandsNode.only {active : List Text} {s : Sources} {site : Site} {n : Markup.Node}
    {log : List Event} {r : Except TemplateError (List PageNode)}
    (h : ExpandsNode fs active s site n log r) : Only (ExpandsNode fs active s site n) log r := by
  match h with
  | .document hall =>
    intro _ _ h'
    cases h' with
    | document hall' => exact hall.only _ _ hall'
    | leaf hleaf => cases hleaf
  | .malformed hread => exact only_malformed hread
  | .kept hread hhole hall => exact only_kept hread hhole hall.only
  | .noFile hread hhole hargs => exact only_noFile hread hhole hargs
  | .replaced hread hhole hargs heach => exact only_replaced hread hhole hargs heach.only
  | .text =>
    intro _ _ h'
    cases h' with
    | text => exact ⟨rfl, rfl⟩
    | leaf hleaf => cases hleaf
  | .leaf hleaf =>
    intro _ _ h'
    cases h' with
    | leaf => exact ⟨rfl, rfl⟩
    | _ => cases hleaf

theorem ExpandsAll.only {active : List Text} {s : Sources} {site : Site}
    {nodes : List Markup.Node} {log : List Event} {r : Except TemplateError (List PageNode)}
    (h : ExpandsAll fs active s site nodes log r) :
    Only (ExpandsAll fs active s site nodes) log r := by
  match h with
  | .nil =>
    rintro _ _ ⟨⟩
    exact ⟨rfl, rfl⟩
  | .cons hfirst hrest =>
    rw [expandsAll_cons]
    exact only_both hfirst.only hrest.only
  | .stop hfirst =>
    rw [expandsAll_cons]
    exact only_stop hfirst.only

end

theorem ExpandsAll.run {start : List Text} {s : Sources} {site : Site} {nodes : List Markup.Node}
    {log : List Event} {r : Except TemplateError (List PageNode)}
    (h : ExpandsAll fs start s site nodes log r) :
    (expand (some fs) start site nodes).run s = r.map (·, s.after log) := by
  obtain ⟨log', r', hrun, hr⟩ := expand_runs fs start site nodes s
  obtain ⟨rfl, rfl⟩ := h.only _ _ hr
  exact hrun

end Uniqueness

end Page

end Stencil
