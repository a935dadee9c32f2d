import Stencil.Proofs.Template.Excerpts
import Stencil.Proofs.Template.Inclusion

/-!
Pages put together from nodes that know their file. Every expansion goes that way: the marks of the
page it ends in resolve to the file that each node was parsed from, and a fault on the way is
reported in the file of the node that raised it.
-/

namespace Stencil

open Ascii Text

inductive SourceNode where
  | element (file ns tag : Text) (attrs : List Markup.Attribute) (children : List SourceNode)
  | text (file data : Text)
  | verbatim (file data : Text)
  | leaf (file : Text) (node : Markup.Node)

namespace SourceNode

def file : SourceNode → Text
  | .element file .. | .text file _ | .verbatim file _ | .leaf file _ => file

mutual

def tagged (file : Text) : Markup.Node → List SourceNode
  | .document children => taggedAll file children
  | .element ns tag attrs children => [.element file ns tag attrs (taggedAll file children)]
  | .text data => [.text file data]
  | node => [.leaf file node]

def taggedAll (file : Text) : List Markup.Node → List SourceNode
  | [] => []
  | n :: rest => tagged file n ++ taggedAll file rest

end

mutual

def files : SourceNode → List Text
  | .element file _ _ _ children => file :: filesAll children
  | .text file _ | .verbatim file _ | .leaf file _ => [file]

def filesAll : List SourceNode → List Text
  | [] => []
  | n :: rest => files n ++ filesAll rest

end

theorem filesAll_append (first second : List SourceNode) :
    filesAll (first ++ second) = filesAll first ++ filesAll second := by
  induction first with
  | nil => rfl
  | cons n rest ih => simp [filesAll, ih]

def isElement : SourceNode → Bool
  | .element .. => true
  | _ => false

def wrapped (file ns tag : Text) (ordinary : List Markup.Attribute) (strip : Strip)
    (content : List SourceNode) : List SourceNode :=
  match strip with
  | .always => content
  | .ifEmpty => if content.isEmpty then [] else [.element file ns tag ordinary content]
  | .none => [.element file ns tag ordinary content]

end SourceNode

namespace PageNode

mutual

/-- The node as one of the file it is marked with, or of `file` if it has no mark. -/
def resolve (file : Text) : PageNode → SourceNode
  | .element origin ns tag attrs children =>
    .element (origin.getD file) ns tag attrs (resolveAll (origin.getD file) children)
  | .text origin data => .text (origin.getD file) data
  | .verbatim origin data => .verbatim (origin.getD file) data
  | .leaf origin node => .leaf (origin.getD file) node

def resolveAll (file : Text) : List PageNode → List SourceNode
  | [] => []
  | n :: rest => resolve file n :: resolveAll file rest

end

mutual

def marks : PageNode → List Text
  | .element origin _ _ _ children => origin.toList ++ marksAll children
  | .text origin _ | .verbatim origin _ | .leaf origin _ => origin.toList

def marksAll : List PageNode → List Text
  | [] => []
  | n :: rest => marks n ++ marksAll rest

end

theorem resolveAll_append (file : Text) (first second : List PageNode) :
    resolveAll file (first ++ second) = resolveAll file first ++ resolveAll file second := by
  induction first with
  | nil => rfl
  | cons n rest ih => simp [resolveAll, ih]

theorem marksAll_append (first second : List PageNode) :
    marksAll (first ++ second) = marksAll first ++ marksAll second := by
  induction first with
  | nil => rfl
  | cons n rest ih => simp [marksAll, ih]

theorem resolve_mark (file target : Text) (n : PageNode) :
    (n.mark target).resolve file = n.resolve target := by
  cases n with
  | element origin | text origin | verbatim origin | leaf origin =>
    cases origin <;> simp [mark, resolve]

theorem resolveAll_mark (file target : Text) (page : List PageNode) :
    resolveAll file (page.map (mark target)) = resolveAll target page := by
  induction page with
  | nil => rfl
  | cons n rest ih => rw [List.map_cons, resolveAll, resolveAll, resolve_mark, ih]

theorem mem_marksAll_mark {target : Text} {page : List PageNode} {m : Text}
    (h : m ∈ marksAll (page.map (mark target))) : m = target ∨ m ∈ marksAll page := by
  induction page with
  | nil => cases h
  | cons n rest ih =>
    rw [List.map_cons, marksAll] at h
    rw [marksAll]
    rcases List.mem_append.mp h with h | h
    · cases n with
      | element origin | text origin | verbatim origin | leaf origin =>
        cases origin <;> simp_all [mark, marks] <;> tauto
    · exact (ih h).imp_right (List.mem_append_right _)

theorem resolveAll_wrapped (file ns tag : Text) (ordinary : List Markup.Attribute) (strip : Strip)
    (page : List PageNode) :
    resolveAll file (Page.wrapped ns tag ordinary strip page) =
      SourceNode.wrapped file ns tag ordinary strip (resolveAll file page) := by
  cases strip with
  | none | always => rfl
  | ifEmpty => cases page <;> rfl

theorem marksAll_wrapped (ns tag : Text) (ordinary : List Markup.Attribute) (strip : Strip)
    (page : List PageNode) :
    marksAll (Page.wrapped ns tag ordinary strip page) = marksAll page := by
  cases strip with
  | always => rfl
  | none => simp [Page.wrapped, marksAll, marks]
  | ifEmpty => cases page <;> simp [Page.wrapped, marksAll, marks]

theorem getD_eq_or_mem (file : Text) (origin : Option Text) :
    origin.getD file = file ∨ origin.getD file ∈ origin.toList := by
  cases origin <;> simp

mutual

theorem mem_marks_of_mem_files {file f : Text} {n : PageNode} (h : f ∈ (n.resolve file).files) :
    f = file ∨ f ∈ n.marks := by
  match n with
  | .element origin ns tag attrs children =>
    have hown := getD_eq_or_mem file origin
    rw [resolve, SourceNode.files] at h
    rw [marks, List.mem_append]
    rcases List.mem_cons.mp h with rfl | h
    · exact hown.imp_right .inl
    · rcases mem_marksAll_of_mem_filesAll h with rfl | h
      · exact hown.imp_right .inl
      · exact .inr (.inr h)
  | .text origin data | .verbatim origin data | .leaf origin node =>
    cases List.mem_singleton.mp h
    exact getD_eq_or_mem file origin

theorem mem_marksAll_of_mem_filesAll {file f : Text} {page : List PageNode}
    (h : f ∈ SourceNode.filesAll (resolveAll file page)) : f = file ∨ f ∈ marksAll page := by
  match page with
  | [] => cases h
  | n :: rest =>
    rw [resolveAll, SourceNode.filesAll] at h
    rw [marksAll]
    rcases List.mem_append.mp h with h | h
    · exact (mem_marks_of_mem_files h).imp_right (List.mem_append_left _)
    · exact (mem_marksAll_of_mem_filesAll h).imp_right (List.mem_append_right _)

end

end PageNode

namespace Page

inductive Halt where
  | raised (node : SourceNode) (e : TextError)
  | refused (e : BadInclude)

def Halt.report (fs : FileSystem) : Halt → TemplateError
  | .raised node e => .text (e.locate node.file (fs.read node.file).toOption)
  | .refused e => .badInclude e

inductive Task where
  | node (n : SourceNode)
  | file (origin arg : Text)

def noFileNamed : TextError :=
  .malformed ⟨.malformedDirective, utf8 "ml:content=\"include\"",
    utf8 "include needs at least one file name", {}⟩

section Rules

variable (fs : FileSystem)

mutual

inductive Joins : List Text → Task → Except Halt (List SourceNode) → Prop where
  | plain {active n} : n.isElement = false → Joins active (.node n) (.ok [n])
  | malformed {active file ns tag attrs children e} : Directive.read attrs = .error e →
      Joins active (.node (.element file ns tag attrs children))
        (.error (.raised (.element file ns tag attrs children) e))
  | kept {active file ns tag attrs children d ordinary r} :
      Directive.read attrs = .ok (d, ordinary) → d.hole ≠ some Directive.includeHole →
      JoinsAll active (children.map .node) r →
      Joins active (.node (.element file ns tag attrs children))
        (r.map fun content => [.element file ns tag attrs content])
  | noFile {active file ns tag attrs children d ordinary} :
      Directive.read attrs = .ok (d, ordinary) → d.hole = some Directive.includeHole →
      d.args = [] →
      Joins active (.node (.element file ns tag attrs children))
        (.error (.raised (.element file ns tag attrs children) noFileNamed))
  | replaced {active file ns tag attrs children d ordinary r} :
      Directive.read attrs = .ok (d, ordinary) → d.hole = some Directive.includeHole →
      d.args ≠ [] → JoinsAll active (d.args.map (.file file)) r →
      Joins active (.node (.element file ns tag attrs children))
        (r.map (SourceNode.wrapped file ns tag ordinary d.strip))
  | refused {active origin arg finding e} :
      Finds fs active (targetOf (Path.dir origin) arg) finding →
      Visit.fault? ⟨active, ⟨origin, Path.dir origin⟩, arg, finding⟩ = some (.badInclude e) →
      Joins active (.file origin arg) (.error (.refused e))
  | data {active origin arg content} :
      Finds fs active (targetOf (Path.dir origin) arg) (.opened content) →
      markupOf? (targetOf (Path.dir origin) arg) content = none →
      Joins active (.file origin arg)
        (.ok (if content.isEmpty then [] else [.verbatim (targetOf (Path.dir origin) arg) content]))
  | markup {active origin arg content nodes r} :
      Finds fs active (targetOf (Path.dir origin) arg) (.opened content) →
      markupOf? (targetOf (Path.dir origin) arg) content = some nodes →
      JoinsAll (active ++ [targetOf (Path.dir origin) arg])
        ((SourceNode.taggedAll (targetOf (Path.dir origin) arg) nodes).map .node) r →
      Joins active (.file origin arg) r

inductive JoinsAll : List Text → List Task → Except Halt (List SourceNode) → Prop where
  | nil {active} : JoinsAll active [] (.ok [])
  | cons {active task rest first r} : Joins active task (.ok first) → JoinsAll active rest r →
      JoinsAll active (task :: rest) (r.map (first ++ ·))
  | stop {active task rest halt} : Joins active task (.error halt) →
      JoinsAll active (task :: rest) (.error halt)

end

end Rules

section Joining

variable {fs : FileSystem} {active : List Text}

theorem Joins.single {task : Task} {r : Except Halt (List SourceNode)} (h : Joins fs active task r) :
    JoinsAll fs active [task] r := by
  cases r with
  | error halt => exact .stop h
  | ok page =>
    have hall := JoinsAll.cons h .nil
    rwa [Except.map, List.append_nil] at hall

theorem JoinsAll.of_cons {task : Task} {rest : List Task} {r : Except Halt (List SourceNode)}
    (h : JoinsAll fs active (task :: rest) r) :
    (∃ first r', Joins fs active task (.ok first) ∧ JoinsAll fs active rest r' ∧
      r = r'.map (first ++ ·)) ∨
    ∃ halt, Joins fs active task (.error halt) ∧ r = .error halt := by
  cases h with
  | cons hfirst hrest => exact .inl ⟨_, _, hfirst, hrest, rfl⟩
  | stop hfirst => exact .inr ⟨_, hfirst, rfl⟩

theorem JoinsAll.append {tasks more : List Task} {page : List SourceNode}
    {r : Except Halt (List SourceNode)} (h : JoinsAll fs active tasks (.ok page))
    (hmore : JoinsAll fs active more r) :
    JoinsAll fs active (tasks ++ more) (r.map (page ++ ·)) := by
  induction tasks generalizing page with
  | nil =>
    cases h
    cases r <;> exact hmore
  | cons task tasks ih =>
    obtain ⟨first, r', hfirst, hrest, hpage⟩ | ⟨halt, -, hpage⟩ := h.of_cons
    · cases r' with
      | error halt => cases hpage
      | ok others =>
        cases hpage
        have hall := JoinsAll.cons hfirst (ih hrest)
        cases r <;> simpa [Except.map] using hall
    · cases hpage

theorem JoinsAll.append_stop {tasks : List Task} {halt : Halt}
    (h : JoinsAll fs active tasks (.error halt)) (more : List Task) :
    JoinsAll fs active (tasks ++ more) (.error halt) := by
  induction tasks with
  | nil => cases h
  | cons task tasks ih =>
    obtain ⟨first, r', hfirst, hrest, hhalt⟩ | ⟨halt', hfirst, hhalt⟩ := h.of_cons
    · cases r' with
      | error halt' =>
        cases hhalt
        exact .cons hfirst (ih hrest)
      | ok others => cases hhalt
    · cases hhalt
      exact .stop hfirst

end Joining

/-! The rules allow one outcome. -/

section Uniqueness

variable {fs : FileSystem} {active : List Text} {file origin arg ns tag : Text}
  {attrs ordinary : List Markup.Attribute} {children : List SourceNode} {d : Directive}
  {r r' : Except Halt (List SourceNode)}

theorem Joins.eq_of_malformed {e : TextError} (hread : Directive.read attrs = .error e)
    (h : Joins fs active (.node (.element file ns tag attrs children)) r) :
    r = .error (.raised (.element file ns tag attrs children) e) := by
  cases h with
  | plain hno => cases hno
  | malformed hread' =>
    cases hread.symm.trans hread'
    rfl
  | kept hread' | noFile hread' | replaced hread' => cases hread.symm.trans hread'

theorem Joins.eq_of_kept (hread : Directive.read attrs = .ok (d, ordinary))
    (hhole : d.hole ≠ some Directive.includeHole)
    (hall : ∀ r', JoinsAll fs active (children.map .node) r' → r' = r)
    (h : Joins fs active (.node (.element file ns tag attrs children)) r') :
    r' = r.map fun content => [.element file ns tag attrs content] := by
  cases h with
  | plain hno => cases hno
  | malformed hread' => cases hread.symm.trans hread'
  | kept hread' _ hall' => rw [hall _ hall']
  | noFile hread' hhole' | replaced hread' hhole' =>
    cases hread.symm.trans hread'
    exact absurd hhole' hhole

theorem Joins.eq_of_noFile (hread : Directive.read attrs = .ok (d, ordinary))
    (hhole : d.hole = some Directive.includeHole) (hargs : d.args = [])
    (h : Joins fs active (.node (.element file ns tag attrs children)) r) :
    r = .error (.raised (.element file ns tag attrs children) noFileNamed) := by
  cases h with
  | plain hno => cases hno
  | malformed hread' => cases hread.symm.trans hread'
  | kept hread' hhole' =>
    cases hread.symm.trans hread'
    exact absurd hhole hhole'
  | noFile => rfl
  | replaced hread' _ hargs' =>
    cases hread.symm.trans hread'
    exact absurd hargs hargs'

theorem Joins.eq_of_replaced (hread : Directive.read attrs = .ok (d, ordinary))
    (hhole : d.hole = some Directive.includeHole) (hargs : d.args ≠ [])
    (hall : ∀ r', JoinsAll fs active (d.args.map (.file file)) r' → r' = r)
    (h : Joins fs active (.node (.element file ns tag attrs children)) r') :
    r' = r.map (SourceNode.wrapped file ns tag ordinary d.strip) := by
  cases h with
  | plain hno => cases hno
  | malformed hread' => cases hread.symm.trans hread'
  | kept hread' hhole' =>
    cases hread.symm.trans hread'
    exact absurd hhole hhole'
  | noFile hread' _ hargs' =>
    cases hread.symm.trans hread'
    exact absurd hargs' hargs
  | replaced hread' _ _ hall' =>
    cases hread.symm.trans hread'
    rw [hall _ hall']

theorem Joins.eq_of_refused {finding : Finding} {e : BadInclude}
    (hfinds : Finds fs active (targetOf (Path.dir origin) arg) finding)
    (he : Visit.fault? ⟨active, ⟨origin, Path.dir origin⟩, arg, finding⟩ = some (.badInclude e))
    (h : Joins fs active (.file origin arg) r) : r = .error (.refused e) := by
  cases h with
  | refused hfinds' he' =>
    cases hfinds.unique hfinds'
    cases he.symm.trans he'
    rfl
  | data hfinds' | markup hfinds' =>
    cases hfinds.unique hfinds'
    cases he

theorem Joins.eq_of_data {content : Text}
    (hfinds : Finds fs active (targetOf (Path.dir origin) arg) (.opened content))
    (hdata : markupOf? (targetOf (Path.dir origin) arg) content = none)
    (h : Joins fs active (.file origin arg) r) :
    r = .ok (if content.isEmpty then [] else
      [.verbatim (targetOf (Path.dir origin) arg) content]) := by
  cases h with
  | refused hfinds' he =>
    cases hfinds.unique hfinds'
    cases he
  | data hfinds' =>
    cases hfinds.unique hfinds'
    rfl
  | markup hfinds' hmarkup =>
    cases hfinds.unique hfinds'
    cases hdata.symm.trans hmarkup

theorem Joins.eq_of_markup {content : Text} {nodes : List Markup.Node}
    (hfinds : Finds fs active (targetOf (Path.dir origin) arg) (.opened content))
    (hmarkup : markupOf? (targetOf (Path.dir origin) arg) content = some nodes)
    (hall : ∀ r', JoinsAll fs (active ++ [targetOf (Path.dir origin) arg])
      ((SourceNode.taggedAll (targetOf (Path.dir origin) arg) nodes).map .node) r' → r' = r)
    (h : Joins fs active (.file origin arg) r') : r' = r := by
  cases h with
  | refused hfinds' he =>
    cases hfinds.unique hfinds'
    cases he
  | data hfinds' hdata =>
    cases hfinds.unique hfinds'
    cases hdata.symm.trans hmarkup
  | markup hfinds' hmarkup' hall' =>
    cases hfinds.unique hfinds'
    cases hmarkup.symm.trans hmarkup'
    exact hall _ hall'

mutual

theorem Joins.unique {active : List Text} {task : Task} {r : Except Halt (List SourceNode)}
    (h : Joins fs active task r) : ∀ r', Joins fs active task r' → r' = r := by
  intro r' h'
  match h with
  | .plain hplain =>
    cases h' with
    | plain => rfl
    | _ => cases hplain
  | .malformed hread => exact h'.eq_of_malformed hread
  | .kept hread hhole hall => exact h'.eq_of_kept hread hhole hall.unique
  | .noFile hread hhole hargs => exact h'.eq_of_noFile hread hhole hargs
  | .replaced hread hhole hargs hall => exact h'.eq_of_replaced hread hhole hargs hall.unique
  | .refused hfinds he => exact h'.eq_of_refused hfinds he
  | .data hfinds hdata => exact h'.eq_of_data hfinds hdata
  | .markup hfinds hmarkup hall => exact h'.eq_of_markup hfinds hmarkup hall.unique

theorem JoinsAll.unique {active : List Text} {tasks : List Task}
    {r : Except Halt (List SourceNode)} (h : JoinsAll fs active tasks r) :
    ∀ r', JoinsAll fs active tasks r' → r' = r := by
  intro r' h'
  match h with
  | .nil =>
    cases h'
    rfl
  | .cons hfirst hrest =>
    have hfirst := hfirst.unique
    have hrest := hrest.unique
    obtain ⟨first, r'', hfirst', hrest', rfl⟩ | ⟨halt, hfirst', -⟩ := h'.of_cons
    · cases hfirst _ hfirst'
      rw [hrest _ hrest']
    · cases hfirst _ hfirst'
  | .stop hfirst =>
    have hfirst := hfirst.unique
    obtain ⟨first, r'', hfirst', -, -⟩ | ⟨halt, hfirst', rfl⟩ := h'.of_cons
    · cases hfirst _ hfirst'
    · cases hfirst _ hfirst'
      rfl

end

end Uniqueness

/-! Every expansion goes by the rules. -/

section Sources

variable {fs : FileSystem} {s : Sources}

theorem exists_read_of_holds {name : Text} (hs : fs.Holds s) (hname : name ∈ s.names) :
    ∃ content, fs.read name = .ok content := by
  obtain ⟨entry, hentry, rfl⟩ := List.mem_map.mp hname
  exact ⟨entry.2, hs entry hentry⟩

theorem Sources.find?_eq_read {name : Text} (hs : fs.Holds s) (hname : name ∈ s.names) :
    s.find? name = (fs.read name).toOption := by
  cases hfind : s.find? name with
  | none => exact absurd hname ((s.find?_eq_none_iff name).mp hfind)
  | some content =>
    have hread : fs.read name = .ok content := hs _ (Sources.mem_files_of_find? hfind)
    rw [hread]
    rfl

theorem Sources.prefix_after (s : Sources) (log : List Event) :
    s.files <+: (s.after log).files := by
  induction log generalizing s with
  | nil => exact List.prefix_rfl
  | cons event log ih =>
    have hstep : s.files <+: (s.step event).files := by
      unfold Sources.step
      split
      · split
        · exact s.prefix_record _ _
        · exact List.prefix_rfl
      · exact List.prefix_rfl
    exact hstep.trans (ih _)

theorem Nested.holds_after {start chain : List Text} {log : List Event}
    (h : Nested fs start chain log) (hs : fs.Holds s) : fs.Holds (s.after log) := by
  induction log generalizing s chain with
  | nil => exact hs
  | cons event log ih =>
    cases event with
    | visit v =>
      obtain ⟨active, site, arg, finding⟩ := v
      obtain ⟨-, hfinds, hrest⟩ := h
      cases hfinds with
      | opened _ _ hread => exact ih hrest (hs.record hread)
      | escapes | cyclic | unreadable => exact ih hrest hs
    | enter target => exact ih h.2 hs
    | leave => exact ih h hs

theorem Sources.after_inside (s : Sources) (active : List Text) (site : Site) (arg content : Text)
    (log : List Event) :
    s.after (.visit ⟨active, site, arg, .opened content⟩ :: .enter (targetOf site.dir arg) :: log ++
      [.leave]) = (s.record (targetOf site.dir arg) content).after log := by
  rw [Sources.after_append]
  rfl

theorem Finds.target_ne_nil {active : List Text} {target content : Text}
    (h : Finds fs active target (.opened content)) : target ≠ [] := by
  rintro rfl
  cases h with
  | opened hvalid => exact absurd hvalid (by decide)

theorem Finds.read_eq {active : List Text} {target content : Text}
    (h : Finds fs active target (.opened content)) : fs.read target = .ok content := by
  cases h with
  | opened _ _ hread => exact hread

end Sources

/-- What is reported for an outcome of the rules where nodes of `file` are expanded. A page that was
put together is the one that its marks resolve to. All files were read, and every mark names one. -/
inductive Reports (fs : FileSystem) (s : Sources) (file : Text) :
    Except Halt (List SourceNode) → Except TemplateError (List PageNode) → Prop where
  | page {page} : [] ∉ PageNode.marksAll page →
      SourceNode.filesAll (PageNode.resolveAll file page) ⊆ s.names →
      Reports fs s file (.ok (PageNode.resolveAll file page)) (.ok page)
  | raised {node e} : node.file ∈ s.names → e.Raw →
      Reports fs s file (.error (.raised node e)) (.error (Halt.report fs (.raised node e)))
  | refused {e} : Reports fs s file (.error (.refused e)) (.error (.badInclude e))

def Traces (fs : FileSystem) (s : Sources) (file : Text)
    (rule : Except Halt (List SourceNode) → Prop) (r : Except TemplateError (List PageNode)) :
    Prop :=
  ∃ out, rule out ∧ Reports fs s file out r

section Traces

variable {fs : FileSystem} {s s' : Sources} {file file' : Text}
  {rule rule' total : Except Halt (List SourceNode) → Prop}
  {r : Except TemplateError (List PageNode)}

theorem Traces.map {f : List PageNode → List PageNode} {g : List SourceNode → List SourceNode}
    (h : Traces fs s file rule r) (hrule : ∀ out, rule out → total (out.map g))
    (hf : ∀ page, PageNode.resolveAll file' (f page) = g (PageNode.resolveAll file page))
    (hmarks : ∀ page, [] ∉ PageNode.marksAll page → [] ∉ PageNode.marksAll (f page))
    (hfiles : ∀ page, SourceNode.filesAll page ⊆ s.names →
      SourceNode.filesAll (g page) ⊆ s.names) :
    Traces fs s file' total (r.map f) := by
  obtain ⟨out, hout, hr⟩ := h
  refine ⟨out.map g, hrule out hout, ?_⟩
  cases hr with
  | page hnamed hread =>
    rw [Except.map, ← hf]
    refine .page (hmarks _ hnamed) ?_
    rw [hf]
    exact hfiles _ hread
  | raised hname hraw => exact .raised hname hraw
  | refused => exact .refused

theorem Traces.both {first : List PageNode} (h : Traces fs s file rule (.ok first))
    (hrest : Traces fs s' file rule' r) (hnames : s.names ⊆ s'.names)
    (htotal : ∀ page out, rule (.ok page) → rule' out → total (out.map (page ++ ·))) :
    Traces fs s' file total (r.map (first ++ ·)) := by
  obtain ⟨out, hout, hfirst⟩ := h
  cases hfirst with
  | page hmarks hfiles =>
    refine hrest.map (fun out => htotal _ out hout)
      (fun page => PageNode.resolveAll_append file first page) (fun page hpage => ?_)
      fun page hpage => ?_
    · rw [PageNode.marksAll_append, List.mem_append]
      exact not_or_intro hmarks hpage
    · rw [SourceNode.filesAll_append]
      exact List.append_subset.mpr ⟨List.Subset.trans hfiles hnames, hpage⟩

theorem Traces.stop {e : TemplateError} (h : Traces fs s file rule (.error e))
    (htotal : ∀ halt, rule (.error halt) → total (.error halt)) :
    Traces fs s file total (.error e) := by
  obtain ⟨out, hout, he⟩ := h
  cases he with
  | raised hname hraw => exact ⟨_, htotal _ hout, .raised hname hraw⟩
  | refused => exact ⟨_, htotal _ hout, .refused⟩

theorem traces_nil (h : rule (.ok [])) : Traces fs s file rule (.ok []) :=
  ⟨.ok (PageNode.resolveAll file []), h, .page List.not_mem_nil (List.nil_subset _)⟩

theorem traces_single {n : PageNode} (h : rule (.ok [n.resolve file])) (hmarks : [] ∉ n.marks)
    (hfiles : (n.resolve file).files ⊆ s.names) : Traces fs s file rule (.ok [n]) := by
  refine ⟨.ok (PageNode.resolveAll file [n]), h, .page ?_ ?_⟩
  · simpa [PageNode.marksAll] using hmarks
  · simpa [PageNode.resolveAll, SourceNode.filesAll] using hfiles

end Traces

section Adequacy

variable {fs : FileSystem} {active : List Text} {s : Sources}

theorem filesAll_wrapped {file ns tag : Text} {ordinary : List Markup.Attribute}
    {strip : Strip} {content : List SourceNode} (hfile : file ∈ s.names)
    (h : SourceNode.filesAll content ⊆ s.names) :
    SourceNode.filesAll (SourceNode.wrapped file ns tag ordinary strip content) ⊆ s.names := by
  have hwrapper : SourceNode.filesAll [.element file ns tag ordinary content] ⊆ s.names := by
    simpa [SourceNode.filesAll, SourceNode.files] using ⟨hfile, h⟩
  cases strip with
  | always => exact h
  | none => exact hwrapper
  | ifEmpty =>
    rw [SourceNode.wrapped]
    split
    · exact List.nil_subset _
    · exact hwrapper

theorem names_subset_after (s : Sources) (log : List Event) : s.names ⊆ (s.after log).names :=
  names_subset (s.prefix_after log)

section Cases

variable {file arg ns tag : Text} {attrs ordinary : List Markup.Attribute}
  {children : List Markup.Node} {d : Directive} {r : Except TemplateError (List PageNode)}

theorem traces_refused {finding : Finding} {e : TemplateError}
    (hfinds : Finds fs active (targetOf (Path.dir file) arg) finding)
    (he : Visit.fault? ⟨active, ⟨file, Path.dir file⟩, arg, finding⟩ = some e) :
    Traces fs s file (Joins fs active (.file file arg)) (.error e) := by
  obtain ⟨b, rfl⟩ : ∃ b, e = .badInclude b := by
    cases finding <;> cases he <;> exact ⟨_, rfl⟩
  exact ⟨_, .refused hfinds he, .refused⟩

theorem traces_data {content : Text}
    (hfinds : Finds fs active (targetOf (Path.dir file) arg) (.opened content))
    (hdata : markupOf? (targetOf (Path.dir file) arg) content = none) :
    Traces fs (s.record (targetOf (Path.dir file) arg) content) file
      (Joins fs active (.file file arg))
      (.ok (if content.isEmpty then [] else
        [.verbatim (some (targetOf (Path.dir file) arg)) content])) := by
  have hjoins := Joins.data hfinds hdata
  split at hjoins
  · rw [if_pos ‹_›]
    exact traces_nil hjoins
  · rw [if_neg ‹_›]
    refine traces_single hjoins ?_ ?_
    · simpa [PageNode.marks] using hfinds.target_ne_nil.symm
    · simpa [PageNode.resolve, SourceNode.files] using s.mem_names_record _ content

theorem traces_markup {content : Text} {nodes : List Markup.Node}
    (hfinds : Finds fs active (targetOf (Path.dir file) arg) (.opened content))
    (hmarkup : markupOf? (targetOf (Path.dir file) arg) content = some nodes)
    (hall : Traces fs s (targetOf (Path.dir file) arg)
      (JoinsAll fs (active ++ [targetOf (Path.dir file) arg])
        ((SourceNode.taggedAll (targetOf (Path.dir file) arg) nodes).map .node)) r) :
    Traces fs s file (Joins fs active (.file file arg))
      (r.map (List.map (PageNode.mark (targetOf (Path.dir file) arg)))) := by
  refine hall.map (g := id) (fun out hout => ?_)
    (fun page => PageNode.resolveAll_mark file _ page) (fun page hpage hnil => ?_) fun _ h => h
  · cases out <;> exact .markup hfinds hmarkup hout
  · exact (PageNode.mem_marksAll_mark hnil).elim hfinds.target_ne_nil.symm hpage

theorem traces_malformed {e : TextError} (hs : fs.Holds s) (hknown : file ∈ s.names)
    (hread : Directive.read attrs = .error e) :
    Traces fs s file
      (JoinsAll fs active ((SourceNode.tagged file (.element ns tag attrs children)).map .node))
      (.error (.text (e.locate file (s.find? file)))) := by
  rw [Sources.find?_eq_read hs hknown]
  exact ⟨_, (Joins.malformed hread).single, .raised hknown (Directive.raw_of_read hread)⟩

theorem traces_noFile (hs : fs.Holds s) (hknown : file ∈ s.names)
    (hread : Directive.read attrs = .ok (d, ordinary))
    (hhole : d.hole = some Directive.includeHole) (hargs : d.args = []) :
    Traces fs s file
      (JoinsAll fs active ((SourceNode.tagged file (.element ns tag attrs children)).map .node))
      (.error (nameless ⟨file, Path.dir file⟩ s)) := by
  rw [nameless, Sources.find?_eq_read hs hknown]
  have hraw : noFileNamed.Raw := ⟨by decide, rfl⟩
  exact ⟨_, (Joins.noFile hread hhole hargs).single, .raised hknown hraw⟩

theorem traces_kept (hknown : file ∈ s.names)
    (hread : Directive.read attrs = .ok (d, ordinary)) (hhole : d.hole ≠ some Directive.includeHole)
    (hall : Traces fs s file
      (JoinsAll fs active ((SourceNode.taggedAll file children).map .node)) r) :
    Traces fs s file
      (JoinsAll fs active ((SourceNode.tagged file (.element ns tag attrs children)).map .node))
      (r.map fun content => [.element none ns tag attrs content]) := by
  refine hall.map (fun out hout => (Joins.kept hread hhole hout).single) (fun page => rfl)
    (fun page hpage => ?_) fun page hpage => ?_
  · simpa [PageNode.marksAll, PageNode.marks] using hpage
  · simpa [SourceNode.filesAll, SourceNode.files] using ⟨hknown, hpage⟩

theorem traces_replaced (hknown : file ∈ s.names)
    (hread : Directive.read attrs = .ok (d, ordinary))
    (hhole : d.hole = some Directive.includeHole) (hargs : d.args ≠ [])
    (hall : Traces fs s file (JoinsAll fs active (d.args.map (.file file))) r) :
    Traces fs s file
      (JoinsAll fs active ((SourceNode.tagged file (.element ns tag attrs children)).map .node))
      (r.map (wrapped ns tag ordinary d.strip)) := by
  refine hall.map (fun _ hout => (Joins.replaced hread hhole hargs hout).single)
    (PageNode.resolveAll_wrapped file ns tag ordinary d.strip) (fun page hpage => ?_)
    fun page hpage => filesAll_wrapped hknown hpage
  rwa [PageNode.marksAll_wrapped]

theorem tagged_of_isLeaf {n : Markup.Node} (h : isLeaf n = true) :
    SourceNode.tagged file n = [.leaf file n] := by
  cases n <;> first | rfl | cases h

theorem traces_leaf {n : Markup.Node} (hknown : file ∈ s.names) (hleaf : isLeaf n = true) :
    Traces fs s file (JoinsAll fs active ((SourceNode.tagged file n).map .node))
      (.ok [.leaf none n]) := by
  rw [tagged_of_isLeaf hleaf]
  refine traces_single (Joins.plain rfl).single (by simp [PageNode.marks]) ?_
  simpa [PageNode.resolve, SourceNode.files] using hknown

theorem traces_text {data : Text} (hknown : file ∈ s.names) :
    Traces fs s file (JoinsAll fs active ((SourceNode.tagged file (.text data)).map .node))
      (.ok [.text none data]) := by
  refine traces_single (Joins.plain rfl).single (by simp [PageNode.marks]) ?_
  simpa [PageNode.resolve, SourceNode.files] using hknown

end Cases

mutual

theorem Includes.traces {active : List Text} {s : Sources} {site : Site} {file arg : Text}
    {log : List Event} {r : Except TemplateError (List PageNode)}
    (h : Includes fs active s site arg log r) (hs : fs.Holds s)
    (hsite : site = ⟨file, Path.dir file⟩) :
    Traces fs (s.after log) file (Joins fs active (.file file arg)) r := by
  match h with
  | .refused hfinds he =>
    subst hsite
    exact traces_refused hfinds he
  | .data hfinds hdata =>
    subst hsite
    exact traces_data hfinds hdata
  | .markup hfinds hmarkup hall =>
    -- the nodes of the file are expanded with the file itself on record
    have hinside := hall.traces (hs.record hfinds.read_eq) rfl (s.mem_names_record _ _)
    subst hsite
    have hall := traces_markup hfinds hmarkup hinside
    rwa [← Sources.after_inside] at hall

theorem IncludesEach.traces {active : List Text} {s : Sources} {site : Site} {file : Text}
    {args : List Text} {log : List Event} {r : Except TemplateError (List PageNode)}
    (h : IncludesEach fs active s site args log r) (hs : fs.Holds s)
    (hsite : site = ⟨file, Path.dir file⟩) :
    Traces fs (s.after log) file (JoinsAll fs active (args.map (.file file))) r := by
  match h with
  | .nil => exact traces_nil .nil
  | .cons hfirst hrest =>
    have hlater := (hfirst.logged (List.append_nil active).symm).nested.holds_after hs
    have hrest := hrest.traces hlater hsite
    rw [s.after_append]
    exact (hfirst.traces hs hsite).both hrest (names_subset_after _ _) fun _ _ => .cons
  | .stop hfirst => exact (hfirst.traces hs hsite).stop fun _ => .stop

theorem ExpandsNode.traces {active : List Text} {s : Sources} {site : Site} {file : Text}
    {n : Markup.Node} {log : List Event} {r : Except TemplateError (List PageNode)}
    (h : ExpandsNode fs active s site n log r) (hs : fs.Holds s)
    (hsite : site = ⟨file, Path.dir file⟩) (hknown : file ∈ s.names) :
    Traces fs (s.after log) file (JoinsAll fs active ((SourceNode.tagged file n).map .node)) r := by
  have hlater := names_subset_after s log hknown
  match h with
  | .document hall => exact hall.traces hs hsite hknown
  | .malformed hread =>
    subst hsite
    exact traces_malformed hs hknown hread
  | .kept hread hhole hall =>
    have hinside := hall.traces hs hsite hknown
    subst hsite
    exact traces_kept hlater hread hhole hinside
  | .noFile hread hhole hargs =>
    subst hsite
    exact traces_noFile hs hknown hread hhole hargs
  | .replaced hread hhole hargs heach =>
    have hfiles := heach.traces hs hsite
    subst hsite
    exact traces_replaced hlater hread hhole hargs hfiles
  | .text =>
    subst hsite
    exact traces_text hknown
  | .leaf hleaf =>
    subst hsite
    exact traces_leaf hknown hleaf

theorem ExpandsAll.traces {active : List Text} {s : Sources} {site : Site} {file : Text}
    {nodes : List Markup.Node} {log : List Event} {r : Except TemplateError (List PageNode)}
    (h : ExpandsAll fs active s site nodes log r) (hs : fs.Holds s)
    (hsite : site = ⟨file, Path.dir file⟩) (hknown : file ∈ s.names) :
    Traces fs (s.after log) file
      (JoinsAll fs active ((SourceNode.taggedAll file nodes).map .node)) r := by
  match h with
  | .nil => exact traces_nil .nil
  | .cons hfirst hrest =>
    have hlater := (hfirst.logged (List.append_nil active).symm).nested.holds_after hs
    have hrest := hrest.traces hlater hsite (names_subset_after s _ hknown)
    rw [s.after_append, SourceNode.taggedAll, List.map_append]
    exact (hfirst.traces hs hsite hknown).both hrest (names_subset_after _ _) fun _ _ => .append
  | .stop hfirst =>
    rw [SourceNode.taggedAll, List.map_append]
    exact (hfirst.traces hs hsite hknown).stop fun _ hhalt => hhalt.append_stop _

end

end Adequacy

end Page

end Stencil
