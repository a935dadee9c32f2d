import Stencil.Proofs.Template.Origins

namespace Stencil

open Ascii Text

namespace SourceNode

def readOwn : SourceNode → Scan Unit
  | .text _ data => do
    let _ ← Scan.text data
  | .element _ _ _ attributes _ => do
    let (d, _) ← Scan.head attributes
    match d.hole with
    | some name => Scan.register name (Scan.contentType d.args)
    | none => return ()
  | _ => return ()

def namesHole (attributes : List Markup.Attribute) : Bool :=
  match Directive.read attributes with
  | .ok (d, _) => d.hole.isSome
  | .error _ => false

mutual

def inOrder : SourceNode → List SourceNode
  | .element file ns tag attributes children =>
    .element file ns tag attributes children ::
      if namesHole attributes then [] else inOrderAll children
  | n => [n]

def inOrderAll : List SourceNode → List SourceNode
  | [] => []
  | n :: rest => inOrder n ++ inOrderAll rest

end

def readEach : List SourceNode → Symbols → Except (SourceNode × TextError) Symbols
  | [], table => .ok table
  | n :: rest, table =>
    match n.readOwn.run table with
    | (.ok _, next) => readEach rest next
    | (.error e, _) => .error (n, e)

theorem readEach_append (first second : List SourceNode) (table : Symbols) :
    readEach (first ++ second) table = (readEach first table).bind (readEach second) := by
  induction first generalizing table with
  | nil => rfl
  | cons n first ih =>
    rw [List.cons_append, readEach, readEach]
    rcases n.readOwn.run table with ⟨_ | _, next⟩
    · rfl
    · exact ih next

theorem readEach_eq_error {nodes : List SourceNode} {table : Symbols} {n : SourceNode} {e : TextError}
    (h : readEach nodes table = .error (n, e)) :
    n ∈ nodes ∧ ∃ before after, n.readOwn.run before = (.error e, after) := by
  induction nodes generalizing table with
  | nil => cases h
  | cons m nodes ih =>
    rw [readEach] at h
    rcases hrun : m.readOwn.run table with ⟨e' | _, next⟩
    · rw [hrun] at h
      cases h
      exact ⟨List.mem_cons_self, table, next, hrun⟩
    · rw [hrun] at h
      obtain ⟨hmem, hown⟩ := ih h
      exact ⟨List.mem_cons_of_mem m hmem, hown⟩

theorem raisesRaw_readOwn (n : SourceNode) : Scan.RaisesRaw n.readOwn := by
  cases n with
  | text file data => exact (Scan.raisesRaw_text data).bind fun _ => Scan.raisesRaw_pure _
  | verbatim | leaf => exact Scan.raisesRaw_pure _
  | element file ns tag attributes children =>
    have hhead : Scan.RaisesRaw (Scan.head attributes) :=
      (Scan.raisesRaw_lift fun _ => Directive.raw_of_read).bind fun p =>
        (Scan.raisesRaw_attrs p.2).bind fun _ => Scan.raisesRaw_pure _
    rw [readOwn]
    refine hhead.bind fun p => ?_
    dsimp only
    cases p.1.hole with
    | some name => exact Scan.raisesRaw_register _ _
    | none => exact Scan.raisesRaw_pure _

theorem file_mem_files (n : SourceNode) : n.file ∈ n.files := by
  cases n <;> simp [file, files]

mutual

theorem file_mem_of_inOrder {n m : SourceNode} (h : m ∈ n.inOrder) : m.file ∈ n.files := by
  cases n with
  | element ef ns tag attributes children =>
    rw [inOrder] at h
    rcases List.mem_cons.mp h with rfl | h
    · exact file_mem_files _
    · split at h
      · cases h
      · rw [files]
        exact List.mem_cons_of_mem _ (file_mem_of_inOrderAll h)
  | text | verbatim | leaf =>
    cases List.mem_singleton.mp h
    exact file_mem_files _

theorem file_mem_of_inOrderAll {nodes : List SourceNode} {m : SourceNode} (h : m ∈ inOrderAll nodes) :
    m.file ∈ filesAll nodes := by
  cases nodes with
  | nil => cases h
  | cons n rest =>
    rw [inOrderAll] at h
    rw [filesAll]
    rcases List.mem_append.mp h with h | h
    · exact List.mem_append_left _ (file_mem_of_inOrder h)
    · exact List.mem_append_right _ (file_mem_of_inOrderAll h)

end

end SourceNode

namespace Scan

theorem namesHole_of_head {attributes : List Markup.Attribute} {d : Directive} {list : List Attr}
    {table next : Symbols} (h : (head attributes).run table = (.ok (d, list), next)) :
    SourceNode.namesHole attributes = d.hole.isSome := by
  rw [head, run_bind] at h
  rw [SourceNode.namesHole]
  cases hread : Directive.read attributes with
  | error e =>
    rw [hread] at h
    cases h
  | ok p =>
    obtain ⟨d', ordinary⟩ := p
    rw [hread] at h
    have hrun : (attrs ordinary >>= fun list => pure (d', list)).run table =
        (.ok (d, list), next) := h
    rw [run_bind] at hrun
    rcases hattrs : (attrs ordinary).run table with ⟨_ | _, next'⟩
    · rw [hattrs] at hrun
      cases hrun
    · rw [hattrs] at hrun
      cases hrun
      rfl

variable {α β : Type} {sources : Page.Sources}

def ends : Except TextError α × Symbols → Except TextError Symbols
  | (.ok _, next) => .ok next
  | (.error e, _) => .error e

def Visits (sources : Page.Sources) (action : Scan α) (nodes : List SourceNode) : Prop :=
  ∀ table, ends (action.run table) =
    (SourceNode.readEach nodes table).mapError fun p => p.2.locate p.1.file (sources.find? p.1.file)

theorem visits_pure (a : α) : Visits sources (pure a) [] :=
  fun _ => rfl

theorem Visits.bind {action : Scan α} {f : α → Scan β} {nodes more : List SourceNode}
    (h : Visits sources action nodes) (hf : ∀ a, Visits sources (f a) more) :
    Visits sources (action >>= f) (nodes ++ more) := by
  intro table
  have hfirst := h table
  rw [run_bind, SourceNode.readEach_append]
  generalize action.run table = out at hfirst ⊢
  generalize SourceNode.readEach nodes table = read at hfirst ⊢
  rcases out with ⟨e | a, next⟩ <;> rcases read with p | next' <;> cases hfirst
  · rfl
  · exact hf a next

theorem Visits.map {action : Scan α} {nodes : List SourceNode} (h : Visits sources action nodes)
    (f : α → β) : Visits sources (action >>= fun a => pure (f a)) nodes := by
  have hbind := h.bind fun a => visits_pure (f a)
  rwa [List.append_nil] at hbind

theorem Visits.inFile {action : Scan α} {nodes : List SourceNode} {file : Text}
    (h : Visits sources action nodes) (hfiles : ∀ n ∈ nodes, n.file ≠ [] ∨ n.file = file) :
    Visits sources (inFile sources file action) nodes := by
  intro table
  have hends := h table
  rw [run_inFile]
  rcases hread : SourceNode.readEach nodes table with ⟨n, e⟩ | next
  · rw [hread] at hends
    generalize action.run table = out at hends ⊢
    rcases out with ⟨e' | a, next⟩ <;> cases hends
    rcases hfiles n (SourceNode.readEach_eq_error hread).1 with hne | rfl
    · exact congrArg Except.error (TextError.locate_of_path (e.path_locate_ne_nil hne _) _ _)
    · exact congrArg Except.error (e.locate_twice _ _)
  · rw [hread] at hends
    generalize action.run table = out at hends ⊢
    rcases out with ⟨e' | a, next'⟩ <;> cases hends
    rfl

theorem visits_element {sources : Page.Sources} {file ns tag : Text} {origin : Option Text}
    {attributes : List Markup.Attribute} {children : List PageNode}
    (hchildren : Visits sources (nodes sources file children)
      (SourceNode.inOrderAll (PageNode.resolveAll file children)))
    (hfiles : ∀ n ∈ SourceNode.inOrderAll (PageNode.resolveAll file children),
      n.file ≠ [] ∨ n.file = file) :
    Visits sources
      (inFile sources file (node sources file (.element origin ns tag attributes children)))
      (SourceNode.inOrder (.element file ns tag attributes (PageNode.resolveAll file children))) := by
  intro table
  rw [SourceNode.inOrder, SourceNode.readEach, SourceNode.readOwn, run_bind, run_inFile, node,
    run_bind]
  -- the attributes come first; then the hole is recorded or the children are read, never both
  rcases hhead : (head attributes).run table with ⟨e | ⟨d, list⟩, middle⟩
  · rfl
  · rw [namesHole_of_head hhead]
    dsimp only
    cases hhole : d.hole with
    | some name =>
      rw [run_bind]
      dsimp only
      rcases (register name (contentType d.args)).run middle with ⟨e | u, next⟩ <;> rfl
    | none =>
      have hinner := (hchildren.map fun inner => [Tree.element ns tag list d.strip inner]).inFile
        hfiles middle
      rw [run_inFile] at hinner
      exact hinner

theorem file_of_inOrderAll {file : Text} {page : List PageNode}
    (hmarks : [] ∉ PageNode.marksAll page) :
    ∀ n ∈ SourceNode.inOrderAll (PageNode.resolveAll file page), n.file ≠ [] ∨ n.file = file := by
  intro n hn
  rcases PageNode.mem_marksAll_of_mem_filesAll (SourceNode.file_mem_of_inOrderAll hn) with h | h
  · exact .inr h
  · exact .inl fun hnil => hmarks (hnil ▸ h)

mutual

theorem visits_node (sources : Page.Sources) (file : Text) (n : PageNode) (hmarks : [] ∉ n.marks) :
    Visits sources (inFile sources (n.origin.getD file) (node sources (n.origin.getD file) n))
      (n.resolve file).inOrder := by
  match n with
  | .text origin data =>
    intro table
    rw [node, run_inFile, run_bind, PageNode.resolve, SourceNode.inOrder, SourceNode.readEach,
      SourceNode.readOwn, run_bind]
    · rcases (text data).run table with ⟨e | segments, next⟩ <;> rfl
    · simp
  | .verbatim origin data => exact fun _ => rfl
  | .leaf origin node => cases node <;> exact fun _ => rfl
  | .element origin ns tag attributes children =>
    have hinner : [] ∉ PageNode.marksAll children := fun h => hmarks (List.mem_append_right _ h)
    exact visits_element (visits_nodes sources _ children hinner) (file_of_inOrderAll hinner)

theorem visits_nodes (sources : Page.Sources) (file : Text) (page : List PageNode)
    (hmarks : [] ∉ PageNode.marksAll page) :
    Visits sources (nodes sources file page)
      (SourceNode.inOrderAll (PageNode.resolveAll file page)) := by
  match page with
  | [] => exact visits_pure _
  | n :: rest =>
    rw [PageNode.marksAll, List.mem_append] at hmarks
    rw [nodes, PageNode.resolveAll, SourceNode.inOrderAll]
    exact (visits_node sources file n fun h => hmarks (.inl h)).bind fun first =>
      (visits_nodes sources file rest fun h => hmarks (.inr h)).map _

end

end Scan

namespace Document

variable {fs : FileSystem} {name : Text} {n : SourceNode} {e : TextError}

/-- A fault is raised by a node of the template or of a file that is put into it, with the file it
was parsed from on it: while the page is put together, or by the first node of the page that cannot
be read. -/
inductive Raises (fs : FileSystem) (name : Text) : SourceNode → TextError → Prop where
  | joining {content n e} : fs.read name = .ok content →
      Page.JoinsAll fs [name] ((SourceNode.taggedAll name (Markup.parse content)).map .node)
        (.error (.raised n e)) →
      Raises fs name n e
  | reading {content page n e} : fs.read name = .ok content →
      Page.JoinsAll fs [name] ((SourceNode.taggedAll name (Markup.parse content)).map .node)
        (.ok page) →
      SourceNode.readEach (SourceNode.inOrderAll page) Symbols.empty = .error (n, e) →
      Raises fs name n e

theorem Raises.unique {n' : SourceNode} {e' : TextError} (h : Raises fs name n e)
    (h' : Raises fs name n' e') : n' = n ∧ e' = e := by
  cases h with
  | joining hread hall =>
    cases h' with
    | joining hread' hall' =>
      cases hread.symm.trans hread'
      cases hall.unique _ hall'
      exact ⟨rfl, rfl⟩
    | reading hread' hall' =>
      cases hread.symm.trans hread'
      cases hall.unique _ hall'
  | reading hread hall hfault =>
    cases h' with
    | joining hread' hall' =>
      cases hread.symm.trans hread'
      cases hall.unique _ hall'
    | reading hread' hall' hfault' =>
      cases hread.symm.trans hread'
      cases hall.unique _ hall'
      cases hfault.symm.trans hfault'
      exact ⟨rfl, rfl⟩

theorem ofPage_of_readEach_error {page : List PageNode} (sources : Page.Sources)
    (hmarks : [] ∉ PageNode.marksAll page)
    (h : SourceNode.readEach (SourceNode.inOrderAll (PageNode.resolveAll name page)) Symbols.empty =
      .error (n, e)) :
    ofPage name page sources = .error (.text (e.locate n.file (sources.find? n.file))) := by
  have hends := Scan.visits_nodes sources name page hmarks Symbols.empty
  rw [h] at hends
  rw [ofPage]
  generalize (Scan.nodes sources name page).run Symbols.empty = out at hends ⊢
  rcases out with ⟨e' | tree, symbols⟩ <;> cases hends
  rfl

theorem ofPage_of_readEach_ok {page : List PageNode} (sources : Page.Sources) {table : Symbols}
    (hmarks : [] ∉ PageNode.marksAll page)
    (h : SourceNode.readEach (SourceNode.inOrderAll (PageNode.resolveAll name page)) Symbols.empty =
      .ok table) :
    ∃ doc, ofPage name page sources = .ok doc := by
  have hends := Scan.visits_nodes sources name page hmarks Symbols.empty
  rw [h] at hends
  rw [ofPage]
  generalize (Scan.nodes sources name page).run Symbols.empty = out at hends ⊢
  rcases out with ⟨e' | tree, symbols⟩ <;> cases hends
  exact ⟨_, rfl⟩

theorem exists_joinsAll {content : Text} (hread : fs.read name = .ok content) :
    ∃ out sources r, Page.JoinsAll fs [name]
        ((SourceNode.taggedAll name (Markup.parse content)).map .node) out ∧
      fs.Holds sources ∧ Page.Reports fs sources name out r ∧
      read fs name = r.bind fun page => ofPage name page sources := by
  have hstart : fs.Holds ⟨[(name, content)]⟩ := by
    intro entry hentry
    cases List.mem_singleton.mp hentry
    exact hread
  obtain ⟨log, r, hrun, hexpands⟩ := Page.expand_runs fs [name] ⟨name, Path.dir name⟩
    (Markup.parse content) ⟨[(name, content)]⟩
  obtain ⟨out, hout, hreports⟩ := hexpands.traces hstart rfl List.mem_cons_self
  refine ⟨out, _, r, hout, (hexpands.logged (List.append_nil _).symm).nested.holds_after hstart,
    hreports, ?_⟩
  rw [read, hread]
  dsimp only
  rw [hrun]
  cases r <;> rfl

theorem exists_raises (h : read fs name = .error (.text e)) : ∃ n raw, Raises fs name n raw := by
  cases hread : fs.read name with
  | error e' =>
    rw [read, hread] at h
    cases h
  | ok content =>
    obtain ⟨out, sources, r, hout, -, hreports, hdoc⟩ := exists_joinsAll hread
    cases hreports with
    | raised => exact ⟨_, _, .joining hread hout⟩
    | refused => cases hdoc.symm.trans h
    | @page page hmarks =>
      cases hfault : SourceNode.readEach
          (SourceNode.inOrderAll (PageNode.resolveAll name page)) Symbols.empty with
      | error p => exact ⟨p.1, p.2, .reading hread hout hfault⟩
      | ok table =>
        obtain ⟨doc, hok⟩ := ofPage_of_readEach_ok sources hmarks hfault
        cases (hdoc.trans hok).symm.trans h

theorem Raises.read_eq (h : Raises fs name n e) :
    e.Raw ∧ ∃ content, fs.read n.file = .ok content ∧
      read fs name = .error (.text (e.locate n.file (some content))) := by
  cases h with
  | joining hread hall =>
    obtain ⟨out, sources, r, hout, hholds, hreports, hdoc⟩ := exists_joinsAll hread
    cases hall.unique _ hout
    cases hreports with
    | raised hname hraw =>
      obtain ⟨content, hcontent⟩ := Page.exists_read_of_holds hholds hname
      refine ⟨hraw, content, hcontent, ?_⟩
      rw [hdoc, Page.Halt.report, hcontent]
      rfl
  | reading hread hall hfault =>
    obtain ⟨out, sources, r, hout, hholds, hreports, hdoc⟩ := exists_joinsAll hread
    cases hall.unique _ hout
    cases hreports with
    | page hmarks hfiles =>
      obtain ⟨hmem, before, after, hown⟩ := SourceNode.readEach_eq_error hfault
      have hname := hfiles (SourceNode.file_mem_of_inOrderAll hmem)
      obtain ⟨content, hcontent⟩ := Page.exists_read_of_holds hholds hname
      refine ⟨SourceNode.raisesRaw_readOwn n _ _ _ hown, content, hcontent, ?_⟩
      rw [hdoc, Except.bind, ofPage_of_readEach_error sources hmarks hfault,
        Page.Sources.find?_eq_read hholds hname, hcontent]
      rfl

/-- A template has a fault of the text exactly if one of its nodes raises one. There is one such
node; the path that is reported is that of its file. For text that is malformed, the line is one of
that file, and it is the one with the mark in the excerpt. -/
theorem text_fault_in_file (fs : FileSystem) (name : Text) (e : TextError) :
    read fs name = .error (.text e) ↔
      ∃ n raw content, Raises fs name n raw ∧
        (∀ n' raw', Raises fs name n' raw' → n' = n ∧ raw' = raw) ∧
        fs.read n.file = .ok content ∧ e = raw.locate n.file (some content) ∧
        e.place.path = n.file ∧ ∀ m, e = .malformed m → m.ShownIn content := by
  constructor
  · intro h
    obtain ⟨n, raw, hraises⟩ := exists_raises h
    obtain ⟨hraw, content, hcontent, hread⟩ := hraises.read_eq
    cases hread.symm.trans h
    exact ⟨n, raw, content, hraises, fun n' raw' => hraises.unique, hcontent, rfl,
      hraw.path_locate n.file content, fun m => hraw.shownIn_of_locate⟩
  · rintro ⟨n, raw, content, hraises, -, hcontent, rfl, -, -⟩
    obtain ⟨-, content', hcontent', hread⟩ := hraises.read_eq
    cases hcontent.symm.trans hcontent'
    exact hread

def nested : FileSystem :=
  .ofFiles [(utf8 "p.html", utf8 "<p ml:content=\"include q.html\"></p>"),
    (utf8 "q.html", utf8 "<b ml:replace=\"include r.html\"></b>\n$\x7b"),
    (utf8 "r.html", utf8 "$\x7bx\x7d")]

def faultPlace? : Except TemplateError Document → Option Place
  | .error (.text e) => some e.place
  | _ => none

theorem text_fault_in_file_nested :
    ∃ e n raw, read nested (utf8 "p.html") = .error (.text e) ∧
      Raises nested (utf8 "p.html") n raw ∧ n.file = utf8 "q.html" ∧ e.place.line = 2 := by
  have hplace : (faultPlace? (read nested (utf8 "p.html"))).map (fun p => (p.path, p.line)) =
      some (utf8 "q.html", 2) := by decide +kernel
  rcases hread : read nested (utf8 "p.html") with (e | b | ⟨name, e⟩) | doc
  · rw [hread] at hplace
    obtain ⟨n, raw, content, hraises, -, -, -, hpath, -⟩ := (text_fault_in_file _ _ _).mp hread
    obtain ⟨hfile, hline⟩ := Prod.mk.inj (Option.some.inj hplace)
    exact ⟨e, n, raw, rfl, hraises, hpath.symm.trans hfile, hline⟩
  all_goals
    rw [hread] at hplace
    cases hplace

end Document

end Stencil
