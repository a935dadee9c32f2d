import Stencil.Proofs.Template.Inclusion
import Stencil.Proofs.Unit.Dependencies

namespace Stencil

open Ascii Text

namespace Page

def SameVisits (fs fs' : FileSystem) (log : List Event) : Prop :=
  ∀ v, Event.visit v ∈ log → fs'.read v.target = fs.read v.target

section

variable {fs fs' : FileSystem}

theorem SameVisits.left {log later : List Event} (h : SameVisits fs fs' (log ++ later)) :
    SameVisits fs fs' log :=
  fun v hv => h v (List.mem_append_left _ hv)

theorem SameVisits.right {log later : List Event} (h : SameVisits fs fs' (log ++ later)) :
    SameVisits fs fs' later :=
  fun v hv => h v (List.mem_append_right _ hv)

theorem Finds.again {active : List Text} {target : Text} {finding : Finding}
    (h : Finds fs active target finding) (hsame : fs'.read target = fs.read target) :
    Finds fs' active target finding := by
  cases h with
  | escapes hvalid => exact .escapes hvalid
  | cyclic hvalid hactive => exact .cyclic hvalid hactive
  | unreadable hvalid hactive hread => exact .unreadable hvalid hactive (hsame.trans hread)
  | opened hvalid hactive hread => exact .opened hvalid hactive (hsame.trans hread)

mutual

theorem Includes.again {active : List Text} {s : Sources} {site : Site} {arg : Text}
    {log : List Event} {r : Except TemplateError (List PageNode)}
    (h : Includes fs active s site arg log r) (hsame : SameVisits fs fs' log) :
    Includes fs' active s site arg log r := by
  match h with
  | .refused hfinds he =>
    exact .refused (hfinds.again (hsame _ List.mem_cons_self)) he
  | .data hfinds hdata =>
    exact .data (hfinds.again (hsame _ List.mem_cons_self)) hdata
  | .markup hfinds hmarkup hall =>
    refine .markup (hfinds.again (hsame _ List.mem_cons_self)) hmarkup (hall.again fun v hv => ?_)
    exact hsame v (by simp [hv])

theorem IncludesEach.again {active : List Text} {s : Sources} {site : Site} {args : List Text}
    {log : List Event} {r : Except TemplateError (List PageNode)}
    (h : IncludesEach fs active s site args log r) (hsame : SameVisits fs fs' log) :
    IncludesEach fs' active s site args log r := by
  match h with
  | .nil => exact .nil
  | .cons hfirst hrest => exact .cons (hfirst.again hsame.left) (hrest.again hsame.right)
  | .stop hfirst => exact .stop (hfirst.again hsame)

theorem ExpandsNode.again {active : List Text} {s : Sources} {site : Site} {n : Markup.Node}
    {log : List Event} {r : Except TemplateError (List PageNode)}
    (h : ExpandsNode fs active s site n log r) (hsame : SameVisits fs fs' log) :
    ExpandsNode fs' active s site n log r := by
  match h with
  | .document hall => exact .document (hall.again hsame)
  | .malformed hread => exact .malformed hread
  | .kept hread hhole hall => exact .kept hread hhole (hall.again hsame)
  | .noFile hread hhole hargs => exact .noFile hread hhole hargs
  | .replaced hread hhole hargs heach => exact .replaced hread hhole hargs (heach.again hsame)
  | .text => exact .text
  | .leaf hleaf => exact .leaf hleaf

theorem ExpandsAll.again {active : List Text} {s : Sources} {site : Site}
    {nodes : List Markup.Node} {log : List Event} {r : Except TemplateError (List PageNode)}
    (h : ExpandsAll fs active s site nodes log r) (hsame : SameVisits fs fs' log) :
    ExpandsAll fs' active s site nodes log r := by
  match h with
  | .nil => exact .nil
  | .cons hfirst hrest => exact .cons (hfirst.again hsame.left) (hrest.again hsame.right)
  | .stop hfirst => exact .stop (hfirst.again hsame)

end

end

variable {fs fs' : FileSystem} {start : List Text} {site : Site} {nodes : List Markup.Node}
  {s : Sources} {log : List Event} {r : Except TemplateError (List PageNode)}

theorem ExpandsAll.mem_names_of_visit {page : List PageNode} {name content : Text}
    (h : ExpandsAll fs [name] ⟨[(name, content)]⟩ site nodes log (.ok page)) {v : Visit}
    (hv : Event.visit v ∈ log) : v.target ∈ (Sources.after ⟨[(name, content)]⟩ log).names := by
  have hlogged : Logged fs [name] [] log (.ok page) := h.logged (List.append_nil _).symm
  have hopened : Event.opened? (.visit v) = some v.target := by
    have hstops := hlogged.stops v
    cases hfinding : v.finding with
    | opened text => simp [Event.opened?, hfinding]
    | escapes | cyclic | unreadable e =>
      have hfault := hstops _ hv (by rw [Visit.fault?, hfinding])
      cases hfault
  have hnames := @Sources.names_after ⟨[(name, content)]⟩ [name] rfl log
  rw [hnames, List.mem_eraseDups]
  exact List.mem_append_right _ (List.mem_filterMap.mpr ⟨_, hv, hopened⟩)

end Page

namespace Compile

def trailerPath (name : Text) (options : CompileOptions) (ending : String) : Text :=
  Path.join [Path.dir name, moduleOf name options ++ utf8 ending]

/-- The paths that compiling a template looks up: the template, what its include directives name,
and its trailers once it has been read. -/
inductive Asks (fs : FileSystem) (name : Text) (options : CompileOptions) : Text → Prop where
  | template : Asks fs name options name
  | included {content log r v} : fs.read name = .ok content →
      Page.ExpandsAll fs [name] ⟨[(name, content)]⟩ ⟨name, Path.dir name⟩ (Markup.parse content)
        log r →
      Page.Event.visit v ∈ log → Asks fs name options v.target
  | implementation {doc} : Document.read fs name = .ok doc →
      Asks fs name options (trailerPath name options ".ml.ext")
  | interface {doc t} : Document.read fs name = .ok doc →
      Trailer.read fs (trailerPath name options ".ml.ext") = .ok t →
      Asks fs name options (trailerPath name options ".mli.ext")

section

variable {fs fs' : FileSystem} {name : Text} {options : CompileOptions}

theorem read_congr (h : ∀ p, Asks fs name options p → fs'.read p = fs.read p) :
    Document.read fs' name = Document.read fs name := by
  have hname := h name .template
  rw [Document.read, Document.read, hname]
  cases hread : fs.read name with
  | error e => rfl
  | ok content =>
    obtain ⟨log, r, hrun, hr⟩ := Page.expand_runs fs [name] ⟨name, Path.dir name⟩
      (Markup.parse content) ⟨[(name, content)]⟩
    have hagain := hr.again fun v hv => h v.target (.included hread hr hv)
    dsimp only
    rw [hrun, hagain.run]

theorem trailer_congr {path : Text} (h : fs'.read path = fs.read path) :
    Trailer.read fs' path = Trailer.read fs path := by
  rw [Trailer.read, Trailer.read, h]

theorem readTrailers_congr {dir module : Text}
    (himpl : fs'.read (Path.join [dir, module ++ utf8 ".ml.ext"]) =
      fs.read (Path.join [dir, module ++ utf8 ".ml.ext"]))
    (hiface : ∀ t, Trailer.read fs (Path.join [dir, module ++ utf8 ".ml.ext"]) = .ok t →
      fs'.read (Path.join [dir, module ++ utf8 ".mli.ext"]) =
        fs.read (Path.join [dir, module ++ utf8 ".mli.ext"])) :
    readTrailers fs' dir module = readTrailers fs dir module := by
  unfold readTrailers
  rw [trailer_congr himpl]
  cases hfirst : Trailer.read fs (Path.join [dir, module ++ utf8 ".ml.ext"]) with
  | error e => rfl
  | ok t => rw [trailer_congr (hiface t hfirst)]

theorem template_congr (h : ∀ p, Asks fs name options p → fs'.read p = fs.read p) :
    template fs' name options = template fs name options := by
  unfold template
  rw [read_congr h]
  cases hread : Document.read fs name with
  | error e => rfl
  | ok doc =>
    have htrailers : readTrailers fs' (Path.dir name) (moduleOf name options) =
        readTrailers fs (Path.dir name) (moduleOf name options) :=
      readTrailers_congr (h _ (.implementation hread)) fun t ht => h _ (.interface hread ht)
    unfold moduleOf at htrailers
    dsimp only
    rw [htrailers]

theorem Asks.mem {doc : Document} (hdoc : Document.read fs name = .ok doc) {p : Text}
    (h : Asks fs name options p) : p ∈ doc.files ++
      [trailerPath name options ".ml.ext", trailerPath name options ".mli.ext"] := by
  cases h with
  | template => exact List.mem_append_left _ (Document.name_mem_files hdoc)
  | @included content log r v hread hall hv =>
    apply List.mem_append_left
    obtain ⟨content', page, sources, hread', hexpand, hpage⟩ := Document.read_eq_ok_iff.mp hdoc
    cases hread.symm.trans hread'
    rw [hall.run] at hexpand
    cases r with
    | error e => cases hexpand
    | ok found =>
      cases hexpand
      rw [Document.files_of_ofPage hpage]
      exact hall.mem_names_of_visit hv
  | implementation => simp
  | interface => simp

end

end Compile

end Stencil
