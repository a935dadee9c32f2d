import Stencil.Template.Page

namespace Stencil

open Ascii Text

inductive Tree where
  | data (text : Segments)
  | comment (text : Text)
  | doctype (name : Text) (attrs : List Markup.Attribute)
  | element (ns tag : Text) (attrs : List Attr) (strip : Strip) (children : List Tree)
  | hole (ns tag : Text) (attrs : List Attr) (strip : Strip) (name : Text) (args : List Text)
      (replaced : List Markup.Node)
  deriving Inhabited, Repr

structure Document where
  path : Text
  page : List Markup.Node
  tree : List Tree
  symbols : Symbols
  files : List Text

namespace Scan

def inFile {α : Type} (sources : Page.Sources) (file : Text) (action : Scan α) : Scan α :=
  tryCatch action fun e => throw (e.locate file (sources.find? file))

def lift {α : Type} : Except TextError α → Scan α
  | .ok a => return a
  | .error e => throw e

def contentType (args : List Text) : HoleType :=
  if args.isEmpty then .fragment else .fragmentFunction

def head (attributes : List Markup.Attribute) : Scan (Directive × List Attr) := do
  let (d, ordinary) ← lift (Directive.read attributes)
  return (d, ← attrs ordinary)

mutual

/-- What a rendering does with a node that was written in `file`. Nodes that cannot be written out
are left out. -/
def node (sources : Page.Sources) (file : Text) : PageNode → Scan (List Tree)
  | .text _ data => return [.data (← text data)]
  | .verbatim _ data => return [.data [.literal data]]
  | .leaf _ (.comment data) => return [.comment data]
  | .leaf _ (.doctype name attrs) => return [.doctype name attrs]
  | .leaf _ _ => return []
  | .element _ ns tag attributes children => do
    let (d, attrs) ← head attributes
    match d.hole with
    | some name =>
      register name (contentType d.args)
      return [.hole ns tag attrs d.strip name d.args (PageNode.toNodes children)]
    | none => return [.element ns tag attrs d.strip (← nodes sources file children)]

/-- Nodes that stand side by side in `file`, or come from the file they are marked with. -/
def nodes (sources : Page.Sources) (file : Text) : List PageNode → Scan (List Tree)
  | [] => return []
  | n :: rest => do
    let own := n.origin.getD file
    -- the parent's list locates the fault again, which leaves it in the file it has by then
    let first ← inFile sources own (node sources own n)
    let others ← nodes sources file rest
    return first ++ others

end

end Scan

namespace Document

def ofPage (path : Text) (page : List PageNode) (sources : Page.Sources) :
    Except TemplateError Document :=
  match (Scan.nodes sources path page).run Symbols.empty with
  | (.error e, _) => .error (.text e)
  | (.ok tree, symbols) => .ok ⟨path, PageNode.toNodes page, tree, symbols, sources.names⟩

def read (fs : FileSystem) (name : Text) : Except TemplateError Document :=
  match fs.read name with
  | .error e => .error (.unreadable name e)
  | .ok content => do
    let site : Page.Site := ⟨name, Path.dir name⟩
    let (page, sources) ←
      (Page.expand (some fs) [name] site (Markup.parse content)).run ⟨[(name, content)]⟩
    ofPage name page sources

def ofNodes (fs : Option FileSystem) (dir : Text) (nodes : List Markup.Node) :
    Except TemplateError Document := do
  let site : Page.Site := ⟨[], if dir.isEmpty then [dot] else dir⟩
  let (page, sources) ← (Page.expand fs [] site nodes).run {}
  ofPage [] page sources

end Document

end Stencil
