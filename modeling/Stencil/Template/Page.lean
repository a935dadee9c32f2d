import Stencil.FileSystem
import Stencil.Markdown.Html
import Stencil.Markup.Parse
import Stencil.Template.Directive

/-!
The page of a template: its document after the files named by include directives were put in.
-/

namespace Stencil

open Ascii Text

structure BadInclude where
  target : Text
  source : Text
  reason : Text := []
  cause : Option Text := none
  deriving DecidableEq, Repr

def BadInclude.message (e : BadInclude) : Text :=
  utf8 "cannot include " ++ quoted e.target ++
    (if e.source.isEmpty then [] else utf8 " from " ++ e.source) ++
    (if e.reason.isEmpty then [] else utf8 ": " ++ e.reason) ++
    match e.cause with
    | some cause => utf8 ": " ++ cause
    | none => []

inductive TemplateError where
  | text (e : TextError)
  | badInclude (e : BadInclude)
  | unreadable (name : Text) (e : ReadError)
  deriving DecidableEq, Repr

def TemplateError.message : TemplateError → Text
  | .text e => e.message
  | .badInclude e => e.message
  | .unreadable name e => utf8 "failed to read template " ++ name ++ utf8 ": " ++ e.message

/-- A node of a page. Only the topmost nodes of an included file are marked with that file. -/
inductive PageNode where
  | element (origin : Option Text) (ns tag : Text) (attrs : List Markup.Attribute)
      (children : List PageNode)
  | text (origin : Option Text) (data : Text)
  | verbatim (origin : Option Text) (data : Text)
  | leaf (origin : Option Text) (node : Markup.Node)
  deriving Inhabited, Repr

namespace PageNode

def origin : PageNode → Option Text
  | .element origin .. | .text origin _ | .verbatim origin _ | .leaf origin _ => origin

def mark (file : Text) : PageNode → PageNode
  | .element origin ns tag attrs children => .element (origin <|> some file) ns tag attrs children
  | .text origin data => .text (origin <|> some file) data
  | .verbatim origin data => .verbatim (origin <|> some file) data
  | .leaf origin node => .leaf (origin <|> some file) node

mutual

def toNode : PageNode → Markup.Node
  | .element _ ns tag attrs children => .element ns tag attrs (toNodes children)
  | .text _ data => .text data
  | .verbatim _ data => .text data
  | .leaf _ node => node

def toNodes : List PageNode → List Markup.Node
  | [] => []
  | n :: rest => toNode n :: toNodes rest

end

end PageNode

namespace Page

structure Sources where
  files : List (Text × Text) := []

namespace Sources

def find? (sources : Sources) (name : Text) : Option Text :=
  sources.files.lookup name

def record (sources : Sources) (name content : Text) : Sources :=
  match sources.find? name with
  | some _ => sources
  | none => ⟨sources.files ++ [(name, content)]⟩

def names (sources : Sources) : List Text :=
  sources.files.map Prod.fst

end Sources

abbrev Expand := StateT Sources (Except TemplateError)

def fault {α : Type} (file : Text) (e : TextError) : Expand α := do
  throw (.text (e.locate file ((← get).find? file)))

structure Site where
  file : Text
  dir : Text

mutual

def expandNode (included : Site → Text → Expand (List PageNode)) (site : Site) :
    Markup.Node → Expand (List PageNode)
  | .document children => expandAll included site children
  | .element ns tag attrs children =>
    match Directive.read attrs with
    | .error e => fault site.file e
    | .ok (d, ordinary) =>
      if d.hole = some Directive.includeHole then do
        let content ← includeAll included site d.args
        match d.strip with
        | .always => return content
        | .ifEmpty =>
          return if content.isEmpty then [] else [.element none ns tag ordinary content]
        | .none => return [.element none ns tag ordinary content]
      else do
        let content ← expandAll included site children
        -- other directives stay among the attributes until the page is read
        return [.element none ns tag attrs content]
  | .text data => return [.text none data]
  | node => return [.leaf none node]

def expandAll (included : Site → Text → Expand (List PageNode)) (site : Site) :
    List Markup.Node → Expand (List PageNode)
  | [] => return []
  | n :: rest => do
    let first ← expandNode included site n
    let others ← expandAll included site rest
    return first ++ others

def includeAll (included : Site → Text → Expand (List PageNode)) (site : Site) :
    List Text → Expand (List PageNode)
  | [] =>
    fault site.file (.malformed ⟨.malformedDirective, utf8 "ml:content=\"include\"",
      utf8 "include needs at least one file name", {}⟩)
  | args => do
    let parts ← args.mapM (included site)
    return parts.flatten

end

/-- The path of an included file below the root. A path with a slash in front starts at the root,
any other in the directory of the including file. -/
def targetOf (dir arg : Text) : Text :=
  if Path.isRooted arg then (Path.clean arg).drop 1 else Path.clean (Path.join [dir, arg])

inductive FileKind where
  | markup
  | markdown
  | data
  deriving DecidableEq

def FileKind.ofPath (p : Text) : FileKind :=
  let ext := toLower (Path.extension p)
  if ext = utf8 ".html" || ext = utf8 ".htm" then .markup
  else if ext = utf8 ".md" || ext = utf8 ".markdown" then .markdown
  else .data

def contentNodes (expand : List Markup.Node → Expand (List PageNode)) (target content : Text) :
    Expand (List PageNode) :=
  match FileKind.ofPath target with
  | .markup => marked (Markup.parse content)
  | .markdown => marked (Markup.parse (Markdown.toHtml content))
  | .data => return if content.isEmpty then [] else [.verbatim (some target) content]
where
  -- nodes that came out of a file further in have its mark already
  marked (nodes : List Markup.Node) : Expand (List PageNode) := do
    return (← expand nodes).map (PageNode.mark target)

def escape (site : Site) (arg : Text) : TemplateError :=
  .badInclude
    { target := arg, source := site.file, reason := utf8 "path leaves the template root" }

def cycle (active : List Text) (site : Site) (arg : Text) : TemplateError :=
  .badInclude
    { target := arg, source := site.file,
      reason := utf8 "include cycle through " ++
        joinWith (utf8 " -> ") (active ++ [targetOf site.dir arg]) }

def unreadable (site : Site) (arg : Text) (e : ReadError) : TemplateError :=
  .badInclude { target := arg, source := site.file, cause := some e.message }

/-- Reads the file that an include directive names, and goes on with its path and content.
`active` is the chain of files being put in, the outermost first; a file on that chain cannot be put
in again. -/
def openFile (fs : FileSystem) (active : List Text) (site : Site) (arg : Text)
    (next : Text → Text → Expand (List PageNode)) : Expand (List PageNode) :=
  let target := targetOf site.dir arg
  if !Path.isValid target then throw (escape site arg)
  else if active.contains target then throw (cycle active site arg)
  else match fs.read target with
    | .error e => throw (unreadable site arg e)
    | .ok content => do
      modify (·.record target content)
      next target content

def includeFile (fs : FileSystem) : (fuel : Nat) → (active : List Text) → Site → Text →
    Expand (List PageNode)
  | 0, active, site, arg =>
    openFile fs active site arg (contentNodes fun _ => throw (cycle active site arg))
  | fuel + 1, active, site, arg =>
    openFile fs active site arg fun target =>
      contentNodes (expandAll (includeFile fs fuel (active ++ [target])) ⟨target, Path.dir target⟩)
        target

def expand (fs : Option FileSystem) (active : List Text) (site : Site) (nodes : List Markup.Node) :
    Expand (List PageNode) :=
  match fs with
  | some fs => expandAll (includeFile fs fs.names.length active) site nodes
  | none =>
    let refuse (site : Site) (arg : Text) : Expand (List PageNode) :=
      throw (.badInclude
        { target := arg, source := site.file, reason := utf8 "no filesystem to read includes from" })
    expandAll refuse site nodes

end Page

end Stencil
