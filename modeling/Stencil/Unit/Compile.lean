import Stencil.Log
import Stencil.Text.Distance
import Stencil.Unit.Import
import Stencil.Unit.Layout
import Stencil.Unit.Trailer

namespace Stencil

open Ascii Text

structure SourceFile where
  name : Text
  content : Text
  deriving DecidableEq, Repr

inductive CompileError where
  | template (e : TemplateError)
  | trailer (e : ReadError)
  | imports (e : ImportError)
  | joined (unit trailer : Text)

def CompileError.message : CompileError → Text
  | .template e => e.message
  | .trailer e => e.message
  | .imports e => e.message
  | .joined unit path => utf8 "failed to format " ++ unit ++ utf8 " with trailer " ++ path

structure CompileOptions where
  module : Text := []
  package : Text := []

structure Compiled where
  module : Text
  typeName : Text
  package : Text
  implementation : SourceFile
  interface : SourceFile
  symbols : Symbols
  files : List Text
  absent : List Text

namespace Compile

def pathOf (spec : Text) : Text :=
  ((unquoted? ((splitOn space spec).getLastD [])).getD spec)

def sortImports (imports : List Text) : List Text :=
  Text.sortOn pathOf imports

/-- The final text of a unit. `rows` gives the unit for a list of imports. The imports are settled
from the unit and its trailer together, and only the generated part is laid out. -/
def unitText (unit : Text) (rows : List Text → List Row) (candidates : List Text)
    (trailer : Option Trailer) : Except CompileError Text := do
  -- which imports are needed is read off the unit without any
  let needed ← (Import.needed unit (Row.sourceOf (rows [])) candidates).mapError .imports
  let finish (imports : List Text) : Text := Row.layoutOf (rows (sortImports imports))
  match trailer with
  | none => return finish needed
  | some t =>
    if t.isBlank then return finish needed
    else match Grammar.read? (t.joinTo (Row.sourceOf (rows needed)) false) with
      | none => throw (.joined unit t.path)
      | some reading => return t.joinTo (finish (Import.completed reading)) true

def hiddenWarnings (symbols : Symbols) (t : Trailer) : List LogRecord :=
  (t.hidden.filter fun hole => (symbols.lookup? hole).isNone).map fun hole =>
    ⟨.warn, utf8 "trailer hides an unknown hole",
      [(utf8 "trailer", .text t.path), (utf8 "hole", .text hole),
        (utf8 "suggestions", .texts (suggest hole symbols.names))]⟩

def document (doc : Document) (name : Text) (module package : Text)
    (trailers : Option Trailer × Option Trailer) : Except CompileError Compiled := do
  let present := trailers.1.toList ++ trailers.2.toList
  let known (hole : Text) : Bool := (doc.symbols.lookup? hole).isSome
  let component : Component :=
    { source := Path.base name, package := package, typeName := Name.exported module,
      symbols := doc.symbols, tree := doc.tree,
      hidden := (present.flatMap (·.hidden)).filter known }
  let dir := Path.dir name
  let implName := module ++ utf8 ".ml.go"
  let ifaceName := module ++ utf8 ".mli.go"
  let impl ← unitText implName component.implementation Component.implementationImports trailers.1
  let iface ← unitText ifaceName component.interface Component.interfaceImports trailers.2
  let absent (t : Option Trailer) (ending : Text) : List Text :=
    if t.isSome then [] else [Path.join [dir, module ++ ending]]
  return {
    module := module, typeName := component.typeName, package := package,
    implementation := ⟨implName, impl⟩, interface := ⟨ifaceName, iface⟩,
    symbols := doc.symbols, files := doc.files ++ present.map (·.path),
    absent := absent trailers.1 (utf8 ".ml.ext") ++ absent trailers.2 (utf8 ".mli.ext") }

def readTrailers (fs : FileSystem) (dir module : Text) :
    Except CompileError (Option Trailer × Option Trailer) := do
  let impl ← (Trailer.read fs (Path.join [dir, module ++ utf8 ".ml.ext"])).mapError .trailer
  let iface ← (Trailer.read fs (Path.join [dir, module ++ utf8 ".mli.ext"])).mapError .trailer
  return (impl, iface)

def template (fs : FileSystem) (name : Text) (options : CompileOptions) :
    Except CompileError Compiled × List LogRecord :=
  let module := if options.module.isEmpty then Name.moduleOf name else options.module
  let package :=
    if options.package.isEmpty then Name.packageOf (Path.dir name) module else options.package
  match Document.read fs name with
  | .error e => (.error (.template e), [])
  | .ok doc =>
    let parsed : LogRecord := ⟨.debug, utf8 "parsed template",
      [(utf8 "template", .text name), (utf8 "holes", .int doc.symbols.size),
        (utf8 "files", .int doc.files.length)]⟩
    match readTrailers fs (Path.dir name) module with
    | .error e => (.error e, [parsed])
    | .ok trailers =>
      let warnings := (trailers.1.toList ++ trailers.2.toList).flatMap (hiddenWarnings doc.symbols)
      (document doc name module package trailers, parsed :: warnings)

end Compile

end Stencil
