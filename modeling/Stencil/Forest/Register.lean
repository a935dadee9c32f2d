import Stencil.Forest.Basic
import Stencil.Markup.Parse
import Stencil.Markup.Render

namespace Stencil

open Ascii Text

abbrev Siblings := List (Option NodeId)

structure Workspace where
  forest : Forest := {}
  lists : List (Text × Siblings) := []

inductive RegisterOp where
  | text (dst s : Text)
  | comment (dst s : Text)
  | doctype (dst name : Text) (attrs : List Markup.Attribute)
  | element (dst ns tag : Text) (attrs : List Markup.Attribute) (srcs : List Text)
  | concat (dst : Text) (srcs : List Text)
  | clone (dst src : Text)
  | children (dst src : Text) (index : Int)
  | parse (dst s : Text)
  | nodes (dst : Text) (list : List (Option Markup.Node))
  | setData (src : Text) (index : Int) (s : Text)
  | equal (a b : Text)
  | render (src : Text)
  | attached (src : Text)

inductive RegisterAnswer where
  | siblings (list : List (Option Markup.Node))
  | done
  | equal (b : Bool)
  | html (r : Except Markup.RenderError Text)
  | attached (list : List Bool)

namespace Workspace

def find (w : Workspace) (name : Text) : Siblings :=
  (w.lists.lookup name).getD []

def store (w : Workspace) (name : Text) (f : Forest) (list : Siblings) : Workspace :=
  ⟨f, (name, list) :: w.lists.filter (·.1 ≠ name)⟩

def view (f : Forest) (list : Siblings) : List (Option Markup.Node) :=
  list.map fun n => n.map f.toNode

def member (list : Siblings) (index : Int) : Except AccessFault NodeId :=
  match if index < 0 then none else list[index.toNat]? with
  | none => .error (.outOfRange index list.length)
  | some none => .error .gap
  | some (some n) => .ok n

def addAll (f : Forest) : List (Option Markup.Node) → Except AccessFault (Siblings × Forest)
  | [] => .ok ([], f)
  | none :: rest => do
    let (more, f) ← addAll f rest
    return (none :: more, f)
  | some n :: rest => do
    let (id, f) ← f.addTree n
    let (more, f) ← addAll f rest
    return (some id :: more, f)

def cloneAll (f : Forest) : Siblings → Except AccessFault (Siblings × Forest)
  | [] => .ok ([], f)
  | none :: rest => do
    let (more, f) ← cloneAll f rest
    return (none :: more, f)
  | some n :: rest => do
    let (copy, f) ← f.clone n
    let (more, f) ← cloneAll f rest
    return (some copy :: more, f)

def appendAll (f : Forest) (parent : NodeId) : Siblings → Except AccessFault Forest
  | [] => .ok f
  | none :: rest => appendAll f parent rest
  | some child :: rest => do appendAll (← f.append parent child) parent rest

def addElement (f : Forest) (ns tag : Text) (attrs : List Markup.Attribute) (children : Siblings) :
    Except AccessFault (Siblings × Forest) := do
  let (n, f) := f.add (.element ns tag attrs)
  return ([some n], ← appendAll f n children)

def equalLists : List (Option Markup.Node) → List (Option Markup.Node) → Except AccessFault Bool
  | some a :: as, some b :: bs => if a.equal b then equalLists as bs else .ok false
  | [], [] => .ok true
  | _ :: _, _ :: _ => .error .gap
  | _, _ => .ok false

def renderList (list : List (Option Markup.Node)) :
    Except AccessFault (Except Markup.RenderError Text) :=
  let before := (list.takeWhile (·.isSome)).filterMap id
  match Markup.render before with
  | .error e => .ok (.error e)
  | .ok s => if before.length = list.length then .ok (.ok s) else .error .gap

def keep (w : Workspace) (dst : Text) :
    Except AccessFault (Siblings × Forest) → Except AccessFault RegisterAnswer × Workspace
  | .ok (list, f) => (.ok (.siblings (view f list)), w.store dst f list)
  | .error e => (.error e, w)

def single (w : Workspace) (label : Label) : Except AccessFault (Siblings × Forest) :=
  let (n, f) := w.forest.add label
  .ok ([some n], f)

def run (w : Workspace) (op : RegisterOp) : Except AccessFault RegisterAnswer × Workspace :=
  match op with
  | .text dst s => w.keep dst (if s.isEmpty then .ok ([], w.forest) else w.single (.text s))
  | .comment dst s => w.keep dst (w.single (.comment s))
  | .doctype dst name attrs => w.keep dst (w.single (.doctype name attrs))
  | .element dst ns tag attrs srcs =>
    w.keep dst (addElement w.forest ns tag attrs (srcs.flatMap w.find))
  | .concat dst srcs => w.keep dst (.ok (srcs.flatMap w.find, w.forest))
  | .clone dst src => w.keep dst (cloneAll w.forest (w.find src))
  | .children dst src index =>
    w.keep dst ((member (w.find src) index).map fun n =>
      ((w.forest.childrenOf n).map some, w.forest))
  | .parse dst s => w.keep dst (addAll w.forest ((Markup.parse s).map some))
  | .nodes dst nodes => w.keep dst (addAll w.forest nodes)
  | .setData src index s =>
    match member (w.find src) index with
    | .error e => (.error e, w)
    | .ok n =>
      (.ok .done,
        { w with forest := w.forest.modify n fun c => { c with label := c.label.withData s } })
  | .equal a b =>
    let lists := (view w.forest (w.find a), view w.forest (w.find b))
    if lists.1.length = lists.2.length then ((equalLists lists.1 lists.2).map .equal, w)
    else (.ok (.equal false), w)
  | .render src => ((renderList (view w.forest (w.find src))).map .html, w)
  | .attached src =>
    let list := w.find src
    if list.all (·.isSome) then
      (.ok (.attached ((list.filterMap id).map w.forest.hasParent)), w)
    else (.error .gap, w)

end Workspace

end Stencil
