import Stencil.Component.Deferred
import Stencil.Component.Value

namespace Stencil

open Deferred

structure Blueprint where
  symbols : Symbols
  body : Expr

namespace Blueprint

def ofDocument (doc : Document) : Blueprint :=
  ⟨doc.symbols, Expr.ofDocument doc.symbols doc.tree⟩

def zero (b : Blueprint) (hole : Text) : Value :=
  Value.zero ((b.symbols.lookup? hole).getD .string)

def read (b : Blueprint) (f : Frame) (hole : Text) : Run Value Value := do
  let inside ← if f.inPass then pure f else pass f
  Deferred.read b.zero inside hole

def construct (b : Blueprint) : StateM (Machine Value) Frame :=
  b.symbols.entries.foldlM (fun f (hole, type) => do
    let c ← alloc (.concrete (Value.zero type))
    return f.bind hole (some c)) {}

def setTo (b : Blueprint) (f : Frame) (hole : Text) (p : Program Value) :
    StateM (Machine Value) (Except Text PUnit × Frame) := do
  match ← runProgram b.read f p with
  | (.ok v, f) => do
    let c ← alloc (.concrete v)
    return (.ok (), f.bind hole (some c))
  | (.error message, f) => return (.error message, f)

def update (f : Frame) (hole : Text) (p : Program Value) : StateM (Machine Value) Frame := do
  let c ← allocPending hole p (f.find? hole)
  return f.bind hole (some c)

def render (b : Blueprint) (f : Frame) : Run Value (List Markup.Node) := do
  let inside ← pass f
  return (← b.body.value (Deferred.read b.zero inside) {}).asNodes

end Blueprint

inductive InstanceStep where
  | set (hole : Text) (p : Program Value)
  | update (hole : Text) (p : Program Value)
  | get (hole : Text)
  | render
  | copy

inductive InstanceAnswer where
  | done
  | value (v : Value)
  | nodes (list : List Markup.Node)

structure Instance where
  frame : Frame := {}
  machine : Machine Value := {}

namespace Instance

def new (b : Blueprint) : Instance :=
  let (f, m) := b.construct.run {}
  ⟨f, m⟩

def run (b : Blueprint) (i : Instance) (s : InstanceStep) : Except Text InstanceAnswer × Instance :=
  match s with
  | .set hole p =>
    let ((r, f), m) := (b.setTo i.frame hole p).run i.machine
    (r.map fun _ => .done, ⟨f, m⟩)
  | .update hole p =>
    let (f, m) := (Blueprint.update i.frame hole p).run i.machine
    (.ok .done, ⟨f, m⟩)
  | .get hole =>
    let (r, m) := (b.read i.frame hole).run.run i.machine
    (r.map .value, ⟨i.frame, m⟩)
  | .render =>
    let (r, m) := (b.render i.frame).run.run i.machine
    (r.map .nodes, ⟨i.frame, m⟩)
  | .copy => (.ok .done, i)

end Instance

end Stencil
