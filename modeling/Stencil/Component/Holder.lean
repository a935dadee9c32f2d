import Stencil.Component.Deferred

namespace Stencil.Deferred

inductive HoleStep where
  | value (hole text : Text)
  | pending (hole : Text) (program : Program Text)
  | clear (hole : Text)
  | get (hole : Text)
  | fresh (hole : Text)
  | alias (hole source : Text)
  | restore (hole : Text)

def HoleStep.hole : HoleStep → Text
  | .value h _ | .pending h _ | .clear h | .get h | .fresh h | .alias h _ | .restore h => h

inductive HoleAnswer where
  | done
  | value (text : Text)
  | copied (same samePrevious : Bool)

structure Holder where
  frame : Frame := {}
  machine : Machine Text := {}

namespace Holder

def previousOf (c : Option CellId) : Run Text (Option CellId) := do
  match c with
  | none => return none
  | some c => return (← cell? c).bind Cell.previous?

def step (f : Frame) : HoleStep → Run Text (HoleAnswer × Frame)
  | .value hole text => do
    let c ← alloc (.concrete text)
    return (.done, f.bind hole (some c))
  | .pending hole program => do
    let c ← allocPending hole program (f.find? hole)
    return (.done, f.bind hole (some c))
  | .clear hole => return (.done, f.bind hole none)
  | .get hole => do
    let v ← read (fun _ => []) f hole
    return (.value v, f)
  | .fresh hole => do
    let before := f.find? hole
    let copy ← fresh before
    let same ← do
      let a ← previousOf before
      let b ← previousOf copy
      pure (a == b)
    return (.copied (before == copy) same, f.bind hole copy)
  | .alias hole source => return (.done, f.bind hole (f.find? source))
  | .restore hole => do
    let c ← previousOf (f.find? hole)
    return (.done, f.bind hole c)

def run (h : Holder) (s : HoleStep) : Except Text HoleAnswer × Holder :=
  match (step h.frame s).run.run h.machine with
  | (.ok (answer, f), m) => (.ok answer, ⟨f, m⟩)
  | (.error message, m) => (.error message, ⟨h.frame, m⟩)

end Holder

end Stencil.Deferred
