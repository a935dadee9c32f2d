import Stencil.Text.Basic

/-!
Values that are still to be computed. A hole holds either a concrete value or a transformation that
has not run yet, together with what the hole held before. A transformation sees the other holes and,
under the name of its own hole, what it replaces; so forcing a hole always comes to an end. Its
result is kept in the cell that was forced.
-/

namespace Stencil.Deferred

/-- A computation that reads and sets holes by their names, and may panic. Panics only propagate: a
program that reads a hole whose computation panics does so too, and none recovers. -/
inductive Program (V : Type) where
  | value (v : V)
  | panic (message : Text)
  | get (hole : Text) (next : V → Program V)
  | set (hole : Text) (v : V) (next : Program V)

def Program.bind {V : Type} (p : Program V) (f : V → Program V) : Program V :=
  match p with
  | .value v => f v
  | .panic message => .panic message
  | .get hole next => .get hole fun v => (next v).bind f
  | .set hole v next => .set hole v (next.bind f)

abbrev CellId := Nat

structure Transformation (V : Type) where
  program : Program V
  hole : Text
  origin : CellId

inductive Cell (V : Type) where
  | concrete (v : V)
  | pending (t : Transformation V) (previous : Option CellId) (result : Option V)

namespace Cell

def isPending {V : Type} : Cell V → Bool
  | .pending _ _ none => true
  | _ => false

def previous? {V : Type} : Cell V → Option CellId
  | .concrete _ => none
  | .pending _ previous _ => previous

end Cell

structure Machine (V : Type) where
  cells : List (Cell V) := []
  started : List (Text × CellId) := []

structure Frame where
  holes : List (Text × CellId) := []
  inPass : Bool := false

namespace Frame

def find? (f : Frame) (hole : Text) : Option CellId :=
  f.holes.lookup hole

def bind (f : Frame) (hole : Text) (cell : Option CellId) : Frame :=
  let others := f.holes.filter (·.1 ≠ hole)
  { f with holes := match cell with
    | some c => (hole, c) :: others
    | none => others }

end Frame

abbrev Run (V : Type) := ExceptT Text (StateM (Machine V))

variable {V : Type}

def alloc (cell : Cell V) : StateM (Machine V) CellId := do
  let m ← get
  set { m with cells := m.cells ++ [cell] }
  return m.cells.length

def cell? (c : CellId) : Run V (Option (Cell V)) := do
  return (← get).cells[c]?

def allocPending (hole : Text) (program : Program V) (previous : Option CellId) :
    StateM (Machine V) CellId := do
  alloc (.pending ⟨program, hole, (← get).cells.length⟩ previous none)

def start (t : Transformation V) : Run V PUnit :=
  modify fun m => { m with started := m.started ++ [(t.hole, t.origin)] }

def settle (c : CellId) (v : V) : Run V PUnit :=
  modify fun m => { m with cells := m.cells.modify c fun
    | .pending t previous _ => .pending t previous (some v)
    | cell => cell }

def runProgram (read : Frame → Text → Run V V) :
    Frame → Program V → StateM (Machine V) (Except Text V × Frame)
  | f, .value v => return (.ok v, f)
  | f, .panic message => return (.error message, f)
  | f, .get hole next => do
    match ← (read f hole).run with
    | .ok v => runProgram read f (next v)
    | .error message => return (.error message, f)
  | f, .set hole v next => do
    let c ← alloc (.concrete v)
    runProgram read (f.bind hole (some c)) next

/-- The value of a hole. A transformation runs on a frame in which its own hole holds what it
replaces, so each step down has one transformation less ahead of it; the fuel counts them. -/
def force (zero : Text → V) : (fuel : Nat) → Frame → Text → Run V V
  | fuel, f, hole =>
    match f.find? hole with
    | none => return zero hole
    | some c => do
      match ← cell? c with
      | none => return zero hole
      | some (.concrete v) => return v
      | some (.pending _ _ (some v)) => return v
      | some (.pending t previous none) =>
        match fuel with
        | 0 => return zero hole
        | fuel + 1 => do
          start t
          -- what the program sets is seen by its own reads only
          let (result, _) ← liftM (runProgram (force zero fuel) (f.bind hole previous) t.program)
          let v ← result
          settle c v
          return v

def bound (f : Frame) (m : Machine V) : Nat :=
  f.holes.length * m.cells.length

def read (zero : Text → V) (f : Frame) (hole : Text) : Run V V := do
  force zero (bound f (← get)) f hole

/-- A copy of a chain of cells in which no transformation has run. Concrete cells are shared. A cell
comes after the one it replaces, so the chain is no longer than its first cell is late. -/
def freshWithin : (fuel : Nat) → Option CellId → Run V (Option CellId)
  | _, none => return none
  | 0, some c => return some c
  | fuel + 1, some c => do
    match ← cell? c with
    | some (.pending t previous _) => do
      let previous ← freshWithin fuel previous
      return some (← alloc (.pending t previous none))
    | _ => return some c

def fresh (c : Option CellId) : Run V (Option CellId) :=
  freshWithin (c.getD 0 + 1) c

def pass (f : Frame) : Run V Frame := do
  let holes ← f.holes.mapM fun (hole, c) => do
    return (hole, (← fresh (some c)).getD c)
  return { holes := holes, inPass := true }

def chainWithin (m : Machine V) : (fuel : Nat) → Option CellId → List Bool
  | _, none => []
  | 0, _ => []
  | fuel + 1, some c =>
    match m.cells[c]? with
    | some cell => cell.isPending :: chainWithin m fuel cell.previous?
    | none => []

def chain (m : Machine V) (c : Option CellId) : List Bool :=
  chainWithin m (m.cells.length + 1) c

end Stencil.Deferred
