import Stencil.Markup.Node

namespace Stencil

inductive Label where
  | element (ns tag : Text) (attrs : List Markup.Attribute)
  | text (data : Text)
  | comment (data : Text)
  | doctype (name : Text) (attrs : List Markup.Attribute)
  | document
  | raw (data : Text)
  | error (data : Text)
  deriving DecidableEq, Repr, Inhabited

namespace Label

def toNode (children : List Markup.Node) : Label → Markup.Node
  | .element ns tag attrs => .element ns tag attrs children
  | .text data => .text data
  | .comment data => .comment data
  | .doctype name attrs => .doctype name attrs
  | .document => .document children
  | .raw data => .raw data
  | .error data => .error data

def withData (s : Text) : Label → Label
  | .element ns _ attrs => .element ns s attrs
  | .text _ => .text s
  | .comment _ => .comment s
  | .doctype _ attrs => .doctype s attrs
  | .document => .document
  | .raw _ => .raw s
  | .error _ => .error s

end Label

abbrev NodeId := Nat

inductive AccessFault where
  | outOfRange (index : Int) (size : Nat)
  | gap
  | attached
  deriving DecidableEq, Repr

def AccessFault.message : AccessFault → Text
  | .outOfRange index size =>
    utf8 "runtime error: index out of range [" ++ Text.ofInt index ++ utf8 "]" ++
      if index < 0 then [] else utf8 " with length " ++ Text.ofNat size
  | .gap => utf8 "runtime error: invalid memory address or nil pointer dereference"
  | .attached => utf8 "html: AppendChild called for an attached child Node"

structure Cell where
  label : Label
  parent : Option NodeId := none
  firstChild : Option NodeId := none
  lastChild : Option NodeId := none
  prev : Option NodeId := none
  next : Option NodeId := none
  deriving Repr, Inhabited

def Cell.isAttached (c : Cell) : Bool :=
  c.parent.isSome || c.prev.isSome || c.next.isSome

structure Forest where
  cells : List Cell := []

namespace Forest

def get? (f : Forest) (n : NodeId) : Option Cell :=
  f.cells[n]?

def size (f : Forest) : Nat :=
  f.cells.length

def modify (f : Forest) (n : NodeId) (g : Cell → Cell) : Forest :=
  ⟨f.cells.modify n g⟩

def add (f : Forest) (label : Label) : NodeId × Forest :=
  (f.size, ⟨f.cells ++ [{ label := label }]⟩)

def hasParent (f : Forest) (n : NodeId) : Bool :=
  (f.get? n).any (·.parent.isSome)

def isAttached (f : Forest) (n : NodeId) : Bool :=
  (f.get? n).any Cell.isAttached

def attach (f : Forest) (parent child : NodeId) : Except AccessFault Forest :=
  if f.isAttached child then .error .attached
  else
    let last := (f.get? parent).bind Cell.lastChild
    let f := match last with
      | some sibling => f.modify sibling fun c => { c with next := some child }
      | none => f.modify parent fun c => { c with firstChild := some child }
    let f := f.modify parent fun c => { c with lastChild := some child }
    .ok (f.modify child fun c => { c with parent := some parent, prev := last })

def siblingsFrom (f : Forest) : (fuel : Nat) → Option NodeId → List NodeId
  | 0, _ => []
  | _, none => []
  | fuel + 1, some n => n :: siblingsFrom f fuel ((f.get? n).bind Cell.next)

def childrenOf (f : Forest) (n : NodeId) : List NodeId :=
  f.siblingsFrom f.size ((f.get? n).bind Cell.firstChild)

def toNodeWithin (f : Forest) : (fuel : Nat) → NodeId → Markup.Node
  | 0, _ => .error []
  | fuel + 1, n =>
    match f.get? n with
    | some c => c.label.toNode ((f.childrenOf n).map (f.toNodeWithin fuel))
    | none => .error []

def toNode (f : Forest) (n : NodeId) : Markup.Node :=
  f.toNodeWithin f.size n

def cloneWithin : (fuel : Nat) → Forest → NodeId → Except AccessFault (NodeId × Forest)
  | 0, f, _ => .ok (f.add (.error []))
  | fuel + 1, f, n =>
    match f.get? n with
    | none => .ok (f.add (.error []))
    | some c => do
      let (copy, g) := f.add c.label
      let g ← (f.childrenOf n).foldlM (fun g child => do
        let (k, g) ← cloneWithin fuel g child
        g.attach copy k) g
      return (copy, g)

def clone (f : Forest) (n : NodeId) : Except AccessFault (NodeId × Forest) :=
  cloneWithin f.size f n

/-- Puts a node under another. A node that is attached stays where it is, and a copy of it is put
there. -/
def append (f : Forest) (parent child : NodeId) : Except AccessFault Forest :=
  if f.isAttached child then do
    let (copy, f) ← f.clone child
    f.attach parent copy
  else f.attach parent child

mutual

def addTree (f : Forest) : Markup.Node → Except AccessFault (NodeId × Forest)
  | .element ns tag attrs children => addRoot f (.element ns tag attrs) children
  | .document children => addRoot f .document children
  | .text data => .ok (f.add (.text data))
  | .comment data => .ok (f.add (.comment data))
  | .doctype name attrs => .ok (f.add (.doctype name attrs))
  | .raw data => .ok (f.add (.raw data))
  | .error data => .ok (f.add (.error data))

def addRoot (f : Forest) (label : Label) (children : List Markup.Node) :
    Except AccessFault (NodeId × Forest) := do
  let (root, f) := f.add label
  return (root, ← addChildren f root children)

def addChildren (f : Forest) (parent : NodeId) : List Markup.Node → Except AccessFault Forest
  | [] => .ok f
  | c :: rest => do
    let (child, f) ← addTree f c
    addChildren (← f.attach parent child) parent rest

end

end Forest

end Stencil
