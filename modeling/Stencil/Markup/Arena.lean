import Stencil.Markup.Node

namespace Stencil.Markup

inductive Label where
  | element (ns tag : Text) (attrs : List Attribute)
  | text (data : Text)
  | comment (data : Text)
  | doctype (name : Text) (attrs : List Attribute)
  | document
  deriving Inhabited, Repr

structure Entry where
  label : Label
  parent : Option Nat := none
  children : List Nat := []
  deriving Inhabited

structure Arena where
  entries : Array Entry
  deriving Inhabited

namespace Arena

def empty : Arena := ⟨#[{ label := .document }]⟩

def size (a : Arena) : Nat := a.entries.size

def get? (a : Arena) (n : Nat) : Option Entry := a.entries[n]?

def label? (a : Arena) (n : Nat) : Option Label := (a.get? n).map (·.label)

def tag (a : Arena) (n : Nat) : Text :=
  match a.label? n with
  | some (.element _ tag _) => tag
  | _ => []

def ns (a : Arena) (n : Nat) : Text :=
  match a.label? n with
  | some (.element ns _ _) => ns
  | _ => []

def attrs (a : Arena) (n : Nat) : List Attribute :=
  match a.label? n with
  | some (.element _ _ attrs) => attrs
  | _ => []

def isText (a : Arena) (n : Nat) : Bool :=
  match a.label? n with
  | some (.text _) => true
  | _ => false

def parent? (a : Arena) (n : Nat) : Option Nat := (a.get? n).bind (·.parent)

def children (a : Arena) (n : Nat) : List Nat := ((a.get? n).map (·.children)).getD []

def add (a : Arena) (label : Label) : Nat × Arena := (a.size, ⟨a.entries.push { label }⟩)

def update (a : Arena) (n : Nat) (f : Entry → Entry) : Arena := ⟨a.entries.modify n f⟩

def append (a : Arena) (parent child : Nat) : Arena :=
  (a.update parent fun e => { e with children := e.children ++ [child] }).update child
    fun e => { e with parent := some parent }

def insertBefore (a : Arena) (parent child before : Nat) : Arena :=
  (a.update parent fun e =>
      { e with children := e.children.takeWhile (· != before) ++
                 child :: e.children.dropWhile (· != before) }).update child
    fun e => { e with parent := some parent }

def detach (a : Arena) (child : Nat) : Arena :=
  match a.parent? child with
  | none => a
  | some parent =>
    (a.update parent fun e => { e with children := e.children.filter (· != child) }).update child
      fun e => { e with parent := none }

def moveChildren (a : Arena) (target source : Nat) : Arena :=
  (a.children source).foldl (fun a child => (a.detach child).append target child) a

def extendText (a : Arena) (n : Nat) (more : Text) : Arena :=
  a.update n fun e => match e.label with
    | .text data => { e with label := .text (data ++ more) }
    | _ => e

def previous? (a : Arena) (child : Nat) : Option Nat :=
  (a.parent? child).bind fun parent => ((a.children parent).takeWhile (· != child)).getLast?

def toNode (a : Arena) : (depth : Nat) → Nat → Node
  | 0, _ => .text []
  | depth + 1, n =>
    match a.label? n with
    | some (.element ns tag attrs) => .element ns tag attrs ((a.children n).map (a.toNode depth))
    | some (.text data) => .text data
    | some (.comment data) => .comment data
    | some (.doctype name attrs) => .doctype name attrs
    | some .document => .document ((a.children n).map (a.toNode depth))
    | none => .text []

def forest (a : Arena) (n : Nat) : List Node := (a.children n).map (a.toNode a.size)

end Arena

end Stencil.Markup
