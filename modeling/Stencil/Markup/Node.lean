import Stencil.Text.Basic

namespace Stencil.Markup

structure Attribute where
  ns : Text := []
  key : Text
  value : Text
  deriving DecidableEq, Repr, Inhabited

inductive Node where
  | element (ns tag : Text) (attrs : List Attribute) (children : List Node)
  | text (data : Text)
  | comment (data : Text)
  | doctype (name : Text) (attrs : List Attribute)
  | document (children : List Node)
  | raw (data : Text)
  | error (data : Text)
  deriving Inhabited, Repr

namespace Node

def children : Node → List Node
  | element _ _ _ children => children
  | document children => children
  | _ => []

mutual

def equal : Node → Node → Bool
  | element ns tag attrs children, element ns' tag' attrs' children' =>
    ns == ns' && tag == tag' && attrs == attrs' && equalAll children children'
  | text data, text data' => data == data'
  | comment data, comment data' => data == data'
  | doctype name attrs, doctype name' attrs' => name == name' && attrs == attrs'
  | document children, document children' => equalAll children children'
  | raw data, raw data' => data == data'
  | error data, error data' => data == data'
  | _, _ => false

def equalAll : List Node → List Node → Bool
  | [], [] => true
  | a :: as, b :: bs => equal a b && equalAll as bs
  | _, _ => false

end

end Node

/-- No node stands for the empty text. -/
def textNodes (s : Text) : List Node :=
  if s.isEmpty then [] else [.text s]

end Stencil.Markup
