import Stencil.Template.Document

namespace Stencil

open Ascii Text

inductive Local where
  | children
  | value
  deriving DecidableEq, Repr

def Local.name : Local → Text
  | .children => utf8 "children"
  | .value => utf8 "v"

inductive Expr where
  | quoted (text : Text)
  | add (left right : Expr)
  | read (hole : Text)
  | callString (function : Expr) (args : List Text)
  | callFragment (function : Expr) (args : List Text)
  | text (value : Expr)
  | comment (data : Text)
  | doctype (name : Text) (attrs : Expr)
  | element (ns tag : Text) (attrs : Expr) (children : List Expr)
  | concat (parts : List Expr)
  | cloneAll (nodes : Expr)
  | nil
  | attributes (items : List Expr)
  | item (ns key : Text) (value : Expr)
  | bound (name : Local)
  /-- Binds a value to a name, gives nothing if that is empty and the result otherwise. A string is
  empty if it equals the empty one, a list if it has no members. -/
  | unlessEmpty (name : Local) (value : Expr) (isString : Bool) (result : Expr)
  deriving Inhabited, Repr

namespace Expr

def holeName : Text → Text
  | [] => []
  | c :: rest => Ascii.toUpper c :: rest

def getter (hole : Text) : Text :=
  utf8 "s.Get" ++ holeName hole ++ utf8 "()"

def arguments (args : List Text) : Text :=
  joinWith (utf8 ", ") (args.map Text.quoted)

def emptyTest (name : Local) (isString : Bool) : Text :=
  if isString then name.name ++ utf8 " == \"\""
  else utf8 "len(" ++ name.name ++ utf8 ") == 0"

def itemHead (ns key : Text) : Text :=
  utf8 "\x7b" ++ (if ns.isEmpty then [] else utf8 "Namespace: " ++ Text.quoted ns ++ utf8 ", ") ++
    utf8 "Key: " ++ Text.quoted key ++ utf8 ", Val: "

def elementHead (ns tag : Text) : Text :=
  if ns.isEmpty then utf8 "vdom.Element(" ++ Text.quoted tag ++ utf8 ", "
  else utf8 "vdom.ElementNS(" ++ Text.quoted ns ++ utf8 ", " ++ Text.quoted tag ++ utf8 ", "

mutual

def source : Expr → Text
  | .quoted s => Text.quoted s
  | .add l r => source l ++ utf8 " + " ++ source r
  | .read hole => getter hole
  | .callString f args =>
    utf8 "runtime.CallString(" ++ source f ++ utf8 ", " ++ arguments args ++ utf8 ")"
  | .callFragment f args =>
    utf8 "runtime.CallHTML(" ++ source f ++ utf8 ", " ++ arguments args ++ utf8 ")"
  | .text e => utf8 "vdom.Text(" ++ source e ++ utf8 ")"
  | .comment data => utf8 "vdom.Comment(" ++ Text.quoted data ++ utf8 ")"
  | .doctype name attrs =>
    utf8 "vdom.Doctype(" ++ Text.quoted name ++ utf8 ", " ++ source attrs ++ utf8 ")"
  | .element ns tag attrs children =>
    elementHead ns tag ++ source attrs ++ sourceLines children ++
      (if children.isEmpty then [] else utf8 ",\n") ++ utf8 ")"
  | .concat parts =>
    utf8 "vdom.Concat(" ++ (sourceLines parts).drop 1 ++ utf8 ",\n)"
  | .cloneAll e => utf8 "vdom.CloneAll(" ++ source e ++ utf8 ")"
  | .nil => utf8 "nil"
  | .attributes items => utf8 "[]html.Attribute\x7b" ++ sourceItems items ++ utf8 "\x7d"
  | .item ns key value => itemHead ns key ++ source value ++ utf8 "\x7d"
  | .bound name => name.name
  | .unlessEmpty name value isString result =>
    utf8 "func() []*html.Node \x7b\n" ++ name.name ++ utf8 " := " ++ source value ++ utf8 "\nif " ++
      emptyTest name isString ++ utf8 " \x7b\nreturn nil\n\x7d\nreturn " ++ source result ++
      utf8 "\n\x7d()"

def sourceLines : List Expr → Text
  | [] => []
  | e :: rest => utf8 ",\n" ++ source e ++ sourceLines rest

def sourceItems : List Expr → Text
  | [] => []
  | [e] => source e
  | e :: rest => source e ++ utf8 ", " ++ sourceItems rest

end

def segment : Segment → Expr
  | .literal s => .quoted s
  | .variable hole => .read hole
  | .call hole args => .callString (.read hole) args

def segments : Segments → Expr
  | [] => .quoted []
  | first :: rest => (rest.map segment).foldl .add (segment first)

def attrs (list : List Attr) : Expr :=
  if list.isEmpty then .nil
  else .attributes (list.map fun a => .item a.ns a.key (segments a.value))

def literalAttrs (list : List Markup.Attribute) : Expr :=
  if list.isEmpty then .nil
  else .attributes (list.map fun a => .item a.ns a.key (.quoted a.value))

/-- The value of a content hole, and whether it is a string. Nodes are cloned, so that a state can
be rendered more than once. -/
def content (symbols : Symbols) (hole : Text) (args : List Text) : Expr × Bool :=
  match symbols.lookup? hole with
  | some .fragment => (.cloneAll (.read hole), false)
  | some .fragmentFunction => (.cloneAll (.callFragment (.read hole) args), false)
  | some .stringFunction => (.callString (.read hole) args, true)
  | _ => (.read hole, true)

def asNodes (e : Expr) (isString : Bool) : Expr :=
  if isString then .text e else e

def siblings : List Expr → Expr
  | [] => .nil
  | [e] => e
  | parts => .concat parts

mutual

def ofTree (symbols : Symbols) : Tree → Expr
  | .data list => .text (segments list)
  | .comment data => .comment data
  | .doctype name list => .doctype name (literalAttrs list)
  | .element ns tag list strip children =>
    let inner := ofTrees symbols children
    match strip with
    | .none => .element ns tag (attrs list) inner
    | .always => siblings inner
    | .ifEmpty =>
      .unlessEmpty .children (siblings inner) false
        (.element ns tag (attrs list) [.bound .children])
  | .hole ns tag list strip name args _ =>
    let (value, isString) := content symbols name args
    match strip with
    | .none => .element ns tag (attrs list) [asNodes value isString]
    | .always => asNodes value isString
    | .ifEmpty =>
      .unlessEmpty .value value isString
        (.element ns tag (attrs list) [asNodes (.bound .value) isString])

def ofTrees (symbols : Symbols) : List Tree → List Expr
  | [] => []
  | t :: rest => ofTree symbols t :: ofTrees symbols rest

end

def ofDocument (symbols : Symbols) (tree : List Tree) : Expr :=
  siblings (ofTrees symbols tree)

end Expr

end Stencil
