import Stencil.Unit.Component

namespace Stencil

open Ascii Text

def tabs (n : Nat) : Text :=
  List.replicate n tab

def Text.padRight (width : Nat) (s : Text) : Text :=
  s ++ List.replicate (width - s.length) space

namespace Expr

mutual

def layout (depth : Nat) (tight : Bool) : Expr → Text
  | .quoted s => Text.quoted s
  | .add l r => layout depth tight l ++ (if tight then utf8 "+" else utf8 " + ") ++ layout depth true r
  | .read hole => getter hole
  | .callString f args =>
    utf8 "runtime.CallString(" ++ layout depth true f ++ utf8 ", " ++ arguments args ++ utf8 ")"
  | .callFragment f args =>
    utf8 "runtime.CallHTML(" ++ layout depth true f ++ utf8 ", " ++ arguments args ++ utf8 ")"
  | .text e => utf8 "vdom.Text(" ++ layout depth tight e ++ utf8 ")"
  | .comment data => utf8 "vdom.Comment(" ++ Text.quoted data ++ utf8 ")"
  | .doctype name attrs =>
    utf8 "vdom.Doctype(" ++ Text.quoted name ++ utf8 ", " ++ layout depth true attrs ++ utf8 ")"
  | .element ns tag attrs children =>
    elementHead ns tag ++ layout depth true attrs ++
      (if children.isEmpty then utf8 ")"
      else utf8 ",\n" ++ layoutLines (depth + 1) true children ++ tabs depth ++ utf8 ")")
  | .concat parts =>
    utf8 "vdom.Concat(\n" ++ layoutLines (depth + 1) (tight || parts.length > 1) parts ++ tabs depth ++
      utf8 ")"
  | .cloneAll e => utf8 "vdom.CloneAll(" ++ layout depth tight e ++ utf8 ")"
  | .nil => utf8 "nil"
  | .attributes items => utf8 "[]html.Attribute\x7b" ++ layoutItems depth items ++ utf8 "\x7d"
  | .item ns key value => itemHead ns key ++ layout depth false value ++ utf8 "\x7d"
  | .bound name => name.name
  | .unlessEmpty name value isString result =>
    utf8 "func() []*html.Node \x7b\n" ++
      tabs (depth + 1) ++ name.name ++ utf8 " := " ++ layout (depth + 1) false value ++ [newline] ++
      tabs (depth + 1) ++ utf8 "if " ++ emptyTest name isString ++ utf8 " \x7b\n" ++
      tabs (depth + 2) ++ utf8 "return nil\n" ++ tabs (depth + 1) ++ utf8 "\x7d\n" ++
      tabs (depth + 1) ++ utf8 "return " ++ layout (depth + 1) false result ++ [newline] ++
      tabs depth ++ utf8 "\x7d()"

def layoutLines (depth : Nat) (tight : Bool) : List Expr → Text
  | [] => []
  | e :: rest => tabs depth ++ layout depth tight e ++ utf8 ",\n" ++ layoutLines depth tight rest

def layoutItems (depth : Nat) : List Expr → Text
  | [] => []
  | [e] => layout depth false e
  | e :: rest => layout depth false e ++ utf8 ", " ++ layoutItems depth rest

end

end Expr

namespace Row

structure Spread where
  last : Nat
  product : Nat
  count : Nat

/-- Whether a key starts a new column: if it or the key before it is longer than forty bytes and its
size is off the geometric mean of the column by a factor of two and a half or more. -/
def Spread.breaks (s : Spread) (size : Nat) : Bool :=
  if s.count = 0 || (s.last ≤ 40 && size ≤ 40) then false
  -- the mean is the root of the product, so both sides are raised to the power of the count
  else Nat.pow (5 * size) s.count ≤ s.product * Nat.pow 2 s.count ||
    s.product * Nat.pow 5 s.count ≤ Nat.pow (2 * size) s.count

def columns (s : Spread) : List (Text × Text) → List (List (Text × Text))
  | [] => []
  | (key, value) :: rest =>
    let size := key.length
    if s.breaks size then
      [] :: match columns ⟨size, size, 1⟩ rest with
        | column :: more => ((key, value) :: column) :: more
        | [] => [[(key, value)]]
    else match columns ⟨size, s.product * size, s.count + 1⟩ rest with
      | column :: more => ((key, value) :: column) :: more
      | [] => [[(key, value)]]

def aligned (depth : Nat) (ending close : Text) (pairs : List (Text × Text)) : Text :=
  let width := (pairs.map (·.1.length)).foldl max 0 + ending.length + 1
  pairs.flatMap fun (name, value) =>
    tabs depth ++ padRight width (name ++ ending) ++ value ++ close ++ [newline]

def curly : Text → Text
  | 39 :: 39 :: rest => encode 0x201D ++ curly rest
  | 96 :: 96 :: 96 :: rest => 96 :: 96 :: 96 :: skipQuotes rest
  | 96 :: 96 :: rest => encode 0x201C ++ curly rest
  | c :: rest => c :: curly rest
  | [] => []
where
  skipQuotes : Text → Text
    | 96 :: rest => 96 :: skipQuotes rest
    | c :: rest => c :: curly rest
    | [] => []

def isComment (s : Text) : Bool :=
  startsWith s (utf8 "//")

def layoutOne : Row → Text
  | .blank => [newline]
  | .line depth text =>
    tabs depth ++ (if isComment text then text.filter (· ≠ carriageReturn) else text) ++ [newline]
  | .doc text => utf8 "// " ++ curly (text.filter (· ≠ carriageReturn)) ++ [newline]
  | .field name type => aligned 1 [] [] [(name, type)]
  | .entry key value => aligned 2 (utf8 ":") (utf8 ",") [(key, value)]
  | .build depth lead e => tabs depth ++ lead ++ e.layout depth false ++ [newline]

def takeFields : List Row → List (Text × Text) × List Row
  | .field name type :: rest =>
    let (more, rest) := takeFields rest
    ((name, type) :: more, rest)
  | rows => ([], rows)

def takeEntries : List Row → List (Text × Text) × List Row
  | .entry key value :: rest =>
    let (more, rest) := takeEntries rest
    ((key, value) :: more, rest)
  | rows => ([], rows)

def layoutRows : (fuel : Nat) → List Row → Text
  | 0, _ => []
  | _, [] => []
  | fuel + 1, row :: rest =>
    match row with
    | .field .. =>
      let (pairs, rest) := takeFields (row :: rest)
      aligned 1 [] [] pairs ++ layoutRows fuel rest
    | .entry .. =>
      let (pairs, rest) := takeEntries (row :: rest)
      (columns ⟨0, 1, 0⟩ pairs).flatMap (aligned 2 (utf8 ":") (utf8 ",")) ++ layoutRows fuel rest
    | row => layoutOne row ++ layoutRows fuel rest

def layoutOf (rows : List Row) : Text :=
  layoutRows (rows.length + 1) rows

end Row

end Stencil
