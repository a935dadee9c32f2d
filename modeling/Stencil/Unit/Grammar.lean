import Stencil.Unit.Lexeme

namespace Stencil

open Ascii Text

inductive Event where
  | enter
  | leave
  | declare (name : Text)
  | select (base member : Text)
  deriving DecidableEq, Repr

structure Import where
  name : Option Text
  path : Text
  deriving DecidableEq, Repr

def Import.spec (i : Import) : Text :=
  match i.name with
  | some name => name ++ [space] ++ i.path
  | none => i.path

namespace Grammar

structure State where
  rest : List Lexeme
  events : List Event := []

abbrev Parse := StateT State Option

inductive Shape where
  | name (text : Text)
  | selector
  | index
  | literalType
  | type
  | call
  | paren (inner : Shape)
  | other
  deriving DecidableEq

def Shape.unparen : Shape → Shape
  | .paren s => s.unparen
  | s => s

def emit (e : Event) : Parse Unit :=
  modify fun s => { s with events := e :: s.events }

def peek : Parse (Option Lexeme) := do
  return (← get).rest.head?

def peekSecond : Parse (Option Lexeme) := do
  return (← get).rest[1]?

def next : Parse Lexeme := do
  let s ← get
  match s.rest with
  | [] => failure
  | l :: rest =>
    set { s with rest := rest }
    if l = .bad then failure else return l

def isMark (m : String) : Parse Bool := do
  return (← peek) = some (.mark (utf8 m))

def isKeyword (k : String) : Parse Bool := do
  return (← peek) = some (.keyword (utf8 k))

def accept (m : String) : Parse Bool := do
  if ← isMark m then
    let _ ← next
    return true
  return false

def acceptKeyword (k : String) : Parse Bool := do
  if ← isKeyword k then
    let _ ← next
    return true
  return false

def mark (m : String) : Parse Unit := do
  if ← accept m then return () else failure

def keyword (k : String) : Parse Unit := do
  if ← acceptKeyword k then return () else failure

def ensure (b : Bool) : Parse Unit :=
  if b then pure () else failure

def name : Parse Text := do
  match ← next with
  | .name n => return n
  | _ => failure

def string : Parse Text := do
  match ← next with
  | .string s => return s
  | _ => failure

def endStatement : Parse Unit := do
  if ← accept ";" then return ()
  if (← isMark ")") || (← isMark "\x7d") then return () else failure

def inScope {α : Type} (action : Parse α) : Parse α := do
  emit .enter
  let a ← action
  emit .leave
  return a

def declareAll (names : List Text) : Parse Unit :=
  names.forM fun n => emit (.declare n)

def binaryMarks : List Text :=
  ["||", "&&", "==", "!=", "<", "<=", ">", ">=", "+", "-", "|", "^", "*", "/", "%", "<<", ">>",
    "&", "&^"].map utf8

def assignMarks : List Text :=
  ["=", ":=", "+=", "-=", "*=", "/=", "%=", "&=", "|=", "^=", "<<=", ">>=", "&^="].map utf8

def unaryMarks : List Text :=
  ["+", "-", "!", "^", "&", "*", "<-", "~"].map utf8

def isBinary : Option Lexeme → Bool
  | some (.mark m) => binaryMarks.contains m
  | _ => false

def startsType : Option Lexeme → Bool
  | some (.name _) => true
  | some (.keyword k) => ["func", "struct", "interface", "map", "chan"].map utf8 |>.contains k
  | some (.mark m) => ["(", "[", "*", "<-"].map utf8 |>.contains m
  | _ => false

inductive Simple where
  | expr (s : Shape)
  | range
  | label
  | other
  deriving DecidableEq

structure Param where
  name : Option Text
  plain : Option Text

/-- The names that a parameter list declares. Either all parameters have names or none has; a name
without a type shares the type that follows. -/
def paramNames? (params : List Param) : Option (List Text) :=
  if params.all (·.name.isNone) then some []
  else if (params.getLast?.any (·.name.isNone)) then none
  else params.mapM fun p => p.name <|> p.plain

mutual

def typeExpr : Nat → Parse Shape
  | 0 => failure
  | n + 1 => do
    match ← peek with
    | some (.name _) => typeName n
    | some (.mark _) =>
      if ← accept "*" then
        let _ ← typeExpr n
        return .type
      else if ← accept "(" then
        let s ← typeExpr n
        mark ")"
        return .paren s
      else if ← accept "<-" then
        keyword "chan"
        let _ ← typeExpr n
        return .type
      else if ← isMark "[" then arrayType n
      else failure
    | some (.keyword _) =>
      if ← isKeyword "func" then
        let _ ← next
        let _ ← signature n
        return .type
      else if ← acceptKeyword "struct" then structType n
      else if ← acceptKeyword "interface" then interfaceType n
      else if ← acceptKeyword "map" then
        mark "["
        let _ ← typeExpr n
        mark "]"
        let _ ← typeExpr n
        return .literalType
      else if ← acceptKeyword "chan" then
        let _ ← accept "<-"
        let _ ← typeExpr n
        return .type
      else failure
    | _ => failure

def typeName : Nat → Parse Shape
  | 0 => failure
  | n + 1 => do
    let base ← name
    let shape ← if ← accept "." then
        let member ← name
        emit (.select base member)
        pure Shape.selector
      else pure (Shape.name base)
    if ← isMark "[" then
      if (← peekSecond) = some (.mark (utf8 "]")) then return shape
      mark "["
      typeArgs n
      return .index
    return shape

def typeArgs : Nat → Parse Unit
  | 0 => failure
  | n + 1 => do
    let _ ← typeExpr n
    if ← accept "," then
      if ← accept "]" then return ()
      typeArgs n
    else mark "]"

def arrayType : Nat → Parse Shape
  | 0 => failure
  | n + 1 => do
    mark "["
    if ← accept "]" then
      let _ ← typeExpr n
      return .literalType
    if ← accept "..." then pure ()
    else
      let _ ← expr n true
    mark "]"
    let _ ← typeExpr n
    return .literalType

def structType : Nat → Parse Shape
  | 0 => failure
  | n + 1 => do
    mark "\x7b"
    fields n
    return .literalType

def fields : Nat → Parse Unit
  | 0 => failure
  | n + 1 => do
    if ← accept "\x7d" then return ()
    field n
    if let some (.string _) ← peek then
      let _ ← next
    endStatement
    fields n

def field : Nat → Parse Unit
  | 0 => failure
  | n + 1 => do
    match ← peek with
    | some (.mark _) =>
      mark "*"
      let _ ← typeName n
    | some (.name _) =>
      match ← peekSecond with
      | some (.mark m) =>
        if m = [dot] || m = [semicolon] || m = [closeBrace] then
          let _ ← typeName n
        else if m = [openBracket] then
          (do let _ ← name
              let _ ← typeExpr n) <|> (do let _ ← typeName n)
        else do
          fieldNames n
          let _ ← typeExpr n
      | some (.string _) => let _ ← typeName n
      | _ =>
        fieldNames n
        let _ ← typeExpr n
    | _ => failure

def fieldNames : Nat → Parse Unit
  | 0 => failure
  | n + 1 => do
    let _ ← name
    if ← accept "," then fieldNames n

def interfaceType : Nat → Parse Shape
  | 0 => failure
  | n + 1 => do
    mark "\x7b"
    interfaceElements n
    return .type

def interfaceElements : Nat → Parse Unit
  | 0 => failure
  | n + 1 => do
    if ← accept "\x7d" then return ()
    let isMethod : Bool := match ← peek, ← peekSecond with
      | some (.name _), some (.mark m) => m = [openParen]
      | _, _ => false
    if isMethod then
      let _ ← name
      let _ ← signature n
    else typeUnion n
    endStatement
    interfaceElements n

def typeUnion : Nat → Parse Unit
  | 0 => failure
  | n + 1 => do
    let _ ← accept "~"
    let _ ← typeExpr n
    if ← accept "|" then typeUnion n

def signature : Nat → Parse (List Text)
  | 0 => failure
  | n + 1 => do
    let params ← parameters n
    if ← isMark "(" then return params ++ (← parameters n)
    if startsType (← peek) then
      let _ ← typeExpr n
    return params

def parameters : Nat → Parse (List Text)
  | 0 => failure
  | n + 1 => do
    mark "("
    let params ← paramList n
    match paramNames? params with
    | some names => return names
    | none => failure

def paramList : Nat → Parse (List Param)
  | 0 => failure
  | n + 1 => do
    if ← accept ")" then return []
    let p ← param n
    if ← accept "," then return p :: (← paramList n)
    mark ")"
    return [p]

def param : Nat → Parse Param
  | 0 => failure
  | n + 1 => do
    if ← accept "..." then
      let _ ← typeExpr n
      return ⟨none, none⟩
    let named : Parse Param := do
      let id ← name
      let _ ← accept "..."
      let _ ← typeExpr n
      return ⟨some id, none⟩
    match ← peek, ← peekSecond with
    | some (.name _), some (.mark m) =>
      if m = [comma] || m = [closeParen] then return ⟨none, some (← name)⟩
      else if m = [dot] then
        let _ ← typeExpr n
        return ⟨none, none⟩
      else if m = [openBracket] then
        (do let _ ← typeName n
            if (← isMark ",") || (← isMark ")") then return ⟨none, none⟩ else failure) <|> named
      else named
    | some (.name _), _ => named
    | _, _ =>
      let _ ← typeExpr n
      return ⟨none, none⟩

def typeParams : Nat → Parse (List Text)
  | 0 => failure
  | n + 1 => do
    let names ← typeParamNames n
    typeUnion n
    if ← accept "," then
      if ← accept "]" then return names
      return names ++ (← typeParams n)
    mark "]"
    return names

def typeParamNames : Nat → Parse (List Text)
  | 0 => failure
  | n + 1 => do
    let id ← name
    if ← accept "," then return id :: (← typeParamNames n)
    return [id]

def expr : Nat → (open_ : Bool) → Parse Shape
  | 0, _ => failure
  | n + 1, open_ => do
    let first ← unary n open_
    if isBinary (← peek) then
      let _ ← next
      let _ ← expr n open_
      return .other
    return first

def unary : Nat → Bool → Parse Shape
  | 0, _ => failure
  | n + 1, open_ => do
    match ← peek with
    | some (.mark m) =>
      if m = utf8 "<-" then
        let _ ← next
        if ← acceptKeyword "chan" then
          let _ ← typeExpr n
          return .type
        let _ ← unary n open_
        return .other
      else if unaryMarks.contains m then
        let _ ← next
        let _ ← unary n open_
        return .other
      else primary n open_
    | _ => primary n open_

def primary : Nat → Bool → Parse Shape
  | 0, _ => failure
  | n + 1, open_ => do
    let shape ← operand n
    suffixes n open_ shape

def operand : Nat → Parse Shape
  | 0 => failure
  | n + 1 => do
    match ← peek with
    | some (.name id) =>
      let _ ← next
      return .name id
    | some (.number _) | some (.string _) =>
      let _ ← next
      return .other
    | some (.mark _) =>
      if ← accept "(" then
        let s ← expr n true
        mark ")"
        return .paren s
      else typeExpr n
    | some (.keyword _) =>
      if ← acceptKeyword "func" then
        let names ← signature n
        if ← isMark "\x7b" then
          functionBody n names
          return .other
        return .type
      else typeExpr n
    | _ => failure

def suffixes : Nat → Bool → Shape → Parse Shape
  | 0, _, _ => failure
  | n + 1, open_, shape => do
    if ← accept "." then
      if ← accept "(" then
        if ← acceptKeyword "type" then pure ()
        else
          let _ ← typeExpr n
        mark ")"
        suffixes n open_ .other
      else
        let member ← name
        if let .name base := shape then emit (.select base member)
        suffixes n open_ .selector
    else if ← accept "[" then
      indices n
      suffixes n open_ .index
    else if ← accept "(" then
      arguments n
      suffixes n open_ .call
    else if ← isMark "\x7b" then
      -- in the head of a statement a brace after a name opens the block
      let starts := match shape with
        | .name _ | .selector | .index => open_
        | .literalType => true
        | _ => false
      if starts then
        literalValue n
        suffixes n open_ .other
      else return shape
    else return shape

def indices : Nat → Parse Unit
  | 0 => failure
  | n + 1 => do
    if ← accept ":" then
      if ← accept "]" then return ()
      indices n
    else
      let _ ← expr n true
      if ← accept "," then
        if ← accept "]" then return ()
        indices n
      else if ← accept ":" then
        if ← accept "]" then return ()
        indices n
      else mark "]"

def arguments : Nat → Parse Unit
  | 0 => failure
  | n + 1 => do
    if ← accept ")" then return ()
    let _ ← expr n true
    let _ ← accept "..."
    if ← accept "," then arguments n else mark ")"

def literalValue : Nat → Parse Unit
  | 0 => failure
  | n + 1 => do
    mark "\x7b"
    elements n

def elements : Nat → Parse Unit
  | 0 => failure
  | n + 1 => do
    if ← accept "\x7d" then return ()
    element n
    if ← accept ":" then element n
    if ← accept "," then elements n else mark "\x7d"

def element : Nat → Parse Unit
  | 0 => failure
  | n + 1 => do
    if ← isMark "\x7b" then literalValue n
    else
      let _ ← expr n true

def functionBody : Nat → List Text → Parse Unit
  | 0, _ => failure
  | n + 1, names => inScope do
    declareAll names
    mark "\x7b"
    statements n
    mark "\x7d"

def block : Nat → Parse Unit
  | 0 => failure
  | n + 1 => inScope do
    mark "\x7b"
    statements n
    mark "\x7d"

def statements : Nat → Parse Unit
  | 0 => failure
  | n + 1 => do
    if (← isMark "\x7d") || (← isKeyword "case") || (← isKeyword "default") then return ()
    statement n
    if ← isMark "\x7d" then return ()
    mark ";"
    statements n

def exprs : Nat → Bool → Parse (List Shape)
  | 0, _ => failure
  | n + 1, open_ => do
    let s ← expr n open_
    if ← accept "," then return s :: (← exprs n open_)
    return [s]

def simple : Nat → (open_ loop : Bool) → Parse Simple
  | 0, _, _ => failure
  | n + 1, open_, loop => do
    let left ← exprs n open_
    match ← peek with
    | some (.mark m) =>
      if assignMarks.contains m then
        let _ ← next
        let isRange ← if loop && (m = utf8 ":=" || m = [equal]) then acceptKeyword "range" else pure false
        if isRange then
          let _ ← expr n open_
        else
          let _ ← exprs n open_
        if m = utf8 ":=" then
          match left.mapM fun
            | .name id => some id
            | _ => none with
          | some names => declareAll names
          | none => failure
        else ensure (m = [equal] || left.length = 1)
        return if isRange then .range else .other
      else if m = [colon] && !loop && open_ then
        match left with
        | [.name _] =>
          let _ ← next
          return .label
        | _ => failure
      else if m = utf8 "++" || m = utf8 "--" then
        let _ ← next
        ensure (left.length = 1)
        return .other
      else if m = utf8 "<-" then
        let _ ← next
        let _ ← expr n open_
        ensure (left.length = 1)
        return .other
      else match left with
        | [s] => return .expr s
        | _ => failure
    | _ => match left with
      | [s] => return .expr s
      | _ => failure

def statement : Nat → Parse Unit
  | 0 => failure
  | n + 1 => do
    match ← peek with
    | some (.keyword k) =>
      if k = utf8 "var" || k = utf8 "const" || k = utf8 "type" then declaration n
      else if k = utf8 "go" || k = utf8 "defer" then
        let _ ← next
        match ← expr n true with
        | .call => return ()
        | _ => failure
      else if ← acceptKeyword "return" then
        if (← isMark ";") || (← isMark "\x7d") then return ()
        let _ ← exprs n true
      else if k = utf8 "break" || k = utf8 "continue" then
        let _ ← next
        if let some (.name _) ← peek then
          let _ ← next
      else if ← acceptKeyword "goto" then
        let _ ← name
      else if ← acceptKeyword "fallthrough" then return ()
      else if k = utf8 "if" then ifStatement n
      else if k = utf8 "switch" then switchStatement n
      else if k = utf8 "select" then
        let _ ← next
        mark "\x7b"
        selectClauses n
      else if k = utf8 "for" then forStatement n
      else simpleStatement n
    | some (.mark m) =>
      if m = [openBrace] then block n
      else if m = [semicolon] || m = [closeBrace] then return ()
      else simpleStatement n
    | some _ => simpleStatement n
    | none => failure

def simpleStatement : Nat → Parse Unit
  | 0 => failure
  | n + 1 => do
    match ← simple n true false with
    | .label =>
      if ← isMark "\x7d" then return ()
      statement n
    | _ => return ()

def head : Nat → Parse (Option Simple)
  | 0 => failure
  | n + 1 => do
    if ← isMark "\x7b" then return none
    let first ← if ← isMark ";" then pure none else some <$> simple n false false
    if ← accept ";" then
      if ← isMark "\x7b" then return none
      return some (← simple n false false)
    return first

def ifStatement : Nat → Parse Unit
  | 0 => failure
  | n + 1 => inScope do
    keyword "if"
    match ← head n with
    | some (.expr _) => pure ()
    | _ => failure
    block n
    if ← acceptKeyword "else" then
      if ← isKeyword "if" then ifStatement n else block n

def switchStatement : Nat → Parse Unit
  | 0 => failure
  | n + 1 => inScope do
    keyword "switch"
    let _ ← head n
    mark "\x7b"
    clauses n

def clauses : Nat → Parse Unit
  | 0 => failure
  | n + 1 => do
    if ← accept "\x7d" then return ()
    if ← acceptKeyword "default" then pure ()
    else
      keyword "case"
      let _ ← exprs n true
    mark ":"
    inScope (statements n)
    clauses n

def selectClauses : Nat → Parse Unit
  | 0 => failure
  | n + 1 => do
    if ← accept "\x7d" then return ()
    inScope do
      if ← acceptKeyword "default" then pure ()
      else
        keyword "case"
        let _ ← simple n true true
      mark ":"
      statements n
    selectClauses n

def forStatement : Nat → Parse Unit
  | 0 => failure
  | n + 1 => inScope do
    keyword "for"
    if ← isMark "\x7b" then block n
    else if ← acceptKeyword "range" then
      let _ ← expr n false
      block n
    else
      let first ← if ← isMark ";" then pure none else some <$> simple n false true
      if first = some .range then block n
      else if ← accept ";" then
        if !(← isMark ";") then
          let _ ← simple n false false
        mark ";"
        if !(← isMark "\x7b") then
          let _ ← simple n false false
        block n
      else
        match first with
        | some (.expr _) => block n
        | _ => failure

def declaration : Nat → Parse Unit
  | 0 => failure
  | n + 1 => do
    let k ← next
    let spec (first : Bool) : Parse Unit :=
      if k = .keyword (utf8 "type") then typeSpec n
      else valueSpec n (k = .keyword (utf8 "const")) first
    if ← accept "(" then specGroup n k true else spec true

def specGroup : Nat → Lexeme → Bool → Parse Unit
  | 0, _, _ => failure
  | n + 1, k, first => do
    if ← accept ")" then return ()
    if k = .keyword (utf8 "type") then typeSpec n
    else valueSpec n (k = .keyword (utf8 "const")) first
    endStatement
    specGroup n k false

def valueSpec : Nat → (isConst first : Bool) → Parse Unit
  | 0, _, _ => failure
  | n + 1, isConst, first => do
    let names ← typeParamNames n
    let typed := startsType (← peek)
    if typed then
      let _ ← typeExpr n
    let valued ← accept "="
    if valued then
      let _ ← exprs n true
    ensure (if isConst then valued || (!first && !typed) else valued || typed)
    declareAll names

def typeSpec : Nat → Parse Unit
  | 0 => failure
  | n + 1 => do
    let id ← name
    emit (.declare id)
    let generic : Parse Unit := inScope do
      mark "["
      let names ← typeParams n
      declareAll names
      let _ ← accept "="
      let _ ← typeExpr n
    let ordinary : Parse Unit := do
      let _ ← accept "="
      let _ ← typeExpr n
    if ← isMark "[" then generic <|> ordinary else ordinary

def functionDeclaration : Nat → Parse Unit
  | 0 => failure
  | n + 1 => do
    keyword "func"
    let receiver ← if ← isMark "(" then some <$> parameters n else pure none
    let id ← name
    if receiver.isNone then emit (.declare id)
    emit .enter
    let generics ← if ← accept "[" then typeParams n else pure []
    ensure (receiver.isNone || generics.isEmpty)
    declareAll generics
    let names ← signature n
    if ← isMark "\x7b" then functionBody n (receiver.getD [] ++ names)
    emit .leave

def declarations : Nat → Parse Unit
  | 0 => failure
  | n + 1 => do
    match ← peek with
    | none => return ()
    | some (.mark _) =>
      mark ";"
      declarations n
    | some (.keyword k) =>
      if k = utf8 "func" then functionDeclaration n
      else if k = utf8 "var" || k = utf8 "const" || k = utf8 "type" then declaration n
      else failure
      if (← peek).isSome then mark ";"
      declarations n
    | some _ => failure

end

def importSpec : Parse Import := do
  let given ← match ← peek with
    | some (.name n) =>
      let _ ← next
      pure (some n)
    | some (.mark m) =>
      if m = [dot] then
        let _ ← next
        pure (some [dot])
      else failure
    | _ => pure none
  let path ← string
  return ⟨given, path⟩

def importGroup : Nat → Parse (List Import)
  | 0 => failure
  | n + 1 => do
    if ← accept ")" then return []
    let i ← importSpec
    endStatement
    return i :: (← importGroup n)

def imports : Nat → Parse (List Import)
  | 0 => failure
  | n + 1 => do
    if ← acceptKeyword "import" then
      let here ← if ← accept "(" then importGroup n else (fun i => [i]) <$> importSpec
      mark ";"
      return here ++ (← imports n)
    return []

def clause (n : Nat) : Parse (List Import) := do
  keyword "package"
  let id ← name
  ensure (id ≠ [underscore])
  mark ";"
  let list ← imports n
  ensure ((← peek) ≠ some .bad)
  return list

structure Reading where
  imports : List Import
  events : List Event

/-- A bound for the depth of reading: every lexeme is reached through a few rules. -/
def bound (lexemes : List Lexeme) : Nat :=
  32 * (lexemes.length + 2)

def read? (source : Text) : Option Reading :=
  let lexemes := Lexeme.ofText source
  let fuel := bound lexemes
  let whole : Parse (List Import) := do
    let list ← clause fuel
    declarations fuel
    return list
  (whole.run { rest := lexemes }).map fun (list, s) => ⟨list, s.events.reverse⟩

def imports? (source : Text) : Option (List Import) :=
  let lexemes := Lexeme.ofText source
  ((clause (bound lexemes)).run { rest := lexemes }).map Prod.fst

end Grammar

end Stencil
