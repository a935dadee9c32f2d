import Stencil.Markup.Entity
import Stencil.Markup.Node

namespace Stencil.Markup

inductive Token where
  | text (data : Text)
  | startTag (name : Text) (attrs : List Attribute) (selfClosing : Bool)
  | endTag (name : Text)
  | comment (data : Text)
  | doctype (data : Text)
  deriving Repr, Inhabited

namespace Token

def isSpace : UInt8 → Bool
  | Ascii.space | Ascii.newline | Ascii.carriageReturn | Ascii.tab | Ascii.formFeed => true
  | _ => false

def normalizeNewlines : Text → Text
  | Ascii.carriageReturn :: Ascii.newline :: rest => Ascii.newline :: normalizeNewlines rest
  | Ascii.carriageReturn :: rest => Ascii.newline :: normalizeNewlines rest
  | c :: rest => c :: normalizeNewlines rest
  | [] => []

private def replaceNul (s : Text) : Text := Text.replaceByte Ascii.nul (Text.encode 0xFFFD) s

private def endsName (c : UInt8) : Bool := isSpace c || c == Ascii.slash || c == Ascii.greater

private def dropSpace (s : Text) : Text := s.dropWhile isSpace

private def attributeKey : Text → Text × Text
  | [] => ([], [])
  | c :: rest =>
    if endsName c then ([], c :: rest)
    else
      let more := rest.takeWhile fun d => !(endsName d || d == Ascii.equal)
      (c :: more, rest.drop more.length)

private def attributeValue (s : Text) : Text × Text :=
  match dropSpace s with
  | Ascii.slash :: rest => ([], rest)
  | Ascii.equal :: rest =>
    match dropSpace rest with
    | [] => ([], [])
    | c :: rest =>
      if c == Ascii.greater then ([], c :: rest)
      else if c == Ascii.quote || c == Ascii.apostrophe then
        let value := rest.takeWhile (· != c)
        (value, rest.drop (value.length + 1))
      else
        let value := (c :: rest).takeWhile fun d => !(isSpace d || d == Ascii.greater)
        (value, (c :: rest).drop value.length)
  | rest => ([], rest)

/-- The attributes up to the bracket that ends the tag, and what follows it; none when the source
ends before. Each round takes at least one byte, so the length of the text is fuel enough. -/
private def attributes? : (fuel : Nat) → Text → Option (List (Text × Text) × Text)
  | 0, _ => none
  | fuel + 1, s =>
    match s with
    | [] => none
    | c :: rest =>
      if c == Ascii.greater then some ([], rest)
      else
        let (key, afterKey) := attributeKey (c :: rest)
        let (value, afterValue) := attributeValue afterKey
        (attributes? fuel (dropSpace afterValue)).map fun (more, rest) =>
          (if key.isEmpty then more else (key, value) :: more, rest)

private def tag? (s : Text) : Option (Text × List (Text × Text) × Text) :=
  let name := s.takeWhile fun c => !endsName c
  let rest := dropSpace (s.drop name.length)
  (attributes? (rest.length + 1) rest).map fun (attrs, rest) => (name, attrs, rest)

def rawTextTags : List Text :=
  ["iframe", "noembed", "noframes", "noscript", "plaintext", "script", "style", "textarea", "title",
    "xmp"].map utf8

private def isEndTagOf (name : Text) : Text → Bool
  | Ascii.less :: Ascii.slash :: rest =>
    Ascii.lowercase (rest.take name.length) == name &&
      match rest.drop name.length with
      | c :: _ => endsName c
      | [] => false
  | _ => false

private def untilEndTag (name : Text) : Text → Text × Text
  | [] => ([], [])
  | c :: rest =>
    if isEndTagOf name (c :: rest) then ([], c :: rest)
    else
      let (before, after) := untilEndTag name rest
      (c :: before, after)

private inductive ScriptState where
  | plain
  | escaped (hyphens : Nat)
  | doubleEscaped (hyphens : Nat)

private def scriptTag : Text := utf8 "script"

private def isScriptStart (s : Text) : Bool :=
  Ascii.lowercase (s.take 7) == utf8 "<script" &&
    match s.drop 7 with
    | c :: _ => endsName c
    | [] => false

private def untilScriptEnd : (state : ScriptState) → (skip : Nat) → Text → Text × Text
  | _, _, [] => ([], [])
  | state, skip + 1, c :: rest =>
    let (before, after) := untilScriptEnd state skip rest
    (c :: before, after)
  | state, 0, c :: rest =>
    let go (state : ScriptState) (skip : Nat) : Text × Text :=
      let (before, after) := untilScriptEnd state skip rest
      (c :: before, after)
    let here := c :: rest
    match state with
    | .plain =>
      if isEndTagOf scriptTag here then ([], here)
      else if Text.startsWith here (utf8 "<!--") then go (.escaped 2) 3
      else go .plain 0
    | .escaped hyphens =>
      if c == Ascii.hyphen then go (.escaped (min 2 (hyphens + 1))) 0
      else if c == Ascii.less then
        if isEndTagOf scriptTag here then ([], here)
        else if isScriptStart here then go (.doubleEscaped 0) 7
        else match rest with
          | d :: _ =>
            if d == Ascii.slash || Ascii.isLetter d then go (.escaped 0) 0 else go .plain 0
          | [] => go (.escaped 0) 0
      else if c == Ascii.greater && hyphens == 2 then go .plain 0
      else go (.escaped 0) 0
    | .doubleEscaped hyphens =>
      if c == Ascii.hyphen then go (.doubleEscaped (min 2 (hyphens + 1))) 0
      else if isEndTagOf scriptTag here then go (.escaped 0) 8
      else if c == Ascii.greater && hyphens == 2 then go .plain 0
      else go (.doubleEscaped 0) 0

private def rawText (name s : Text) : Text × Text :=
  if name == utf8 "plaintext" then (s, [])
  else if name == scriptTag then untilScriptEnd .plain 0 s
  else untilEndTag name s

private def hasReferences (name : Text) : Bool := name == utf8 "textarea" || name == utf8 "title"

private def untilMarkup : Text → Text × Text
  | [] => ([], [])
  | c :: rest =>
    let begins := c == Ascii.less && match rest with
      | d :: _ =>
        Ascii.isLetter d || d == Ascii.slash || d == Ascii.exclamation || d == Ascii.question
      | [] => false
    if begins then ([], c :: rest)
    else
      let (before, after) := untilMarkup rest
      (c :: before, after)

private def untilGreater (s : Text) : Text × Text :=
  let before := s.takeWhile (· != Ascii.greater)
  (before, s.drop (before.length + 1))

private def brokenComment (s : Text) : Text :=
  match Text.cutSuffix? (utf8 "--!") s with
  | some t => t
  | none =>
    match Text.cutSuffix? (utf8 "--") s with
    | some t => t
    | none => Text.dropSuffix (utf8 "-") s

private def commentBody : (hyphens : Nat) → (beginning : Bool) → (taken : Text) → Text → Text × Text
  | _, _, taken, [] => (brokenComment taken.reverse, [])
  | hyphens, beginning, taken, c :: rest =>
    if c == Ascii.hyphen then commentBody (hyphens + 1) beginning (c :: taken) rest
    else if c == Ascii.greater && (2 ≤ hyphens || beginning) then
      ((taken.drop 2).reverse, rest)
    else if c == Ascii.exclamation && 2 ≤ hyphens then
      match rest with
      | [] => (brokenComment (c :: taken).reverse, [])
      | d :: rest =>
        if d == Ascii.greater then ((taken.drop 2).reverse, rest)
        else if d == Ascii.hyphen then commentBody 1 false (d :: c :: taken) rest
        else commentBody 0 false (d :: c :: taken) rest
    else commentBody 0 false (c :: taken) rest

private def cdata : (brackets : Nat) → (taken : Text) → Text → Text × Text
  | _, taken, [] => (taken.reverse, [])
  | brackets, taken, c :: rest =>
    if c == Ascii.closeBracket then cdata (brackets + 1) (c :: taken) rest
    else if c == Ascii.greater && 2 ≤ brackets then ((taken.drop 2).reverse, rest)
    else cdata 0 (c :: taken) rest

private inductive KeywordMatch where
  | found (rest : Text)
  | broken
  | other

private def matchKeyword (fold : UInt8 → UInt8) : (keyword s : Text) → KeywordMatch
  | [], s => .found s
  | _ :: _, [] => .broken
  | k :: keyword, c :: s => if fold c == k then matchKeyword fold keyword s else .other

private def commentToken (data : Text) : Token :=
  .comment (Entity.unescape false (replaceNul (normalizeNewlines data)))

private def declaration (allowCData : Bool) (s : Text) : Token × Text :=
  if s.length < 2 then (commentToken s, [])
  else match Text.cutPrefix? (utf8 "--") s with
    | some rest =>
      let (data, rest) := commentBody 0 true [] rest
      (commentToken data, rest)
    | none =>
      let bogus : Token × Text :=
        let (data, rest) := untilGreater s
        (commentToken data, rest)
      match matchKeyword Ascii.toUpper (utf8 "DOCTYPE") s with
      | .found rest =>
        let (data, rest) := untilGreater (dropSpace rest)
        (.doctype (Entity.unescape false (normalizeNewlines data)), rest)
      | .broken => (commentToken [], [])
      | .other =>
        if allowCData then
          match matchKeyword id (utf8 "[CDATA[") s with
          | .found rest =>
            let (data, rest) := cdata 0 [] rest
            (.text (Entity.unescape false (replaceNul (normalizeNewlines data))), rest)
          | .broken => (commentToken [], [])
          | .other => bogus
        else bogus

private def attributeOf (kv : Text × Text) : Attribute where
  key := Ascii.lowercase kv.1
  value := Entity.unescape true (normalizeNewlines kv.2)

structure Reading where
  token : Token
  rawTag : Text := []
  rest : Text

private def startTag? (s : Text) : Option Reading :=
  (tag? (s.drop 1)).map fun (name, attrs, rest) =>
    let name := Ascii.lowercase name
    let taken := s.take (s.length - rest.length)
    { token := .startTag name (attrs.map attributeOf) ((taken.reverse.drop 1).head? == some Ascii.slash)
      rawTag := if rawTextTags.contains name then name else []
      rest }

private def markup? (allowCData : Bool) (s : Text) : Option Reading :=
  match s with
  | _ :: Ascii.exclamation :: rest =>
    let (token, rest) := declaration allowCData rest
    some { token, rest }
  | _ :: Ascii.question :: rest =>
    let (data, rest) := untilGreater (Ascii.question :: rest)
    some { token := commentToken data, rest }
  | _ :: Ascii.slash :: rest =>
    match rest with
    | [] => some { token := .text s, rest := [] }
    | c :: after =>
      if c == Ascii.greater then some { token := .comment [], rest := after }
      else if Ascii.isLetter c then
        (tag? rest).map fun (name, _, rest) => { token := .endTag (Ascii.lowercase name), rest }
      else
        let (data, rest) := untilGreater rest
        some { token := commentToken data, rest }
  | _ => startTag? s

/-- Reads the next token of a source; none at its end. `rawTag` names the element whose raw text
the source begins inside of, and is empty outside of any. -/
def next? (allowCData : Bool) (rawTag s : Text) : Option Reading :=
  let (data, after) := if rawTag.isEmpty then ([], s) else rawText rawTag s
  if !data.isEmpty then
    let data := replaceNul (normalizeNewlines data)
    some { token := .text (if hasReferences rawTag then Entity.unescape false data else data)
           rest := after }
  else if after.isEmpty then none
  else
    let (data, rest) := untilMarkup after
    if data.isEmpty then markup? allowCData rest
    else some { token := .text (Entity.unescape false (normalizeNewlines data)), rest }

end Token

end Stencil.Markup
