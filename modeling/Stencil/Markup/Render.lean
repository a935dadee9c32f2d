import Stencil.Markup.Node

namespace Stencil.Markup

inductive RenderError where
  | placeholder
  | voidWithChildren (tag : Text)
  deriving DecidableEq, Repr

def RenderError.message : RenderError → Text
  | placeholder => utf8 "html: cannot render an ErrorNode node"
  | voidWithChildren tag => utf8 "html: void element <" ++ tag ++ utf8 "> has child nodes"

def escapeByte (c : UInt8) : Text :=
  match c with
  | Ascii.ampersand => utf8 "&amp;"
  | Ascii.apostrophe => utf8 "&#39;"
  | Ascii.less => utf8 "&lt;"
  | Ascii.greater => utf8 "&gt;"
  | Ascii.quote => utf8 "&#34;"
  | Ascii.carriageReturn => utf8 "&#13;"
  | c => [c]

def escape (s : Text) : Text := s.flatMap escapeByte

private def escapeCommentAfter : (previous : Option UInt8) → Text → Text
  | _, [] => []
  | previous, c :: rest =>
    let written :=
      if c == Ascii.ampersand then utf8 "&amp;"
      else if c == Ascii.greater &&
          (previous == none || previous == some Ascii.exclamation || previous == some Ascii.hyphen)
        then utf8 "&gt;"
      else [c]
    written ++ escapeCommentAfter (some c) rest

def escapeComment (s : Text) : Text := escapeCommentAfter none s

private def quoteIdentifier (s : Text) : Text :=
  let q := if s.contains Ascii.quote then Ascii.apostrophe else Ascii.quote
  q :: (s ++ [q])

private def lastValue (key : Text) (attrs : List Attribute) : Text :=
  ((attrs.reverse.find? (·.key == key)).map (·.value)).getD []

private def renderDoctype (name : Text) (attrs : List Attribute) : Text :=
  let publicId := lastValue (utf8 "public") attrs
  let systemId := lastValue (utf8 "system") attrs
  let identifiers :=
    if !publicId.isEmpty then
      utf8 " PUBLIC " ++ quoteIdentifier publicId ++
        (if systemId.isEmpty then [] else Ascii.space :: quoteIdentifier systemId)
    else if !systemId.isEmpty then utf8 " SYSTEM " ++ quoteIdentifier systemId
    else []
  utf8 "<!DOCTYPE " ++ escape name ++ identifiers ++ utf8 ">"

def renderAttribute (a : Attribute) : Text :=
  let name := if a.ns.isEmpty then a.key else a.ns ++ Ascii.colon :: a.key
  Ascii.space :: (name ++ utf8 "=\"" ++ escape a.value ++ [Ascii.quote])

def voidTags : List Text :=
  ["area", "base", "br", "col", "embed", "hr", "img", "input", "keygen", "link", "meta", "param",
    "source", "track", "wbr"].map utf8

def literalTextTags : List Text :=
  ["iframe", "noembed", "noframes", "noscript", "plaintext", "script", "style", "xmp"].map utf8

def newlineDroppingTags : List Text := ["pre", "listing", "textarea"].map utf8

private def startsWithNewline : List Node → Bool
  | .text (Ascii.newline :: _) :: _ => true
  | _ => false

/-- Text written so far, and whether nothing may follow it: after the start of a `plaintext`
element everything would be read as its text. -/
structure Written where
  out : Text
  closed : Bool := false

mutual

def renderNode (literal : Bool) : Node → Except RenderError Written
  | .error _ => .error .placeholder
  | .text data => .ok ⟨if literal then data else escape data, false⟩
  | .raw data => .ok ⟨data, false⟩
  | .comment data => .ok ⟨utf8 "<!--" ++ escapeComment data ++ utf8 "-->", false⟩
  | .doctype name attrs => .ok ⟨renderDoctype name attrs, false⟩
  | .document children => renderSiblings false children
  | .element ns tag attrs children => do
    let opening := Ascii.less :: (tag ++ attrs.flatMap renderAttribute)
    if voidTags.contains tag then
      if children.isEmpty then .ok ⟨opening ++ utf8 "/>", false⟩
      else .error (.voidWithChildren tag)
    else
      let opening := opening ++ [Ascii.greater] ++
        (if startsWithNewline children && newlineDroppingTags.contains tag then [Ascii.newline]
          else [])
      let inner ← renderSiblings (ns.isEmpty && literalTextTags.contains tag) children
      if inner.closed then .ok ⟨opening ++ inner.out, true⟩
      else if ns.isEmpty && tag == utf8 "plaintext" then .ok ⟨opening ++ inner.out, true⟩
      else .ok ⟨opening ++ inner.out ++ utf8 "</" ++ tag ++ [Ascii.greater], false⟩

def renderSiblings (literal : Bool) : List Node → Except RenderError Written
  | [] => .ok ⟨[], false⟩
  | n :: rest => do
    let first ← renderNode literal n
    if first.closed then .ok first
    else
      let more ← renderSiblings literal rest
      .ok ⟨first.out ++ more.out, more.closed⟩

end

def render : List Node → Except RenderError Text
  | [] => .ok []
  | n :: rest => do
    let first ← renderNode false n
    let more ← render rest
    .ok (first.out ++ more)

end Stencil.Markup
