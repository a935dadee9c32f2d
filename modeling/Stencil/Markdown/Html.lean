import Stencil.Markdown.Block
import Stencil.Markdown.Inline

namespace Stencil.Markdown

open Ascii Text

def escaped (s : Text) : Text :=
  s.flatMap fun c =>
    if c = less then utf8 "&lt;"
    else if c = greater then utf8 "&gt;"
    else if c = ampersand then utf8 "&amp;"
    else if c = quote then utf8 "&quot;"
    else if c = nul then encode 0xFFFD
    else [c]

def rawHtml (s : Text) : Text :=
  s.flatMap fun c => if c = nul then encode 0xFFFD else [c]

def isUrlByte (c : UInt8) : Bool :=
  isAlphanumeric c || (utf8 "-_.!~*'();/?:@&=+$,#").contains c

def percent (c : UInt8) : Text :=
  [Ascii.percent, upperHex (c / 16), upperHex (c % 16)]
where
  upperHex (n : UInt8) : UInt8 := if n < 10 then 48 + n else 55 + n

def escapeUrl : Text → Text
  | [] => []
  | c :: rest =>
    let isCode := match rest with
      | a :: _ :: _ => (hexValue? a).isSome
      | _ => false
    if isUrlByte c || (c = Ascii.percent && isCode) then c :: escapeUrl rest
    else percent c ++ escapeUrl rest

mutual

def plainText : Inline → Text
  | .text raw => raw
  | .code s => s
  | .html raw => raw
  | .autolink _ label => label
  | .emphasis _ children => plainTexts children
  | .link _ children => plainTexts children
  | .image _ children => plainTexts children
  | .softBreak => [newline]
  | .hardBreak => []

def plainTexts : List Inline → Text
  | [] => []
  | n :: rest => plainText n ++ plainTexts rest

end

def titleAttribute (target : Target) : Text :=
  match target.title with
  | some title => utf8 " title=\"" ++ escaped (resolve title) ++ [quote]
  | none => []

def targetUrl (target : Target) : Text :=
  escaped (escapeUrl (resolve target.destination))

mutual

def inlineHtml : Inline → Text
  | .text raw => escaped (resolve raw)
  | .code s => utf8 "<code>" ++ escaped s ++ utf8 "</code>"
  | .html raw => rawHtml raw
  | .autolink url label =>
    utf8 "<a href=\"" ++ escaped (escapeUrl url) ++ utf8 "\">" ++ escaped label ++ utf8 "</a>"
  | .emphasis strong children =>
    let tag := if strong then utf8 "strong" else utf8 "em"
    utf8 "<" ++ tag ++ utf8 ">" ++ inlinesHtml children ++ utf8 "</" ++ tag ++ utf8 ">"
  | .link target children =>
    utf8 "<a href=\"" ++ targetUrl target ++ [quote] ++ titleAttribute target ++ utf8 ">" ++
      inlinesHtml children ++ utf8 "</a>"
  | .image target children =>
    utf8 "<img src=\"" ++ targetUrl target ++ utf8 "\" alt=\"" ++ escaped (plainTexts children) ++
      [quote] ++ titleAttribute target ++ utf8 ">"
  | .softBreak => [newline]
  | .hardBreak => utf8 "<br>\n"

def inlinesHtml : List Inline → Text
  | [] => []
  | n :: rest => inlineHtml n ++ inlinesHtml rest

end

def languageClass (info : Option Text) : Text :=
  match info with
  | some info =>
    let language := info.takeWhile (!Ascii.isSpace ·)
    if language.isEmpty then []
    else utf8 " class=\"language-" ++ escaped (resolve language) ++ [quote]
  | none => []

mutual

/-- Writes a block. In a tight list the paragraphs of an item have no tags of their own. -/
def blockHtml (defs : List Definition) (tight : Bool) : Block → Text
  | .heading _ level s =>
    let tag := utf8 "h" ++ ofNat level ++ utf8 ">"
    utf8 "<" ++ tag ++ inlinesHtml (inlines defs s) ++ utf8 "</" ++ tag ++ [newline]
  | .paragraph _ s =>
    if tight then inlinesHtml (inlines defs s)
    else utf8 "<p>" ++ inlinesHtml (inlines defs s) ++ utf8 "</p>\n"
  | .code _ info s =>
    utf8 "<pre><code" ++ languageClass info ++ utf8 ">" ++ escaped s ++ utf8 "</code></pre>\n"
  | .html _ s => rawHtml s
  | .rule _ => utf8 "<hr>\n"
  | .quote _ children =>
    utf8 "<blockquote>\n" ++ blocksHtml defs false children ++ utf8 "</blockquote>\n"
  | .list _ start tight items =>
    let tag := if start.isSome then utf8 "ol" else utf8 "ul"
    let number := match start with
      | some n => if n = 1 then [] else utf8 " start=\"" ++ ofNat n ++ [quote]
      | none => []
    utf8 "<" ++ tag ++ number ++ utf8 ">\n" ++ blocksHtml defs tight items ++
      utf8 "</" ++ tag ++ utf8 ">\n"
  | .item _ children =>
    utf8 "<li>" ++ (if startsWithBlock tight children then [newline] else []) ++
      blocksHtml defs tight children ++ utf8 "</li>\n"
  | .definitions .. => []

def blocksHtml (defs : List Definition) (tight : Bool) : List Block → Text
  | [] => []
  | b :: rest =>
    blockHtml defs tight b ++
      (if isBareText tight b && rest.any Block.isShown then [newline] else []) ++
      blocksHtml defs tight rest

def isBareText (tight : Bool) : Block → Bool
  | .paragraph .. => tight
  | _ => false

def startsWithBlock (tight : Bool) : List Block → Bool
  | [] => false
  | .definitions _ alone _ :: rest => !alone && startsWithBlock tight rest
  | b :: _ => !isBareText tight b

end

mutual

def blockDefinitions : Block → List Definition
  | .quote _ children => allDefinitions children
  | .list _ _ _ items => allDefinitions items
  | .item _ children => allDefinitions children
  | .definitions _ _ list => list
  | _ => []

def allDefinitions : List Block → List Definition
  | [] => []
  | b :: rest => blockDefinitions b ++ allDefinitions rest

end

def toHtml (source : Text) : Text :=
  let document := blocks source
  blocksHtml (allDefinitions document) false document

end Stencil.Markdown
