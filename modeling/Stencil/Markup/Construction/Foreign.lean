import Stencil.Markup.Construction.State

namespace Stencil.Markup.Construction

private def pairs (names : List (String × String)) : List (Text × Text) :=
  names.map fun (a, b) => (utf8 a, utf8 b)

private def svgTagNames : List (Text × Text) := pairs [
  ("altglyph", "altGlyph"), ("altglyphdef", "altGlyphDef"), ("altglyphitem", "altGlyphItem"),
  ("animatecolor", "animateColor"), ("animatemotion", "animateMotion"),
  ("animatetransform", "animateTransform"), ("clippath", "clipPath"), ("feblend", "feBlend"),
  ("fecolormatrix", "feColorMatrix"), ("fecomponenttransfer", "feComponentTransfer"),
  ("fecomposite", "feComposite"), ("feconvolvematrix", "feConvolveMatrix"),
  ("fediffuselighting", "feDiffuseLighting"), ("fedisplacementmap", "feDisplacementMap"),
  ("fedistantlight", "feDistantLight"), ("feflood", "feFlood"), ("fefunca", "feFuncA"),
  ("fefuncb", "feFuncB"), ("fefuncg", "feFuncG"), ("fefuncr", "feFuncR"),
  ("fegaussianblur", "feGaussianBlur"), ("feimage", "feImage"), ("femerge", "feMerge"),
  ("femergenode", "feMergeNode"), ("femorphology", "feMorphology"), ("feoffset", "feOffset"),
  ("fepointlight", "fePointLight"), ("fespecularlighting", "feSpecularLighting"),
  ("fespotlight", "feSpotLight"), ("fetile", "feTile"), ("feturbulence", "feTurbulence"),
  ("foreignobject", "foreignObject"), ("glyphref", "glyphRef"),
  ("lineargradient", "linearGradient"), ("radialgradient", "radialGradient"),
  ("textpath", "textPath")]

private def mathAttributeNames : List (Text × Text) := pairs [("definitionurl", "definitionURL")]

private def svgAttributeNames : List (Text × Text) := pairs [
  ("attributename", "attributeName"), ("attributetype", "attributeType"),
  ("basefrequency", "baseFrequency"), ("baseprofile", "baseProfile"), ("calcmode", "calcMode"),
  ("clippathunits", "clipPathUnits"), ("diffuseconstant", "diffuseConstant"),
  ("edgemode", "edgeMode"), ("filterunits", "filterUnits"), ("glyphref", "glyphRef"),
  ("gradienttransform", "gradientTransform"), ("gradientunits", "gradientUnits"),
  ("kernelmatrix", "kernelMatrix"), ("kernelunitlength", "kernelUnitLength"),
  ("keypoints", "keyPoints"), ("keysplines", "keySplines"), ("keytimes", "keyTimes"),
  ("lengthadjust", "lengthAdjust"), ("limitingconeangle", "limitingConeAngle"),
  ("markerheight", "markerHeight"), ("markerunits", "markerUnits"), ("markerwidth", "markerWidth"),
  ("maskcontentunits", "maskContentUnits"), ("maskunits", "maskUnits"),
  ("numoctaves", "numOctaves"), ("pathlength", "pathLength"),
  ("patterncontentunits", "patternContentUnits"), ("patterntransform", "patternTransform"),
  ("patternunits", "patternUnits"), ("pointsatx", "pointsAtX"), ("pointsaty", "pointsAtY"),
  ("pointsatz", "pointsAtZ"), ("preservealpha", "preserveAlpha"),
  ("preserveaspectratio", "preserveAspectRatio"), ("primitiveunits", "primitiveUnits"),
  ("refx", "refX"), ("refy", "refY"), ("repeatcount", "repeatCount"), ("repeatdur", "repeatDur"),
  ("requiredextensions", "requiredExtensions"), ("requiredfeatures", "requiredFeatures"),
  ("specularconstant", "specularConstant"), ("specularexponent", "specularExponent"),
  ("spreadmethod", "spreadMethod"), ("startoffset", "startOffset"),
  ("stddeviation", "stdDeviation"), ("stitchtiles", "stitchTiles"),
  ("surfacescale", "surfaceScale"), ("systemlanguage", "systemLanguage"),
  ("tablevalues", "tableValues"), ("targetx", "targetX"), ("targety", "targetY"),
  ("textlength", "textLength"), ("viewbox", "viewBox"), ("viewtarget", "viewTarget"),
  ("xchannelselector", "xChannelSelector"), ("ychannelselector", "yChannelSelector"),
  ("zoomandpan", "zoomAndPan")]

private def qualifiedAttributes : List Text := tags [
  "xlink:actuate", "xlink:arcrole", "xlink:href", "xlink:role", "xlink:show", "xlink:title",
  "xlink:type", "xml:base", "xml:lang", "xml:space", "xmlns:xlink"]

private def qualify (a : Attribute) : Attribute :=
  if qualifiedAttributes.contains a.key then
    match Text.cut? [Ascii.colon] a.key with
    | some (ns, key) => { a with ns, key }
    | none => a
  else a

def foreignAttributes (ns : Text) (attrs : List Attribute) : List Attribute :=
  let names := if ns == utf8 "svg" then svgAttributeNames
    else if ns == utf8 "math" then mathAttributeNames else []
  attrs.map fun a => qualify { a with key := (names.lookup a.key).getD a.key }

private def foldedEq (a b : Text) : Bool := Text.toLower a == Text.toLower b

private def isMathText (arena : Arena) (n : Nat) : Bool :=
  arena.ns n == utf8 "math" && (tags ["mi", "mo", "mn", "ms", "mtext"]).contains (arena.tag n)

private def holdsHtml (arena : Arena) (n : Nat) : Bool :=
  let ns := arena.ns n
  let tag := arena.tag n
  if ns == utf8 "math" then
    tag == utf8 "annotation-xml" && (arena.attrs n).any fun a =>
      a.key == utf8 "encoding" &&
        (foldedEq a.value (utf8 "text/html") || foldedEq a.value (utf8 "application/xhtml+xml"))
  else ns == utf8 "svg" && (tags ["desc", "foreignObject", "title"]).contains tag

def isForeign (item : Option Token) : Build Bool := do
  let s ← get
  if s.opened.isEmpty || (s.opened.size == 1 && s.fragment) then return false
  let n := s.top
  let ns := s.arena.ns n
  if ns.isEmpty then return false
  return match item with
    | none => false
    | some (.startTag name _ _) =>
      if isMathText s.arena n && name != utf8 "mglyph" && name != utf8 "malignmark" then false
      else if ns == utf8 "math" && s.arena.tag n == utf8 "annotation-xml" && name == utf8 "svg" then
        false
      else !holdsHtml s.arena n
    | some (.text _) => !(isMathText s.arena n || holdsHtml s.arena n)
    | some _ => true

private def breakoutTags : List Text := tags [
  "b", "big", "blockquote", "body", "br", "center", "code", "dd", "div", "dl", "dt", "em", "embed",
  "h1", "h2", "h3", "h4", "h5", "h6", "head", "hr", "i", "img", "li", "listing", "menu", "meta",
  "nobr", "ol", "p", "pre", "ruby", "s", "small", "span", "strong", "strike", "sub", "sup",
  "table", "tt", "u", "ul", "var"]

private def breaksOut (name : Text) (attrs : List Attribute) : Bool :=
  breakoutTags.contains name ||
    (name == utf8 "font" && attrs.any fun a => (tags ["color", "face", "size"]).contains a.key)

def openForeign (ns name : Text) (attrs : List Attribute) (selfClosing : Bool) : Build Unit := do
  let _ ← openElement ns name (foreignAttributes ns attrs)
  if selfClosing then pop

private def closeForeign (arena : Arena) (name : Text) : List Nat → Option Nat × Bool
  | [] => (none, false)
  | n :: outer =>
    if (arena.ns n).isEmpty then (none, true)
    else if foldedEq (arena.tag n) name then (some outer.length, false)
    else closeForeign arena name outer

def inForeign (html : Option Token → Build Outcome) (item : Option Token) : Build Outcome := do
  match item with
  | none => done
  | some (.doctype _) => done
  | some (.comment data) => addComment data
  | some (.text data) =>
    if !(data.all fun c => Token.isSpace c || c == Ascii.nul) then forbidFrameset
    addText (Text.replaceByte Ascii.nul (Text.encode 0xFFFD) data)
    done
  | some (.startTag name attrs selfClosing) =>
    let s ← get
    if !s.fragment && breaksOut name attrs then
      let inner := s.opened.toList.reverse.takeWhile fun n =>
        !((s.arena.ns n).isEmpty || holdsHtml s.arena n || isMathText s.arena n)
      if inner.length < s.opened.size then closeFrom (s.opened.size - inner.length)
      return .again item
    let ns := s.arena.ns s.top
    let name := if ns == utf8 "svg" then (svgTagNames.lookup name).getD name else name
    openForeign ns name attrs selfClosing
    readAsMarkup
    done
  | some (.endTag name) =>
    let s ← get
    match closeForeign s.arena name s.opened.toList.reverse with
    | (some i, _) => closeFrom i; done
    | (none, true) => html item
    | (none, false) => done

end Stencil.Markup.Construction
