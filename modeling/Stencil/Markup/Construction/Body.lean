import Stencil.Markup.Construction.Foreign
import Stencil.Markup.Construction.Formatting
import Stencil.Markup.Doctype

namespace Stencil.Markup.Construction

private def startOf (name : String) : Option Token := some (.startTag (utf8 name) [] false)

private def endOf (name : String) : Option Token := some (.endTag (utf8 name))

abbrev Imply := Option Token → Build Unit

private def closeTemplate : Build Unit := do
  closeImplied []
  let s ← get
  let inner := s.opened.toList.reverse.takeWhile fun n =>
    !((s.arena.ns n).isEmpty && s.arena.tag n == utf8 "template")
  if inner.length < s.opened.size then closeFrom (s.opened.size - inner.length - 1)
  clearFormatting
  modify fun s => { s with templateModes := s.templateModes.drop 1 }
  resetMode

private def headVoids : List Text := tags ["base", "basefont", "bgsound", "link", "meta"]

def headTags : List Text :=
  tags ["base", "basefont", "bgsound", "link", "meta", "noframes", "script", "style", "template",
    "title"]

def inHead (imply : Imply) (item : Option Token) : Build Outcome := do
  let leave (item : Option Token) : Build Outcome := do
    imply (endOf "head")
    return .again item
  match item with
  | some (.text data) =>
    let (space, rest) := splitSpace data
    addText space
    if rest.isEmpty && !space.isEmpty then done else leave (some (.text rest))
  | some (.startTag name attrs _) =>
    if name == utf8 "html" then repeatedHtml attrs
    else if headVoids.contains name then
      addVoid name attrs
      done
    else if (tags ["noscript", "script", "title", "noframes", "style"]).contains name then
      openRawText name attrs
    else if name == utf8 "head" then done
    else if name == utf8 "template" then
      let s ← get
      if s.opened.any fun n => !(s.arena.ns n).isEmpty then
        setMode .ignoreRest
        done
      else
        openHtml name attrs
        fence
        forbidFrameset
        modify fun s => { s with mode := .inTemplate, templateModes := .inTemplate :: s.templateModes }
        done
    else leave item
  | some (.endTag name) =>
    if name == utf8 "head" then
      pop
      setMode .afterHead
      done
    else if (tags ["body", "html", "br"]).contains name then leave item
    else if name == utf8 "template" then
      if ← hasTemplate then closeTemplate
      done
    else done
  | some (.comment data) => addComment data
  | some (.doctype _) => done
  | none => leave item

private def blockTags : List Text := tags [
  "address", "article", "aside", "blockquote", "center", "details", "dialog", "dir", "div", "dl",
  "fieldset", "figcaption", "figure", "footer", "header", "hgroup", "main", "menu", "nav", "ol",
  "p", "section", "summary", "ul"]

private def closingBlockTags : List Text := tags [
  "address", "article", "aside", "blockquote", "button", "center", "details", "dialog", "dir",
  "div", "dl", "fieldset", "figcaption", "figure", "footer", "header", "hgroup", "listing", "main",
  "menu", "nav", "ol", "pre", "section", "summary", "ul"]

private def headingTags : List Text := tags ["h1", "h2", "h3", "h4", "h5", "h6"]

private def formattingTags : List Text :=
  tags ["b", "big", "code", "em", "font", "i", "s", "small", "strike", "strong", "tt", "u"]

private def closingFormattingTags : List Text :=
  tags ["a", "b", "big", "code", "em", "font", "i", "nobr", "s", "small", "strike", "strong", "tt",
    "u"]

private def tableOnlyTags : List Text :=
  tags ["caption", "col", "colgroup", "frame", "head", "tbody", "td", "tfoot", "th", "thead", "tr"]

private def closeItem (names : List Text) : Build Unit := do
  let s ← get
  let inner := s.opened.toList.reverse.takeWhile fun n =>
    let tag := s.arena.tag n
    !names.contains tag &&
      ((tags ["address", "div", "p"]).contains tag || !isSpecial s.arena n)
  match s.opened.toList.reverse.drop inner.length with
  | n :: outer => if names.contains (s.arena.tag n) then closeFrom outer.length
  | [] => pure ()

private def isHiddenInput (attrs : List Attribute) : Bool :=
  attrs.any fun a => a.key == utf8 "type" && Text.toLower a.value == utf8 "hidden"

private def bodyText (data : Text) : Build Outcome := do
  let s ← get
  let data := if (tags ["pre", "listing"]).contains s.topTag && (s.arena.children s.top).isEmpty
    then dropFirstNewline data else data
  let data := dropNul data
  if data.isEmpty then done
  else
    reopenFormatting
    addText data
    if !allSpace data then forbidFrameset
    done

private def bodyStart (imply : Imply) (name : Text) (attrs : List Attribute) (selfClosing : Bool) :
    Build Outcome := do
  let is (names : List String) : Bool := (tags names).contains name
  if is ["html"] then repeatedHtml attrs
  else if headTags.contains name then inHead imply (some (.startTag name attrs selfClosing))
  else if is ["body"] then
    if !(← hasTemplate) then
      let s ← get
      match s.opened[1]? with
      | some body =>
        if s.arena.tag body == utf8 "body" then
          forbidFrameset
          mergeAttributes body attrs
      | none => pure ()
    done
  else if is ["frameset"] then
    let s ← get
    match s.opened[1]? with
    | some body =>
      if s.framesetOk && s.arena.tag body == utf8 "body" then
        modify fun s => { s with arena := s.arena.detach body }
        closeFrom 1
        openHtml name attrs
        setMode .inFrameset
    | none => pure ()
    done
  else if blockTags.contains name then
    closeParagraph
    openHtml name attrs
    done
  else if headingTags.contains name then
    closeParagraph
    if headingTags.contains (← topTag) then pop
    openHtml name attrs
    done
  else if is ["pre", "listing"] then
    closeParagraph
    openHtml name attrs
    forbidFrameset
    done
  else if is ["form"] then
    let template ← hasTemplate
    if (← get).form.isSome && !template then done
    else
      closeParagraph
      openHtml name attrs
      if !template then modify fun s => { s with form := some s.top }
      done
  else if is ["li"] then
    forbidFrameset
    closeItem [name]
    closeParagraph
    openHtml name attrs
    done
  else if is ["dd", "dt"] then
    forbidFrameset
    closeItem (tags ["dd", "dt"])
    closeParagraph
    openHtml name attrs
    done
  else if is ["plaintext"] then
    closeParagraph
    openHtml name attrs
    done
  else if is ["button"] then
    let _ ← closeThrough .default [name]
    reopenFormatting
    openHtml name attrs
    forbidFrameset
    done
  else if is ["a"] then
    let s ← get
    let open_ := s.formatting.toList.reverse.takeWhile (·.isSome) |>.filterMap id
    match open_.find? fun n => s.arena.tag n == name with
    | some n =>
      closeFormatting name
      unstack n
      unformat n
    | none => pure ()
    reopenFormatting
    openFormatting name attrs
    done
  else if formattingTags.contains name then
    reopenFormatting
    openFormatting name attrs
    done
  else if is ["nobr"] then
    reopenFormatting
    if ← isInScope .default [name] then
      closeFormatting name
      reopenFormatting
    openFormatting name attrs
    done
  else if is ["applet", "marquee", "object"] then
    reopenFormatting
    openHtml name attrs
    fence
    forbidFrameset
    done
  else if is ["table"] then
    if !(← get).quirks then closeParagraph
    openHtml name attrs
    forbidFrameset
    setMode .inTable
    done
  else if is ["area", "br", "embed", "img", "input", "keygen", "wbr"] then
    reopenFormatting
    addVoid name attrs
    if !(is ["input"] && isHiddenInput attrs) then forbidFrameset
    done
  else if is ["param", "source", "track"] then
    addVoid name attrs
    done
  else if is ["hr"] then
    closeParagraph
    addVoid name attrs
    forbidFrameset
    done
  else if is ["image"] then return .again (some (.startTag (utf8 "img") attrs selfClosing))
  else if is ["textarea"] then
    forbidFrameset
    openRawText name attrs
  else if is ["xmp"] then
    closeParagraph
    reopenFormatting
    forbidFrameset
    openRawText name attrs
  else if is ["iframe"] then
    forbidFrameset
    openRawText name attrs
  else if is ["noembed", "noscript"] then openRawText name attrs
  else if is ["select"] then
    reopenFormatting
    openHtml name attrs
    forbidFrameset
    setMode .inSelect
    done
  else if is ["optgroup", "option"] then
    if ← topIs ["option"] then pop
    reopenFormatting
    openHtml name attrs
    done
  else if is ["rb", "rtc"] then
    if ← isInScope .default [utf8 "ruby"] then closeImplied []
    openHtml name attrs
    done
  else if is ["rp", "rt"] then
    if ← isInScope .default [utf8 "ruby"] then closeImplied (utf8 "rtc")
    openHtml name attrs
    done
  else if is ["math", "svg"] then
    reopenFormatting
    openForeign name name attrs selfClosing
    done
  else if tableOnlyTags.contains name then done
  else
    reopenFormatting
    openHtml name attrs
    done

private def endForm : Build Outcome := do
  if ← hasTemplate then
    match ← inScope? .default [utf8 "form"] with
    | none => done
    | some i =>
      closeImplied []
      let s ← get
      if ((s.opened[i]?).map s.arena.tag) == some (utf8 "form") then
        let _ ← closeThrough .default [utf8 "form"]
      done
  else
    let form := (← get).form
    modify fun s => { s with form := none }
    match form, ← inScope? .default [utf8 "form"] with
    | some n, some i =>
      if (← get).opened[i]? == some n then
        closeImplied []
        unstack n
      done
    | _, _ => done

private def bodyEnd (imply : Imply) (name : Text) : Build Outcome := do
  let is (names : List String) : Bool := (tags names).contains name
  if is ["body"] then
    if ← isInScope .default [name] then setMode .afterBody
    done
  else if is ["html"] then
    if ← isInScope .default [utf8 "body"] then
      imply (endOf "body")
      return .again (some (.endTag name))
    done
  else if closingBlockTags.contains name then
    let _ ← closeThrough .default [name]
    done
  else if is ["form"] then endForm
  else if is ["p"] then
    if !(← isInScope .button [name]) then imply (startOf "p")
    closeParagraph
    done
  else if is ["li"] then
    let _ ← closeThrough .listItem [name]
    done
  else if is ["dd", "dt"] then
    let _ ← closeThrough .default [name]
    done
  else if headingTags.contains name then
    let _ ← closeThrough .default headingTags
    done
  else if closingFormattingTags.contains name then
    closeFormatting name
    done
  else if is ["applet", "marquee", "object"] then
    if ← closeThrough .default [name] then clearFormatting
    done
  else if is ["br"] then return .again (startOf "br")
  else if is ["template"] then inHead imply (some (.endTag name))
  else
    closeOther name
    done

def inBody (imply : Imply) (item : Option Token) : Build Outcome := do
  match item with
  | some (.text data) => bodyText data
  | some (.startTag name attrs selfClosing) => bodyStart imply name attrs selfClosing
  | some (.endTag name) => bodyEnd imply name
  | some (.comment data) => addComment data
  | some (.doctype _) => done
  | none =>
    if !(← get).templateModes.isEmpty then
      setMode .inTemplate
      return .again none
    done

def initial (item : Option Token) : Build Outcome := do
  let leave (item : Option Token) : Build Outcome := do
    modify fun s => { s with quirks := true, mode := .beforeHtml }
    return .again item
  match item with
  | some (.text data) =>
    let rest := (splitSpace data).2
    if rest.isEmpty then done else leave (some (.text rest))
  | some (.comment data) => addCommentTo 0 data
  | some (.doctype data) =>
    let (name, attrs, quirks) := Doctype.parse data
    let n ← create (.doctype name attrs)
    modify fun s => { s with arena := s.arena.append 0 n, quirks, mode := .beforeHtml }
    done
  | item => leave item

def beforeHtml (imply : Imply) (item : Option Token) : Build Outcome := do
  let leave (item : Option Token) : Build Outcome := do
    imply (startOf "html")
    return .again item
  match item with
  | some (.doctype _) => done
  | some (.text data) =>
    let rest := (splitSpace data).2
    if rest.isEmpty then done else leave (some (.text rest))
  | some (.startTag name attrs _) =>
    if name == utf8 "html" then
      openHtml name attrs
      setMode .beforeHead
      done
    else leave item
  | some (.endTag name) =>
    if (tags ["head", "body", "html", "br"]).contains name then leave item else done
  | some (.comment data) => addCommentTo 0 data
  | none => leave item

def beforeHead (imply : Imply) (item : Option Token) : Build Outcome := do
  let leave (item : Option Token) : Build Outcome := do
    imply (startOf "head")
    return .again item
  match item with
  | some (.text data) =>
    let rest := (splitSpace data).2
    if rest.isEmpty then done else leave (some (.text rest))
  | some (.startTag name attrs _) =>
    if name == utf8 "head" then
      openHtml name attrs
      modify fun s => { s with head := some s.top, mode := .inHead }
      done
    else if name == utf8 "html" then repeatedHtml attrs
    else leave item
  | some (.endTag name) =>
    if (tags ["head", "body", "html", "br"]).contains name then leave item else done
  | some (.comment data) => addComment data
  | some (.doctype _) => done
  | none => leave item

def afterHead (imply : Imply) (item : Option Token) : Build Outcome := do
  let leave (item : Option Token) : Build Outcome := do
    imply (startOf "body")
    modify fun s => { s with framesetOk := true }
    return .again item
  match item with
  | some (.text data) =>
    let (space, rest) := splitSpace data
    addText space
    if rest.isEmpty && !space.isEmpty then done else leave (some (.text rest))
  | some (.startTag name attrs _) =>
    if name == utf8 "html" then repeatedHtml attrs
    else if name == utf8 "body" then
      openHtml name attrs
      forbidFrameset
      setMode .inBody
      done
    else if name == utf8 "frameset" then
      openHtml name attrs
      setMode .inFrameset
      done
    else if headTags.contains name then
      match (← get).head with
      | some head =>
        modify fun s => { s with opened := s.opened.push head }
        let outcome ← inHead imply item
        unstack head
        return outcome
      | none => inHead imply item
    else if name == utf8 "head" then done
    else leave item
  | some (.endTag name) =>
    if (tags ["body", "html", "br"]).contains name then leave item
    else if name == utf8 "template" then inHead imply item
    else done
  | some (.comment data) => addComment data
  | some (.doctype _) => done
  | none => leave item

def inRawText (item : Option Token) : Build Outcome := do
  let leave : Build Unit := modify fun s => { s with mode := s.afterText }
  match item with
  | none =>
    pop
    leave
    return .again item
  | some (.text data) =>
    let s ← get
    addText (if s.topTag == utf8 "textarea" && (s.arena.children s.top).isEmpty
      then dropFirstNewline data else data)
    done
  | some (.endTag _) =>
    pop
    leave
    done
  | item =>
    leave
    return .again item

def afterBody (imply : Imply) (item : Option Token) : Build Outcome := do
  let leave : Build Outcome := do
    setMode .inBody
    return .again item
  match item with
  | none => done
  | some (.text data) => if allSpace data then inBody imply item else leave
  | some (.startTag name attrs _) => if name == utf8 "html" then repeatedHtml attrs else leave
  | some (.endTag name) =>
    if name == utf8 "html" then
      if !(← get).fragment then setMode .afterAfterBody
      done
    else leave
  | some (.comment data) => addCommentTo (((← get).opened[0]?).getD 0) data
  | some (.doctype _) => leave

def afterAfterBody (imply : Imply) (item : Option Token) : Build Outcome := do
  let leave : Build Outcome := do
    setMode .inBody
    return .again item
  match item with
  | none => done
  | some (.text data) => if allSpace data then inBody imply item else leave
  | some (.startTag name attrs _) => if name == utf8 "html" then repeatedHtml attrs else leave
  | some (.endTag _) => leave
  | some (.comment data) => addCommentTo 0 data
  | some (.doctype _) => done

def inTemplate (imply : Imply) (item : Option Token) : Build Outcome := do
  let goOn (mode : Mode) : Build Outcome := do
    modify fun s => { s with mode, templateModes := mode :: s.templateModes.drop 1 }
    return .again item
  match item with
  | some (.text _) | some (.comment _) | some (.doctype _) => inBody imply item
  | some (.startTag name _ _) =>
    if headTags.contains name then inHead imply item
    else if (tags ["caption", "colgroup", "tbody", "tfoot", "thead"]).contains name then
      goOn .inTable
    else if name == utf8 "col" then goOn .inColumnGroup
    else if name == utf8 "tr" then goOn .inTableBody
    else if (tags ["td", "th"]).contains name then goOn .inRow
    else goOn .inBody
  | some (.endTag name) =>
    if name == utf8 "template" then inHead imply item else done
  | none =>
    if ← hasTemplate then
      closeTemplate
      return .again none
    done

end Stencil.Markup.Construction
