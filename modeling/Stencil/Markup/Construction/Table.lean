import Stencil.Markup.Construction.Body

namespace Stencil.Markup.Construction

private def startTag (name : String) : Option Token := some (.startTag (utf8 name) [] false)

private def fostered (imply : Imply) (item : Option Token) : Build Outcome := do
  modify fun s => { s with fostering := true }
  let outcome ← inBody imply item
  modify fun s => { s with fostering := false }
  return outcome

private def rowGroups : List Text := tags ["tbody", "thead", "tfoot"]

private def isHidden (attrs : List Attribute) : Bool :=
  attrs.any fun a => a.key == utf8 "type" && Text.toLower a.value == utf8 "hidden"

private def openSelect (attrs : List Attribute) : Build Outcome := do
  openHtml (utf8 "select") attrs
  forbidFrameset
  setMode .inSelectInTable
  done

def inTable (imply : Imply) (item : Option Token) : Build Outcome := do
  match item with
  | some (.text data) =>
    let data := dropNul data
    if isTablePart (← topTag) && allSpace data then
      addText data
      done
    else fostered imply (some (.text data))
  | some (.startTag name attrs _) =>
    let is (names : List String) : Bool := (tags names).contains name
    if is ["caption"] then
      closeInside ["html", "table", "template"]
      fence
      openHtml name attrs
      setMode .inCaption
      done
    else if is ["colgroup"] then
      closeInside ["html", "table", "template"]
      openHtml name attrs
      setMode .inColumnGroup
      done
    else if is ["col"] then
      imply (startTag "colgroup")
      return .again item
    else if rowGroups.contains name then
      closeInside ["html", "table", "template"]
      openHtml name attrs
      setMode .inTableBody
      done
    else if is ["td", "th", "tr"] then
      imply (startTag "tbody")
      return .again item
    else if is ["table"] then
      if ← closeThrough .table [name] then
        resetMode
        return .again item
      done
    else if is ["style", "script", "template"] then inHead imply item
    else if is ["input"] && isHidden attrs then
      addVoid name attrs
      done
    else if is ["form"] then
      if (← hasTemplate) || (← get).form.isSome then done
      else
        openHtml name attrs
        modify fun s => { s with form := some s.top }
        pop
        fostered imply item
    else if is ["select"] then
      reopenFormatting
      if isTablePart (← topTag) then modify fun s => { s with fostering := true }
      let outcome ← openSelect attrs
      modify fun s => { s with fostering := false }
      return outcome
    else fostered imply item
  | some (.endTag name) =>
    if name == utf8 "table" then
      if ← closeThrough .table [name] then resetMode
      done
    else if (tags ["body", "caption", "col", "colgroup", "html", "tbody", "td", "tfoot", "th",
        "thead", "tr"]).contains name then done
    else if name == utf8 "template" then inHead imply item
    else fostered imply item
  | some (.comment data) => addComment data
  | some (.doctype _) => done
  | none => inBody imply item

def inCaption (imply : Imply) (item : Option Token) : Build Outcome := do
  let leave : Build Outcome := do
    if ← closeThrough .table [utf8 "caption"] then
      clearFormatting
      setMode .inTable
      return .again item
    done
  match item with
  | some (.startTag name attrs _) =>
    if (tags ["caption", "col", "colgroup", "tbody", "td", "tfoot", "thead", "tr"]).contains name then
      leave
    else if name == utf8 "select" then
      reopenFormatting
      openSelect attrs
    else inBody imply item
  | some (.endTag name) =>
    if name == utf8 "caption" then
      if ← closeThrough .table [name] then
        clearFormatting
        setMode .inTable
      done
    else if name == utf8 "table" then leave
    else if (tags ["body", "col", "colgroup", "html", "tbody", "td", "tfoot", "th", "thead",
        "tr"]).contains name then done
    else inBody imply item
  | _ => inBody imply item

def inColumnGroup (imply : Imply) (item : Option Token) : Build Outcome := do
  let leave (item : Option Token) : Build Outcome := do
    if ← topIs ["colgroup"] then
      pop
      setMode .inTable
      return .again item
    done
  match item with
  | some (.text data) =>
    let (space, rest) := splitSpace data
    addText space
    if rest.isEmpty && !space.isEmpty then done else leave (some (.text rest))
  | some (.comment data) => addComment data
  | some (.doctype _) => done
  | some (.startTag name attrs _) =>
    if name == utf8 "html" then repeatedHtml attrs
    else if name == utf8 "col" then
      addVoid name attrs
      done
    else if name == utf8 "template" then inHead imply item
    else leave item
  | some (.endTag name) =>
    if name == utf8 "colgroup" then
      if ← topIs ["colgroup"] then
        pop
        setMode .inTable
      done
    else if name == utf8 "col" then done
    else if name == utf8 "template" then inHead imply item
    else leave item
  | none => inBody imply item

def inTableBody (imply : Imply) (item : Option Token) : Build Outcome := do
  let leave : Build Outcome := do
    if ← closeThrough .table rowGroups then
      setMode .inTable
      return .again item
    done
  match item with
  | some (.startTag name attrs _) =>
    if name == utf8 "tr" then
      closeInside ["html", "tbody", "tfoot", "thead", "template"]
      openHtml name attrs
      setMode .inRow
      done
    else if (tags ["td", "th"]).contains name then
      imply (startTag "tr")
      return .again item
    else if (tags ["caption", "col", "colgroup", "tbody", "tfoot", "thead"]).contains name then leave
    else inTable imply item
  | some (.endTag name) =>
    if rowGroups.contains name then
      if ← isInScope .table [name] then
        closeInside ["html", "tbody", "tfoot", "thead", "template"]
        pop
        setMode .inTable
      done
    else if name == utf8 "table" then leave
    else if (tags ["body", "caption", "col", "colgroup", "html", "td", "th", "tr"]).contains name then
      done
    else inTable imply item
  | some (.comment data) => addComment data
  | _ => inTable imply item

def inRow (imply : Imply) (item : Option Token) : Build Outcome := do
  let leave : Build Outcome := do
    if ← closeThrough .table [utf8 "tr"] then
      setMode .inTableBody
      return .again item
    done
  match item with
  | some (.startTag name attrs _) =>
    if (tags ["td", "th"]).contains name then
      closeInside ["html", "tr", "template"]
      openHtml name attrs
      fence
      setMode .inCell
      done
    else if (tags ["caption", "col", "colgroup", "tbody", "tfoot", "thead", "tr"]).contains name then
      leave
    else inTable imply item
  | some (.endTag name) =>
    if name == utf8 "tr" then
      if ← closeThrough .table [name] then setMode .inTableBody
      done
    else if name == utf8 "table" then leave
    else if rowGroups.contains name then
      if ← isInScope .table [name] then leave else done
    else if (tags ["body", "caption", "col", "colgroup", "html", "td", "th"]).contains name then done
    else inTable imply item
  | _ => inTable imply item

private def cellTags : List Text := tags ["td", "th"]

def inCell (imply : Imply) (item : Option Token) : Build Outcome := do
  match item with
  | some (.startTag name attrs _) =>
    if (tags ["caption", "col", "colgroup", "tbody", "td", "tfoot", "th", "thead",
        "tr"]).contains name then
      if ← closeThrough .table cellTags then
        clearFormatting
        setMode .inRow
        return .again item
      done
    else if name == utf8 "select" then
      reopenFormatting
      openSelect attrs
    else inBody imply item
  | some (.endTag name) =>
    if cellTags.contains name then
      if ← closeThrough .table [name] then
        clearFormatting
        setMode .inRow
      done
    else if (tags ["body", "caption", "col", "colgroup", "html"]).contains name then done
    else if (tags ["table", "tbody", "tfoot", "thead", "tr"]).contains name then
      if ← isInScope .table [name] then
        if ← closeThrough .table cellTags then clearFormatting
        setMode .inRow
        return .again item
      done
    else inBody imply item
  | _ => inBody imply item

def inSelect (imply : Imply) (item : Option Token) : Build Outcome := do
  let leave : Build Outcome := do
    if ← closeThrough .select [utf8 "select"] then resetMode
    done
  match item with
  | some (.text data) =>
    addText (dropNul data)
    done
  | some (.startTag name attrs _) =>
    if name == utf8 "html" then repeatedHtml attrs
    else if name == utf8 "option" then
      if ← topIs ["option"] then pop
      openHtml name attrs
      done
    else if name == utf8 "optgroup" then
      if ← topIs ["option"] then pop
      if ← topIs ["optgroup"] then pop
      openHtml name attrs
      done
    else if name == utf8 "select" then leave
    else if (tags ["input", "keygen", "textarea"]).contains name then
      if ← isInScope .select [utf8 "select"] then
        imply (some (.endTag (utf8 "select")))
        return .again item
      readAsMarkup
      done
    else if (tags ["script", "template"]).contains name then inHead imply item
    else if (tags ["iframe", "noembed", "noframes", "noscript", "style", "title"]).contains name then
      readAsMarkup
      done
    else done
  | some (.endTag name) =>
    if name == utf8 "option" then
      if ← topIs ["option"] then pop
      done
    else if name == utf8 "optgroup" then
      let s ← get
      let last := s.opened.size - 1
      let i := if s.topTag == utf8 "option" then last - 1 else last
      if (s.opened[i]?).map s.arena.tag == some (utf8 "optgroup") then closeFrom i
      done
    else if name == utf8 "select" then leave
    else if name == utf8 "template" then inHead imply item
    else done
  | some (.comment data) => addComment data
  | some (.doctype _) => done
  | none => inBody imply item

def inSelectInTable (imply : Imply) (item : Option Token) : Build Outcome := do
  let tableTags :=
    tags ["caption", "table", "tbody", "tfoot", "thead", "tr", "td", "th"]
  let leave : Build Outcome := do
    let s ← get
    let inner := s.opened.toList.reverse.takeWhile fun n => s.arena.tag n != utf8 "select"
    if inner.length < s.opened.size then closeFrom (s.opened.size - inner.length - 1)
    resetMode
    return .again item
  match item with
  | some (.startTag name _ _) => if tableTags.contains name then leave else inSelect imply item
  | some (.endTag name) =>
    if tableTags.contains name then
      if ← isInScope .table [name] then leave else done
    else inSelect imply item
  | _ => inSelect imply item

private def spaceOnly (data : Text) : Text := data.filter Token.isSpace

def inFrameset (imply : Imply) (item : Option Token) : Build Outcome := do
  match item with
  | some (.comment data) => addComment data
  | some (.text data) =>
    addText (spaceOnly data)
    done
  | some (.startTag name attrs _) =>
    if name == utf8 "html" then repeatedHtml attrs
    else if name == utf8 "frameset" then
      openHtml name attrs
      done
    else if name == utf8 "frame" then
      addVoid name attrs
      done
    else if name == utf8 "noframes" then inHead imply item
    else done
  | some (.endTag name) =>
    if name == utf8 "frameset" && !(← topIs ["html"]) then
      pop
      if !(← topIs ["frameset"]) then setMode .afterFrameset
    done
  | _ => done

def afterFrameset (imply : Imply) (item : Option Token) : Build Outcome := do
  match item with
  | some (.comment data) => addComment data
  | some (.text data) =>
    addText (spaceOnly data)
    done
  | some (.startTag name attrs _) =>
    if name == utf8 "html" then repeatedHtml attrs
    else if name == utf8 "noframes" then inHead imply item
    else done
  | some (.endTag name) =>
    if name == utf8 "html" then setMode .afterAfterFrameset
    done
  | _ => done

def afterAfterFrameset (imply : Imply) (item : Option Token) : Build Outcome := do
  match item with
  | some (.comment data) => addCommentTo 0 data
  | some (.text data) =>
    let space := spaceOnly data
    if space.isEmpty then done else inBody imply (some (.text space))
  | some (.startTag name attrs _) =>
    if name == utf8 "html" then repeatedHtml attrs
    else if name == utf8 "noframes" then inHead imply item
    else done
  | _ => done

end Stencil.Markup.Construction
