import Stencil.Component.Instance

namespace Stencil

namespace Card

def symbols : Symbols :=
  ⟨[(utf8 "body", .fragment), (utf8 "footer", .fragment), (utf8 "label", .string),
    (utf8 "title", .fragment), (utf8 "url", .string)]⟩

def classAttr (name : String) : Attr :=
  ⟨[], utf8 "class", [.literal (utf8 name)]⟩

def space : Tree :=
  .data [.literal (utf8 "\n  ")]

def tree : List Tree :=
  [.element [] (utf8 "article") [classAttr "card"] .none
    [space,
      .hole [] (utf8 "h2") [] .none (utf8 "title") [] [],
      space,
      .hole [] (utf8 "div") [classAttr "body"] .none (utf8 "body") [] [.text (utf8 "placeholder")],
      space,
      .hole [] (utf8 "footer") [] .ifEmpty (utf8 "footer") [] [],
      space,
      .element [] (utf8 "a") [⟨[], utf8 "href", [.variable (utf8 "url")]⟩] .none
        [.data [.variable (utf8 "label")]],
      .data [.literal (utf8 "\n")]],
    .data [.literal (utf8 "\n")]]

def blueprint : Blueprint :=
  ⟨symbols, Expr.ofDocument symbols tree⟩

end Card

namespace Greeting

def attr (key value : String) : Attr :=
  ⟨[], utf8 key, [.literal (utf8 value)]⟩

def tree : List Tree :=
  [.comment (utf8 " navigation "),
    .data [.literal (utf8 "\n")],
    .element [] (utf8 "p") [attr "class" "intro"] .none
      [.data [.literal (utf8 "Hello ")],
        .element [] (utf8 "b") [] .none [.data [.literal (utf8 "world")]],
        .data [.literal (utf8 " & friends.")]],
    .data [.literal (utf8 "\n")],
    .element (utf8 "svg") (utf8 "svg") [attr "viewBox" "0 0 10 10"] .none
      [.element (utf8 "svg") (utf8 "circle") [attr "cx" "5", attr "cy" "5", attr "r" "4"] .none []],
    .data [.literal (utf8 "\n")]]

def blueprint : Blueprint :=
  ⟨Symbols.empty, Expr.ofDocument Symbols.empty tree⟩

end Greeting

end Stencil
