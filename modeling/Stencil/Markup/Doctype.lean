import Stencil.Markup.Token
import Stencil.Text.Rune

namespace Stencil.Markup.Doctype

private def oldIdentifiers : List Text := [
  "+//silmaril//dtd html pro v0r11 19970101//",
  "-//advasoft ltd//dtd html 3.0 aswedit + extensions//",
  "-//as//dtd html 3.0 aswedit + extensions//",
  "-//ietf//dtd html 2.0 level 1//",
  "-//ietf//dtd html 2.0 level 2//",
  "-//ietf//dtd html 2.0 strict level 1//",
  "-//ietf//dtd html 2.0 strict level 2//",
  "-//ietf//dtd html 2.0 strict//",
  "-//ietf//dtd html 2.0//",
  "-//ietf//dtd html 2.1e//",
  "-//ietf//dtd html 3.0//",
  "-//ietf//dtd html 3.2 final//",
  "-//ietf//dtd html 3.2//",
  "-//ietf//dtd html 3//",
  "-//ietf//dtd html level 0//",
  "-//ietf//dtd html level 1//",
  "-//ietf//dtd html level 2//",
  "-//ietf//dtd html level 3//",
  "-//ietf//dtd html strict level 0//",
  "-//ietf//dtd html strict level 1//",
  "-//ietf//dtd html strict level 2//",
  "-//ietf//dtd html strict level 3//",
  "-//ietf//dtd html strict//",
  "-//ietf//dtd html//",
  "-//metrius//dtd metrius presentational//",
  "-//microsoft//dtd internet explorer 2.0 html strict//",
  "-//microsoft//dtd internet explorer 2.0 html//",
  "-//microsoft//dtd internet explorer 2.0 tables//",
  "-//microsoft//dtd internet explorer 3.0 html strict//",
  "-//microsoft//dtd internet explorer 3.0 html//",
  "-//microsoft//dtd internet explorer 3.0 tables//",
  "-//netscape comm. corp.//dtd html//",
  "-//netscape comm. corp.//dtd strict html//",
  "-//o'reilly and associates//dtd html 2.0//",
  "-//o'reilly and associates//dtd html extended 1.0//",
  "-//o'reilly and associates//dtd html extended relaxed 1.0//",
  "-//softquad software//dtd hotmetal pro 6.0::19990601::extensions to html 4.0//",
  "-//softquad//dtd hotmetal pro 4.0::19971010::extensions to html 4.0//",
  "-//spyglass//dtd html 2.0 extended//",
  "-//sq//dtd html 2.0 hotmetal + extensions//",
  "-//sun microsystems corp.//dtd hotjava html//",
  "-//sun microsystems corp.//dtd hotjava strict html//",
  "-//w3c//dtd html 3 1995-03-24//",
  "-//w3c//dtd html 3.2 draft//",
  "-//w3c//dtd html 3.2 final//",
  "-//w3c//dtd html 3.2//",
  "-//w3c//dtd html 3.2s draft//",
  "-//w3c//dtd html 4.0 frameset//",
  "-//w3c//dtd html 4.0 transitional//",
  "-//w3c//dtd html experimental 19960712//",
  "-//w3c//dtd html experimental 970421//",
  "-//w3c//dtd w3 html//",
  "-//w3o//dtd w3 html 3.0//",
  "-//webtechs//dtd mozilla html 2.0//",
  "-//webtechs//dtd mozilla html//"].map utf8

private def oldWholeIdentifiers : List Text :=
  ["-//w3o//dtd w3 html strict 3.0//en//", "-/w3d/dtd html 4.0 transitional/en", "html"].map utf8

private def oldWithoutSystem : List Text :=
  ["-//w3c//dtd html 4.01 frameset//", "-//w3c//dtd html 4.01 transitional//"].map utf8

private def oldSystem : Text :=
  utf8 "http://www.ibm.com/data/dtd/11/ibmxhtml1-transitional.dtd"

private def publicKey : Text := utf8 "public"

private def systemKey : Text := utf8 "system"

private def quotedText? (s : Text) : Option (Text × Text) :=
  match s with
  | c :: rest =>
    if c == Ascii.quote || c == Ascii.apostrophe then
      let id := rest.takeWhile (· != c)
      some (id, rest.drop (id.length + 1))
    else none
  | [] => none

private def identifiers (key s : Text) : List Attribute × Text × Text :=
  let skip (s : Text) := s.dropWhile Token.isSpace
  if key == publicKey then
    match quotedText? (skip s) with
    | none => ([], key, skip s)
    | some (publicId, s) =>
      match quotedText? (skip s) with
      | none => ([{ key := publicKey, value := publicId }], systemKey, skip s)
      | some (systemId, s) =>
        ([{ key := publicKey, value := publicId }, { key := systemKey, value := systemId }], [], s)
  else if key == systemKey then
    match quotedText? (skip s) with
    | none => ([], key, skip s)
    | some (systemId, s) => ([{ key := systemKey, value := systemId }], [], s)
  else ([], key, s)

private def isOld (attrs : List Attribute) : Bool :=
  let publicOld := match attrs with
    | a :: more =>
      let id := Text.toLower a.value
      a.key == publicKey &&
        (oldWholeIdentifiers.contains id || oldIdentifiers.any (Text.startsWith id) ||
          (more.isEmpty && oldWithoutSystem.any (Text.startsWith id)))
    | [] => false
  let systemOld := match attrs.getLast? with
    | some a => a.key == systemKey && Text.toLower a.value == oldSystem
    | none => false
  publicOld || systemOld

def parse (s : Text) : Text × List Attribute × Bool :=
  let name := s.takeWhile fun c => !Token.isSpace c
  let rest := (s.drop name.length).dropWhile Token.isSpace
  let otherName := name != utf8 "html"
  let lowerName := Text.toLower name
  if rest.length < 6 then (lowerName, [], otherName || !rest.isEmpty)
  else
    let (attrs, key, rest) := identifiers (Text.toLower (rest.take 6)) (rest.drop 6)
    (lowerName, attrs, otherName || !key.isEmpty || !rest.isEmpty || isOld attrs)

end Stencil.Markup.Doctype
