import Stencil.Log
import Stencil.Text.Quoted

namespace Stencil

open Ascii Text

namespace LogLevel

/-- A level is named after the nearest named level below it, with what it lies above that one; the
levels below the lowest name lie below it. -/
def name (l : LogLevel) : Text :=
  let above (base : Text) (offset : Int) : Text :=
    if offset = 0 then base
    else base ++ (if 0 < offset then utf8 "+" else []) ++ ofInt offset
  if l.value < info.value then above (utf8 "DEBUG") (l.value - debug.value)
  else if l.value < warn.value then above (utf8 "INFO") l.value
  else if l.value < error.value then above (utf8 "WARN") (l.value - warn.value)
  else above (utf8 "ERROR") (l.value - error.value)

end LogLevel

namespace LogLine

def isPlain (c : UInt8) : Bool :=
  space ≤ c && c ≠ quote && c ≠ backslash

def needsQuotes (r : Rune) : Bool :=
  if r.code < 128 then
    let b := UInt8.ofNat r.code
    b = space || b = equal || (b ≠ backslash && !isPlain b)
  else r.code = 0xFFFD || isBlank r.code || !isPrintable r.code

def field (s : Text) : Text :=
  if s.isEmpty || (runes s).any needsQuotes then quoted s else s

def hex2 (n : Nat) : Text := [hexDigit (n / 16), hexDigit (n % 16)]

def escapeByte (c : UInt8) : Text :=
  if c = backslash || c = quote then [backslash, c]
  else if c = newline then utf8 "\\n"
  else if c = carriageReturn then utf8 "\\r"
  else if c = tab then utf8 "\\t"
  else utf8 "\\u00" ++ hex2 c.toNat

def escape : Rune → Text
  | .stray _ => utf8 "\\ufffd"
  | .char c =>
    if c.toNat < 128 then
      let b := UInt8.ofNat c.toNat
      if isPlain b then [b] else escapeByte b
    else if c.toNat = 0x2028 then utf8 "\\u2028"
    else if c.toNat = 0x2029 then utf8 "\\u2029"
    else (Rune.char c).bytes

def string (s : Text) : Text :=
  [quote] ++ (runes s).flatMap escape ++ [quote]

end LogLine

namespace LogValue

def toField : LogValue → Text
  | .text s => LogLine.field s
  | .int n => ofInt n
  | .texts list => LogLine.field (utf8 "[" ++ joinWith [space] list ++ utf8 "]")

def toMember : LogValue → Text
  | .text s => LogLine.string s
  | .int n => ofInt n
  | .texts [] => utf8 "null"
  | .texts list => utf8 "[" ++ joinWith [comma] (list.map LogLine.string) ++ utf8 "]"

end LogValue

namespace LogRecord

def toLine (time : Text) (r : LogRecord) : Text :=
  let fields := (if time.isEmpty then [] else [(utf8 "time", time)]) ++
    (utf8 "level", LogLine.field r.level.name) :: (utf8 "msg", LogLine.field r.message) ::
      r.attrs.map fun (key, v) => (LogLine.field key, v.toField)
  joinWith [space] (fields.map fun (key, v) => key ++ utf8 "=" ++ v) ++ [newline]

def toObject (time : Text) (r : LogRecord) : Text :=
  let members := (if time.isEmpty then [] else [(utf8 "time", LogLine.string time)]) ++
    (utf8 "level", LogLine.string r.level.name) :: (utf8 "msg", LogLine.string r.message) ::
      r.attrs.map fun (key, v) => (key, v.toMember)
  utf8 "\x7b" ++ joinWith [comma] (members.map fun (key, v) => LogLine.string key ++ utf8 ":" ++ v) ++
    utf8 "\x7d" ++ [newline]

end LogRecord

structure LogFormat where
  verbose : Bool := false
  objects : Bool := false
  time : Text := []

namespace LogFormat

def shows (f : LogFormat) (r : LogRecord) : Bool :=
  (if f.verbose then LogLevel.debug.value else LogLevel.info.value) ≤ r.level.value

def write (f : LogFormat) (records : List LogRecord) : Text :=
  (records.filter f.shows).flatMap fun r => if f.objects then r.toObject f.time else r.toLine f.time

end LogFormat

end Stencil
