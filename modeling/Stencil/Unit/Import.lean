import Stencil.Text.Quoted
import Stencil.Unit.Grammar

namespace Stencil

open Ascii Text

inductive ImportError where
  | unread (unit : Text)
  | unreadImports (unit : Text)
  | badPath (path : Text)
  deriving DecidableEq, Repr

def ImportError.message : ImportError → Text
  | .unread unit => utf8 "failed to parse generated " ++ unit
  | .unreadImports unit => utf8 "failed to read imports of " ++ unit
  | .badPath path => utf8 "invalid import " ++ path ++ utf8 ": invalid syntax"

namespace Import

def selectedFrom (events : List Event) : List Text :=
  events.filterMap fun
    | .select base _ => some base
    | _ => none

def neededFrom (names : List Text) : List Text → Except ImportError (List Text)
  | [] => .ok []
  | c :: rest =>
    match unquoted? c with
    | none => .error (.badPath c)
    | some path => do
      let more ← neededFrom names rest
      return if names.contains (Path.base path) then c :: more else more

def needed (unit source : Text) (candidates : List Text) : Except ImportError (List Text) :=
  match Grammar.read? source with
  | none => .error (.unread unit)
  | some reading => do
    return Text.sort (← neededFrom (selectedFrom reading.events) candidates)

def list (unit source : Text) : Except ImportError (List Text) :=
  match Grammar.imports? source with
  | none => .error (.unreadImports unit)
  | some imports => .ok (imports.map Import.spec)

def globals (depth : Nat) : List Event → List Text
  | [] => []
  | .enter :: rest => globals (depth + 1) rest
  | .leave :: rest => globals (depth - 1) rest
  | .declare name :: rest => if depth = 0 then name :: globals depth rest else globals depth rest
  | .select .. :: rest => globals depth rest

def isExported (name : Text) : Bool :=
  match firstRune? name with
  | some r => lower r.code ≠ r.code
  | none => false

/-- The exported members selected from names that are not declared where they are used. `scopes` are
the names declared in the open scopes, innermost first. -/
def openSelections (scopes : List (List Text)) : List Event → List (Text × Text)
  | [] => []
  | .enter :: rest => openSelections ([] :: scopes) rest
  | .leave :: rest => openSelections scopes.tail rest
  | .declare name :: rest =>
    match scopes with
    | [] => openSelections [[name]] rest
    | inner :: outer => openSelections ((name :: inner) :: outer) rest
  | .select base member :: rest =>
    if isExported member && !scopes.any (·.contains base) then
      (base, member) :: openSelections scopes rest
    else openSelections scopes rest

def standardPaths : List Text :=
  ["archive/tar", "archive/zip", "bufio", "bytes", "cmp", "compress/bzip2", "compress/flate",
    "compress/gzip", "compress/lzw", "compress/zlib", "container/heap", "container/list",
    "container/ring", "context", "crypto", "crypto/aes", "crypto/cipher", "crypto/des", "crypto/dsa",
    "crypto/ecdh", "crypto/ecdsa", "crypto/ed25519", "crypto/elliptic", "crypto/hmac", "crypto/md5",
    "crypto/rc4", "crypto/rsa", "crypto/sha1", "crypto/sha256", "crypto/sha512", "crypto/subtle",
    "crypto/tls", "crypto/x509", "crypto/x509/pkix", "database/sql", "database/sql/driver",
    "debug/buildinfo", "debug/dwarf", "debug/elf", "debug/gosym", "debug/macho", "debug/pe",
    "debug/plan9obj", "embed", "encoding", "encoding/ascii85", "encoding/asn1", "encoding/base32",
    "encoding/base64", "encoding/binary", "encoding/csv", "encoding/gob", "encoding/hex",
    "encoding/json", "encoding/pem", "encoding/xml", "errors", "expvar", "flag", "fmt", "go/ast",
    "go/build", "go/build/constraint", "go/constant", "go/doc", "go/doc/comment", "go/format",
    "go/importer", "go/parser", "go/printer", "go/token", "go/types", "go/version", "hash",
    "hash/adler32", "hash/crc32", "hash/crc64", "hash/fnv", "hash/maphash", "html", "image",
    "image/color", "image/color/palette", "image/draw", "image/gif", "image/jpeg", "image/png",
    "index/suffixarray", "io", "io/fs", "io/ioutil", "iter", "log", "log/slog", "log/syslog", "maps",
    "math", "math/big", "math/bits", "math/cmplx", "mime", "mime/multipart", "mime/quotedprintable",
    "net", "net/http", "net/http/cgi", "net/http/cookiejar", "net/http/fcgi", "net/http/httptest",
    "net/http/httptrace", "net/http/httputil", "net/mail", "net/netip", "net/rpc", "net/rpc/jsonrpc",
    "net/smtp", "net/textproto", "net/url", "os", "os/exec", "os/signal", "os/user", "path",
    "path/filepath", "plugin", "reflect", "regexp", "regexp/syntax", "runtime", "runtime/cgo",
    "runtime/coverage", "runtime/debug", "runtime/metrics", "runtime/trace", "slices", "sort",
    "strconv", "strings", "structs", "sync", "sync/atomic", "syscall", "testing", "testing/fstest",
    "testing/iotest", "testing/quick", "testing/slogtest", "text/tabwriter", "text/template/parse",
    "time", "unicode", "unicode/utf16", "unicode/utf8", "unique", "unsafe"].map utf8

def secureRandom : List Text :=
  ["Int", "Prime", "Read", "Reader"].map utf8

def standardPath? (name : Text) (members : List Text) : Option Text :=
  if name = utf8 "rand" then
    if members.all secureRandom.contains then some (utf8 "crypto/rand") else some (utf8 "math/rand")
  else standardPaths.find? (Path.base · = name)

def nameOf (i : Import) : Text :=
  i.name.getD (Path.base ((unquoted? i.path).getD []))

def completed (reading : Grammar.Reading) : List Text :=
  -- a name declared outside of all functions is known before its declaration too
  let selections := openSelections [globals 0 reading.events] reading.events
  let names := (selections.map Prod.fst).eraseDups
  let kept := reading.imports.filter fun i =>
    names.contains (nameOf i) || nameOf i = [underscore] || nameOf i = [dot]
  let missing := names.filter fun n => !kept.any (nameOf · = n)
  let added := missing.filterMap fun n =>
    standardPath? n ((selections.filter (·.1 = n)).map Prod.snd)
  kept.map Import.spec ++ added.map quoted

end Import

end Stencil
