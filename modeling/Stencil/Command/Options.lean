import Stencil.Command.Duration
import Stencil.Log.Line
import Stencil.Text.Integer

namespace Stencil

open Ascii Text

structure Config where
  input : Text := [dot]
  output : Text := []
  name : Text := []
  package : Text := []
  watch : Bool := false
  cache : Text := []
  ttl : Int := 0
  jobs : Int := 1

structure Options where
  config : Config := {}
  format : LogFormat := {}

inductive OptionError where
  | badSyntax (arg : Text)
  | unknown (name : Text)
  | noArgument (name : Text)
  | badFlag (name value : Text)
  | badValue (name value : Text) (fault : NumberFault)
  | help

def describeFault : NumberFault → Text
  | .malformed => utf8 "parse error"
  | .outOfRange => utf8 "value out of range"

def OptionError.message : OptionError → Text
  | .badSyntax arg => utf8 "bad flag syntax: " ++ arg
  | .unknown name => utf8 "flag provided but not defined: -" ++ name
  | .noArgument name => utf8 "flag needs an argument: -" ++ name
  | .badFlag name value => utf8 "invalid boolean value " ++ quoted value ++ utf8 " for -" ++ name ++
      utf8 ": parse error"
  | .badValue name value fault => utf8 "invalid value " ++ quoted value ++ utf8 " for flag -" ++ name ++
      utf8 ": " ++ describeFault fault
  | .help => []

namespace Options

def descriptions : List (String × String) :=
  [("cache string", "Path of a build cache database; unchanged templates are not recompiled."),
    ("cache-ttl duration", "Maximum age of build cache entries (0: no limit)."),
    ("in string", "A template file, or a directory to scan for *.ml.html templates."),
    ("j int", "Number of templates compiled in parallel."),
    ("log-json", "Log in JSON."),
    ("name string", "Module name when -in is a file (default: the template's base name)."),
    ("out string", "Output directory (default: next to each template)."),
    ("pkg string",
      "Package name of the generated code (default: the package found in the output directory)."),
    ("v", "Log debug messages."),
    ("watch", "Recompile when templates, includes or trailers change.")]

def usage : Text :=
  utf8 "Usage:\n" ++ descriptions.flatMap fun (name, purpose) =>
    utf8 "  -" ++ utf8 name ++ utf8 "\n    \t" ++ utf8 purpose ++ [newline]

def truth? (s : Text) : Option Bool :=
  if ["1", "t", "T", "TRUE", "true", "True"].any (utf8 · = s) then some true
  else if ["0", "f", "F", "FALSE", "false", "False"].any (utf8 · = s) then some false
  else none

def setFlag? (o : Options) (name : Text) : Option (Bool → Options) :=
  if name = utf8 "watch" then some fun b => { o with config := { o.config with watch := b } }
  else if name = utf8 "v" then some fun b => { o with format := { o.format with verbose := b } }
  else if name = utf8 "log-json" then some fun b => { o with format := { o.format with objects := b } }
  else none

def setValue? (o : Options) (name : Text) : Option (Text → Except NumberFault Options) :=
  let c := o.config
  let set (c : Config) : Except NumberFault Options := .ok { o with config := c }
  if name = utf8 "in" then some fun s => set { c with input := s }
  else if name = utf8 "out" then some fun s => set { c with output := s }
  else if name = utf8 "name" then some fun s => set { c with name := s }
  else if name = utf8 "pkg" then some fun s => set { c with package := s }
  else if name = utf8 "cache" then some fun s => set { c with cache := s }
  else if name = utf8 "cache-ttl" then some fun s =>
    match Duration.ofText? s with
    | some n => set { c with ttl := n }
    | none => .error .malformed
  else if name = utf8 "j" then some fun s => do set { c with jobs := ← toInteger s }
  else none

def head? (arg : Text) : Except OptionError (Option (Text × Option Text)) :=
  match arg with
  | hyphen :: c :: rest =>
    let body := if c = hyphen then rest else c :: rest
    match body with
    | [] => .ok none
    | first :: _ =>
      if first = hyphen || first = equal then .error (.badSyntax arg)
      else match cut? [equal] body with
        | some (name, value) => .ok (some (name, some value))
        | none => .ok (some (body, none))
  | _ => .ok none

def parseFrom (o : Options) : List Text → Except OptionError Options
  | [] => .ok o
  | arg :: args => do
    match ← head? arg with
    | none => return o
    | some (name, given) =>
      match o.setFlag? name, o.setValue? name with
      | some set, _ =>
        match given with
        | none => parseFrom (set true) args
        | some s =>
          match truth? s with
          | some b => parseFrom (set b) args
          | none => throw (.badFlag name s)
      | none, some set =>
        let apply (s : Text) : Except OptionError Options :=
          (set s).mapError (.badValue name s)
        match given with
        | some s => parseFrom (← apply s) args
        | none =>
          match args with
          | s :: rest => parseFrom (← apply s) rest
          | [] => throw (.noArgument name)
      | none, none =>
        if name = utf8 "help" || name = utf8 "h" then throw .help else throw (.unknown name)

def parse (args : List Text) : Except OptionError Options :=
  parseFrom {} args

end Options

end Stencil
