import Stencil.Text.Basic

namespace Stencil

structure LogLevel where
  value : Int
  deriving DecidableEq, Repr

namespace LogLevel

def debug : LogLevel := ⟨-4⟩

def info : LogLevel := ⟨0⟩

def warn : LogLevel := ⟨4⟩

def error : LogLevel := ⟨8⟩

end LogLevel

inductive LogValue where
  | text (s : Text)
  | int (n : Int)
  | texts (list : List Text)
  deriving DecidableEq, Repr

structure LogRecord where
  level : LogLevel
  message : Text
  attrs : List (Text × LogValue)
  deriving DecidableEq, Repr

end Stencil
