/-!
# Log levels

Levels are ordered from the most to the least severe.  Their names are read in
letters of either case on the command line, and in lower case in files.
-/

namespace ProbeLowering

inductive LogLevel where
  | error
  | warn
  | info
  | debug
  | trace
  deriving DecidableEq, Repr

namespace LogLevel

def all : List LogLevel := [error, warn, info, debug, trace]

def name : LogLevel → String
  | error => "error"
  | warn => "warn"
  | info => "info"
  | debug => "debug"
  | trace => "trace"

def rank : LogLevel → Nat
  | error => 1
  | warn => 2
  | info => 3
  | debug => 4
  | trace => 5

def ofName? (name : String) : Option LogLevel :=
  all.find? fun level => level.name = name

structure UnknownLevel where
  text : String
  deriving DecidableEq, Repr

def UnknownLevel.message (e : UnknownLevel) : String :=
  s!"Invalid log level: {e.text}. Valid options: " ++
    ", ".intercalate (all.map LogLevel.name)

/-- The names hold no letter that is the lower case of one outside ASCII. -/
def parse (text : String) : Except UnknownLevel LogLevel :=
  match ofName? (String.ofList (text.toList.map Char.toLower)) with
  | some level => .ok level
  | none => .error ⟨text⟩

end LogLevel

end ProbeLowering
