import ProbeLowering.Settings.LogLevel
import ProbeLowering.Text.Alphanumeric
import ProbeLowering.Text.Blank
import ProbeLowering.Text.Pieces

/-!
# Log filters

A filter is a list of directives with commas between them.  A directive is a
level, or `source[span{field}]=level` of which parts may be missing; it lets
records of the source pass up to its level.  The directive with the longest
source decides, and a record without a directive does not pass.
-/

namespace ProbeLowering

structure LogRecord where
  level : LogLevel
  source : String
  text : String
  deriving DecidableEq, Repr

def LogRecord.line (record : LogRecord) : String :=
  s!"{record.level.name} {record.source}: {record.text}\n"

def LogRecord.fields : List String := ["message"]

inductive FilterError where
  | directive
  | level
  deriving DecidableEq, Repr

namespace FilterError

def levelText : String :=
  "error parsing level filter: expected one of \"off\", \"error\", \"warn\", " ++
    "\"info\", \"debug\", \"trace\", or a number 0-5"

def chain : FilterError → List String
  | directive => ["invalid filter directive"]
  | level => [levelText, levelText]

end FilterError

structure FieldFilter where
  name : String
  hasValue : Bool
  deriving DecidableEq, Repr

/-- Zero lets nothing pass, and five every level. -/
structure Directive where
  source? : Option String := none
  span? : Option String := none
  fields : List FieldFilter := []
  rank : Nat := 5
  deriving DecidableEq, Repr

namespace Directive

def isStatic (d : Directive) : Bool :=
  d.span?.isNone && d.fields.all fun f => !f.hasValue

def sourceLength (d : Directive) : Nat := (d.source?.map String.utf8ByteSize).getD 0

def concerns (d : Directive) (record : LogRecord) : Bool :=
  (d.source?.all fun source => source.toList.isPrefixOf record.source.toList) &&
    d.fields.all fun f => LogRecord.fields.contains f.name

/-- A longer source is more specific, and among equals more fields are. -/
def isAtLeastAsSpecific (a b : Directive) : Bool :=
  match a.source?, b.source? with
  | some _, none => true
  | none, some _ => false
  | _, _ =>
      b.sourceLength < a.sourceLength ||
        (a.sourceLength == b.sourceLength && b.fields.length ≤ a.fields.length)

def number? (text : List Char) : Option Nat :=
  let digits := match text with
    | '+' :: rest => rest
    | text => text
  if digits.isEmpty || !digits.all Char.isDigit then none
  else some (digits.foldl (fun n d => n * 10 + (d.toNat - '0'.toNat)) 0)

def rank? (text : List Char) : Option Nat :=
  match number? text with
  | some n => if n ≤ 5 then some n else none
  | none =>
      let name := String.ofList (text.map Char.toLower)
      if name = "off" then some 0
      else if name = "" then some LogLevel.error.rank
      else (LogLevel.ofName? name).map LogLevel.rank

/-- Where in a directive the reader is; numbers are where a part began. -/
inductive Reading where
  | start
  | levelOrSource (first : Nat)
  | span (first : Nat)
  | field (first : Nat)
  | fields
  | source
  | level (first : Nat)
  deriving DecidableEq, Repr

def slice (text : List Char) (first stop : Nat) : List Char :=
  (text.take stop).drop first

def fieldFilter (text : List Char) : Except FilterError FieldFilter :=
  if text.isEmpty then .error .directive
  else
    let (name, rest) := text.span (· != '=')
    .ok ⟨String.ofList name, !rest.isEmpty⟩

def mayStart (c : Char) : Bool :=
  c = '-' || c = ':' || c = '_' || Text.isAlphanumeric c

def readChar (text : List Char) (place : Nat) (c : Char) :
    Reading × Directive → Except FilterError (Reading × Directive)
  | (.start, d) =>
      if c = '[' then .ok (.span (place + 1), d)
      else if mayStart c then .ok (.levelOrSource place, d)
      else .error .directive
  | (.levelOrSource first, d) =>
      let source? := some (String.ofList (slice text first place))
      if c = '=' then .ok (.level (place + 1), { d with source? })
      else if c = '[' then .ok (.span (place + 1), { d with source? })
      else .ok (.levelOrSource first, d)
  | (.span first, d) =>
      let span := String.ofList (slice text first place)
      if c = ']' then .ok (.source, { d with span? := some span })
      else if c = '\x7b' then
        .ok (.field (place + 1), { d with span? := if span.isEmpty then none else some span })
      else .ok (.span first, d)
  | (.field first, d) =>
      if c = '\x7d' then do
        let f ← fieldFilter (slice text first place)
        pure (.fields, { d with fields := d.fields ++ [f] })
      else .ok (.field first, d)
  | (.fields, d) => if c = ']' then .ok (.source, d) else .error .directive
  | (.source, d) => if c = '=' then .ok (.level (place + 1), d) else .error .directive
  | (.level first, d) => .ok (.level first, d)

def readChars (text : List Char) :
    Nat → List Char → Reading × Directive → Except FilterError (Reading × Directive)
  | _, [], state => .ok state
  | place, c :: rest, state => do
      readChars text (place + 1) rest (← readChar text place c state)

def finish (text : List Char) : Reading × Directive → Except FilterError Directive
  | (.levelOrSource first, d) =>
      match rank? (text.drop first) with
      | some rank => .ok { d with rank }
      | none => .ok { d with source? := some (String.ofList (text.drop first)) }
  | (.level first, d) =>
      let level := text.drop first
      if level.isEmpty then .ok d
      else match rank? level with
        | some rank => .ok { d with rank }
        | none => .error .level
  | (.source, d) => .ok d
  | _ => .error .directive

/-- Reads a directive without the blanks around it, but cuts parts out with them. -/
def parse (text : List Char) : Except FilterError Directive := do
  finish text (← readChars text 0 (Text.trim text) (.start, {}))

end Directive

structure LogFilter where
  directives : List Directive
  deriving DecidableEq, Repr

namespace LogFilter

def ofDirectives (directives : List Directive) : LogFilter :=
  if directives.isEmpty then ⟨[{ rank := LogLevel.error.rank }]⟩ else ⟨directives⟩

def parse (text : String) : Except FilterError LogFilter := do
  let parts := (Text.pieces ',' text).filter fun part => !part.isEmpty
  return ofDirectives (← parts.mapM fun part => Directive.parse part.toList)

/-- The most specific directive for a record; of equals the last one counts. -/
def decisive? (filter : LogFilter) (record : LogRecord) : Option Directive :=
  (filter.directives.filter fun d => d.isStatic && d.concerns record).foldl
    (fun best? d =>
      match best? with
      | none => some d
      | some best => if d.isAtLeastAsSpecific best then some d else some best) none

def passes (filter : LogFilter) (record : LogRecord) : Bool :=
  (filter.decisive? record).any fun d => record.level.rank ≤ d.rank

end LogFilter

end ProbeLowering
