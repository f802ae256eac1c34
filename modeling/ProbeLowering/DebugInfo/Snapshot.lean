import ProbeLowering.DebugInfo.Facts

/-!
# Recorded debug facts

A `Snapshot` holds facts that were extracted ahead of time, keyed by function
symbol and by record name.
-/

namespace ProbeLowering.DebugInfo

structure FunctionFacts where
  args : NameMap ArgInfo := {}
  retval : RetValInfo := {}
  deriving DecidableEq, Repr

structure Snapshot where
  functions : NameMap FunctionFacts := {}
  structs : NameMap (NameMap MemberInfo) := {}
  deriving DecidableEq, Repr

namespace Snapshot

def withFunction (s : Snapshot) (symbol : String) : Snapshot :=
  { s with functions := s.functions.alter symbol {} id }

def withArg (s : Snapshot) (symbol name : String) (info : ArgInfo) : Snapshot :=
  { s with functions := s.functions.alter symbol {} fun f =>
      { f with args := f.args.insert name info } }

def withRetval (s : Snapshot) (symbol : String) (info : RetValInfo) : Snapshot :=
  { s with functions := s.functions.alter symbol {} fun f =>
      { f with retval := info } }

def withMember (s : Snapshot) (typeName field : String) (info : MemberInfo) :
    Snapshot :=
  { s with structs := s.structs.alter typeName {} fun members =>
      members.insert field info }

def function? (s : Snapshot) (symbol : String) :
    Except LookupError FunctionFacts :=
  match s.functions.get? symbol with
  | some f => .ok f
  | none => .error (.functionNotFound symbol)

def member? (s : Snapshot) (typeName field : String) :
    Except LookupError MemberInfo :=
  match s.structs.get? typeName with
  | none => .error (.structNotFound typeName)
  | some members =>
      match members.get? field with
      | none => .error (.memberNotFound typeName field)
      | some info => .ok info

def facts (s : Snapshot) : Facts where
  args symbol := (s.function? symbol).map (·.args)
  retval symbol := (s.function? symbol).map (·.retval)
  member typeName field := s.member? typeName field

end Snapshot

end ProbeLowering.DebugInfo
