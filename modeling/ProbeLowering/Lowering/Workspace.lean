import ProbeLowering.Logical
import ProbeLowering.Lowering.RecordSchema
import ProbeLowering.Lowering.Step
import ProbeLowering.Physical

/-!
# Workspaces

A `Workspace` is a program under construction together with a registry that
says where in the program the maps, outputs and records of the current target
are.  A name that is declared again refers to its latest declaration; a record
that is registered again is replaced where it stands.
-/

namespace ProbeLowering

open Physical (Struct)

/-- Positions by name, latest declaration first. -/
abbrev Positions := List (String × Nat)

structure Registry where
  maps : Positions := []
  outputs : Positions := []
  structs : Positions := []
  deriving DecidableEq, Repr

structure Workspace where
  program : Physical.Program := {}
  registry : Registry := {}
  deriving DecidableEq, Repr

namespace Workspace

def declareMap (w : Workspace) (map : MapDecl) : Workspace where
  program := { w.program with maps := w.program.maps ++ [map] }
  registry := { w.registry with
    maps := (map.name, w.program.maps.length) :: w.registry.maps }

def declareMaps (w : Workspace) (maps : List MapDecl) : Workspace :=
  maps.foldl declareMap w

def declareOutput (w : Workspace) (output : Logical.Output) : Workspace where
  program := { w.program with
    outputs := w.program.outputs ++
      [⟨output.name, output.fields, structTypeName output.name⟩] }
  registry := { w.registry with
    outputs := (output.name, w.program.outputs.length) :: w.registry.outputs }

def declareOutputs (w : Workspace) (outputs : List Logical.Output) : Workspace :=
  outputs.foldl declareOutput w

def registerStruct (w : Workspace) (value : Struct) : Workspace :=
  match w.registry.structs.lookup value.name with
  | some index =>
      { w with program := { w.program with
          structs := w.program.structs.set index value } }
  | none =>
      { program := { w.program with structs := w.program.structs ++ [value] }
        registry := { w.registry with
          structs := (value.name, w.program.structs.length) :: w.registry.structs } }

def map? (w : Workspace) (name : String) : Except LowerError (Nat × MapDecl) :=
  match w.registry.maps.lookup name with
  | none => .error (.undeclaredMap name)
  | some index =>
      match w.program.maps[index]? with
      | none => .error (.undeclaredMap name)
      | some map => .ok (index, map)

def output? (w : Workspace) (name : String) :
    Except LowerError (Nat × Physical.PerfBuffer) :=
  match w.registry.outputs.lookup name with
  | none => .error (.undeclaredOutput name)
  | some index =>
      match w.program.outputs[index]? with
      | none => .error (.undeclaredOutput name)
      | some output => .ok (index, output)

def struct? (w : Workspace) (name : String) : Except LowerError Struct :=
  match w.registry.structs.lookup name with
  | none => .error (.undeclaredStruct name)
  | some index =>
      match w.program.structs[index]? with
      | none => .error (.undeclaredStruct name)
      | some value => .ok value

def setMap (w : Workspace) (index : Nat) (map : MapDecl) : Workspace :=
  { w with program := { w.program with maps := w.program.maps.set index map } }

def setOutput (w : Workspace) (index : Nat) (output : Physical.PerfBuffer) :
    Workspace :=
  { w with program := { w.program with
      outputs := w.program.outputs.set index output } }

def addProbe (w : Workspace) (probe : Physical.Probe) : Workspace :=
  { w with program := { w.program with probes := w.program.probes ++ [probe] } }

end Workspace

end ProbeLowering
