import ProbeLowering.Lowering.AccessChain

/-!
# Results

A result expression starts with a placeholder.  Go leaves results in stack
slots, which are arguments with names of their own; C and C++ leave the one
result in the return register.
-/

namespace ProbeLowering

open DebugInfo

/-- Name of the stack slot that holds an unnamed Go result. -/
def goReturnSlot (index : Nat) : String := s!"~r{index}"

/--
A result of base kind is the register itself, fields or not; a pointer is
walked from the register; other kinds have no scalar in a register.
-/
def lowerRegisterReturn (setting : Setting) (id : String) (fields : List String) :
    Step Scope Unit := do
  let retval := setting.retval
  match retval.kind with
  | .base =>
      let type ← .query fun _ =>
        resolveScalarType setting.language .base retval.typeName
      Scope.addScalar id type (.register .rc)
  | .pointer =>
      if (← get).symbols.contains returnRegisterVariable then
        lowerAccessChain setting id
          ⟨.returnRegister, 0, .pointer, retval.typeName⟩ fields
      else throw (.unknownVariable id returnRegisterVariable)
  | .void => throw (.voidReturnValue (← get).symbol)
  | .struct => throw (.unhandledType .struct retval.typeName)

def lowerReturnValue (setting : Setting) (value : Logical.ReturnValue) :
    Step Scope Unit :=
  match Expression.parse? value.expr with
  | none => throw (.emptyExpression .returnValue value.id)
  | some expr =>
      match Expression.returnIndex? expr.root with
      | none => throw (.invalidReturnExpression value.expr)
      | some index =>
          match setting.language with
          | .go => do
              let info ← setting.argInfo (goReturnSlot index)
              lowerAccessChain setting value.id (.stack info) expr.fields
          | .c | .cpp =>
              if index = 0 then lowerRegisterReturn setting value.id expr.fields
              else throw (.unsupportedReturnIndex setting.language index)
          | .unknown => throw (.unsupportedReturnLanguage .unknown)

end ProbeLowering
