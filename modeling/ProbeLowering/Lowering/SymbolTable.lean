import ProbeLowering.Lowering.Error

/-!
# Symbol tables

The variables declared so far in one probe, in order of declaration.  A name
is declared at most once.
-/

namespace ProbeLowering

inductive Symbol where
  | scalar (type : ScalarType)
  | aggregate
  deriving DecidableEq, Repr

structure SymbolTable where
  entries : List (String × Symbol) := []
  nodup : (entries.map Prod.fst).Nodup := by simp
  deriving DecidableEq, Repr

namespace SymbolTable

def empty : SymbolTable := {}

def contains (table : SymbolTable) (name : String) : Bool :=
  decide (name ∈ table.entries.map Prod.fst)

def symbol? (table : SymbolTable) (name : String) : Option Symbol :=
  table.entries.lookup name

def size (table : SymbolTable) : Nat := table.entries.length

def isEmpty (table : SymbolTable) : Bool := table.entries.isEmpty

private theorem nodup_append {entries : List (String × Symbol)} {name : String}
    {symbol : Symbol} (h : (entries.map Prod.fst).Nodup)
    (hname : name ∉ entries.map Prod.fst) :
    ((entries ++ [(name, symbol)]).map Prod.fst).Nodup := by
  rw [List.map_append, List.nodup_append]
  refine ⟨h, by simp, ?_⟩
  intro a ha b hb
  simp only [List.map_cons, List.map_nil, List.mem_singleton] at hb
  subst hb
  exact fun heq => hname (heq ▸ ha)

def declare (table : SymbolTable) (name : String) (symbol : Symbol) :
    Except LowerError SymbolTable :=
  if h : name ∈ table.entries.map Prod.fst then .error (.duplicateVariable name)
  else .ok ⟨table.entries ++ [(name, symbol)], nodup_append table.nodup h⟩

def scalarType? (table : SymbolTable) (name : String) : Option ScalarType :=
  match table.symbol? name with
  | some (.scalar type) => some type
  | _ => none

def requireScalar (table : SymbolTable) (owner name : String) :
    Except LowerError ScalarType :=
  match table.scalarType? name with
  | some type => .ok type
  | none => .error (.unknownVariable owner name)

end SymbolTable

end ProbeLowering
