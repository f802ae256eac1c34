import ProbeLowering.Dwarf.Facts
import ProbeLowering.Proofs.TypeChains

/-!
# Operations of location expressions

The bytes of an expression are a sequence of operations, each of which starts where the one
before it ends (`Consists`).  Offsets are taken from its first operation (`Begins`), so that
they do not depend on what follows it.
-/

namespace ProbeLowering.Dwarf

section Units

variable {s : Sections} {unit : CompilationUnit} {header : UnitHeader}

theorem exists_header_of_unitsFrom {fuel : Nat} {c : Cursor}
    (h : unit ∈ (s.unitsFrom fuel c).items) : ∃ header, s.buildUnit header = .ok unit := by
  induction fuel generalizing c with
  | zero => cases h
  | succ fuel ih =>
      rw [Sections.unitsFrom] at h
      split at h
      next => cases h
      next =>
        split at h
        next => cases h
        next header rest _ =>
          split at h
          next => cases h
          next first hfirst =>
            rcases List.mem_cons.mp h with rfl | h
            · exact ⟨header, hfirst⟩
            · exact ih h

theorem exists_header (h : unit ∈ s.units.items) : ∃ header, s.buildUnit header = .ok unit :=
  exists_header_of_unitsFrom h

theorem firstOperation?_of_buildUnit (h : s.buildUnit header = .ok unit) :
    unit.firstOperation? = Operation.first? header.encoding s.order := by
  obtain ⟨abbreviations, -, h⟩ := exists_ok_of_bind h
  obtain ⟨root, -, h⟩ := exists_ok_of_bind h
  obtain ⟨_, -, h⟩ := exists_ok_of_bind h
  obtain ⟨_, -, h⟩ := exists_ok_of_bind h
  cases h
  rfl

end Units

inductive OperationsFrom (e : Encoding) : Cursor → List Operation → Prop where
  | done {c : Cursor} (hend : c.isEmpty = true) : OperationsFrom e c []
  | next {c rest : Cursor} {op : Operation} {ops : List Operation} (hmore : c.isEmpty = false)
      (hop : Operation.decode e c = .ok (op, rest)) (hops : OperationsFrom e rest ops) :
      OperationsFrom e c (op :: ops)

def Consists (e : Encoding) (order : ByteOrder) (bytes : ByteArray) (ops : List Operation) : Prop :=
  OperationsFrom e (Cursor.ofBytes order bytes) ops

def Begins (e : Encoding) (order : ByteOrder) (bytes : ByteArray) (op : Operation) : Prop :=
  bytes.isEmpty = false ∧ ∃ rest, Operation.decode e (Cursor.ofBytes order bytes) = .ok (op, rest)

section Sequences

variable {e : Encoding} {order : ByteOrder} {bytes : ByteArray} {op : Operation}
  {ops : List Operation}

theorem OperationsFrom.unique {c : Cursor} {other : List Operation} (h : OperationsFrom e c ops)
    (h' : OperationsFrom e c other) : ops = other := by
  induction h generalizing other with
  | done hend =>
      cases h' with
      | done => rfl
      | next hmore => simp [hend] at hmore
  | next hmore hop _ ih =>
      cases h' with
      | done hend => simp [hmore] at hend
      | next _ hop' hops' =>
          cases hop.symm.trans hop'
          rw [ih hops']

theorem isEmpty_ofBytes : (Cursor.ofBytes order bytes).isEmpty = bytes.isEmpty := by
  change decide (bytes.size ≤ 0) = (bytes.size == 0)
  rw [Bool.eq_iff_iff, decide_eq_true_eq, beq_iff_eq, Nat.le_zero]

theorem Consists.begins (h : Consists e order bytes (op :: ops)) : Begins e order bytes op := by
  cases h with
  | next hmore hop _ => exact ⟨by rw [← isEmpty_ofBytes, hmore], _, hop⟩

theorem first?_eq_some_iff :
    Operation.first? e order bytes = .ok (some op) ↔ Begins e order bytes op := by
  unfold Operation.first? Begins
  cases hempty : bytes.isEmpty with
  | true => simp
  | false =>
      cases hop : Operation.decode e (Cursor.ofBytes order bytes) with
      | error fault => simp [Except.map]
      | ok result =>
          obtain ⟨found, rest⟩ := result
          simp [Except.map]

end Sequences

end ProbeLowering.Dwarf
