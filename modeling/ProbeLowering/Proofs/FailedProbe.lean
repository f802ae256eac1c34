import ProbeLowering.Proofs.Session

/-!
# Probes that fail

A probe is added to the program only when all of its parts succeeded, but its
stashes and outputs write to the program as they are lowered, and a stash writes
before it asks for its key.  A probe that fails leaves what was written so far:
maps may be typed and records registered or replaced.  Nothing else changes, and
nothing at all if each of these writes found what it was going to write
(`program_of_failed_probe`).
-/

namespace ProbeLowering

open DebugInfo

def RecordWrite.Settled (w : Workspace) : RecordWrite → Prop
  | .map index decl record =>
      w.program.maps[index]? =
          some { decl with keyType := some .uint64, valueStruct := some record.name } ∧
        w.struct? record.name = .ok record
  | .output index buffer event =>
      w.program.outputs[index]? = some { buffer with structType := event.name } ∧
        w.struct? event.name = .ok event

instance (w : Workspace) (write : RecordWrite) : Decidable (write.Settled w) :=
  match write with
  | .map .. => inferInstanceAs (Decidable (_ ∧ _))
  | .output .. => inferInstanceAs (Decidable (_ ∧ _))

namespace Workspace

theorem registerStruct_of_struct? {w : Workspace} {value : Physical.Struct}
    (h : w.struct? value.name = .ok value) : w.registerStruct value = w := by
  obtain ⟨i, hi, hvalue⟩ := struct?_ok.mp h
  obtain ⟨hlt, hsame⟩ := List.getElem?_eq_some_iff.mp hvalue
  have hset : w.program.structs.set i value = w.program.structs := by
    rw [← hsame, List.set_getElem_self]
  simp [registerStruct, hi, hset]

theorem setEntry_of_settled {w : Workspace} {write : RecordWrite} (h : write.Settled w) :
    write.setEntry w = w := by
  cases write with
  | map index decl record =>
      obtain ⟨hentry, -⟩ := h
      obtain ⟨hlt, hdecl⟩ := List.getElem?_eq_some_iff.mp hentry
      simp [RecordWrite.setEntry, setMap, ← hdecl]
  | output index buffer event =>
      obtain ⟨hentry, -⟩ := h
      obtain ⟨hlt, hbuffer⟩ := List.getElem?_eq_some_iff.mp hentry
      simp [RecordWrite.setEntry, setOutput, ← hbuffer]

theorem struct?_of_settled {w : Workspace} {write : RecordWrite} (h : write.Settled w) :
    w.struct? write.record.name = .ok write.record := by
  cases write with
  | map => exact h.2
  | output => exact h.2

theorem apply_of_settled {w : Workspace} {write : RecordWrite} (h : write.Settled w) :
    write.apply w = w := by
  rw [write.apply_eq, setEntry_of_settled h, registerStruct_of_struct? (struct?_of_settled h)]

theorem applyAll_of_settled {w : Workspace} {writes : List RecordWrite}
    (h : ∀ write ∈ writes, write.Settled w) : RecordWrite.applyAll writes w = w := by
  induction writes with
  | nil => rfl
  | cons write rest ih =>
      have hfirst : write.apply w = w := apply_of_settled (h write (by simp))
      rw [RecordWrite.applyAll_cons, hfirst]
      exact ih fun next hnext => h next (by simp [hnext])

/--
A probe that fails leaves the workspace with its writes applied.  These change the
types of maps and the records only, and they leave the program as it was if all that
they write is there already.
-/
theorem program_of_failed_probe {facts : Facts} {language : Language} {w v : Workspace}
    (hw : w.Reachable facts language) {input : Logical.Probe} {e : LowerError}
    (h : (generateProbe facts language input).runFrom w = (.error e, v)) :
    v = RecordWrite.applyAll (w.probeWrites facts language input) w ∧
      w.SameDeclarations v ∧
      ((∀ write ∈ w.probeWrites facts language input, write.Settled w) →
        v.program = w.program) := by
  rw [runFrom_generateProbe] at h
  have hv : (w.lowerProbe facts language input).2 = v := by
    split at h
    next hlowered =>
      cases h
      rw [hlowered]
    next => cases h
  have hsame : w.SameDeclarations (w.lowerProbe facts language input).2 :=
    (hw.located.lowerProbe input).2
  rw [hv] at hsame
  rw [workspace_of_lowerProbe] at hv
  refine ⟨hv.symm, hsame, fun hsettled => ?_⟩
  rw [← hv, applyAll_of_settled hsettled]

def callsWorkspace : Workspace := serveAll callFacts .c callsDeclared { program := {} }

theorem failed_probe_changes_program :
    callsWorkspace.Reachable callFacts .c ∧
      ∃ v, (generateProbe callFacts .c keylessProbe).runFrom callsWorkspace =
          (.error (.inProbe "keyless" (.builtinNotFound .goid)), v) ∧
        callsWorkspace.program.structs = [] ∧
        v.program.structs = [⟨"calls_value_t", [⟨"time_", .uint64⟩]⟩] ∧
        v.program ≠ callsWorkspace.program := by
  have hrun : (generateProbe callFacts .c keylessProbe).runFrom callsWorkspace =
      (.error (.inProbe "keyless" (.builtinNotFound .goid)),
        callsWorkspace.serve callFacts .c (.generateProbe keylessProbe)) := by
    decide +kernel
  exact ⟨⟨{}, callsDeclared, rfl⟩, _, hrun, by decide +kernel, by decide +kernel,
    by decide +kernel⟩

def keylessWorkspace : Workspace :=
  serveAll callFacts .c (callsDeclared ++ [.generateProbe keylessProbe]) { program := {} }

theorem program_of_failed_probe_keylessProbe :
    keylessWorkspace.Reachable callFacts .c ∧
      ∃ v, (generateProbe callFacts .c keylessProbe).runFrom keylessWorkspace =
          (.error (.inProbe "keyless" (.builtinNotFound .goid)), v) ∧
        (keylessWorkspace.probeWrites callFacts .c keylessProbe).map RecordWrite.record =
          [⟨"calls_value_t", [⟨"time_", .uint64⟩]⟩] ∧
        v.program = keylessWorkspace.program := by
  have hw : keylessWorkspace.Reachable callFacts .c := ⟨{}, _, rfl⟩
  have hrun : (generateProbe callFacts .c keylessProbe).runFrom keylessWorkspace =
      (.error (.inProbe "keyless" (.builtinNotFound .goid)), keylessWorkspace) := by
    decide +kernel
  obtain ⟨-, -, hsettled⟩ := program_of_failed_probe hw hrun
  exact ⟨hw, _, hrun, by decide +kernel, hsettled (by decide +kernel)⟩

end Workspace

end ProbeLowering
