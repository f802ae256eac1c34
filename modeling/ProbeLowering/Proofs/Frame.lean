import ProbeLowering.Proofs.FailedProbe
import ProbeLowering.Proofs.Footprint

/-!
# The frame of a probe

Whether the generation of a probe succeeds or fails, it changes no more than the types of
the maps that the stashes of the probe refer to and the records that are named after what
the probe stashes or sends.  Entries stay in their places, new records come after the old
ones, and the probe is added exactly if it was lowered (`frame_of_generateProbe`).
-/

namespace ProbeLowering

open DebugInfo
open Physical (Struct)
open Logical (RecordAction)

namespace Workspace

variable {w v : Workspace} {actions : List RecordAction} {action : RecordAction}
  {write : RecordWrite}

theorem mem_structs_registerStruct {value s : Struct} {i : Nat}
    (h : (w.registerStruct value).program.structs[i]? = some s) :
    w.program.structs[i]? = some s ∨ s = value := by
  unfold registerStruct at h
  split at h
  next index _ =>
    rw [List.getElem?_set] at h
    split at h
    · split at h
      · exact .inr (Option.some.inj h).symm
      · cases h
    · exact .inl h
  next =>
    rw [List.getElem?_append] at h
    split at h
    · exact .inl h
    · exact .inr (List.mem_singleton.mp (List.mem_of_getElem? h))

structure ChangedBy (actions : List RecordAction) (w v : Workspace) : Prop where
  positions : v.registry.maps = w.registry.maps
  maps : ∀ i, v.program.maps[i]? = w.program.maps[i]? ∨
    ∃ action, .stash action ∈ actions ∧ w.registry.maps.lookup action.mapName = some i
  names : w.program.structs.map Struct.name <+: v.program.structs.map Struct.name
  structs : ∀ (i : Nat) (s : Struct), v.program.structs[i]? = some s →
    w.program.structs[i]? = some s ∨ ∃ action ∈ actions, s.name = structTypeName action.owner

instance : IsPreorder Workspace (ChangedBy actions) where
  refl _ := ⟨rfl, fun _ => .inl rfl, List.prefix_rfl, fun _ _ h => .inl h⟩
  trans w v u h h' := by
    refine ⟨h'.positions.trans h.positions, fun i => ?_, h.names.trans h'.names, ?_⟩
    · rcases h'.maps i with hsame | ⟨action, haction, hi⟩
      · rw [hsame]
        exact h.maps i
      · rw [h.positions] at hi
        exact .inr ⟨action, haction, hi⟩
    · intro i s hs
      rcases h'.structs i s hs with hs | hnamed
      · exact h.structs i s hs
      · exact .inr hnamed

theorem Located.changedBy_apply (h : w.Located) (hfits : write.Fits w action)
    (haction : action ∈ actions) : w.ChangedBy actions (write.apply w) := by
  refine ⟨(h.sameDeclarations_apply hfits).mapPositions, fun i => ?_, ?_, fun i s hs => ?_⟩
  · rw [maps_apply]
    cases hfits with
    | @map action index decl record hentry hname =>
        obtain ⟨hindex, -⟩ := map?_ok.mp hentry
        simp only [RecordWrite.typedMap?]
        by_cases hi : index = i
        · exact .inr ⟨action, haction, hi ▸ hindex⟩
        · exact .inl (List.getElem?_set_ne hi)
    | output => exact .inl rfl
  · rw [write.apply_eq, (h.structs.setEntry write).names_registerStruct, structs_setEntry]
    split
    · exact List.prefix_rfl
    · exact List.prefix_append _ _
  · rw [write.apply_eq] at hs
    rcases mem_structs_registerStruct hs with hs | rfl
    · exact .inl (structs_setEntry write w ▸ hs)
    · exact .inr ⟨action, haction, hfits.record_name⟩

/--
All that the generation of `input` may change, in whatever way it ends.  The probes of
the program are left to `frame_of_generateProbe`.
-/
structure FramedBy (input : Logical.Probe) (w v : Workspace) : Prop where
  target : v.program.target = w.program.target
  language : v.program.language = w.program.language
  mapNames : v.program.maps.map MapDecl.name = w.program.maps.map MapDecl.name
  /-- A map gets other types only as the entry that a stash refers to. -/
  maps : ∀ i, v.program.maps[i]? ≠ w.program.maps[i]? →
    ∃ action ∈ input.stashes, w.registry.maps.lookup action.mapName = some i
  /-- An output has the type that is written to it from its declaration on. -/
  outputs : v.program.outputs = w.program.outputs
  structNames : w.program.structs.map Struct.name <+: v.program.structs.map Struct.name
  structs : ∀ (i : Nat) (s : Struct), v.program.structs[i]? = some s →
    w.program.structs[i]? ≠ some s →
      ∃ name ∈ input.writtenNames, s.name = structTypeName name

theorem Located.framedBy_lowerProbe {facts : Facts} {language : Language} (h : w.Located)
    (input : Logical.Probe) :
    w.FramedBy input (w.lowerProbe facts language input).2 := by
  have hsame : w.SameDeclarations (w.lowerProbe facts language input).2 :=
    (h.lowerProbe input).2
  have hchanged : w.ChangedBy input.recordActions (w.lowerProbe facts language input).2 :=
    (related_of_lowerProbe (R := Under Located (ChangedBy input.recordActions))
      (fun _ haction _ _ hfits hw => ⟨hw.apply hfits, hw.changedBy_apply hfits haction⟩) w h).2
  refine ⟨hsame.target, hsame.language, hsame.mapNames, fun i hi => ?_, hsame.outputs,
    hchanged.names, fun i s hs hnew => ?_⟩
  · obtain ⟨action, haction, hindex⟩ := (hchanged.maps i).resolve_left hi
    exact ⟨action, by simpa [Logical.Probe.recordActions] using haction, hindex⟩
  · obtain ⟨action, haction, hname⟩ := (hchanged.structs i s hs).resolve_left hnew
    exact ⟨action.owner, List.mem_map_of_mem haction, hname⟩

/--
Generating a probe stays in the frame of the probe, whether it succeeds or fails, and adds
one probe if it succeeds and none if it fails.
-/
theorem frame_of_generateProbe {facts : Facts} {language : Language}
    (hw : w.Reachable facts language) {input : Logical.Probe}
    {outcome : Except LowerError Unit}
    (h : (generateProbe facts language input).runFrom w = (outcome, v)) :
    w.FramedBy input v ∧
      (outcome = .ok () ∧ (∃ probe, (w.lowerProbe facts language input).1 = .ok probe ∧
          v.program.probes = w.program.probes ++ [probe]) ∨
        (∃ e, outcome = .error e) ∧ v.program.probes = w.program.probes) := by
  have hframed : w.FramedBy input (w.lowerProbe facts language input).2 :=
    hw.located.framedBy_lowerProbe input
  have hprobes : (w.lowerProbe facts language input).2.program.probes = w.program.probes :=
    (hw.located.lowerProbe input).2.probes
  rw [runFrom_generateProbe] at h
  rcases hlowered : w.lowerProbe facts language input with ⟨e | probe, u⟩
  · rw [hlowered] at h hframed hprobes
    cases h
    exact ⟨hframed, .inr ⟨⟨_, rfl⟩, hprobes⟩⟩
  · rw [hlowered] at h hframed hprobes
    cases h
    have hadded : (u.addProbe probe).program.probes = w.program.probes ++ [probe] :=
      congrArg (· ++ [probe]) hprobes
    refine ⟨?_, .inl ⟨rfl, probe, rfl, hadded⟩⟩
    exact ⟨hframed.target, hframed.language, hframed.mapNames, hframed.maps,
      hframed.outputs, hframed.structNames, hframed.structs⟩

def mixedWorkspace : Workspace :=
  serveAll callFacts .c mixedSession.dropLast { program := {} }

theorem frame_of_generateProbe_mixedSession :
    mixedWorkspace.Reachable callFacts .c ∧
      (∃ v, (generateProbe callFacts .c keyedProbe).runFrom mixedWorkspace = (.ok (), v) ∧
        mixedWorkspace.FramedBy keyedProbe v ∧
        v.program.structs.map (·.name) = ["calls_value_t", "events_value_t"] ∧
        ∃ probe, v.program.probes = mixedWorkspace.program.probes ++ [probe]) ∧
      callsWorkspace.Reachable callFacts .c ∧
        ∃ e v, (generateProbe callFacts .c keylessProbe).runFrom callsWorkspace =
            (.error e, v) ∧
          callsWorkspace.FramedBy keylessProbe v ∧
          v.program.probes = callsWorkspace.program.probes := by
  have hmixed : mixedWorkspace.Reachable callFacts .c := ⟨{}, _, rfl⟩
  have hcalls : callsWorkspace.Reachable callFacts .c := ⟨{}, _, rfl⟩
  have hkeyed : (generateProbe callFacts .c keyedProbe).runFrom mixedWorkspace =
      (.ok (), mixedWorkspace.serve callFacts .c (.generateProbe keyedProbe)) := by
    decide +kernel
  have hkeyless : (generateProbe callFacts .c keylessProbe).runFrom callsWorkspace =
      (.error (.inProbe "keyless" (.builtinNotFound .goid)),
        callsWorkspace.serve callFacts .c (.generateProbe keylessProbe)) := by
    decide +kernel
  obtain ⟨hframed, ⟨-, probe, -, hadded⟩ | ⟨⟨_, hfailed⟩, -⟩⟩ :=
    frame_of_generateProbe hmixed hkeyed
  · obtain ⟨hframed', ⟨hdone, -⟩ | ⟨-, hsame⟩⟩ := frame_of_generateProbe hcalls hkeyless
    · cases hdone
    · exact ⟨hmixed, ⟨_, hkeyed, hframed, by decide +kernel, probe, hadded⟩, hcalls, _, _,
        hkeyless, hframed', hsame⟩
  · cases hfailed

end Workspace

end ProbeLowering
