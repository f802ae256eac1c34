import ProbeLowering.Lowering.Deployment
import ProbeLowering.Proofs.Action

/-!
# The parts of a probe

`Build.parts` lists the steps that a probe is lowered by, one for each entry of
the logical probe, and `lowerParts_eq_sequence` says that lowering runs through
this list.  The parts come in four phases, which declare different kinds of
variables: `declareParts` and the latency declare scalars, `readParts` map
handles and members, `writeParts` records.  Only `writeParts` change the
workspace.  A `Logical.Part` is such a part before it is made a step, for
statements that tell one kind of part from another (`map_step_parts`).
-/

namespace ProbeLowering

open DebugInfo
open Physical (Variable)

namespace Build

def valueParts (setting : Setting) (input : Logical.Probe) :
    List (Step Build Unit) :=
  input.consts.map (onScope ∘ Scope.addConstant) ++
    input.args.map (onScope ∘ lowerArgument setting) ++
    input.retVals.map (onScope ∘ lowerReturnValue setting)

def declareParts (setting : Setting) (input : Logical.Probe) :
    List (Step Build Unit) :=
  onScope (Scope.addSpecialVariables setting.language) :: valueParts setting input

def readParts (input : Logical.Probe) : List (Step Build Unit) :=
  input.mapVals.map readMap

def latencyParts (input : Logical.Probe) : List (Step Build Unit) :=
  input.latency.toList.map (onScope ∘ Scope.addLatency)

def writeParts (language : Language) (input : Logical.Probe) :
    List (Step Build Unit) :=
  input.stashes.map stash ++ input.deletes.map delete ++
    input.outputs.map (output language) ++
    [changeProbe fun probe => { probe with printks := input.printks }]

def parts (setting : Setting) (input : Logical.Probe) : List (Step Build Unit) :=
  declareParts setting input ++ readParts input ++ latencyParts input ++
    writeParts setting.language input

theorem lowerParts_eq_sequence (setting : Setting) (input : Logical.Probe) :
    lowerParts setting input = Step.sequence (parts setting input) := by
  unfold lowerParts parts declareParts valueParts readParts latencyParts writeParts
  simp only [Step.forM_eq_sequence, Step.sequence, Step.sequence_append, onScope_bind,
    onScope_sequence, List.map_map, bind_assoc]
  cases input.latency <;> simp

end Build

namespace Logical

inductive Part where
  | special
  | constant (constant : Constant)
  | argument (arg : Argument)
  | returnValue (value : ReturnValue)
  | read (value : MapValue)
  | latency (latency : FunctionLatency)
  | stash (action : StashAction)
  | delete (action : DeleteAction)
  | output (action : OutputAction)
  | printks (lines : List Printk)
  deriving DecidableEq, Repr

def Probe.parts (probe : Probe) : List Part :=
  .special :: (probe.consts.map .constant ++ probe.args.map .argument ++
      probe.retVals.map .returnValue) ++
    probe.mapVals.map .read ++ probe.latency.toList.map .latency ++
    (probe.stashes.map .stash ++ probe.deletes.map .delete ++ probe.outputs.map .output ++
      [.printks probe.printks])

def Part.step (setting : Setting) : Part → Step Build Unit
  | .special => Build.onScope (Scope.addSpecialVariables setting.language)
  | .constant value => Build.onScope (Scope.addConstant value)
  | .argument arg => Build.onScope (lowerArgument setting arg)
  | .returnValue value => Build.onScope (lowerReturnValue setting value)
  | .read value => Build.readMap value
  | .latency asked => Build.onScope (Scope.addLatency asked)
  | .stash action => Build.stash action
  | .delete action => Build.delete action
  | .output action => Build.output setting.language action
  | .printks lines => Build.changeProbe fun probe => { probe with printks := lines }

end Logical

namespace Build

theorem map_step_parts (setting : Setting) (input : Logical.Probe) :
    input.parts.map (Logical.Part.step setting) = parts setting input := by
  simp only [Logical.Probe.parts, parts, declareParts, valueParts, readParts, latencyParts,
    writeParts, List.map_append, List.map_cons, List.map_nil, List.map_map,
    List.cons_append]
  rfl

section Growth

variable {P : Variable → Prop} {setting : Setting} {language : Language}
  {input : Logical.Probe} {part : Step Build Unit}

theorem keeps_declareParts (hscalar : ∀ x, P (.scalar x))
    (h : part ∈ declareParts setting input) : Step.Keeps (Extends P) part := by
  simp only [declareParts, valueParts, List.mem_cons, List.mem_append, List.mem_map,
    Function.comp_apply] at h
  rcases h with rfl | (⟨c, -, rfl⟩ | ⟨arg, -, rfl⟩) | ⟨value, -, rfl⟩
  · exact keeps_onScope (Scope.keeps_addSpecialVariables hscalar _)
  · exact keeps_onScope (Scope.keeps_addScalar hscalar _ _ _)
  · exact keeps_onScope (keeps_lowerArgument hscalar setting arg)
  · exact keeps_onScope (keeps_lowerReturnValue hscalar setting value)

theorem keeps_readParts (hmap : ∀ x, P (.map x)) (hmember : ∀ x, P (.member x))
    (h : part ∈ readParts input) : Step.Keeps (Extends P) part := by
  obtain ⟨value, -, rfl⟩ := List.mem_map.mp h
  exact keeps_readMap hmap hmember value

theorem keeps_latencyParts (hscalar : ∀ x, P (.scalar x))
    (h : part ∈ latencyParts input) : Step.Keeps (Extends P) part := by
  obtain ⟨latency, -, rfl⟩ := List.mem_map.mp h
  exact keeps_onScope (Scope.keeps_addLatency hscalar latency)

theorem keeps_writeParts (hstruct : ∀ x, P (.struct x))
    (h : part ∈ writeParts language input) : Step.Keeps (Extends P) part := by
  simp only [writeParts, List.mem_append, List.mem_map, List.mem_singleton] at h
  rcases h with ((⟨action, -, rfl⟩ | ⟨action, -, rfl⟩) | ⟨action, -, rfl⟩) | rfl
  · exact keeps_stash hstruct action
  · exact keeps_delete action
  · exact keeps_output hstruct language action
  · exact keeps_changeProbe fun _ => rfl

theorem keeps_parts (hP : ∀ v, P v) (h : part ∈ parts setting input) :
    Step.Keeps (Extends P) part := by
  simp only [parts, List.mem_append] at h
  rcases h with ((h | h) | h) | h
  · exact keeps_declareParts (fun _ => hP _) h
  · exact keeps_readParts (fun _ => hP _) (fun _ => hP _) h
  · exact keeps_latencyParts (fun _ => hP _) h
  · exact keeps_writeParts (fun _ => hP _) h

theorem exists_run_of_mem_valueParts (h : part ∈ valueParts setting input)
    {b c : Build}
    (hrun : (Step.sequence (parts setting input)).runFrom b = (.ok (), c)) :
    ∃ s t t',
      (Scope.addSpecialVariables setting.language).runFrom b.scope = (.ok (), s) ∧
      s.Extends (fun _ => True) t.scope ∧ part.runFrom t = (.ok (), t') ∧
      t'.Extends (fun _ => True) c := by
  have hparts : parts setting input =
      onScope (Scope.addSpecialVariables setting.language) ::
        (valueParts setting input ++ readParts input ++ latencyParts input ++
          writeParts setting.language input) := rfl
  rw [hparts] at hrun
  obtain ⟨u, hspecial, hrest⟩ := Step.runFrom_sequence_cons_ok.mp hrun
  have hkeeps : ∀ next ∈ valueParts setting input ++ readParts input ++
      latencyParts input ++ writeParts setting.language input,
      Step.Keeps (Extends fun _ => True) next := by
    intro next hnext
    have hmem : next ∈ parts setting input := by
      rw [hparts]
      exact List.mem_cons_of_mem _ hnext
    exact keeps_parts (fun _ => trivial) hmem
  have hmem : part ∈ valueParts setting input ++ readParts input ++
      latencyParts input ++ writeParts setting.language input := by simp [h]
  obtain ⟨t, t', hut, hpart, htc⟩ := Step.exists_run_of_mem hkeeps hmem hrest
  exact ⟨u.scope, t, t', (runFrom_onScope_ok.mp hspecial).1, hut, hpart, htc⟩

end Growth

def OnWorkspace (R : Workspace → Workspace → Prop) (b c : Build) : Prop :=
  R b.workspace c.workspace

section Workspace

variable {R : Workspace → Workspace → Prop} [IsPreorder Workspace R]
  {setting : Setting} {language : Language} {input : Logical.Probe}
  {part : Step Build Unit}

instance : IsPreorder Build (OnWorkspace R) where
  refl b := refl_of R b.workspace
  trans _ _ _ := trans_of R

theorem keeps_onScope_onWorkspace {α : Type} (step : Step Scope α) :
    Step.Keeps (OnWorkspace R) (onScope step) :=
  fun b => refl_of R b.workspace

theorem keeps_declareParts_onWorkspace (h : part ∈ declareParts setting input) :
    Step.Keeps (OnWorkspace R) part := by
  simp only [declareParts, valueParts, List.mem_cons, List.mem_append, List.mem_map,
    Function.comp_apply] at h
  rcases h with rfl | (⟨_, -, rfl⟩ | ⟨_, -, rfl⟩) | ⟨_, -, rfl⟩
  all_goals exact keeps_onScope_onWorkspace _

theorem keeps_readParts_onWorkspace (h : part ∈ readParts input) :
    Step.Keeps (OnWorkspace R) part := by
  obtain ⟨value, -, rfl⟩ := List.mem_map.mp h
  rw [readMap_eq]
  exact (Step.Keeps.query _).bind fun _ => keeps_onScope_onWorkspace _

theorem keeps_latencyParts_onWorkspace (h : part ∈ latencyParts input) :
    Step.Keeps (OnWorkspace R) part := by
  obtain ⟨_, -, rfl⟩ := List.mem_map.mp h
  exact keeps_onScope_onWorkspace _

theorem keeps_writeParts_onWorkspace
    (hmap : ∀ index map record w, R w (writeMap index map record w))
    (hbuffer : ∀ index buffer event w, R w (writeBuffer index buffer event w))
    (h : part ∈ writeParts language input) : Step.Keeps (OnWorkspace R) part := by
  simp only [writeParts, List.mem_append, List.mem_map, List.mem_singleton] at h
  rcases h with ((⟨action, -, rfl⟩ | ⟨action, -, rfl⟩) | ⟨action, -, rfl⟩) | rfl
  · rw [stash_eq]
    refine (Step.Keeps.query _).bind fun (index, map, record) => ?_
    refine Step.Keeps.bind (fun b => hmap index map record b.workspace) fun _ => ?_
    exact (keeps_onScope_onWorkspace _).bind fun _ => keeps_onScope_onWorkspace _
  · exact (Step.Keeps.query _).bind fun _ =>
      (keeps_onScope_onWorkspace _).bind fun _ => keeps_onScope_onWorkspace _
  · rw [output_eq]
    refine (Step.Keeps.query _).bind fun (index, buffer, event) => ?_
    refine Step.Keeps.bind (fun b => hbuffer index buffer event b.workspace)
      fun _ => ?_
    exact (keeps_onScope_onWorkspace _).bind fun _ => keeps_onScope_onWorkspace _
  · exact keeps_onScope_onWorkspace _

theorem keeps_parts_onWorkspace
    (hmap : ∀ index map record w, R w (writeMap index map record w))
    (hbuffer : ∀ index buffer event w, R w (writeBuffer index buffer event w))
    (h : part ∈ parts setting input) : Step.Keeps (OnWorkspace R) part := by
  simp only [parts, List.mem_append] at h
  rcases h with ((h | h) | h) | h
  · exact keeps_declareParts_onWorkspace h
  · exact keeps_readParts_onWorkspace h
  · exact keeps_latencyParts_onWorkspace h
  · exact keeps_writeParts_onWorkspace hmap hbuffer h

end Workspace

def readVariablesIn (w : Workspace) (value : Logical.MapValue) : List Variable :=
  match w.struct? (structTypeName value.mapName) with
  | .error _ => []
  | .ok layout => readVariables value layout

theorem readParts_ok {input : Logical.Probe} {b c : Build}
    (h : (Step.sequence (readParts input)).runFrom b = (.ok (), c)) :
    c.workspace = b.workspace ∧
      c.scope.probe.vars =
        b.scope.probe.vars ++ input.mapVals.flatMap (readVariablesIn b.workspace) ∧
      ∀ value ∈ input.mapVals, ∃ layout,
        b.workspace.struct? (structTypeName value.mapName) = .ok layout ∧
        value.valueIds.length ≤ layout.fields.length := by
  unfold readParts at h
  generalize input.mapVals = values at h ⊢
  induction values generalizing b with
  | nil =>
      cases h
      simp
  | cons value rest ih =>
      obtain ⟨t, hvalue, hrest⟩ := Step.runFrom_sequence_cons_ok.mp h
      obtain ⟨layout, hlayout, -, hworkspace, hprobe⟩ := readMap_ok hvalue
      obtain ⟨-, hstruct, hlength⟩ := readLayout_ok hlayout
      obtain ⟨hc, hvars, hvalues⟩ := ih hrest
      rw [hworkspace] at hc hvars hvalues
      have hfirst : readVariablesIn b.workspace value = readVariables value layout := by
        simp [readVariablesIn, hstruct]
      refine ⟨hc, by simp [hvars, hprobe, hfirst], ?_⟩
      intro next hnext
      rcases List.mem_cons.mp hnext with rfl | hnext
      · exact ⟨layout, hstruct, hlength⟩
      · exact hvalues next hnext

end Build

end ProbeLowering
