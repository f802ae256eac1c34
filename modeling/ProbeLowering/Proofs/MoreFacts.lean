import ProbeLowering.Proofs.Plan

/-!
# More debug facts

Lowering asks for single facts and uses the answers alone, so a lowering that succeeds
makes the same program of a binary of which more is known (`lowerDeployment_mono`).
`Within` says of name maps, snapshots and the settings of probes that the second one has
everything that the first one has.  Every step on a scope that asks for facts succeeds
more often in the larger setting, where it does the same.
-/

namespace ProbeLowering

open DebugInfo

namespace NameMap

variable {α : Type} {m n : NameMap α} {name : String} {value : α}

theorem mem_entries_of_get? (h : m.get? name = some value) : (name, value) ∈ m.entries := by
  obtain ⟨before, after, hentries, -⟩ := List.lookup_eq_some_iff.mp h
  simp [hentries]

def Within (m n : NameMap α) : Prop :=
  ∀ e ∈ m.entries, n.get? e.1 = some e.2

instance [DecidableEq α] (m n : NameMap α) : Decidable (m.Within n) :=
  inferInstanceAs (Decidable (∀ e ∈ m.entries, n.get? e.1 = some e.2))

theorem Within.get? (h : m.Within n) (hm : m.get? name = some value) :
    n.get? name = some value :=
  h (name, value) (mem_entries_of_get? hm)

end NameMap

namespace DebugInfo

structure FunctionFacts.Within (f g : FunctionFacts) : Prop where
  retval : g.retval = f.retval
  args : f.args.Within g.args

instance (f g : FunctionFacts) : Decidable (f.Within g) :=
  decidable_of_iff (g.retval = f.retval ∧ f.args.Within g.args)
    ⟨fun ⟨hretval, hargs⟩ => ⟨hretval, hargs⟩, fun h => ⟨h.retval, h.args⟩⟩

/--
Functions and members that are known stay known.  A known function may turn out to have
further arguments, but it does not return anything else.
-/
structure Snapshot.Within (known more : Snapshot) : Prop where
  functions : ∀ e ∈ known.functions.entries, ∃ f ∈ more.functions.get? e.1, e.2.Within f
  members : ∀ e ∈ known.structs.entries, ∀ member ∈ e.2.entries,
    ∃ members ∈ more.structs.get? e.1, members.get? member.1 = some member.2

instance (known more : Snapshot) : Decidable (known.Within more) :=
  decidable_of_iff
    ((∀ e ∈ known.functions.entries, ∃ f ∈ more.functions.get? e.1, e.2.Within f) ∧
      ∀ e ∈ known.structs.entries, ∀ member ∈ e.2.entries,
        ∃ members ∈ more.structs.get? e.1, members.get? member.1 = some member.2)
    ⟨fun ⟨hfunctions, hmembers⟩ => ⟨hfunctions, hmembers⟩,
      fun h => ⟨h.functions, h.members⟩⟩

structure Facts.Within (known more : Facts) : Prop where
  args : ∀ symbol args, known.args symbol = .ok args →
    ∃ others, more.args symbol = .ok others ∧ args.Within others
  retval : ∀ symbol info, known.retval symbol = .ok info → more.retval symbol = .ok info
  member : ∀ typeName field info, known.member typeName field = .ok info →
    more.member typeName field = .ok info

namespace Snapshot

variable {known more : Snapshot} {symbol typeName field : String}

theorem function?_ok {f : FunctionFacts} :
    known.function? symbol = .ok f ↔ known.functions.get? symbol = some f := by
  unfold function?
  cases known.functions.get? symbol <;> simp

theorem member?_ok {info : MemberInfo} :
    known.member? typeName field = .ok info ↔
      ∃ members, known.structs.get? typeName = some members ∧
        members.get? field = some info := by
  unfold member?
  cases known.structs.get? typeName with
  | none => simp
  | some members =>
      simp only [Option.some.injEq, exists_eq_left']
      cases members.get? field <;> simp

theorem Within.function? (h : known.Within more) {f : FunctionFacts}
    (hf : known.function? symbol = .ok f) :
    ∃ g, more.function? symbol = .ok g ∧ f.Within g := by
  obtain ⟨g, hg, hwithin⟩ := h.functions _ (NameMap.mem_entries_of_get? (function?_ok.mp hf))
  exact ⟨g, function?_ok.mpr hg, hwithin⟩

theorem Within.member? (h : known.Within more) {info : MemberInfo}
    (hinfo : known.member? typeName field = .ok info) :
    more.member? typeName field = .ok info := by
  obtain ⟨members, hmembers, hfield⟩ := member?_ok.mp hinfo
  obtain ⟨others, hothers, hsame⟩ := h.members _ (NameMap.mem_entries_of_get? hmembers) _
    (NameMap.mem_entries_of_get? hfield)
  exact member?_ok.mpr ⟨others, hothers, hsame⟩

theorem Within.facts (h : known.Within more) : known.facts.Within more.facts := by
  refine ⟨fun symbol args hargs => ?_, fun symbol info hinfo => ?_, fun typeName field info =>
    h.member?⟩
  · obtain ⟨f, hf, rfl⟩ := exists_ok_of_map_ok hargs
    obtain ⟨g, hg, hwithin⟩ := h.function? hf
    exact ⟨g.args, congrArg (Except.map FunctionFacts.args) hg, hwithin.args⟩
  · obtain ⟨f, hf, rfl⟩ := exists_ok_of_map_ok hinfo
    obtain ⟨g, hg, hwithin⟩ := h.function? hf
    have hretval : more.facts.retval symbol = .ok g.retval :=
      congrArg (Except.map FunctionFacts.retval) hg
    rw [hretval, hwithin.retval]

end Snapshot

end DebugInfo

structure Setting.Within (setting larger : Setting) : Prop where
  language : larger.language = setting.language
  retval : larger.retval = setting.retval
  args : setting.args.Within larger.args
  member : ∀ typeName field info, setting.facts.member typeName field = .ok info →
    larger.facts.member typeName field = .ok info

theorem Setting.exists_within {known more : Facts} (h : known.Within more)
    {language : Language} {symbol : String} {setting : Setting}
    (hsetting : Setting.ofSymbol known language symbol = .ok setting) :
    ∃ larger, Setting.ofSymbol more language symbol = .ok larger ∧ setting.Within larger := by
  obtain ⟨rfl, rfl, hargs, hretval⟩ := Setting.ofSymbol_ok.mp hsetting
  obtain ⟨others, hothers, hwithin⟩ := h.args _ _ hargs
  have hlarger : Setting.ofSymbol more setting.language symbol =
      .ok ⟨more, setting.language, others, setting.retval⟩ :=
    Setting.ofSymbol_ok.mpr ⟨rfl, rfl, hothers, h.retval _ _ hretval⟩
  exact ⟨_, hlarger, rfl, rfl, hwithin, h.member⟩

section Walk

variable {setting larger : Setting} (h : setting.Within larger)

include h

theorem Walk.enterField_mono (walk : Walk) (field : String) :
    Step.Refines (walk.enterField setting field) (walk.enterField larger field) := by
  unfold Walk.enterField
  rw [h.language]
  refine (Step.Refines.refl _).bind fun walk => Step.Refines.bind (.query ?_) fun info =>
    .refl _
  intro _ info hinfo
  cases hmember : setting.facts.member walk.typeName field with
  | error e => simp [hmember, Except.mapError] at hinfo
  | ok found =>
      rw [h.member _ _ _ hmember]
      rwa [hmember] at hinfo

theorem Walk.enterFields_mono (walk : Walk) (fields : List String) :
    Step.Refines (walk.enterFields setting fields) (walk.enterFields larger fields) := by
  induction fields generalizing walk with
  | nil => exact .refl _
  | cons field rest ih => exact (Walk.enterField_mono h walk field).bind ih

theorem lowerAccessChain_mono (id : String) (root : ExprRoot) (fields : List String) :
    Step.Refines (lowerAccessChain setting id root fields)
      (lowerAccessChain larger id root fields) := by
  unfold lowerAccessChain
  rw [h.language]
  exact (Walk.enterFields_mono h _ fields).bind fun _ => .refl _

theorem Setting.argInfo_mono (name : String) :
    Step.Refines (setting.argInfo name) (larger.argInfo name) := by
  refine .query fun scope info hinfo => ?_
  cases hname : setting.args.get? name with
  | none => simp [hname] at hinfo
  | some found =>
      rw [h.args.get? hname]
      rwa [hname] at hinfo

theorem lowerArgument_mono (arg : Logical.Argument) :
    Step.Refines (lowerArgument setting arg) (lowerArgument larger arg) := by
  unfold lowerArgument
  cases Expression.parse? arg.expr with
  | none => exact .refl _
  | some expr =>
      exact (Setting.argInfo_mono h expr.root).bind fun info => lowerAccessChain_mono h _ _ _

theorem lowerRegisterReturn_mono (id : String) (fields : List String) :
    Step.Refines (lowerRegisterReturn setting id fields)
      (lowerRegisterReturn larger id fields) := by
  unfold lowerRegisterReturn
  rw [h.language, h.retval]
  dsimp only
  cases setting.retval.kind with
  | pointer =>
      refine (Step.Refines.refl get).bind fun scope => ?_
      exact .ite (lowerAccessChain_mono h _ _ _) (.refl _)
  | base | void | struct => exact .refl _

theorem lowerReturnValue_mono (value : Logical.ReturnValue) :
    Step.Refines (lowerReturnValue setting value) (lowerReturnValue larger value) := by
  unfold lowerReturnValue
  rw [h.language]
  cases Expression.parse? value.expr with
  | none => exact .refl _
  | some expr =>
      dsimp only
      cases Expression.returnIndex? expr.root with
      | none => exact .refl _
      | some index =>
          dsimp only
          cases setting.language with
          | go =>
              exact (Setting.argInfo_mono h _).bind fun info => lowerAccessChain_mono h _ _ _
          | c | cpp => exact .ite (lowerRegisterReturn_mono h _ _) (.refl _)
          | unknown => exact .refl _

omit h in
theorem Build.onScope_mono {α : Type} {step other : Step Scope α}
    (hstep : Step.Refines step other) :
    Step.Refines (Build.onScope step) (Build.onScope other) := by
  intro b a c hrun
  obtain ⟨hscope, hworkspace⟩ := Build.runFrom_onScope_ok.mp hrun
  exact Build.runFrom_onScope_ok.mpr ⟨hstep _ _ _ hscope, hworkspace⟩

theorem Logical.Part.step_mono (part : Logical.Part) :
    Step.Refines (part.step setting) (part.step larger) := by
  cases part with
  | argument arg => exact Build.onScope_mono (lowerArgument_mono h arg)
  | returnValue value => exact Build.onScope_mono (lowerReturnValue_mono h value)
  | special | output =>
      -- These ask for the language only.
      simp only [Logical.Part.step, h.language]
      exact .refl _
  | constant | read | latency | stash | delete | printks => exact .refl _

end Walk

namespace Workspace

variable {known more : Facts} (h : known.Within more)

include h

theorem generateProbe_mono (language : Language) (input : Logical.Probe) :
    Step.Refines (generateProbe known language input) (generateProbe more language input) := by
  intro w _ u hrun
  obtain ⟨probe, v, hlowered, rfl⟩ := generateProbe_ok.mp hrun
  obtain ⟨setting, b, hsetting, hparts, rfl, rfl⟩ := lowerProbe_ok.mp hlowered
  obtain ⟨larger, hlarger, hwithin⟩ := Setting.exists_within h hsetting
  have hparts' : (Step.sequence (Build.parts larger input)).runFrom
      ⟨w, Scope.start input.name input.tracepoint⟩ = (.ok (), b) := by
    rw [← Build.map_step_parts] at hparts ⊢
    exact Step.Refines.sequence (fun part _ => part.step_mono hwithin) _ _ _ hparts
  exact generateProbe_ok.mpr ⟨_, _, lowerProbe_ok.mpr ⟨larger, b, hlarger, hparts', rfl, rfl⟩,
    rfl⟩

theorem generateProbes_mono (language : Language) (probes : List Logical.Probe) :
    Step.Refines (generateProbes known language probes)
      (generateProbes more language probes) :=
  .sequence fun input _ => generateProbe_mono h language input

end Workspace

/-- What is lowered to a program is lowered to the same program when more is known. -/
theorem lowerDeployment_mono {known more : Snapshot} (h : known.Within more)
    {deployment : Logical.Deployment} {program : Physical.Program}
    (hlowered : lowerDeployment known.facts deployment = .ok program) :
    lowerDeployment more.facts deployment = .ok program := by
  obtain ⟨input, u, hsingle, hrun, rfl⟩ := lowerDeployment_ok.mp hlowered
  exact lowerDeployment_ok.mpr ⟨input, u, hsingle,
    Workspace.generateProbes_mono h.facts _ _ _ _ _ hrun, rfl⟩

theorem lowerDeployment_mono_callSnapshot :
    ∃ more : Snapshot, more = ((callSnapshot.withArg "main.Serve" "depth"
        ⟨8, .base, "int64"⟩).withMember "main.Request" "user"
        ⟨0, .pointer, "main.User"⟩).withFunction "main.Stop" ∧
      callSnapshot.Within more ∧
      lowerDeployment callSnapshot.facts callTracing = .ok callProgram ∧
      lowerDeployment more.facts callTracing = .ok callProgram := by
  have hwithin : callSnapshot.Within (((callSnapshot.withArg "main.Serve" "depth"
      ⟨8, .base, "int64"⟩).withMember "main.Request" "user"
      ⟨0, .pointer, "main.User"⟩).withFunction "main.Stop") := by
    decide +kernel
  have hknown : lowerDeployment callSnapshot.facts callTracing = .ok callProgram :=
    lowerDeployment_callTracing
  exact ⟨_, rfl, hwithin, hknown, lowerDeployment_mono hwithin hknown⟩

end ProbeLowering
