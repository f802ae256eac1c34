import ProbeLowering.Proofs.FileChanges
import ProbeLowering.Run.Command

/-!
# Stages of a run

On a tree of files each stage of a run changes no other file than the log
(`FileTree.Touches`), and what it reads is what the files said before the run, as long as
the log is a file of its own.  So a lowering comes to the program that these files stand
for (`FileTree.toOption_loweredProgram`).
-/

namespace ProbeLowering

open DebugInfo

namespace FileTree

variable {tree after : FileTree} {path : String}

/-- The operations of a tree, with settings looked for in the given directories. -/
def hostIn (home? directory? : Option String) : Host (StateM FileTree) :=
  { host "" with home?, directory? }

def Touches {α : Type} (paths : List String) (stage : StateM FileTree α) : Prop :=
  ∀ tree : FileTree, tree.AgreesApart (tree.Places paths) (stage tree).2

section Stages

variable {α β : Type} {paths : List String}

theorem Touches.agreesApart {stage : StateM FileTree α} {result : α}
    (h : Touches paths stage) (hstage : stage tree = (result, after)) :
    tree.AgreesApart (tree.Places paths) after := by
  have hafter := h tree
  rw [hstage] at hafter
  exact hafter

theorem touches_pure (value : α) : Touches paths (pure value) :=
  fun _ => agreesApart_self

theorem Touches.bind {stage : StateM FileTree α} {next : α → StateM FileTree β}
    (h : Touches paths stage) (h' : ∀ value, Touches paths (next value)) :
    Touches paths (stage >>= next) :=
  fun tree => (h tree).followed (h' (stage tree).1 (stage tree).2)

theorem touches_ite {c : Prop} [Decidable c] {stage other : StateM FileTree α}
    (h : Touches paths stage) (h' : Touches paths other) :
    Touches paths (if c then stage else other) := by
  split
  · exact h
  · exact h'

variable {home? directory? : Option String}

theorem touches_read (path : String) : Touches paths ((hostIn home? directory?).read path) :=
  fun _ => agreesApart_self

theorem touches_note (journal : Journal) (record : LogRecord) :
    Touches journal.logFile?.toList (journal.note (hostIn home? directory?) record) := by
  refine touches_ite ?_ (touches_pure _)
  refine Touches.bind (fun _ => agreesApart_self) fun _ => ?_
  cases journal.logFile? with
  | none => exact touches_pure _
  | some path => exact fun tree => agreesApart_append tree path record.line

theorem touches_noteAll (journal : Journal) (records : List LogRecord) :
    Touches journal.logFile?.toList (journal.noteAll (hostIn home? directory?) records) := by
  unfold Journal.noteAll
  induction records with
  | nil => exact touches_pure _
  | cons record rest ih =>
      exact (touches_note journal record).bind fun _ => ih

theorem touches_readDocument {γ : Type} (decode? : Json → Option γ) (document : InputDocument)
    (path : String) :
    Touches paths ((hostIn home? directory?).readDocument decode? document path) := by
  refine Touches.bind ((touches_read path).bind fun _ => touches_pure _) fun text => ?_
  cases text with
  | error e => exact touches_pure _
  | ok text =>
      dsimp only
      split <;> exact touches_pure _

theorem touches_factsFor (journal : Journal) (settings : RunSettings)
    (deployment : Logical.Deployment) :
    Touches journal.logFile?.toList
      ((hostIn home? directory?).factsFor journal settings deployment) := by
  unfold Host.factsFor
  split
  next path _ =>
    refine (touches_note journal _).bind fun _ => ?_
    refine (touches_readDocument _ _ _).bind fun snapshot => ?_
    cases snapshot <;> exact touches_pure _
  next =>
    split
    next => exact touches_pure _
    next =>
      refine (touches_note journal _).bind fun _ => ?_
      refine Touches.bind ((touches_read _).bind fun file => ?_) fun facts => ?_
      · cases file <;> exact touches_pure _
      · cases facts <;> exact touches_pure _

theorem touches_loweredProgram (journal : Journal) (settings : RunSettings) :
    Touches journal.logFile?.toList
      ((hostIn home? directory?).loweredProgram journal settings) := by
  refine (touches_readDocument _ _ _).bind fun deployment => ?_
  cases deployment with
  | error e => exact touches_pure _
  | ok deployment =>
      refine (touches_factsFor journal settings deployment).bind fun facts => ?_
      cases facts with
      | error e => exact touches_pure _
      | ok found =>
          obtain ⟨facts, fromSnapshot⟩ := found
          refine (touches_noteAll journal _).bind fun _ => ?_
          cases lowerDeployment facts deployment with
          | ok program => exact (touches_note journal _).bind fun _ => touches_pure _
          | error e => exact (touches_noteAll journal _).bind fun _ => touches_pure _

end Stages

/-! ## What is read -/

def document? {α : Type} (tree : FileTree) (decode? : Json → Option α) (path : String) :
    Option α := do
  let bytes ← tree.contents? path
  let text ← String.fromUTF8? bytes
  (Json.parse? text).bind decode?

/-- The facts that the arguments name: those of a snapshot, or else of the image itself. -/
def facts? (tree : FileTree) (debugInfo? : Option String) (deployment : Logical.Deployment) :
    Option Facts :=
  match debugInfo? with
  | some path => (tree.document? Snapshot.decode? path).map Snapshot.facts
  | none => do
      let bytes ← tree.contents? deployment.target.path
      (Dwarf.openFacts deployment.target.path bytes).toOption

def program? (tree : FileTree) (deployment : String) (debugInfo? : Option String) :
    Option Physical.Program := do
  let deployment ← tree.document? Logical.Deployment.decode? deployment
  let facts ← tree.facts? debugInfo? deployment
  (lowerDeployment facts deployment).toOption

/-- The arguments name this path, or else it is that of the image that they leave to lower. -/
def Uses (tree : FileTree) (args : Arguments) (path : String) : Prop :=
  path = args.deployment ∨ args.debugInfo? = some path ∨ args.output? = some path ∨
    args.debugInfo? = none ∧ ∃ deployment,
      tree.document? Logical.Deployment.decode? args.deployment = some deployment ∧
        path = deployment.target.path

section Reads

variable {home? directory? : Option String}

theorem run_bind {α β : Type} (stage : StateM FileTree α) (next : α → StateM FileTree β)
    (tree : FileTree) : (stage >>= next) tree = next (stage tree).1 (stage tree).2 := rfl

theorem run_pure {α : Type} (value : α) (tree : FileTree) :
    (pure value : StateM FileTree α) tree = (value, tree) := rfl

theorem readText_run :
    (hostIn home? directory?).readText path tree = ((tree.read path).bind utf8Text, tree) := rfl

theorem toOption_run_bind {ε ε' α β : Type} (stage : StateM FileTree (Except ε α))
    {next : Except ε α → StateM FileTree (Except ε' β)}
    (hfailed : ∀ e, ∃ e', next (.error e) = pure (.error e')) :
    ((stage >>= next) tree).1.toOption =
      (stage tree).1.toOption.bind fun value =>
        (next (.ok value) (stage tree).2).1.toOption := by
  rw [run_bind]
  cases (stage tree).1 with
  | error e =>
      obtain ⟨e', hnext⟩ := hfailed e
      rw [hnext]
      rfl
  | ok value => rfl

theorem toOption_readText :
    ((tree.read path).bind utf8Text).toOption =
      tree.contents? path >>= fun bytes => String.fromUTF8? bytes := by
  rw [← toOption_read]
  cases tree.read path with
  | error e => rfl
  | ok bytes =>
      simp only [Except.bind, utf8Text, Except.toOption, Option.bind_eq_bind, Option.bind_some]
      cases String.fromUTF8? bytes <;> rfl

theorem toOption_readDocument {α : Type} (decode? : Json → Option α) (document : InputDocument) :
    ((hostIn home? directory?).readDocument decode? document path tree).1.toOption =
      tree.document? decode? path := by
  unfold Host.readDocument
  rw [toOption_run_bind]
  case hfailed => exact fun _ => ⟨_, rfl⟩
  rw [readText_run, toOption_readText, document?, ← bind_assoc, Option.bind_eq_bind]
  congr 1
  funext text
  dsimp only
  cases (Json.parse? text).bind decode? <;> simp [run_pure, Except.toOption]

theorem readDocument_state {α : Type} (decode? : Json → Option α) (document : InputDocument) :
    ((hostIn home? directory?).readDocument decode? document path tree).2 = tree := by
  rw [Host.readDocument, run_bind, readText_run]
  cases (tree.read path).bind utf8Text with
  | error e => rfl
  | ok text => cases hvalue : (Json.parse? text).bind decode? <;> simp [hvalue, run_pure]

theorem AgreesApart.contents?_eq {paths : List String}
    (h : tree.AgreesApart (tree.Places paths) after)
    (hapart : ∀ changed ∈ paths, ¬ tree.SameFile changed path) :
    after.contents? path = tree.contents? path := by
  have hat := h.at?_eq fun location hlocate ⟨changed, hmem, hchanged⟩ =>
    hapart changed hmem ⟨location, hchanged, hlocate⟩
  rw [contents?, contents?, hat]

theorem toOption_imageFacts :
    ((hostIn home? directory?).imageFacts path tree).1.toOption =
      tree.contents? path >>= fun bytes => (Dwarf.openFacts path bytes).toOption := by
  unfold Host.imageFacts
  rw [toOption_run_bind]
  case hfailed => exact fun _ => ⟨_, rfl⟩
  exact congrArg (fun bytes? : Option ByteArray => bytes?.bind _) toOption_read

theorem toOption_factsFor {journal : Journal} {settings : RunSettings}
    {deployment : Logical.Deployment}
    (hsnapshot : ∀ log ∈ journal.logFile?.toList, ∀ path, settings.debugInfo? = some path →
      ¬ tree.SameFile log path)
    (himage : settings.debugInfo? = none → ∀ log ∈ journal.logFile?.toList,
      ¬ tree.SameFile log deployment.target.path) :
    ((hostIn home? directory?).factsFor journal settings deployment tree).1.toOption.bind
        (fun found => (lowerDeployment found.1 deployment).toOption) =
      (tree.facts? settings.debugInfo? deployment).bind
        fun facts => (lowerDeployment facts deployment).toOption := by
  unfold Host.factsFor facts?
  cases hpath : settings.debugInfo? with
  | some path =>
      have hnoted : (journal.note (hostIn home? directory?) (.ofSnapshot path)
          tree).2.contents? path = tree.contents? path :=
        (touches_note journal _ tree).contents?_eq fun log hlog => hsnapshot log hlog path hpath
      dsimp only
      rw [run_bind, toOption_run_bind]
      case hfailed => exact fun _ => ⟨_, rfl⟩
      rw [toOption_readDocument, document?, hnoted, ← document?, Option.bind_assoc,
        Option.bind_map]
      rfl
  | none =>
      dsimp only
      cases hprogram : deployment.program? with
      | error e =>
          have hfailed : ∀ facts, (lowerDeployment facts deployment).toOption = none := by
            intro facts
            rw [lowerDeployment, hprogram]
            rfl
          simp [hfailed]
      | ok program =>
          have hnoted : (journal.note (hostIn home? directory?)
              (.ofImage deployment.target.path) tree).2.contents? deployment.target.path =
              tree.contents? deployment.target.path :=
            (touches_note journal _ tree).contents?_eq (himage hpath)
          dsimp only
          rw [run_bind, toOption_run_bind]
          case hfailed => exact fun _ => ⟨_, rfl⟩
          rw [toOption_imageFacts, hnoted, Option.bind_assoc]
          rfl

theorem toOption_loweredProgram {journal : Journal} {args : Arguments} {settings : RunSettings}
    (hdeployment : settings.deployment = args.deployment)
    (hdebugInfo : settings.debugInfo? = args.debugInfo?)
    (hlog : ∀ log ∈ journal.logFile?.toList, ∀ path, tree.Uses args path →
      ¬ tree.SameFile log path) :
    ((hostIn home? directory?).loweredProgram journal settings tree).1.toOption =
      tree.program? args.deployment args.debugInfo? := by
  unfold Host.loweredProgram program?
  rw [toOption_run_bind]
  case hfailed => exact fun _ => ⟨_, rfl⟩
  rw [toOption_readDocument, readDocument_state, hdeployment]
  cases hdocument : tree.document? Logical.Deployment.decode? args.deployment with
  | none => rfl
  | some deployment =>
      simp only [Option.bind_some, Option.bind_eq_bind]
      rw [← hdebugInfo, ← toOption_factsFor
        (fun log hmem path hpath => hlog log hmem path (.inr (.inl (hdebugInfo ▸ hpath))))
        (fun hnone log hmem => hlog log hmem _
          (.inr (.inr (.inr ⟨hdebugInfo ▸ hnone, deployment, hdocument, rfl⟩)))),
        toOption_run_bind]
      case hfailed => exact fun _ => ⟨_, rfl⟩
      congr 1
      funext found
      obtain ⟨facts, fromSnapshot⟩ := found
      dsimp only
      rw [run_bind]
      cases hlower : lowerDeployment facts deployment <;> rfl

theorem AgreesApart.uses_iff {paths : List String} {args : Arguments}
    (h : tree.AgreesApart (tree.Places paths) after)
    (hapart : ∀ changed ∈ paths, ∀ path, tree.Uses args path → ¬ tree.SameFile changed path) :
    after.Uses args path ↔ tree.Uses args path := by
  have hdeployment := h.contents?_eq fun changed hmem =>
    hapart changed hmem args.deployment (.inl rfl)
  simp only [Uses, document?, hdeployment]

theorem AgreesApart.program?_eq {paths : List String} {args : Arguments}
    (h : tree.AgreesApart (tree.Places paths) after)
    (hapart : ∀ changed ∈ paths, ∀ path, tree.Uses args path → ¬ tree.SameFile changed path) :
    after.program? args.deployment args.debugInfo? =
      tree.program? args.deployment args.debugInfo? := by
  have hdeployment := h.contents?_eq fun changed hmem =>
    hapart changed hmem args.deployment (.inl rfl)
  have hsame : after.document? Logical.Deployment.decode? args.deployment =
      tree.document? Logical.Deployment.decode? args.deployment := by
    rw [document?, document?, hdeployment]
  unfold program?
  rw [hsame]
  cases hdocument : tree.document? Logical.Deployment.decode? args.deployment with
  | none => rfl
  | some deployment =>
      have hfacts : after.facts? args.debugInfo? deployment =
          tree.facts? args.debugInfo? deployment := by
        unfold facts?
        cases hdebugInfo : args.debugInfo? with
        | some path =>
            have hsnapshot := h.contents?_eq fun changed hmem =>
              hapart changed hmem path (.inr (.inl hdebugInfo))
            simp only [document?, hsnapshot]
        | none =>
            have himage := h.contents?_eq fun changed hmem =>
              hapart changed hmem deployment.target.path
                (.inr (.inr (.inr ⟨hdebugInfo, deployment, hdocument, rfl⟩)))
            simp only [himage]
      simp only [Option.bind_eq_bind, Option.bind_some, hfacts]

theorem AgreesApart.toOption_loweredProgram {journal : Journal} {args : Arguments}
    {settings : RunSettings}
    (h : tree.AgreesApart (tree.Places journal.logFile?.toList) after)
    (hdeployment : settings.deployment = args.deployment)
    (hdebugInfo : settings.debugInfo? = args.debugInfo?)
    (hlog : ∀ log ∈ journal.logFile?.toList, ∀ path, tree.Uses args path →
      ¬ tree.SameFile log path) :
    ((hostIn home? directory?).loweredProgram journal settings after).1.toOption =
      tree.program? args.deployment args.debugInfo? := by
  rw [FileTree.toOption_loweredProgram hdeployment hdebugInfo, h.program?_eq hlog]
  intro log hmem path huses
  rw [h.sameFile_iff]
  exact hlog log hmem path ((h.uses_iff hlog).mp huses)

end Reads

end FileTree

end ProbeLowering
