import Mathlib.Tactic.FinCases
import ProbeLowering.Proofs.InputText
import ProbeLowering.Proofs.Run
import ProbeLowering.Proofs.RunStages

/-!
# What a run leaves

A run settles its settings, opens its log and lowers.  It writes the program once the
whole program is there, and nothing else but the log, so that it leaves the whole program
or none of it (`run_all_or_nothing`).
-/

namespace ProbeLowering

open DebugInfo

namespace FileTree

variable {tree after : FileTree} {path : String}

section Settings

variable {home? directory? environment? : Option String} {args : Arguments}
  {settings : RunSettings}

theorem readConfig_state : ((hostIn home? directory?).readConfig path tree).2 = tree := by
  rw [Host.readConfig, run_bind, readText_run]
  cases (tree.read path).bind utf8Text <;> rfl

theorem searchConfig_state (places : List String) :
    ((hostIn home? directory?).searchConfig places tree).2 = tree := by
  induction places with
  | nil => rfl
  | cons place rest ih =>
      rw [Host.searchConfig, run_bind]
      split
      · exact readConfig_state
      · exact ih

theorem loadConfig_state (explicit? : Option String) :
    ((hostIn home? directory?).loadConfig explicit? tree).2 = tree := by
  cases explicit? with
  | none => exact searchConfig_state _
  | some path =>
      rw [Host.loadConfig, run_bind]
      split
      · exact readConfig_state
      · rfl

theorem runSettings_state :
    ((hostIn home? directory?).runSettings args environment? tree).2 = tree := by
  rw [Host.runSettings, run_bind, loadConfig_state]
  cases ((hostIn home? directory?).loadConfig args.config? tree).1 <;> rfl

theorem runSettings_ok
    (h : ((hostIn home? directory?).runSettings args environment? tree).1 = .ok settings) :
    ∃ config, ((hostIn home? directory?).loadConfig args.config? tree).1 = .ok config ∧
      settings.deployment = args.deployment ∧ settings.debugInfo? = args.debugInfo? ∧
      settings.output? = args.output? ∧
      settings.pretty = (config.output.pretty && !args.compact) := by
  rw [Host.runSettings, run_bind] at h
  cases hconfig : ((hostIn home? directory?).loadConfig args.config? tree).1 with
  | error e =>
      rw [hconfig] at h
      cases h
  | ok config =>
      rw [hconfig] at h
      refine ⟨config, rfl, ?_⟩
      have hmerge : (RunSettings.merge args config environment?).mapError RunFailure.logLevel =
          .ok settings := h
      unfold RunSettings.merge at hmerge
      cases hfilter : RunSettings.chooseFilter args config environment? with
      | error e =>
          rw [hfilter] at hmerge
          cases hmerge
      | ok filter =>
          rw [hfilter] at hmerge
          cases hmerge
          exact ⟨rfl, rfl, rfl, rfl⟩

theorem write_run :
    (hostIn home? directory?).write path bytes tree =
      match tree.write path bytes with
      | .ok changed => (.ok (), changed)
      | .error e => (.error e, tree) := rfl

theorem touches_write (path : String) (bytes : ByteArray) :
    Touches [path] ((hostIn home? directory?).write path bytes) := by
  intro tree
  rw [write_run]
  cases hwrite : tree.write path bytes with
  | ok changed => exact agreesApart_of_write hwrite
  | error e => exact agreesApart_self

theorem touches_openJournal :
    Touches settings.logFile?.toList ((hostIn home? directory?).openJournal settings) := by
  unfold Host.openJournal
  cases LogFilter.parse settings.logFilter with
  | error e => exact touches_pure _
  | ok filter =>
      cases settings.logFile? with
      | none => exact touches_pure _
      | some path =>
          refine (touches_write path .empty).bind fun written => ?_
          cases written <;> exact touches_pure _

theorem logFile?_of_openJournal {journal : Journal}
    (h : ((hostIn home? directory?).openJournal settings tree).1 = .ok journal) :
    journal.logFile? = settings.logFile? := by
  unfold Host.openJournal at h
  cases hfilter : LogFilter.parse settings.logFilter with
  | error e =>
      rw [hfilter] at h
      cases h
  | ok filter =>
      cases hpath : settings.logFile? with
      | none =>
          rw [hfilter, hpath] at h
          cases h
          rfl
      | some path =>
          rw [hfilter, hpath] at h
          dsimp only at h
          rw [run_bind] at h
          cases hwrite : ((hostIn home? directory?).write path .empty tree).1 with
          | error e =>
              rw [hwrite] at h
              cases h
          | ok written =>
              rw [hwrite] at h
              cases h
              rfl

end Settings

/-! ## The end of a run -/

section Runs

variable {home? directory? environment? : Option String} {args : Arguments}
  {settings : RunSettings} {journal : Journal} {program : Physical.Program}

theorem emit_run :
    (hostIn home? directory?).emit settings program tree =
      match settings.output? with
      | none => (.ok (program.render settings.pretty), tree)
      | some path =>
          match tree.write path (program.render settings.pretty).toUTF8 with
          | .ok written => (.ok "", written)
          | .error e => (.error (.unwritable path e), tree) := by
  unfold Host.emit
  cases settings.output? with
  | none => rfl
  | some path =>
      dsimp only
      rw [run_bind, write_run]
      cases tree.write path (program.render settings.pretty).toUTF8 <;> rfl

theorem emit_ok {output : String}
    (h : (hostIn home? directory?).emit settings program tree = (.ok output, after)) :
    match settings.output? with
    | none => output = program.render settings.pretty ∧ after = tree
    | some path => output = "" ∧
        tree.write path (program.render settings.pretty).toUTF8 = .ok after := by
  rw [emit_run] at h
  cases hpath : settings.output? with
  | none =>
      rw [hpath] at h
      cases h
      exact ⟨rfl, rfl⟩
  | some path =>
      rw [hpath] at h
      dsimp only at h ⊢
      split at h
      next written hwrite =>
        cases h
        exact ⟨rfl, hwrite⟩
      next => cases h

theorem emit_error {e : RunFailure}
    (h : (hostIn home? directory?).emit settings program tree = (.error e, after)) :
    after = tree := by
  rw [emit_run] at h
  split at h
  next => cases h
  next =>
    split at h
    next => cases h
    next =>
      cases h
      rfl

theorem lowerAndEmit_run :
    (hostIn home? directory?).lowerAndEmit journal settings tree =
      match (hostIn home? directory?).loweredProgram journal settings tree with
      | (.ok program, lowered) => (hostIn home? directory?).emit settings program lowered
      | (.error e, lowered) => (.error e, lowered) := by
  rw [Host.lowerAndEmit, run_bind]
  rcases (hostIn home? directory?).loweredProgram journal settings tree with ⟨outcome, lowered⟩
  cases outcome <;> rfl

theorem lowerAndEmit_ok {output : String}
    (h : (hostIn home? directory?).lowerAndEmit journal settings tree = (.ok output, after)) :
    ∃ program lowered,
      (hostIn home? directory?).loweredProgram journal settings tree = (.ok program, lowered) ∧
      (hostIn home? directory?).emit settings program lowered = (.ok output, after) := by
  rw [lowerAndEmit_run] at h
  split at h
  next program lowered hlowered => exact ⟨program, lowered, hlowered, h⟩
  next => cases h

theorem agreesApart_of_lowerAndEmit_error {e : RunFailure}
    (h : (hostIn home? directory?).lowerAndEmit journal settings tree = (.error e, after)) :
    tree.AgreesApart (tree.Places journal.logFile?.toList) after := by
  rw [lowerAndEmit_run] at h
  split at h
  next program lowered hlowered =>
    rw [emit_error h]
    exact (touches_loweredProgram journal settings).agreesApart hlowered
  next hlowered =>
    cases h
    exact (touches_loweredProgram journal settings).agreesApart hlowered

/-- The log files that a run with these arguments opens. -/
def logPaths (home? directory? environment? : Option String) (args : Arguments)
    (tree : FileTree) : List String :=
  match ((hostIn home? directory?).runSettings args environment? tree).1 with
  | .ok settings => settings.logFile?.toList
  | .error _ => []

variable {outcome : Outcome}

theorem logPaths_of_settings
    (h : ((hostIn home? directory?).runSettings args environment? tree).1 = .ok settings) :
    logPaths home? directory? environment? args tree = settings.logFile?.toList := by
  rw [logPaths, h]

/-- With a journal a run is a lowering from a tree where only the log is another. -/
theorem exists_run_eq
    (hsettings :
      ((hostIn home? directory?).runSettings args environment? tree).1 = .ok settings)
    (hjournal : ((hostIn home? directory?).openJournal settings tree).1 = .ok journal) :
    ∃ started, tree.AgreesApart (tree.Places journal.logFile?.toList) started ∧
      (hostIn home? directory?).run args environment? tree =
        match (hostIn home? directory?).lowerAndEmit journal settings started with
        | (.ok output, last) => ({ exitCode := 0, output }, last)
        | (.error e, last) => (.failed e,
            (journal.note (hostIn home? directory?) (.ofFailure e.message) last).2) := by
  have hopened : Touches journal.logFile?.toList
      ((hostIn home? directory?).openJournal settings) := by
    rw [logFile?_of_openJournal hjournal]
    exact touches_openJournal
  have hnoted : Touches journal.logFile?.toList
      (journal.note (hostIn home? directory?) (.ofSettings settings)) :=
    touches_note journal _
  refine ⟨_, (hopened tree).followed (hnoted _), ?_⟩
  rw [Host.run, run_bind, runSettings_state, hsettings]
  dsimp only
  rw [run_bind, hjournal]
  dsimp only
  rw [run_bind, run_bind]
  rcases (hostIn home? directory?).lowerAndEmit journal settings
    (journal.note (hostIn home? directory?) (.ofSettings settings)
      ((hostIn home? directory?).openJournal settings tree).2).2 with ⟨result, last⟩
  cases result <;> rfl

theorem run_cases
    (h : (hostIn home? directory?).run args environment? tree = (outcome, after)) :
    (∃ failure, outcome = .failed failure ∧
      tree.AgreesApart (tree.Places (logPaths home? directory? environment? args tree)) after) ∨
    ∃ settings journal started output,
      ((hostIn home? directory?).runSettings args environment? tree).1 = .ok settings ∧
      journal.logFile? = settings.logFile? ∧
      tree.AgreesApart (tree.Places settings.logFile?.toList) started ∧
      (hostIn home? directory?).lowerAndEmit journal settings started = (.ok output, after) ∧
      outcome = { exitCode := 0, output } := by
  cases hsettings : ((hostIn home? directory?).runSettings args environment? tree).1 with
  | error e =>
      rw [Host.run, run_bind, runSettings_state, hsettings] at h
      cases h
      exact .inl ⟨_, rfl, agreesApart_self⟩
  | ok settings =>
      rw [logPaths_of_settings hsettings]
      cases hjournal : ((hostIn home? directory?).openJournal settings tree).1 with
      | error e =>
          have hopened : Touches settings.logFile?.toList
              ((hostIn home? directory?).openJournal settings) := touches_openJournal
          have hleft := hopened tree
          rw [Host.run, run_bind, runSettings_state, hsettings] at h
          dsimp only at h
          rw [run_bind, hjournal] at h
          cases h
          exact .inl ⟨_, rfl, hleft⟩
      | ok journal =>
          have hlogFile := logFile?_of_openJournal hjournal
          obtain ⟨started, hstarted, hrun⟩ := exists_run_eq hsettings hjournal
          rw [hrun] at h
          rw [← hlogFile]
          split at h
          next output last hemitted =>
            cases h
            exact .inr ⟨settings, journal, started, output, rfl, hlogFile, hlogFile ▸ hstarted,
              hemitted, rfl⟩
          next e last hemitted =>
            have hnoted : Touches journal.logFile?.toList
                (journal.note (hostIn home? directory?) (.ofFailure e.message)) :=
              touches_note journal _
            have hfailed := (hstarted.followed
              (agreesApart_of_lowerAndEmit_error hemitted)).followed (hnoted last)
            cases h
            exact .inl ⟨e, rfl, hfailed⟩

/-- Nothing but the files at these paths may have been created or changed. -/
def ChangesOnly (tree : FileTree) (paths : List String) (after : FileTree) : Prop :=
  ∀ path, (∀ changed ∈ paths, ¬ tree.SameFile changed path) → after.at? path = tree.at? path

theorem AgreesApart.changesOnly {paths : List String}
    (h : tree.AgreesApart (tree.Places paths) after) : tree.ChangesOnly paths after :=
  fun _ hapart => h.at?_eq fun location hlocate ⟨changed, hmem, hchanged⟩ =>
    hapart changed hmem ⟨location, hchanged, hlocate⟩

/--
A run either fails or writes the whole program.  If it fails, its exit code is not zero,
there is no output, and apart from the log no file is created or changed, the output file
included.  If its exit code is zero, the files that it was given are lowered to a program,
and the text of this program went to the output file if there is one and otherwise to
standard output, which stays empty in the other case.
-/
theorem run_all_or_nothing
    (hlog : ∀ log ∈ logPaths home? directory? environment? args tree,
      ∀ path, tree.Uses args path → ¬ tree.SameFile log path)
    (hrun : (hostIn home? directory?).run args environment? tree = (outcome, after)) :
    (∀ failure, outcome.failure? = some failure →
      outcome.exitCode ≠ 0 ∧ outcome.output = "" ∧
      (∀ path, args.output? = some path → after.at? path = tree.at? path) ∧
      tree.ChangesOnly (logPaths home? directory? environment? args tree) after) ∧
    (outcome.failure? = none → outcome.exitCode = 0) ∧
    (outcome.exitCode = 0 → ∃ config program,
      ((hostIn home? directory?).loadConfig args.config? tree).1 = .ok config ∧
      tree.program? args.deployment args.debugInfo? = some program ∧
      match args.output? with
      | none =>
          outcome.output = program.render (config.output.pretty && !args.compact) ∧
          tree.ChangesOnly (logPaths home? directory? environment? args tree) after
      | some path =>
          outcome.output = "" ∧
          after.contents? path =
            some (program.render (config.output.pretty && !args.compact)).toUTF8 ∧
          tree.ChangesOnly (path :: logPaths home? directory? environment? args tree)
            after) := by
  rcases run_cases hrun with ⟨failure, rfl, hafter⟩ |
    ⟨settings, journal, started, output, hsettings, hlogFile, hstarted, hemitted, rfl⟩
  · have hfailed := failure.exitCode_ne_zero
    refine ⟨fun _ _ => ⟨hfailed, rfl, fun path hpath => ?_, hafter.changesOnly⟩, ?_, ?_⟩
    · exact hafter.changesOnly path fun log hmem =>
        hlog log hmem path (.inr (.inr (.inl hpath)))
    · intro hnone
      cases hnone
    · intro hzero
      exact absurd hzero hfailed
  · refine ⟨fun failure hfailure => (nomatch hfailure), fun _ => rfl, fun _ => ?_⟩
    obtain ⟨program, lowered, hlowered, hemit⟩ := lowerAndEmit_ok hemitted
    obtain ⟨config, hconfig, hdeployment, hdebugInfo, houtput, hpretty⟩ :=
      runSettings_ok hsettings
    rw [logPaths_of_settings hsettings, ← hlogFile] at hlog ⊢
    rw [← hlogFile] at hstarted
    have hprogram : tree.program? args.deployment args.debugInfo? = some program := by
      rw [← hstarted.toOption_loweredProgram hdeployment hdebugInfo hlog, hlowered]
      rfl
    refine ⟨config, program, hconfig, hprogram, ?_⟩
    have hbefore := hstarted.followed
      ((touches_loweredProgram journal settings).agreesApart hlowered)
    have hemitted := emit_ok hemit
    rw [houtput, hpretty] at hemitted
    cases hpath : args.output? with
    | none =>
        rw [hpath] at hemitted
        obtain ⟨htext, rfl⟩ := hemitted
        exact ⟨htext, hbefore.changesOnly⟩
    | some path =>
        rw [hpath] at hemitted
        obtain ⟨hnone, hwrite⟩ := hemitted
        refine ⟨hnone, contents?_of_write hwrite, ?_⟩
        have hwritten := (agreesApart_of_write hwrite).of_subset
          (List.cons_subset_cons path (List.nil_subset journal.logFile?.toList))
        exact ((hbefore.of_subset (List.subset_cons_self path _)).followed hwritten).changesOnly

theorem exitCode_of_run
    (hlog : ∀ log ∈ logPaths home? directory? environment? args tree,
      ∀ path, tree.Uses args path → ¬ tree.SameFile log path)
    (hsettings :
      ((hostIn home? directory?).runSettings args environment? tree).1 = .ok settings)
    (hjournal : ((hostIn home? directory?).openJournal settings tree).1 = .ok journal)
    (hprogram : tree.program? args.deployment args.debugInfo? = some program)
    (houtput : ∀ path, args.output? = some path → tree.Writable path) :
    ((hostIn home? directory?).run args environment? tree).1.exitCode = 0 := by
  rw [logPaths_of_settings hsettings, ← logFile?_of_openJournal hjournal] at hlog
  obtain ⟨config, -, hdeployment, hdebugInfo, hsame, -⟩ := runSettings_ok hsettings
  obtain ⟨started, hstarted, hrun⟩ := exists_run_eq hsettings hjournal
  have hlowered : ((hostIn home? directory?).loweredProgram journal settings
      started).1.toOption = some program := by
    rw [hstarted.toOption_loweredProgram hdeployment hdebugInfo hlog, hprogram]
  rw [hrun, lowerAndEmit_run]
  rcases hresult : (hostIn home? directory?).loweredProgram journal settings started
    with ⟨result, lowered⟩
  have hbefore := hstarted.followed
    ((touches_loweredProgram journal settings).agreesApart hresult)
  rw [hresult] at hlowered
  cases result with
  | error e => cases hlowered
  | ok program =>
      dsimp only
      rw [emit_run, hsame]
      cases hpath : args.output? with
      | none => rfl
      | some path =>
          obtain ⟨written, hwrite⟩ := (hbefore.writable_iff.mpr (houtput path hpath)).exists_write
            (program.render settings.pretty).toUTF8
          dsimp only
          rw [hwrite]

/-! ## A written program -/

/-- A deployment `d`, the facts `f` that it is lowered against, and an old program `o`. -/
def filesOf (deployment facts program : ByteArray) : FileTree :=
  ⟨"", [(["d"], deployment), (["f"], facts), (["o"], program)]⟩

def callArguments : Arguments :=
  { deployment := "d", debugInfo? := some "f", output? := some "o", logFile? := some "l",
    log := true, compact := true }

def callSettings : RunSettings := ⟨"d", some "f", some "o", false, ",", some "l"⟩

section Files

variable {deployment facts program : ByteArray} {name : String}

theorem locate_filesOf (h : name ∈ ["d", "f", "o", "l"]) :
    (filesOf deployment facts program).locate name = .ok [name] := by
  fin_cases h <;> rfl

theorem writable_filesOf (h : name ∈ ["d", "f", "o", "l"]) :
    (filesOf deployment facts program).Writable name := by
  refine ⟨[name], locate_filesOf h, ?_⟩
  fin_cases h <;> exact nofun

theorem runSettings_filesOf :
    ((hostIn none none).runSettings callArguments (some ",")
      (filesOf deployment facts program)).1 = .ok callSettings := rfl

theorem openJournal_filesOf :
    ((hostIn none none).openJournal callSettings (filesOf deployment facts program)).1 =
      .ok ⟨⟨[{ rank := 1 }]⟩, some "l"⟩ := rfl

theorem apart_filesOf :
    ∀ log ∈ logPaths none none (some ",") callArguments (filesOf deployment facts program),
      ∀ path, (filesOf deployment facts program).Uses callArguments path →
        ¬ (filesOf deployment facts program).SameFile log path := by
  rw [logPaths_of_settings runSettings_filesOf]
  rintro log hmem path huses ⟨location, hlocate, hsame⟩
  have hpath : path ∈ ["d", "f", "o"] := by
    rcases huses with rfl | h | h | ⟨h, -⟩
    · decide
    · cases h
      decide
    · cases h
      decide
    · cases h
  obtain rfl : log = "l" := by simpa [callSettings] using hmem
  rw [locate_filesOf (by simp)] at hlocate
  rw [locate_filesOf (List.mem_append_left ["l"] hpath)] at hsame
  cases hlocate
  cases hsame
  revert hpath
  decide

end Files

def callFiles : FileTree :=
  filesOf (String.ofList (Json.write .compact callTracing.encode)).toUTF8
    (String.ofList (Json.write .compact callSnapshot.encode)).toUTF8 .empty

theorem fromUTF8?_toUTF8 (text : String) : String.fromUTF8? text.toUTF8 = some text :=
  dif_pos text.isValidUTF8

theorem document?_of_contents? {α : Type} {decode? : Json → Option α} {json : Json} {value : α}
    {layout : Json.Layout} (hreads : Json.ReadsBack decode? json value)
    (hcontents : tree.contents? path = some (String.ofList (Json.write layout json)).toUTF8) :
    tree.document? decode? path = some value := by
  rw [document?, hcontents, Option.bind_eq_bind, Option.bind_some, fromUTF8?_toUTF8]
  exact hreads.2 layout

theorem program?_callFiles : callFiles.program? "d" (some "f") = some callProgram := by
  have hdeployment : callFiles.document? Logical.Deployment.decode? "d" = some callTracing :=
    document?_of_contents? (Json.readsBack callTracing.readable_encode callTracing.decode?_encode)
      (by rw [contents?, at?, callFiles, locate_filesOf (by simp)]; rfl)
  have hfacts : callFiles.document? Snapshot.decode? "f" = some callSnapshot :=
    document?_of_contents? (Json.readsBack callSnapshot.readable_encode
      (Snapshot.decode?_encode (by decide)))
      (by rw [contents?, at?, callFiles, locate_filesOf (by simp)]; rfl)
  have hlowered : lowerDeployment callSnapshot.facts callTracing = .ok callProgram :=
    lowerDeployment_callTracing
  simp [program?, facts?, hdeployment, hfacts, hlowered, Except.toOption]

theorem run_all_or_nothing_callFiles :
    ∃ outcome after,
      (hostIn none none).run callArguments (some ",") callFiles = (outcome, after) ∧
      outcome.exitCode = 0 ∧ outcome.output = "" ∧
      after.contents? "o" = some (callProgram.render false).toUTF8 := by
  have hzero : ((hostIn none none).run callArguments (some ",") callFiles).1.exitCode = 0 := by
    refine exitCode_of_run apart_filesOf runSettings_filesOf openJournal_filesOf
      program?_callFiles ?_
    rintro path ⟨⟩
    exact writable_filesOf (by simp)
  rcases hrun : (hostIn none none).run callArguments (some ",") callFiles with ⟨outcome, after⟩
  rw [hrun] at hzero
  obtain ⟨-, -, hwritten⟩ := run_all_or_nothing apart_filesOf hrun
  obtain ⟨config, program, hconfig, hprogram, houtput, hcontents, -⟩ := hwritten hzero
  have hdefault : ((hostIn none none).loadConfig callArguments.config? callFiles).1 =
      .ok {} := rfl
  obtain rfl : {} = config := Except.ok.inj (hdefault.symm.trans hconfig)
  obtain rfl : callProgram = program :=
    Option.some.inj (program?_callFiles.symm.trans hprogram)
  exact ⟨outcome, after, rfl, hzero, houtput, hcontents⟩

end Runs

end FileTree

end ProbeLowering
