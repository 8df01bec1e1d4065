import Interposition.Launch.Launcher
import Interposition.Proofs.Machine.Conservation
import Interposition.Proofs.Sandbox.Boundary
import Interposition.Proofs.Sandbox.Console

/-!
# Interposition.Proofs.Launch.Report — what a report tells of a run

A launch that comes to a report has valid settings, had everything ready, and reports the outcome
of a run (`Launch.run_eq_ok`). The console it reports is what the run has left there: the first of
the texts that were captured, as many as the settings allow, and the number of the others. The exit
code it reports is 0 for a success only (`Sandbox.exitCode_eq_zero_iff`). The main statement is
`Launch.run_reports`.
-/

namespace Interposition

/-! ## Settings -/

/-- Valid settings keep one captured line at least. -/
theorem Settings.sinkCapacity_pos {s : Settings} (h : s.validate = .ok ()) :
    0 < s.sinkCapacity := by
  unfold validate at h
  split at h
  · cases h
  · split at h
    · cases h
    · split at h
      · cases h
      · split at h
        · cases h
        · omega

/-! ## Outcomes -/

/-- A run is asked for a controlled failure with another code than 0 only. -/
theorem Sandbox.exitCode_eq_zero_iff {s : Sandbox} {entry : EntryPoint} {args : List Value}
    {outcome : Outcome} (h : (s.invoke entry args).1 = .ok outcome) :
    outcome.exitCode = 0 ↔ ∃ value, outcome = .success value := by
  cases htarget : s.called entry args with
  | error e =>
    rw [invoke_of_error htarget] at h
    cases h
  | ok target =>
    rcases target with ⟨module, index⟩
    rw [invoke_of_ok htarget] at h
    cases outcome with
    | success value => exact iff_of_true rfl ⟨value, rfl⟩
    | controlledFailure code =>
      have hcode := (Ending.outcome_eq_controlledFailure_iff.1 h).1
      refine iff_of_false hcode ?_
      rintro ⟨value, ⟨⟩⟩
    | crash text failure =>
      have hcode : Outcome.crashExitCode ≠ 0 := by decide
      refine iff_of_false hcode ?_
      rintro ⟨value, ⟨⟩⟩

/-- Only the summary of a success is no error to the caller. -/
theorem Summary.toResult_ofOutcome {outcome : Outcome} :
    (ofOutcome outcome).toResult = .ok () ↔ ∃ value, outcome = .success value := by
  cases outcome with
  | success value =>
    refine iff_of_true ?_ ⟨value, rfl⟩
    cases value <;> rfl
  | controlledFailure code =>
    refine iff_of_false ?_ ?_
    · rintro ⟨⟩
    · rintro ⟨value, ⟨⟩⟩
  | crash text failure =>
    refine iff_of_false ?_ ?_
    · rintro ⟨⟩
    · rintro ⟨value, ⟨⟩⟩

/-! ## Launches -/

namespace Launch

variable {l : Launch}

/-- A sandbox for a launch has the traps on the host of the core library, and an empty console. -/
theorem sandbox_eq_ok {resources : Resources} {s : Sandbox} (h : l.sandbox resources = .ok s) :
    (∃ registry, Traps.install l.settings.label l.settings.forcedProperties Core.host .empty =
      (.ok s.env.host, registry)) ∧ s.world = l.startWorld := by
  unfold sandbox at h
  dsimp only at h
  rcases bind_eq_ok_iff.1 h with ⟨host, hinstall, h⟩
  obtain rfl := Except.ok.inj h
  refine ⟨⟨_, Prod.ext (mapError_eq_ok_iff.1 hinstall) rfl⟩, rfl⟩

/-- What is ready when a run starts: valid settings, and a sandbox over some resources. -/
theorem prepare_eq_ok {root : String} {version : Option VersionStamp} {s : Sandbox}
    (h : l.prepare = .ok (root, version, s)) :
    l.settings.validate = .ok () ∧ ∃ resources, l.sandbox resources = .ok s := by
  unfold prepare at h
  rcases bind_eq_ok_iff.1 h with ⟨root', hroot, h⟩
  rcases bind_eq_ok_iff.1 h with ⟨version', -, h⟩
  rcases bind_eq_ok_iff.1 h with ⟨s', hsandbox, h⟩
  unfold findArtifact at hroot
  rcases bind_eq_ok_iff.1 hroot with ⟨_, hvalid, -⟩
  dsimp only at h
  split at h
  case isTrue => cases h
  case isFalse =>
    have hready := (Prod.mk.inj (Except.ok.inj h)).2
    obtain rfl : s' = s := (Prod.mk.inj hready).2
    exact ⟨mapError_eq_ok_iff.1 hvalid, Resources.directory l.tree root', hsandbox⟩

/-- A launch whose run has an outcome reports it, and drains the console for that. -/
theorem run_of_outcome {root : String} {version : Option VersionStamp} {s : Sandbox}
    {outcome : Outcome} (hprepare : l.prepare = .ok (root, version, s))
    (houtcome : (s.invoke l.settings.entryPoint []).1 = .ok outcome) :
    l.run.answer = .ok (l.report root version outcome
        (s.invoke l.settings.entryPoint []).2.world.console).1 ∧
      l.run.world.console = (l.report root version outcome
        (s.invoke l.settings.entryPoint []).2.world.console).2 := by
  unfold run
  rw [hprepare]
  dsimp only
  generalize s.invoke l.settings.entryPoint [] = invoked at houtcome
  rcases invoked with ⟨answer, after⟩
  obtain rfl : answer = .ok outcome := houtcome
  exact ⟨rfl, rfl⟩

/-- A report is of the outcome of a run that everything was ready for. -/
theorem run_eq_ok {report : Report} (h : l.run.answer = .ok report) :
    ∃ root version s outcome, l.prepare = .ok (root, version, s) ∧
      (s.invoke l.settings.entryPoint []).1 = .ok outcome ∧
      (report, l.run.world.console) = l.report root version outcome
        (s.invoke l.settings.entryPoint []).2.world.console := by
  cases hprepare : l.prepare with
  | error e =>
    unfold run at h
    rw [hprepare] at h
    cases h
  | ok ready =>
    rcases ready with ⟨root, version, s⟩
    cases houtcome : (s.invoke l.settings.entryPoint []).1 with
    | error interruption =>
      unfold run at h
      rw [hprepare] at h
      dsimp only at h
      generalize s.invoke l.settings.entryPoint [] = invoked at houtcome h
      rcases invoked with ⟨answer, after⟩
      obtain rfl : answer = .error interruption := houtcome
      cases h
    | ok outcome =>
      rcases run_of_outcome hprepare houtcome with ⟨hanswer, hconsole⟩
      obtain rfl := Except.ok.inj (h.symm.trans hanswer)
      exact ⟨root, version, s, outcome, rfl, houtcome, Prod.ext rfl hconsole⟩

/-- Without a console of the caller's the lines of a report are popped off the console of the run
one by one, until there are none. -/
theorem report_console {root : String} {version : Option VersionStamp} {outcome : Outcome}
    (h : l.ownConsole = none) (c : Console) :
    ((l.report root version outcome c).1.console, (l.report root version outcome c).2) =
      (c.taken (List.replicate c.size .pop), c.after (List.replicate c.size .pop)) := by
  rw [← c.drain_eq_pops]
  simp [report, capture, h]

/-- The console of a report is an exact prefix of what was printed. Let a launch without a console
of the caller's and without a deadline come to a report, whatever addresses its objects get. Then
everything was ready for a run of the entry point, the report is of its outcome, and

* its console has the first texts that the stand-in for prints took in the run, as many as the
  settings allow, in order, as they are and under the label of the settings;
* all others are counted as dropped;
* the report is a success to the caller exactly if its exit code is 0;
* the lines are popped off the console that the run has left, and none is left there then. -/
theorem run_reports {settings : Settings} {tree : FileTree} {addresses : Nat → Nat}
    {report : Report}
    (h : (Launch.mk settings tree none none addresses).run.answer = .ok report) :
    ∃ root version sandbox outcome,
      (Launch.mk settings tree none none addresses).prepare = .ok (root, version, sandbox) ∧
      (sandbox.invoke settings.entryPoint []).1 = .ok outcome ∧
      report.outcome = .ofOutcome outcome ∧
      report.console =
        ((sandbox.captured settings.entryPoint []).take settings.sinkCapacity).map
          (Line.mk settings.label) ∧
      report.consoleDropped =
        (sandbox.captured settings.entryPoint []).length - report.console.length ∧
      (report.toResult = .ok () ↔ report.exitCode = 0) ∧
      let left := (sandbox.invoke settings.entryPoint []).2.world.console
      report.console = left.taken (List.replicate left.size .pop) ∧
        (Launch.mk settings tree none none addresses).run.world.console =
          left.after (List.replicate left.size .pop) := by
  rcases run_eq_ok h with ⟨root, version, sandbox, outcome, hprepare, houtcome, hreport⟩
  rcases prepare_eq_ok hprepare with ⟨hvalid, resources, hsandbox⟩
  rcases sandbox_eq_ok hsandbox with ⟨⟨registry, hinstall⟩, hworld⟩
  have hcaptures : sandbox.env.host.Captures settings.label :=
    Traps.captures_of_install hinstall (Core.host_silentBut _)
  have hconsole := Sandbox.invoke_console hcaptures settings.entryPoint []
  have hroom : max settings.sinkCapacity 1 = settings.sinkCapacity :=
    Nat.max_eq_left (Settings.sinkCapacity_pos hvalid)
  have hempty : sandbox.world.console = ⟨settings.sinkCapacity, #[], 0, 0⟩ := by
    rw [hworld, startWorld, World.initial, Console.ofCapacity, Option.getD_none, hroom]
  rw [hempty, Console.foldl_emit] at hconsole
  rcases Prod.mk.inj hreport with ⟨rfl, hleft⟩
  rcases Prod.mk.inj (report_console (l := ⟨settings, tree, none, none, addresses⟩) rfl
    (sandbox.invoke settings.entryPoint []).2.world.console) with ⟨htaken, hafter⟩
  refine ⟨root, version, sandbox, outcome, hprepare, houtcome, rfl, ?_, ?_, ?_, htaken,
    hleft.trans hafter⟩
  · simp [capture, hconsole, Console.size]
  · simp [capture, hconsole, Console.size]
    omega
  · exact Summary.toResult_ofOutcome.trans (Sandbox.exitCode_eq_zero_iff houtcome).symm

end Launch

/-- An artifact at the first of the default places, with an image for the default entry module. -/
def FileTree.artifact (main : Image) : FileTree :=
  .write .empty (Path.join "subsystem" (resourcePath "subsystem.Main")) main.bytes

/-- A program that prints three lines and exits with 3. -/
def Image.announcing : Image where
  major := 1
  minor := 0
  pool := ⟨#[.utf8 "subsystem.Main", .utf8 "main", .utf8 "()V", .utf8 "core.System", .utf8 "out",
    .utf8 "Lcore.PrintStream;", .field ⟨3, 4, 5⟩, .utf8 "one", .str 7, .utf8 "two", .str 9,
    .utf8 "three", .str 11, .utf8 "core.PrintStream", .utf8 "println", .utf8 "(T)V",
    .method ⟨13, 14, 15⟩, .utf8 "exit", .utf8 "(I)V", .method ⟨3, 17, 18⟩, .int 3]⟩
  thisName := 0
  methods := #[⟨1, 1, 2, 0, #[.getStatic 6, .const 8, .invoke .virtual 16, .getStatic 6, .const 10,
    .invoke .virtual 16, .getStatic 6, .const 12, .invoke .virtual 16, .const 20,
    .invoke .static 19, .ret], []⟩]

namespace Launch

/-- The settings keep two of the three lines. -/
theorem run_reports_announcing :
    ∃ report,
      (Launch.mk { Settings.default with sinkCapacity := 2 } (.artifact .announcing) none none
        World.blocks).run.answer = .ok report ∧
      report.console = [⟨"subsystem", "one"⟩, ⟨"subsystem", "two"⟩] ∧ report.consoleDropped = 1 ∧
      report.exitCode = 3 ∧
      ∃ root version sandbox,
        (Launch.mk { Settings.default with sinkCapacity := 2 } (.artifact .announcing) none none
          World.blocks).prepare = .ok (root, version, sandbox) ∧
        (sandbox.captured Settings.default.entryPoint []).length = 3 := by
  have hreport : (Launch.mk { Settings.default with sinkCapacity := 2 } (.artifact .announcing) none
      none World.blocks).run.answer.toOption.map (fun report =>
        (report.console, report.consoleDropped, report.exitCode)) =
      some ([⟨"subsystem", "one"⟩, ⟨"subsystem", "two"⟩], 1, 3) := by
    decide +kernel
  rcases Option.map_eq_some_iff.1 hreport with ⟨report, hsome, hfields⟩
  have hanswer := toOption_eq_some_iff.1 hsome
  have hconsole := (Prod.mk.inj hfields).1
  rcases Prod.mk.inj (Prod.mk.inj hfields).2 with ⟨hdropped, hcode⟩
  rcases run_reports hanswer with ⟨root, version, sandbox, outcome, hprepare, -, -, -, hcount, -⟩
  refine ⟨report, hanswer, hconsole, hdropped, hcode, root, version, sandbox, hprepare, ?_⟩
  rw [hdropped, hconsole] at hcount
  have hlength : (sandbox.captured Settings.default.entryPoint []).length - 2 = 1 := hcount.symm
  omega

end Launch

end Interposition
