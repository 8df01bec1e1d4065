import Interposition.Proofs.Machine.Stopping
import Interposition.Proofs.Sandbox.Capture

/-!
# Interposition.Proofs.Sandbox.Boundary — what a stop looks like from outside

An outcome is read off the chain of errors that a run ends with. The request that decides it is
the one at the root (`Failure.requestedExit?_eq`), so the layers that a stop collects on its way
out make no difference, and each outcome stands for one way to end (`Ending.outcome_eq_void_iff`
and those after it).

With the traps installed, a call that is written as an exit of the core library stops the run with
the exit request for its argument (`Traps.stops_exit`). The code is the argument cut to 32 bits,
and is 0 only if the argument is (`clampExitCode_eq_zero_iff`).

The main statement, `Sandbox.invoke_stops`, is all this of an invocation.
-/

namespace Interposition

/-! ## Chains -/

/-- The chain that decides an outcome has the messages that are reported of a crash. -/
theorem Failure.chain_messages (f : Failure) :
    f.chain.map Cause.message = f.message :: f.causes := by
  induction f with
  | frame place inner ih => simp [chain, causes, Cause.message, ih]
  | link module error =>
    have hsame : Cause.message ∘ Cause.error = id := rfl
    simp [chain, causes, Cause.message, hsame]
  | _ => rfl

/-- The first exit request of a chain is the one at the root, however many layers it is in. -/
theorem Failure.requestedExit?_eq (f : Failure) : f.requestedExit? = f.exitCode? := by
  induction f with
  | frame place inner ih =>
    have hinner : (Failure.frame place inner).exitCode? = inner.exitCode? := rfl
    rw [requestedExit?, chain, List.findSome?_cons, Cause.exitCode?, hinner]
    cases hcode : inner.exitCode? with
    | some code => rfl
    | none =>
      rw [hcode] at ih
      exact ih
  | link module error =>
    have hnone : ((error.message :: error.causes).map Cause.error).findSome? Cause.exitCode? =
        none := by
      simp [Cause.exitCode?]
    rw [requestedExit?, chain, List.findSome?_cons, hnone]
    rfl
  | exitRequest code => rfl
  | _ => rfl

theorem Failure.exitCode?_eq_some_iff {f : Failure} {code : Int32} :
    f.exitCode? = some code ↔ f.root = .exitRequest code := by
  unfold exitCode?
  split
  case h_1 code' hroot => simp [hroot]
  case h_2 hother =>
    constructor
    · intro h
      cases h
    · intro h
      exact absurd h (hother code)

/-! ## Outcomes -/

/-- The root of a failure decides its outcome. -/
theorem Outcome.ofFailure_cases (entry : String) (f : Failure) :
    (∃ code, f.root = .exitRequest code ∧
      ofFailure entry f = if code = 0 then success .void else controlledFailure code) ∨
    (∀ code, f.root ≠ .exitRequest code) ∧ ofFailure entry f = crash entry f := by
  rw [ofFailure, f.requestedExit?_eq]
  cases hcode : f.exitCode? with
  | some code => exact Or.inl ⟨code, Failure.exitCode?_eq_some_iff.1 hcode, rfl⟩
  | none =>
    refine Or.inr ⟨?_, rfl⟩
    intro code hroot
    rw [Failure.exitCode?_eq_some_iff.2 hroot] at hcode
    cases hcode

namespace Ending

variable {entry : String} {ending : Ending}

/-- Success without a value: a return without one, or a request to exit with 0. -/
theorem outcome_eq_void_iff :
    ending.outcome entry = .ok (.success .void) ↔
      ending = .returned .void ∨ ∃ f, ending = .failed f ∧ f.root = .exitRequest 0 := by
  cases ending with
  | returned value => simp [outcome]
  | failed f =>
    simp only [outcome, Except.ok.injEq, reduceCtorEq, failed.injEq, exists_eq_left', false_or]
    rcases Outcome.ofFailure_cases entry f with ⟨code, hroot, houtcome⟩ | ⟨hroot, houtcome⟩
    · rw [houtcome, hroot]
      split <;> simp_all
    · simp [houtcome, hroot]
  | exited code => simp [outcome]

/-- A controlled failure: a request to exit with that code, which is not 0. -/
theorem outcome_eq_controlledFailure_iff {code : Int32} :
    ending.outcome entry = .ok (.controlledFailure code) ↔
      code ≠ 0 ∧ ∃ f, ending = .failed f ∧ f.root = .exitRequest code := by
  cases ending with
  | returned value => simp [outcome]
  | failed f =>
    simp only [outcome, Except.ok.injEq, failed.injEq, exists_eq_left']
    rcases Outcome.ofFailure_cases entry f with ⟨code', hroot, houtcome⟩ | ⟨hroot, houtcome⟩
    · rw [houtcome, hroot]
      split
      case isTrue hzero =>
        subst hzero
        simp only [reduceCtorEq, Failure.exitRequest.injEq, false_iff, not_and]
        intro hne hsame
        exact hne hsame.symm
      case isFalse hzero =>
        simp only [Outcome.controlledFailure.injEq, Failure.exitRequest.injEq]
        constructor
        · rintro rfl
          exact ⟨hzero, rfl⟩
        · rintro ⟨-, rfl⟩
          rfl
    · simp [houtcome, hroot]
  | exited code => simp [outcome]

/-- A crash: any other failure, kept as it is. -/
theorem outcome_eq_crash_iff {text : String} {f : Failure} :
    ending.outcome entry = .ok (.crash text f) ↔
      text = entry ∧ ending = .failed f ∧ ∀ code, f.root ≠ .exitRequest code := by
  cases ending with
  | returned value => simp [outcome]
  | failed f' =>
    simp only [outcome, Except.ok.injEq, failed.injEq]
    rcases Outcome.ofFailure_cases entry f' with ⟨code, hroot, houtcome⟩ | ⟨hroot, houtcome⟩
    · have hnone : ¬(f' = f ∧ ∀ code, f.root ≠ .exitRequest code) := by
        rintro ⟨rfl, hother⟩
        exact hother code hroot
      rw [houtcome]
      split <;> simp [hnone]
    · simp only [houtcome, Outcome.crash.injEq]
      constructor
      · rintro ⟨rfl, rfl⟩
        exact ⟨rfl, rfl, hroot⟩
      · rintro ⟨rfl, rfl, -⟩
        exact ⟨rfl, rfl⟩
  | exited code => simp [outcome]

end Ending

/-! ## Exit codes -/

/-- A code is the nearest number of 32 bits. -/
theorem toInt_clampExitCode (n : Int64) :
    (clampExitCode n).toInt = max (-2147483648) (min n.toInt 2147483647) := by
  rw [clampExitCode, Int32.toInt_ofInt_of_le]
  · omega
  · omega

/-- No request to exit with a failure becomes one to exit with success. -/
theorem clampExitCode_eq_zero_iff {n : Int64} : clampExitCode n = 0 ↔ n = 0 := by
  rw [← Int32.toInt_inj, ← Int64.toInt_inj, toInt_clampExitCode, Int32.toInt_zero, Int64.toInt_zero]
  omega

/-! ## Exits -/

/-- A snapshot is at a call that is written as an exit of the core library, in an image that the
rules have made the one it runs of, and the code is on top of the stack. -/
def Snapshot.AtExit (rules : RuleSet) (t : Snapshot) (n : Int64) : Prop :=
  ∃ (original : Image) (report : RedirectReport) (operand : UInt16) (rest : List Value),
    original.pool.size ≤ Pool.capacity ∧
    original.redirect rules = .ok (t.frame.module.image, report) ∧
    original.instruction? t.frame.index t.frame.position = some (.invoke .static operand) ∧
    original.pool.Names (operand, .static) Core.exitSymbol ∧
    t.frame.stack = .int n :: rest

namespace Traps

/-- Installed traps have the rule for exits, and the host has the native that stands in. -/
theorem install_exits {tag : String} {forced : List String} {host host' : Host}
    {r r' : Registry} (h : install tag forced host r = (.ok host', r')) :
    exitRule ∈ r'.rules.rules ∧ host'.native? exitRule.target = some handleExit := by
  rcases install_ok h with ⟨hregister, rfl⟩
  refine ⟨(registerAll_ok hregister).1 exitRule (by simp), ?_⟩
  have hgetBoolean : (exitRule.target == getBooleanRule.target) = false := by decide
  have hprint : (exitRule.target == printRule.target) = false := by decide
  simp [Host.native?, Host.register, List.lookup_cons, hgetBoolean, hprint]

/-- A frame at a redirected exit hands the code to the trap. -/
theorem execute_exit (host : Host) {f : Frame} {target : UInt16} {code : Value}
    {rest : List Value} (hi : f.instruction = .invoke .static target)
    (hm : f.module.image.pool.method? target = some exitRule.target.texts)
    (hstack : f.stack = code :: rest) :
    f.execute host = .ok (.call { f with stack := rest }
      ⟨exitRule.target, exitRule.target.signature.descriptor, [code]⟩) := by
  have hparse : Signature.parse exitRule.target.texts.descriptor =
      .ok exitRule.target.signature := by decide +kernel
  have harity : exitRule.target.signature.arity + CallKind.static.receivers = 1 := rfl
  have hcall : f.call .static target = .ok
      (⟨exitRule.target, exitRule.target.signature.descriptor, [code]⟩,
        { f with stack := rest }) := by
    rw [Frame.call_eq hm hparse, harity, if_neg (by simp [hstack]), Frame.operands, harity, hstack]
    rfl
  simp only [Frame.execute, hi, hcall]
  rfl

/-- A call that is written as an exit stops the run, where the traps have their rules. -/
theorem stops_exit {env : Environment} {t : Snapshot} {rules : RuleSet} {n : Int64}
    (hfuel : t.machine.executed < env.limits.fuel)
    (hnative : env.host.native? exitRule.target = some handleExit)
    (hrule : exitRule ∈ rules.rules) (hexit : t.AtExit rules n) :
    t.Stops env (.exitRequest (clampExitCode n)) := by
  rcases hexit with ⟨original, report, operand, rest, hsize, hredirect, hi, hnames, hstack⟩
  have hlookup := RuleSet.lookup_source hrule
  rcases Image.redirect_alters hsize hredirect with ⟨hempty, -⟩ | halters
  · rw [RuleSet.lookup_eq_none hempty] at hlookup
    cases hlookup
  · rcases halters.exists_instruction t.frame.instruction?_eq with ⟨i, hi', hbecomes⟩
    obtain rfl : .invoke .static operand = i := Option.some.inj (hi.symm.trans hi')
    rcases hbecomes.of_ruled (hnames.extends halters.extends_pool) hlookup with
      ⟨target, hcall, htarget⟩
    exact .native hfuel (execute_exit env.host hcall htarget hstack) hnative rfl rfl

end Traps

namespace Sandbox

/-- Exit requests and limits reach the boundary. Let an invocation call a method, and let its run
end in `ending` and leave the machine `m`.

* Where something stops the run, be it a native that answers with an exit request, the end of the
  fuel or a call that is too deep, no handler of any frame catches that failure in any layers, not
  one more instruction is executed, and the run ends with the failure in one layer for each frame.
  Without room for a single frame nothing is executed at all.
* A run that ends with a failure no handler may catch was stopped so.
* The outcome is success without a value, a controlled failure or a crash exactly if the run
  returned without a value or the root is an exit request with 0, an exit request with another
  code, or anything else. A crash has the failure as it is. The search down the chain of errors
  finds what is at the root.
* With the traps installed, an instruction that is written as an exit of the core library stops the
  run with its argument, cut to 32 bits, and that is 0 only if the argument is. -/
theorem invoke_stops {s : Sandbox} {entry : EntryPoint} {args : List Value} {module : Module}
    {index : Nat} {m : Machine} {ending : Ending}
    (hcalled : s.called entry args = .ok (module, index))
    (hcall : (s.machine entry).call s.env module index args = (m, ending)) :
    (∀ t failure, (s.machine entry).Visits s.env module index args t → t.Stops s.env failure →
      (∀ (f : Frame) (layered : Failure), layered.root = failure.root →
        f.catches layered = false) ∧
      m = t.halted s.env ∧ ending = .failed (abandon failure t.frame t.callers) ∧
      (abandon failure t.frame t.callers).root = failure.root) ∧
    (s.env.limits.maxCallDepth = 0 →
      m = s.machine entry ∧ ending = .failed (.callDepthExceeded 0)) ∧
    (∀ failure, ending = .failed failure → failure.isCatchable = false →
      (s.env.limits.maxCallDepth = 0 ∧ failure = .callDepthExceeded 0) ∨
      ∃ t cause, (s.machine entry).Visits s.env module index args t ∧ t.Stops s.env cause ∧
        failure = abandon cause t.frame t.callers) ∧
    ((s.invoke entry args).1 = .ok (.success .void) ↔
      ending = .returned .void ∨ ∃ f, ending = .failed f ∧ f.root = .exitRequest 0) ∧
    (∀ code, (s.invoke entry args).1 = .ok (.controlledFailure code) ↔
      code ≠ 0 ∧ ∃ f, ending = .failed f ∧ f.root = .exitRequest code) ∧
    (∀ text f, (s.invoke entry args).1 = .ok (.crash text f) ↔
      text = entry.text ∧ ending = .failed f ∧ ∀ code, f.root ≠ .exitRequest code) ∧
    (∀ f : Failure, f.requestedExit? = f.exitCode?) ∧
    ∀ tag forced host registry r, Traps.install tag forced host registry = (.ok s.env.host, r) →
      ∀ rules : RuleSet, (∀ rule ∈ r.rules.rules, rule ∈ rules.rules) →
      ∀ t n, (s.machine entry).Visits s.env module index args t →
        t.machine.executed < s.env.limits.fuel → t.AtExit rules n →
        t.Stops s.env (.exitRequest (clampExitCode n)) ∧
          (s.invoke entry args).1 =
            .ok (if n = 0 then .success .void else .controlledFailure (clampExitCode n)) ∧
          (clampExitCode n).toInt = max (-2147483648) (min n.toInt 2147483647) := by
  have hinvoke : (s.invoke entry args).1 = ending.outcome entry.text := by
    rw [invoke_of_ok hcalled, hcall]
  have hstops (t : Snapshot) (failure : Failure)
      (hvisits : (s.machine entry).Visits s.env module index args t)
      (hstop : t.Stops s.env failure) :
      m = t.halted s.env ∧ ending = .failed (abandon failure t.frame t.callers) := by
    rw [Machine.call_stops hvisits hstop] at hcall
    rcases Prod.mk.inj hcall with ⟨rfl, rfl⟩
    exact ⟨rfl, rfl⟩
  rw [hinvoke]
  refine ⟨?_, ?_, ?_, Ending.outcome_eq_void_iff,
    fun _ => Ending.outcome_eq_controlledFailure_iff, fun _ _ => Ending.outcome_eq_crash_iff,
    Failure.requestedExit?_eq, ?_⟩
  · intro t failure hvisits hstop
    rcases hstops t failure hvisits hstop with ⟨hm, hending⟩
    refine ⟨?_, hm, hending, root_abandon failure t.frame t.callers⟩
    intro f layered hroot
    exact Frame.catches_eq_false ((Failure.isCatchable_congr hroot).trans hstop.raises.1) f
  · intro hdepth
    rw [Machine.call, if_pos hdepth] at hcall
    rcases Prod.mk.inj hcall with ⟨rfl, rfl⟩
    exact ⟨rfl, rfl⟩
  · intro failure hfailed huncatchable
    have hend : ((s.machine entry).call s.env module index args).2 = .failed failure := by
      rw [hcall, hfailed]
    exact Machine.exists_stops hend huncatchable
  · intro tag forced host registry r hinstall rules hrules t n hvisits hfuel hexit
    rcases Traps.install_exits hinstall with ⟨hrule, hnative⟩
    have hstop := Traps.stops_exit hfuel hnative (hrules _ hrule) hexit
    refine ⟨hstop, ?_, toInt_clampExitCode n⟩
    rcases hstops t _ hvisits hstop with ⟨-, hending⟩
    have hroot : (abandon (.exitRequest (clampExitCode n)) t.frame t.callers).root =
        .exitRequest (clampExitCode n) := root_abandon _ _ _
    by_cases hzero : n = 0
    · rw [clampExitCode_eq_zero_iff.2 hzero] at hroot hending
      rw [if_pos hzero]
      exact Ending.outcome_eq_void_iff.2 (Or.inr ⟨_, hending, hroot⟩)
    · have hcode : clampExitCode n ≠ 0 := fun h => hzero (clampExitCode_eq_zero_iff.1 h)
      rw [if_neg hzero]
      exact Ending.outcome_eq_controlledFailure_iff.2 ⟨hcode, _, hending, hroot⟩

end Sandbox

/-- The failure that a run ended with. -/
def Ending.failure? : Ending → Option Failure
  | .returned _ => none
  | .failed failure => some failure
  | .exited _ => none

theorem Ending.failure?_eq_some_iff {ending : Ending} {failure : Failure} :
    ending.failure? = some failure ↔ ending = .failed failure := by
  cases ending with
  | returned value => simp [failure?]
  | failed found => simp [failure?]
  | exited code => simp [failure?]

/-- A program whose method `main` calls the method `quit`, which exits with a code of more than 32
bits. Both calls are under handlers. -/
def Image.quitting : Image where
  major := 1
  minor := 0
  pool := ⟨#[.utf8 "a", .utf8 "main", .utf8 "()V", .utf8 "core.System", .utf8 "exit", .utf8 "(I)V",
    .method ⟨3, 4, 5⟩, .int 1099511627776, .utf8 "quit", .method ⟨0, 8, 2⟩]⟩
  thisName := 0
  methods := #[⟨1, 1, 2, 0, #[.invoke .static 9, .ret, .pop, .ret], [⟨0, 3, 4⟩]⟩,
    ⟨1, 8, 2, 0, #[.const 7, .invoke .static 6, .ret, .pop, .ret], [⟨0, 6, 7⟩]⟩]

/-- A program that exits in a call, in a layer with the traps installed. -/
def Sandbox.quitting : Sandbox where
  env := ⟨((Core.host.register Traps.exitRule.target Traps.handleExit).register
    Traps.printRule.target (Traps.handlePrint "a")).register
    Traps.getBooleanRule.target (Traps.handleGetBoolean []), ⟨10, 2⟩⟩
  loader := .layer ⟨fun _ => true, (Traps.install "a" [] Core.host .empty).2, .empty, .zero⟩
    (.bundle (.of (.memory [(resourcePath "a", Image.quitting.bytes)])))
  world := .initial 4

namespace Sandbox

theorem invoke_stops_quitting :
    ∃ module index, quitting.called (.main "a") [] = .ok (module, index) ∧
      (quitting.invoke (.main "a") []).1 = .ok (.controlledFailure 2147483647) ∧
      ∃ t cause, (quitting.machine (.main "a")).Visits quitting.env module index [] t ∧
        t.Stops quitting.env cause ∧
        abandon cause t.frame t.callers = .frame ⟨"a", "main()V", 0⟩
          (.frame ⟨"a", "quit()V", 3⟩ (.exitRequest 2147483647)) := by
  have hends : ((quitting.called (.main "a") []).toOption.bind fun target =>
      ((quitting.machine (.main "a")).call quitting.env target.1 target.2 []).2.failure?) =
        some (.frame ⟨"a", "main()V", 0⟩
          (.frame ⟨"a", "quit()V", 3⟩ (.exitRequest 2147483647))) := by
    decide +kernel
  rcases Option.bind_eq_some_iff.1 hends with ⟨⟨module, index⟩, htarget, hfailed⟩
  have hcalled : quitting.called (.main "a") [] = .ok (module, index) := by
    cases hresult : quitting.called (.main "a") [] with
    | error e => simp [hresult, Except.toOption] at htarget
    | ok target => simpa [hresult, Except.toOption] using htarget
  cases hcall : (quitting.machine (.main "a")).call quitting.env module index [] with
  | mk m ending =>
    simp only [hcall] at hfailed
    have hending := Ending.failure?_eq_some_iff.1 hfailed
    rcases invoke_stops hcalled hcall with ⟨-, -, hstopped, -, hcontrolled, -⟩
    have houtcome := (hcontrolled 2147483647).2 ⟨by decide, _, hending, rfl⟩
    rcases hstopped _ hending rfl with ⟨hdepth, -⟩ | ⟨t, cause, hvisits, hstops, hfailure⟩
    · cases hdepth
    · exact ⟨module, index, hcalled, houtcome, t, cause, hvisits, hstops, hfailure.symm⟩

end Sandbox

end Interposition
