import Interposition.Proofs.Machine.Soundness
import Interposition.Proofs.Machine.Stopping

/-!
# Interposition.Proofs.Machine.Budget — limits only cut runs short

A limit shows in a run in one way alone. The run ends for it, with a failure that no handler takes,
so nothing in the program can tell one budget from another and go on. A step under more generous
limits is therefore the same step, unless it is the one that a limit ends (`step_cut_or_eq`), and a
run that comes to its end by itself is the same run, down to the last instruction, under all limits
that allow as much (`Machine.call_within`).
-/

namespace Interposition

/-! ## Cuts -/

/-- The failure is one of the fuel or of the depth of calls. -/
def Failure.isLimit (f : Failure) : Bool :=
  match f.root with
  | .fuelExhausted _ | .callDepthExceeded _ => true
  | _ => false

/-- The call ended for a limit. -/
def Ending.isCut : Ending → Bool
  | .failed failure => failure.isLimit
  | .returned _ | .exited _ => false

/-- The step ended the run for a limit. -/
def Progress.isCut : Progress → Bool
  | .ended ending => ending.isCut
  | .running .. => false

theorem Failure.not_catchable_of_isLimit {f : Failure} (h : f.isLimit = true) :
    f.isCatchable = false := by
  unfold isLimit at h
  unfold isCatchable
  split at h
  case h_1 hroot => rw [hroot]
  case h_2 hroot => rw [hroot]
  case h_3 => cases h

/-- A limit stays one when the failure leaves all frames. -/
theorem isLimit_abandon (failure : Failure) (frame : Frame) (callers : Callers) :
    (abandon failure frame callers).isLimit = failure.isLimit := by
  rw [Failure.isLimit, Failure.isLimit, root_abandon]

/-- An ending is a cut if it is a failure whose root is that of a limit. -/
theorem Ending.isCut_eq_false {ending : Ending}
    (h : ∀ failure, ending = .failed failure →
      (∀ executed, failure.root ≠ .fuelExhausted executed) ∧
        ∀ limit, failure.root ≠ .callDepthExceeded limit) : ending.isCut = false := by
  cases ending with
  | returned value => rfl
  | exited code => rfl
  | failed failure =>
    have hroot := h failure rfl
    unfold isCut Failure.isLimit
    cases hkind : failure.root with
    | fuelExhausted executed => exact absurd hkind (hroot.1 executed)
    | callDepthExceeded limit => exact absurd hkind (hroot.2 limit)
    | _ => simp only [hkind]

/-- A limit that a call meets ends the run, whatever handlers the frames have. -/
theorem proceed_isCut {failure : Failure} (h : failure.isLimit = true) (f : Frame)
    (callers : Callers) : (proceed callers (f.raise failure)).isCut = true := by
  have hends := proceed_of_uncatchable (Failure.not_catchable_of_isLimit h) f callers
  rw [hends]
  exact (isLimit_abandon failure f callers).trans h

/-! ## Steps -/

section Steps

variable {env : Environment} {limits : Limits}

/-- Linking asks for the depth last, and for nothing else that a limit decides. -/
theorem link_cut_or_eq (hdepth : env.limits.maxCallDepth ≤ limits.maxCallDepth) (m : Machine)
    (caller : Module) (call : Frame.Call) (depth : Nat) :
    (link env m caller call depth).1 = .error (.callDepthExceeded env.limits.maxCallDepth) ∨
      link ⟨env.host, limits⟩ m caller call depth = link env m caller call depth := by
  cases hloader : m.loader with
  | none =>
    right
    simp only [link, hloader]
  | some loader =>
    cases hlevel : caller.level with
    | none =>
      right
      simp only [link, hloader, hlevel]
    | some level =>
      simp only [link, hloader, hlevel]
      generalize loader.resolveAt level call.symbol.owner = resolved
      rcases resolved with ⟨answer, loader⟩
      cases answer with
      | error e =>
        right
        cases e <;> rfl
      | ok target =>
        dsimp only
        split
        case h_1 =>
          right
          rfl
        case h_2 index _ =>
          by_cases hdeep : env.limits.maxCallDepth ≤ depth
          · left
            rw [if_pos hdeep]
          · have hdeep' : ¬limits.maxCallDepth ≤ depth := by omega
            right
            rw [if_neg hdeep, if_neg hdeep']

theorem perform_cut_or_eq (hdepth : env.limits.maxCallDepth ≤ limits.maxCallDepth) (m : Machine)
    (before waiting : Frame) (call : Frame.Call) (callers : Callers) :
    (perform env m before waiting call callers).2.isCut = true ∨
      perform ⟨env.host, limits⟩ m before waiting call callers =
        perform env m before waiting call callers := by
  unfold perform
  cases env.host.native? call.symbol with
  | some native =>
    right
    rfl
  | none =>
    dsimp only
    rcases link_cut_or_eq hdepth m before.module call (callers.depth + 1) with hdeep | hsame
    · have hlimit : (Failure.callDepthExceeded env.limits.maxCallDepth).isLimit = true := rfl
      left
      rw [hdeep]
      exact proceed_isCut hlimit before callers
    · right
      rw [hsame]

/-- A step is the same under limits that allow more calls, unless a limit ends the run there. -/
theorem step_cut_or_eq (hdepth : env.limits.maxCallDepth ≤ limits.maxCallDepth) (m : Machine)
    (f : Frame) (callers : Callers) :
    (step env m f callers).2.isCut = true ∨
      step ⟨env.host, limits⟩ m f callers = step env m f callers := by
  unfold step
  cases f.execute env.host with
  | error failure =>
    right
    rfl
  | ok flow =>
    cases flow with
    | call waiting call => exact perform_cut_or_eq hdepth _ f waiting call callers
    | _ =>
      right
      rfl

/-! ## Runs -/

/-- A run is the same with more fuel and under limits that allow more calls, unless a limit
ended it. -/
theorem run_cut_or_eq (hdepth : env.limits.maxCallDepth ≤ limits.maxCallDepth) {fuel fuel' : Nat}
    (hfuel : fuel ≤ fuel') (m : Machine) (f : Frame) (callers : Callers) :
    (run env fuel m f callers).2.isCut = true ∨
      run ⟨env.host, limits⟩ fuel' m f callers = run env fuel m f callers := by
  induction fuel generalizing fuel' m f callers with
  | zero =>
    left
    exact isLimit_abandon (.fuelExhausted m.executed) f callers
  | succ fuel ih =>
    obtain ⟨rest, rfl⟩ : ∃ rest, fuel' = rest + 1 := Nat.exists_eq_succ_of_ne_zero (by omega)
    have hrest : fuel ≤ rest := by omega
    rw [run, run]
    rcases step_cut_or_eq hdepth m f callers with hcut | hsame
    · left
      cases hstep : step env m f callers with
      | mk m' progress =>
        rw [hstep] at hcut
        cases progress with
        | running f' callers' => cases hcut
        | ended ending => exact hcut
    · rw [hsame]
      cases step env m f callers with
      | mk m' progress =>
        cases progress with
        | running f' callers' => exact ih hrest m' f' callers'
        | ended ending =>
          right
          rfl

end Steps

/-! ## Calls -/

/-- The text that a call returned. -/
def Ending.text? : Ending → Option String
  | .returned value => value.str?
  | .exited _ | .failed _ => none

namespace Machine

variable {host : Host} {limits limits' : Limits} {m m' : Machine} {target : Module} {index : Nat}
  {args : List Value} {ending : Ending}

/-- A call is the same under limits that allow more, unless a limit ended it. -/
theorem call_cut_or_eq (hfuel : limits.fuel ≤ limits'.fuel)
    (hdepth : limits.maxCallDepth ≤ limits'.maxCallDepth) (m : Machine) (target : Module)
    (index : Nat) (args : List Value) :
    (m.call ⟨host, limits⟩ target index args).2.isCut = true ∨
      m.call ⟨host, limits'⟩ target index args = m.call ⟨host, limits⟩ target index args := by
  unfold call
  by_cases hzero : limits.maxCallDepth = 0
  · left
    rw [if_pos hzero]
    rfl
  · have hzero' : limits'.maxCallDepth ≠ 0 := by omega
    rw [if_neg hzero, if_neg hzero']
    cases Frame.enter target index args with
    | error failure =>
      right
      rfl
    | ok frame =>
      have hleft : limits.fuel - m.executed ≤ limits'.fuel - m.executed := by omega
      have hdepth' : (⟨host, limits⟩ : Environment).limits.maxCallDepth ≤ limits'.maxCallDepth :=
        hdepth
      exact run_cut_or_eq hdepth' hleft m frame .empty

/-- Limits only cut runs short. A call that ends with a value, with the end of the process or with
a failure whose root is neither that of the fuel nor that of the depth of calls ends the same way
under all limits that allow as much: after as many instructions, with the same modules loaded and
in the same world. -/
theorem call_within (hfuel : limits.fuel ≤ limits'.fuel)
    (hdepth : limits.maxCallDepth ≤ limits'.maxCallDepth)
    (h : m.call ⟨host, limits⟩ target index args = (m', ending))
    (hending : ∀ failure, ending = .failed failure →
      (∀ executed, failure.root ≠ .fuelExhausted executed) ∧
        ∀ limit, failure.root ≠ .callDepthExceeded limit) :
    m.call ⟨host, limits'⟩ target index args = (m', ending) := by
  have huncut : ending.isCut = false := Ending.isCut_eq_false hending
  have hcut : ¬(m.call ⟨host, limits⟩ target index args).2.isCut = true := by
    rw [h, huncut]
    decide
  have hsame := (call_cut_or_eq hfuel hdepth m target index args).resolve_left hcut
  exact hsame.trans h

/-- A program that needs four instructions and two frames is not disturbed by having more. -/
theorem call_within_catching :
    let m : Machine := ⟨0, some (.bundle ⟨.memory [], ⟨[.catching]⟩⟩), .initial 4⟩
    ∃ m' ending, m'.executed = 4 ∧ ending.text? = some "boom" ∧
      m.call ⟨.empty, ⟨4, 2⟩⟩ .catching 0 [] = (m', ending) ∧
      m.call ⟨.empty, ⟨1000, 512⟩⟩ .catching 0 [] = (m', ending) := by
  intro m
  have hexecuted : (m.call ⟨.empty, ⟨4, 2⟩⟩ .catching 0 []).1.executed = 4 := by decide +kernel
  have hboom : (m.call ⟨.empty, ⟨4, 2⟩⟩ .catching 0 []).2.text? = some "boom" := by
    decide +kernel
  rcases hcall : m.call ⟨.empty, ⟨4, 2⟩⟩ .catching 0 [] with ⟨m', ending⟩
  rw [hcall] at hexecuted hboom
  refine ⟨m', ending, hexecuted, hboom, rfl, call_within (by decide) (by decide) hcall ?_⟩
  rintro failure rfl
  cases hboom

end Machine

end Interposition
