import Interposition.Proofs.Machine.Stopping

/-!
# Interposition.Proofs.Machine.Termination — every run ends within its budget

Nothing in a program bounds its runs: code may jump back, methods may call each other, and a handler
may cover its own target. What bounds them is the fuel. This module takes a run as a loop without a
bound of its own (`Snapshot.turn`): each turn charges for an instruction and executes it, and that
there is nothing left to charge is a failure at the instruction, which handlers are asked about as
about any other.

A turn without fuel ends the loop, since no handler takes that failure, so a loop is at no turn
after its fuel is gone (`After.le_fuel`). A frame is only entered where the limit leaves room for it
(`Turns.activeFrames_le`). The main statement, `Machine.call_ends`, has both of all calls, and that
the loop comes to the ending of the call.
-/

namespace Interposition

namespace Snapshot

variable {env : Environment} {s t : Snapshot}

/-! ## Turns -/

/-- One turn of the loop. The instruction is executed if there is fuel for it; if not, it fails. -/
def turn (env : Environment) (s : Snapshot) : Machine × Progress :=
  if s.machine.executed < env.limits.fuel then s.next env
  else (s.machine,
    proceed s.callers (s.frame.raise (.fuelExhausted s.machine.executed)))

/-- The loop goes on after a turn. -/
def Turns (env : Environment) (s t : Snapshot) : Prop :=
  s.turn env = (t.machine, .running t.frame t.callers)

/-- The loop is at a snapshot after some number of turns. -/
inductive After (env : Environment) (s : Snapshot) : Nat → Snapshot → Prop
  | start : After env s 0 s
  | turn {n : Nat} {t u : Snapshot} (before : After env s n t) (turns : t.Turns env u) :
      After env s (n + 1) u

/-- The number of frames that are active: the one that executes and those that wait. -/
def activeFrames (s : Snapshot) : Nat :=
  s.callers.list.length + 1

theorem turn_of_fuel (h : s.machine.executed < env.limits.fuel) : s.turn env = s.next env := by
  rw [turn, if_pos h]

/-- Without fuel the loop ends at the turn, with all frames left. -/
theorem turn_of_no_fuel (h : env.limits.fuel ≤ s.machine.executed) :
    s.turn env =
      (s.machine,
        .ended (.failed (abandon (.fuelExhausted s.machine.executed) s.frame s.callers))) := by
  have huncatchable : (Failure.fuelExhausted s.machine.executed).isCatchable = false := rfl
  rw [turn, if_neg (Nat.not_lt.2 h), proceed_of_uncatchable huncatchable]

/-- A turn the loop goes on after has executed an instruction that there was fuel for. -/
theorem Turns.spends (h : s.Turns env t) : s.Spends env t := by
  by_cases hfuel : s.machine.executed < env.limits.fuel
  · rw [Turns, turn_of_fuel hfuel] at h
    exact ⟨hfuel, h⟩
  · rw [Turns, turn_of_no_fuel (Nat.not_lt.1 hfuel)] at h
    cases (Prod.mk.inj h).2

theorem Spends.turns (h : s.Spends env t) : s.Turns env t := by
  rw [Turns, turn_of_fuel h.1]
  exact h.2

/-! ## Fuel -/

/-- Each turn before has executed one instruction. -/
theorem After.executed {n : Nat} (h : s.After env n t) :
    t.machine.executed = s.machine.executed + n := by
  induction h with
  | start => rfl
  | turn _ hturns ih =>
    have hone := hturns.spends.2.executed
    omega

/-- There was fuel for all that the turns have executed. -/
theorem After.le_fuel {n : Nat} (h : s.After env n t)
    (hs : s.machine.executed ≤ env.limits.fuel) : s.machine.executed + n ≤ env.limits.fuel := by
  cases h with
  | start => exact hs
  | @turn n t _ hbefore hturns =>
    have hcount := hbefore.executed
    have hfuel := hturns.spends.1
    omega

theorem Visits.exists_after (h : s.Visits env t) : ∃ n, s.After env n t := by
  induction h with
  | refl => exact ⟨0, .start⟩
  | tail _ hspends ih =>
    rcases ih with ⟨n, hafter⟩
    exact ⟨n + 1, .turn hafter hspends.turns⟩

end Snapshot

/-! ## Depth -/

theorem unwind_length_lt {failure : Failure} {cs : List Caller} {f : Frame} {callers : Callers}
    (h : unwind failure cs = .running f callers) : callers.list.length < cs.length := by
  induction cs generalizing failure with
  | nil => cases h
  | cons c rest ih =>
    rw [unwind] at h
    split at h
    case h_1 =>
      obtain ⟨rfl, rfl⟩ := Progress.running.inj h
      exact Nat.lt_succ_self _
    case h_2 => exact Nat.lt_succ_of_lt (ih h)

theorem proceed_length_le {callers callers' : Callers} {outcome : Except Failure Frame} {f : Frame}
    (h : proceed callers outcome = .running f callers') :
    callers'.list.length ≤ callers.list.length := by
  cases outcome with
  | ok frame =>
    obtain ⟨-, rfl⟩ := Progress.running.inj h
    exact Nat.le_refl _
  | error failure => exact Nat.le_of_lt (unwind_length_lt h)

/-- A method is only entered where the limit leaves room for its frame. -/
theorem link_depth_lt {env : Environment} {m : Machine} {caller : Module} {call : Frame.Call}
    {depth : Nat} {f : Frame} (h : (link env m caller call depth).1 = .ok f) :
    depth < env.limits.maxCallDepth := by
  unfold link at h
  split at h
  case h_1 =>
    dsimp only at h
    split at h
    case h_1 => cases h
    case h_2 => cases h
    case h_3 =>
      split at h
      case h_1 => cases h
      case h_2 =>
        split at h
        case isTrue => cases h
        case isFalse hroom => exact Nat.not_le.1 hroom
  case h_2 => cases h

/-- An attempt leaves frames waiting that the limit has room for, and one more. -/
def Attempt.FitsIn (limit : Nat) : Attempt → Prop
  | .moves _ callers => callers.list.length + 1 ≤ limit
  | .raises _ => True
  | .ends _ => True

theorem Callers.receive_fitsIn {value : Value} {cs : Callers} {limit : Nat}
    (h : cs.list.length + 1 ≤ limit) : (cs.receive value).FitsIn limit := by
  unfold Callers.receive
  split
  case h_1 => trivial
  case h_2 c rest hpop =>
    have hlist := Callers.list_of_pop? hpop
    rw [hlist, List.length_cons] at h
    exact Nat.le_of_succ_le h

namespace Snapshot

variable {env : Environment} {s t : Snapshot}

theorem attemptCall_fitsIn {m : Machine} {waiting : Frame} {call : Frame.Call}
    (h : s.activeFrames ≤ env.limits.maxCallDepth) :
    (attemptCall env m s waiting call).2.FitsIn env.limits.maxCallDepth := by
  unfold attemptCall
  split
  case h_1 =>
    dsimp only
    split
    case h_1 => exact h
    case h_2 => trivial
    case h_3 => trivial
  case h_2 =>
    dsimp only
    split
    case h_1 frame hlink =>
      have hroom := link_depth_lt hlink
      rw [s.callers.depth_eq] at hroom
      exact hroom
    case h_2 => trivial

/-- Whatever an instruction comes to, there is room for it. -/
theorem attempt_fitsIn (h : s.activeFrames ≤ env.limits.maxCallDepth) :
    (s.attempt env).2.FitsIn env.limits.maxCallDepth := by
  unfold attempt
  cases s.frame.execute env.host with
  | error failure => trivial
  | ok flow =>
    cases flow with
    | next frame => exact h
    | jump frame target => exact h
    | ret value => exact Callers.receive_fitsIn h
    | allocate frame typeName => exact h
    | call waiting call => exact attemptCall_fitsIn h

theorem Turns.activeFrames_le (hturns : s.Turns env t)
    (h : s.activeFrames ≤ env.limits.maxCallDepth) : t.activeFrames ≤ env.limits.maxCallDepth := by
  have hfits := attempt_fitsIn h
  have hsettles := hturns.spends.2.settles.2
  cases hattempt : (s.attempt env).2 with
  | moves outcome callers =>
    rw [hattempt] at hfits hsettles
    have hkept := proceed_length_le hsettles
    exact Nat.le_trans (Nat.succ_le_succ hkept) hfits
  | raises failure =>
    rw [hattempt] at hsettles
    have hkept := proceed_length_le hsettles
    exact Nat.le_trans (Nat.succ_le_succ hkept) h
  | ends ending =>
    rw [hattempt] at hsettles
    cases hsettles

theorem After.activeFrames_le {n : Nat} (hafter : s.After env n t)
    (h : s.activeFrames ≤ env.limits.maxCallDepth) : t.activeFrames ≤ env.limits.maxCallDepth := by
  induction hafter with
  | start => exact h
  | turn _ hturns ih => exact hturns.activeFrames_le ih

/-! ## Endings -/

/-- The loop comes to a turn that ends it, as the run does. -/
theorem exists_ended (env : Environment) (s : Snapshot) :
    ∃ n last, s.After env n last ∧
      last.turn env =
        ((run env (env.limits.fuel - s.machine.executed) s.machine s.frame s.callers).1, .ended
          (run env (env.limits.fuel - s.machine.executed) s.machine s.frame s.callers).2) := by
  rcases exists_last env s with ⟨last, hvisits, hlast⟩
  rcases hvisits.exists_after with ⟨n, hafter⟩
  refine ⟨n, last, hafter, ?_⟩
  rw [hvisits.run_eq]
  by_cases hfuel : last.machine.executed < env.limits.fuel
  · rcases hlast hfuel with ⟨ending, hending⟩
    obtain ⟨rest, hrest⟩ : ∃ rest, env.limits.fuel - last.machine.executed = rest + 1 :=
      Nat.exists_eq_succ_of_ne_zero (by omega)
    rw [turn_of_fuel hfuel, hrest, run]
    rw [next] at hending ⊢
    cases hstep : step env last.machine last.frame last.callers with
    | mk m progress =>
      rw [hstep] at hending
      obtain rfl : progress = .ended ending := hending
      rfl
  · have hspent : env.limits.fuel - last.machine.executed = 0 := by omega
    rw [turn_of_no_fuel (Nat.not_lt.1 hfuel), hspent, run]

/-- A last turn executes an instruction if there is fuel for it. -/
theorem After.executed_of_ended {n : Nat} {m : Machine} {ending : Ending} (h : s.After env n t)
    (hs : s.machine.executed ≤ env.limits.fuel) (hturn : t.turn env = (m, .ended ending)) :
    m.executed = min (s.machine.executed + n + 1) env.limits.fuel := by
  have hcount := h.executed
  have hbound := h.le_fuel hs
  by_cases hfuel : t.machine.executed < env.limits.fuel
  · rw [turn_of_fuel hfuel, next_eq_settle] at hturn
    have hm := (Prod.mk.inj hturn).1
    have hone := attempt_executed env t
    rw [hm] at hone
    omega
  · rw [turn_of_no_fuel (Nat.not_lt.1 hfuel)] at hturn
    have hm := (Prod.mk.inj hturn).1
    rw [← hm]
    omega

/-- The instruction calls a native, which answers with a failure. -/
def NativeFails (env : Environment) (t : Snapshot) (failure : Failure) : Prop :=
  ∃ waiting call native, t.frame.execute env.host = .ok (.call waiting call) ∧
    env.host.native? call.symbol = some native ∧
    (native call.args t.machine.world).1 = .failure failure

end Snapshot

/-! ## Calls -/

namespace Machine

variable {env : Environment} {m : Machine} {target : Module} {index : Nat} {args : List Value}

/-- A machine that has executed nothing yet. -/
def fresh (loader : Option Loader) (world : World) : Machine :=
  ⟨0, loader, world⟩

/-- Where the loop of a called method starts, if there is room for a frame and the method can be
entered. -/
def start (env : Environment) (m : Machine) (target : Module) (index : Nat) (args : List Value) :
    Except Failure Snapshot :=
  if env.limits.maxCallDepth = 0 then .error (.callDepthExceeded 0)
  else (Frame.enter target index args).map (⟨m, ·, .empty⟩)

theorem call_of_start_error {failure : Failure}
    (h : m.start env target index args = .error failure) :
    m.call env target index args = (m, .failed failure) := by
  unfold start at h
  unfold call
  split at h
  case isTrue hdepth =>
    rw [if_pos hdepth, Except.error.inj h]
  case isFalse hdepth =>
    rw [if_neg hdepth]
    cases henter : Frame.enter target index args with
    | error failure' =>
      rw [henter] at h
      rw [Except.error.inj h]
    | ok frame =>
      rw [henter] at h
      cases h

/-- A loop starts in the frame of the method, with none waiting. -/
theorem start_eq_ok {s : Snapshot} (h : m.start env target index args = .ok s) :
    env.limits.maxCallDepth ≠ 0 ∧
      ∃ frame, Frame.enter target index args = .ok frame ∧ s = ⟨m, frame, .empty⟩ := by
  unfold start at h
  split at h
  case isTrue => cases h
  case isFalse hdepth =>
    rcases map_eq_ok_iff.1 h with ⟨frame, henter, rfl⟩
    exact ⟨hdepth, frame, henter, rfl⟩

/-- A call is the run from where its loop starts. -/
theorem call_of_start {s : Snapshot} (h : m.start env target index args = .ok s) :
    m.call env target index args =
      run env (env.limits.fuel - s.machine.executed) s.machine s.frame s.callers := by
  rcases start_eq_ok h with ⟨hdepth, frame, henter, rfl⟩
  rw [call, if_neg hdepth, henter]

/-- A call that ends for lack of fuel has none left, unless it is a native that says so. -/
theorem fuel_or_native {failure : Failure} {n : Nat}
    (hm : m.executed ≤ env.limits.fuel)
    (h : (m.call env target index args).2 = .failed failure)
    (hroot : failure.root = .fuelExhausted n) :
    (n = env.limits.fuel ∧ (m.call env target index args).1.executed = env.limits.fuel) ∨
      ∃ t cause, m.Visits env target index args t ∧ t.NativeFails env cause ∧
        cause.root = .fuelExhausted n := by
  have huncatchable : failure.isCatchable = false := by rw [Failure.isCatchable, hroot]
  rcases exists_stops h huncatchable with ⟨-, rfl⟩ | ⟨t, cause, hvisits, hstops, rfl⟩
  · cases hroot
  · rw [root_abandon] at hroot
    have hcall := call_stops hvisits hstops
    cases hstops with
    | fuel hfuel =>
      rcases hvisits with ⟨-, frame, -, hvisits⟩
      rcases hvisits.exists_after with ⟨count, hafter⟩
      have hcount := hafter.executed
      have hbound := hafter.le_fuel hm
      have hn : t.machine.executed = n := Failure.fuelExhausted.inj hroot
      left
      rw [hcall, Snapshot.halted, if_neg (Nat.not_lt.2 hfuel)]
      dsimp only at hcount hbound ⊢
      omega
    | native _ hexecute hnative hanswer =>
      exact Or.inr ⟨t, cause, hvisits, ⟨_, _, _, hexecute, hnative, hanswer⟩, hroot⟩
    | depth => cases hroot

/-- Every call ends within its budget, whatever modules there are and whatever handlers they have.
Let nothing have been executed before. If the call starts at all, then

* its loop is at no turn after as many as there is fuel for; each turn before has executed one
  instruction, and there are never more frames than the limit allows;
* its loop comes to a turn that ends it, with the ending that the call has. All instructions that
  were executed, those of all frames together, are as many as the turns, but no more than there
  was fuel for.

A call that does not start fails, with nothing executed. A failure at whose root the fuel is
exhausted after some number of instructions is the end of a call that has executed just as many,
which is all that there was fuel for, unless a native answered with such a failure. -/
theorem call_ends (env : Environment) (loader : Option Loader) (world : World) (target : Module)
    (index : Nat) (args : List Value) :
    (∀ failure, (fresh loader world).start env target index args = .error failure →
      (fresh loader world).call env target index args =
        (fresh loader world, .failed failure)) ∧
    (∀ s, (fresh loader world).start env target index args = .ok s →
      (∀ n t, s.After env n t →
        n ≤ env.limits.fuel ∧ t.machine.executed = n ∧
          t.activeFrames ≤ env.limits.maxCallDepth) ∧
      ∃ n last, s.After env n last ∧
        last.turn env =
          (((fresh loader world).call env target index args).1,
            .ended ((fresh loader world).call env target index args).2) ∧
        ((fresh loader world).call env target index args).1.executed =
          min (n + 1) env.limits.fuel) ∧
    ∀ failure n, ((fresh loader world).call env target index args).2 = .failed failure →
      failure.root = .fuelExhausted n →
      (n = env.limits.fuel ∧
        ((fresh loader world).call env target index args).1.executed = env.limits.fuel) ∨
      ∃ t cause, (fresh loader world).Visits env target index args t ∧
        t.NativeFails env cause ∧ cause.root = .fuelExhausted n := by
  refine ⟨?_, ?_, ?_⟩
  · intro failure hstart
    exact call_of_start_error hstart
  · intro s hstart
    have hcall := call_of_start hstart
    rcases start_eq_ok hstart with ⟨hdepth, frame, -, rfl⟩
    have hbudget : (fresh loader world).executed ≤ env.limits.fuel := Nat.zero_le _
    constructor
    · intro n t hafter
      have hbound := hafter.le_fuel hbudget
      have hcount := hafter.executed
      rw [fresh, Nat.zero_add] at hbound hcount
      -- The frame of the method is the only one to begin with.
      have hactive := hafter.activeFrames_le (Nat.one_le_iff_ne_zero.2 hdepth)
      exact ⟨hbound, hcount, hactive⟩
    · rcases Snapshot.exists_ended env ⟨fresh loader world, frame, .empty⟩ with
        ⟨n, last, hafter, hturn⟩
      rw [← hcall] at hturn
      have hexecuted := hafter.executed_of_ended hbudget hturn
      refine ⟨n, last, hafter, hturn, ?_⟩
      rw [hexecuted, fresh, Nat.zero_add]
  · intro failure n hfailed hroot
    exact fuel_or_native (Nat.zero_le _) hfailed hroot

end Machine

/-- A method that throws, under a handler that goes on at the same place. -/
def Image.spinning : Image where
  major := 1
  minor := 0
  pool := ⟨#[.utf8 "a", .utf8 "run", .utf8 "()V"]⟩
  thisName := 0
  methods := #[⟨1, 1, 2, 0, #[.throw], [⟨0, 1, 0⟩]⟩]

def Module.spinning : Module where
  name := "a"
  bytes := []
  image := .spinning
  offsets := Image.spinning.methods.map fun method => Code.offsets method.code
  derived := false
  level := none

/-- What it throws is caught for as long as there is fuel, but not that the fuel is gone. -/
theorem Machine.call_ends_spinning :
    ∃ s, (fresh none (.initial 1)).start ⟨.empty, ⟨7, 1⟩⟩ .spinning 0 [] = .ok s ∧
      (match ((fresh none (.initial 1)).call ⟨.empty, ⟨7, 1⟩⟩ .spinning 0 []).2 with
        | .failed failure => failure.root == .fuelExhausted 7
        | _ => false) = true ∧
      ∃ n last, s.After ⟨.empty, ⟨7, 1⟩⟩ n last ∧
        ((fresh none (.initial 1)).call ⟨.empty, ⟨7, 1⟩⟩ .spinning 0 []).1.executed =
          min (n + 1) 7 := by
  have hstarts :
      ((fresh none (.initial 1)).start ⟨.empty, ⟨7, 1⟩⟩ .spinning 0 []).toOption.isSome = true := by
    decide +kernel
  obtain ⟨s, hs⟩ := Option.isSome_iff_exists.1 hstarts
  have hstart := toOption_eq_some_iff.1 hs
  have hends := call_ends ⟨.empty, ⟨7, 1⟩⟩ none (.initial 1) .spinning 0 []
  rcases (hends.2.1 s hstart).2 with ⟨n, last, hafter, -, hexecuted⟩
  exact ⟨s, hstart, by decide +kernel, n, last, hafter, hexecuted⟩

end Interposition
