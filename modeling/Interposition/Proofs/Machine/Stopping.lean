import Interposition.Proofs.Machine.Execution

/-!
# Interposition.Proofs.Machine.Stopping — what ends a run whatever handlers there are

An exit request that a native raises, the end of the fuel and a call that goes too deep stop a run
(`Snapshot.Stops`). No frame catches such a failure, so the run ends there and then: not one more
instruction is executed, and the failure leaves every frame with one layer for each
(`Machine.call_stops`).

Nothing else does. Instructions only fail in ways that handlers may catch, and what becomes of a
failure that may be caught may be caught again (`Attempt.Ordinary`), so a run that ends with a
failure no handler may catch has stopped in one of these ways (`Machine.exists_stops`).
-/

namespace Interposition

/-! ## Roots -/

/-- Whether a failure may be caught is a matter of its root. -/
theorem Failure.isCatchable_congr {f g : Failure} (h : f.root = g.root) :
    f.isCatchable = g.isCatchable := by
  rw [isCatchable, isCatchable, h]

@[simp] theorem Failure.isCatchable_frame (place : Place) (f : Failure) :
    (Failure.frame place f).isCatchable = f.isCatchable := rfl

/-- Leaving all frames keeps the root. -/
theorem root_abandon (failure : Failure) (frame : Frame) (callers : Callers) :
    (abandon failure frame callers).root = failure.root := by
  have hfold (cs : List Caller) (failure : Failure) :
      (cs.foldl (fun failure c => Failure.frame c.frame.place failure) failure).root =
        failure.root := by
    induction cs generalizing failure with
    | nil => rfl
    | cons c rest ih =>
      rw [List.foldl_cons, ih]
      rfl
  rw [abandon, hfold]
  rfl

/-! ## Leaving all frames -/

/-- No frame catches what may not be caught, whatever handlers it has. -/
theorem Frame.catches_eq_false {failure : Failure} (h : failure.isCatchable = false)
    (f : Frame) : f.catches failure = false := by
  rw [catches, h, Bool.false_and]

theorem Frame.raise_of_uncatchable {failure : Failure} (h : failure.isCatchable = false)
    (f : Frame) : f.raise failure = .error (.frame f.place failure) :=
  raise_of_not_catches (catches_eq_false h f)

theorem unwind_of_uncatchable {failure : Failure} (h : failure.isCatchable = false)
    (cs : List Caller) :
    unwind failure cs =
      .ended (.failed (cs.foldl (fun failure c => .frame c.frame.place failure) failure)) := by
  induction cs generalizing failure with
  | nil => rfl
  | cons c rest ih =>
    rw [unwind, Frame.raise_of_uncatchable h]
    exact ih h

/-- A failure that may not be caught leaves the frame it is raised in and all that wait. -/
theorem proceed_of_uncatchable {failure : Failure} (h : failure.isCatchable = false) (f : Frame)
    (callers : Callers) :
    proceed callers (f.raise failure) = .ended (.failed (abandon failure f callers)) := by
  have hleft : (Failure.frame f.place failure).isCatchable = false := h
  rw [Frame.raise_of_uncatchable h, proceed, unwind_of_uncatchable hleft]
  rfl

namespace Snapshot

variable {env : Environment} {s t : Snapshot}

/-! ## Fuel -/

theorem link_executed (env : Environment) (m : Machine) (caller : Module) (call : Frame.Call)
    (depth : Nat) : (link env m caller call depth).2.executed = m.executed := by
  rcases link_cases env m caller call depth with ⟨failure, hlink, -⟩ | ⟨_, _, -, -, hmachine, -⟩
  · rw [hlink]
  · rw [hmachine]

theorem attemptCall_executed (env : Environment) (m : Machine) (s : Snapshot) (waiting : Frame)
    (call : Frame.Call) : (attemptCall env m s waiting call).1.executed = m.executed := by
  unfold attemptCall
  split
  case h_1 native hnative =>
    dsimp only
    split <;> rfl
  case h_2 hnative =>
    rw [← link_executed env m s.frame.module call (s.callers.depth + 1)]
    dsimp only
    split <;> rfl

/-- An attempt costs one unit of fuel, whatever comes of it. -/
theorem attempt_executed (env : Environment) (s : Snapshot) :
    (s.attempt env).1.executed = s.machine.executed + 1 := by
  unfold attempt
  cases s.frame.execute env.host with
  | error failure => rfl
  | ok flow =>
    cases flow with
    | call waiting call => exact attemptCall_executed ..
    | _ => rfl

theorem Leads.executed (h : s.Leads env t) : t.machine.executed = s.machine.executed + 1 := by
  rw [← h.settles.1, attempt_executed]

/-- One instruction later, with fuel for it. -/
def Spends (env : Environment) (s t : Snapshot) : Prop :=
  s.machine.executed < env.limits.fuel ∧ s.Leads env t

/-- Some number of instructions later, with fuel for each of them. -/
def Visits (env : Environment) : Snapshot → Snapshot → Prop :=
  Relation.ReflTransGen (Spends env)

/-- A run is what becomes of it from any snapshot it visits. -/
theorem Visits.run_eq (h : s.Visits env t) :
    run env (env.limits.fuel - s.machine.executed) s.machine s.frame s.callers =
      run env (env.limits.fuel - t.machine.executed) t.machine t.frame t.callers := by
  induction h with
  | refl => rfl
  | @tail u v _ hspends ih =>
    rcases hspends with ⟨hfuel, hleads⟩
    obtain ⟨rest, hrest⟩ : ∃ rest, env.limits.fuel - u.machine.executed = rest + 1 :=
      Nat.exists_eq_succ_of_ne_zero (by omega)
    have hexecuted := hleads.executed
    have hstep : step env u.machine u.frame u.callers =
      (v.machine, .running v.frame v.callers) := hleads
    have hless : env.limits.fuel - v.machine.executed = rest := by omega
    rw [ih, hrest, run, hstep, hless]

/-- A run visits a last snapshot: its fuel is gone there or the next step ends it. -/
theorem exists_last (env : Environment) (s : Snapshot) :
    ∃ last, s.Visits env last ∧ (last.machine.executed < env.limits.fuel →
      ∃ ending, (last.next env).2 = .ended ending) := by
  induction hleft : env.limits.fuel - s.machine.executed generalizing s with
  | zero =>
    refine ⟨s, .refl, ?_⟩
    intro hfuel
    omega
  | succ left ih =>
    cases hnext : s.next env with
    | mk m progress =>
      cases progress with
      | ended ending => exact ⟨s, .refl, fun _ => ⟨ending, by rw [hnext]⟩⟩
      | running f callers =>
        have hleads : s.Leads env ⟨m, f, callers⟩ := hnext
        have hexecuted := hleads.executed
        rcases ih ⟨m, f, callers⟩ (by omega) with ⟨last, hvisits, hlast⟩
        exact ⟨last, .head ⟨by omega, hleads⟩ hvisits, hlast⟩

/-- A run ends as the step does that ends it. -/
theorem Visits.run_of_ended (h : s.Visits env t) (hfuel : t.machine.executed < env.limits.fuel)
    {ending : Ending} (hnext : (t.next env).2 = .ended ending) :
    (run env (env.limits.fuel - s.machine.executed) s.machine s.frame s.callers).2 = ending := by
  obtain ⟨rest, hrest⟩ : ∃ rest, env.limits.fuel - t.machine.executed = rest + 1 :=
    Nat.exists_eq_succ_of_ne_zero (by omega)
  rw [h.run_eq, hrest, run]
  rw [next] at hnext
  cases hstep : step env t.machine t.frame t.callers with
  | mk m progress =>
    rw [hstep] at hnext
    subst hnext
    rfl

/-! ## Stops -/

/-- Something stops the run at a snapshot with a failure: its fuel is gone, it calls a native that
answers with a failure no handler may catch, or it calls a method that is there but has no frame
left for it. -/
inductive Stops (env : Environment) (t : Snapshot) : Failure → Prop
  | fuel (hfuel : env.limits.fuel ≤ t.machine.executed) :
      Stops env t (.fuelExhausted t.machine.executed)
  | native {waiting : Frame} {call : Frame.Call} {native : Native} {failure : Failure}
      (hfuel : t.machine.executed < env.limits.fuel)
      (hexecute : t.frame.execute env.host = .ok (.call waiting call))
      (hnative : env.host.native? call.symbol = some native)
      (hanswer : (native call.args t.machine.world).1 = .failure failure)
      (huncatchable : failure.isCatchable = false) : Stops env t failure
  | depth {waiting : Frame} {call : Frame.Call} {loader : Loader} {level : Nat} {target : Module}
      {index : Nat} (hfuel : t.machine.executed < env.limits.fuel)
      (hexecute : t.frame.execute env.host = .ok (.call waiting call))
      (hnative : env.host.native? call.symbol = none)
      (hloader : t.machine.loader = some loader) (hlevel : t.frame.module.level = some level)
      (htarget : (loader.resolveAt level call.symbol.owner).1 = .ok target)
      (hmethod : (target.image.findMethod? call.symbol.name call.descriptor).filter (fun index =>
        target.image.methods[index]?.any fun method =>
          method.isStatic == call.symbol.isStatic) = some index)
      (hdepth : env.limits.maxCallDepth ≤ t.callers.depth + 1) :
      Stops env t (.callDepthExceeded env.limits.maxCallDepth)

/-- The machine that a run leaves behind if it ends at a snapshot. The instruction there has been
attempted if there was fuel for it. -/
def halted (env : Environment) (t : Snapshot) : Machine :=
  if t.machine.executed < env.limits.fuel then (t.attempt env).1 else t.machine

/-- A stop is a failure that may not be caught, and comes of the attempt if there is fuel. -/
theorem Stops.raises {failure : Failure} (h : t.Stops env failure) :
    failure.isCatchable = false ∧
      (t.machine.executed < env.limits.fuel → (t.attempt env).2 = .raises failure) := by
  cases h with
  | fuel hfuel => exact ⟨rfl, fun hleft => absurd hleft (Nat.not_lt.2 hfuel)⟩
  | native _ hexecute hnative hanswer huncatchable =>
    refine ⟨huncatchable, fun _ => ?_⟩
    simp only [attempt, hexecute, attemptCall, hnative, hanswer]
  | depth _ hexecute hnative hloader hlevel htarget hmethod hdepth =>
    refine ⟨rfl, fun _ => ?_⟩
    simp only [attempt, hexecute, attemptCall, hnative, link, hloader, hlevel, htarget, hmethod,
      hdepth, if_true]

/-- A run ends where something stops it. -/
theorem Stops.run_eq {failure : Failure} (h : t.Stops env failure) :
    run env (env.limits.fuel - t.machine.executed) t.machine t.frame t.callers =
      (t.halted env, .failed (abandon failure t.frame t.callers)) := by
  rcases h.raises with ⟨huncatchable, hraises⟩
  by_cases hfuel : t.machine.executed < env.limits.fuel
  · obtain ⟨rest, hrest⟩ : ∃ rest, env.limits.fuel - t.machine.executed = rest + 1 :=
      Nat.exists_eq_succ_of_ne_zero (by omega)
    have hnext := t.next_eq_settle env
    rw [hraises hfuel, Attempt.settle, proceed_of_uncatchable huncatchable] at hnext
    rw [hrest, run, halted, if_pos hfuel]
    rw [next] at hnext
    rw [hnext]
  · have hspent : env.limits.fuel - t.machine.executed = 0 := by omega
    rw [hspent, run, halted, if_neg hfuel]
    cases h with
    | fuel => rfl
    | native hleft | depth hleft => exact absurd hleft hfuel

end Snapshot

/-! ## Ordinary failures -/

/-- Whether a failure has left a frame. -/
def Failure.isLayered : Failure → Bool
  | .frame .. => true
  | _ => false

/-- A failure that handlers may catch and that has left no frame. -/
structure Failure.Plain (f : Failure) : Prop where
  catchable : f.isCatchable = true
  unlayered : f.isLayered = false

/-- A computation only fails in ways that have a property. -/
def FailsOnly {α : Type} (P : Failure → Prop) (x : Except Failure α) : Prop :=
  ∀ failure, x = .error failure → P failure

namespace FailsOnly

variable {α β : Type} {P Q : Failure → Prop}

theorem ok (a : α) : FailsOnly P (.ok a) := by
  rintro failure ⟨⟩

theorem error {failure : Failure} (h : P failure) :
    FailsOnly P (.error failure : Except Failure α) := by
  rintro _ ⟨⟩
  exact h

theorem bind {x : Except Failure α} {next : α → Except Failure β} (hx : FailsOnly P x)
    (hnext : ∀ a, FailsOnly P (next a)) : FailsOnly P (x >>= next) := by
  cases x with
  | error failure => exact error (hx failure rfl)
  | ok a => exact hnext a

theorem mono {x : Except Failure α} (hx : FailsOnly P x) (h : ∀ failure, P failure → Q failure) :
    FailsOnly Q x :=
  fun failure hfailure => h failure (hx failure hfailure)

end FailsOnly

/-- A computation only fails in ways that handlers may catch. -/
abbrev FailsCatchably {α : Type} (x : Except Failure α) : Prop :=
  FailsOnly (fun failure => failure.isCatchable = true) x

/-- A computation only fails in ways that handlers may catch, and in no layers. -/
abbrev FailsPlainly {α : Type} (x : Except Failure α) : Prop :=
  FailsOnly Failure.Plain x

theorem FailsOnly.catchably {α : Type} {x : Except Failure α} (h : FailsPlainly x) :
    FailsCatchably x :=
  h.mono fun _ hplain => hplain.catchable

namespace Frame

variable (f : Frame)

theorem moveTo_plain (position : Nat) : FailsPlainly (f.moveTo position) := by
  unfold moveTo
  split
  · exact .ok _
  · exact .error ⟨rfl, rfl⟩

theorem jump_plain (target : UInt32) : FailsPlainly (f.jump target) := by
  unfold jump
  split
  · exact moveTo_plain _ _
  · exact .error ⟨rfl, rfl⟩

theorem enter_plain (m : Module) (index : Nat) (args : List Value) :
    FailsPlainly (enter m index args) := by
  cases hmethod : m.image.methods[index]? with
  | none =>
    rw [enter_of_none hmethod]
    exact .error ⟨rfl, rfl⟩
  | some method =>
    rw [enter_of_some hmethod]
    split
    · exact .error ⟨rfl, rfl⟩
    · split
      · exact .ok _
      · exact .error ⟨rfl, rfl⟩

/-- A failure that may be caught stays one when it leaves a frame. So does that of a handler
whose target is no instruction. -/
theorem raise_catchable {failure : Failure} (h : failure.isCatchable = true) :
    FailsCatchably (f.raise failure) := by
  unfold raise
  dsimp only
  split
  · exact (jump_plain _ _).catchably
  · exact .error h

theorem pop_plain : FailsPlainly f.pop := by
  unfold pop
  split
  · exact .ok _
  · exact .error ⟨rfl, rfl⟩

theorem pop2_plain : FailsPlainly f.pop2 :=
  .bind (pop_plain _) fun _ => .bind (pop_plain _) fun _ => .ok _

theorem popBool_plain : FailsPlainly f.popBool := by
  refine .bind (pop_plain _) fun popped => ?_
  split
  · exact .ok _
  · exact .error ⟨rfl, rfl⟩

theorem popInts_plain : FailsPlainly f.popInts := by
  refine .bind (pop2_plain _) fun popped => ?_
  split
  · exact .ok _
  · exact .error ⟨rfl, rfl⟩
  · exact .error ⟨rfl, rfl⟩

theorem call_plain (kind : CallKind) (index : UInt16) : FailsPlainly (f.call kind index) := by
  cases hm : f.module.image.pool.method? index with
  | none =>
    simp only [call, hm]
    exact .error ⟨rfl, rfl⟩
  | some m =>
    cases hparse : Signature.parse m.descriptor with
    | error e =>
      simp only [call, hm, hparse]
      exact .error ⟨rfl, rfl⟩
    | ok signature =>
      rw [call_eq hm hparse]
      split
      · exact .error ⟨rfl, rfl⟩
      · refine .bind ?_ fun _ => .ok _
        unfold calledOwner
        split
        · exact .ok _
        · exact .ok _
        · exact .error ⟨rfl, rfl⟩
        · exact .error ⟨rfl, rfl⟩

/-- Whatever an instruction meets, a handler may catch it. -/
theorem execute_plain (host : Host) : FailsPlainly (f.execute host) := by
  cases hi : f.instruction <;> simp only [execute, hi]
  case nop | pushTrue | pushFalse | jump | ret => exact .ok _
  case const index =>
    split
    · exact .ok _
    · exact .ok _
    · exact .error ⟨rfl, rfl⟩
  case load slot =>
    split
    · exact .ok _
    · exact .error ⟨rfl, rfl⟩
  case store slot =>
    refine .bind (pop_plain _) fun popped => ?_
    split
    · exact .ok _
    · exact .error ⟨rfl, rfl⟩
  case pop | dup | retValue => exact .bind (pop_plain _) fun _ => .ok _
  case add | sub => exact .bind (popInts_plain _) fun _ => .ok _
  case equal | concat => exact .bind (pop2_plain _) fun _ => .ok _
  case negate | jumpIfFalse => exact .bind (popBool_plain _) fun _ => .ok _
  case getStatic index =>
    split
    · exact .error ⟨rfl, rfl⟩
    · split
      · exact .ok _
      · exact .error ⟨rfl, rfl⟩
  case new index =>
    split
    · exact .error ⟨rfl, rfl⟩
    · exact .ok _
  case invoke kind index => exact .bind (call_plain _ kind index) fun _ => .ok _
  case throw => exact .bind (pop_plain _) fun _ => .error ⟨rfl, rfl⟩

end Frame

/-- An attempt comes to nothing that handlers may not catch. -/
def Attempt.Ordinary : Attempt → Prop
  | moves outcome _ => FailsCatchably outcome
  | raises failure => failure.isCatchable = true
  | ends ending => ∀ failure, ending ≠ .failed failure

theorem unwind_catchable {failure last : Failure} {cs : List Caller}
    (h : failure.isCatchable = true) (hunwind : unwind failure cs = .ended (.failed last)) :
    last.isCatchable = true := by
  induction cs generalizing failure with
  | nil =>
    obtain rfl : failure = last := by simpa [unwind] using hunwind
    exact h
  | cons c rest ih =>
    rw [unwind] at hunwind
    cases hraise : c.frame.raise failure with
    | ok frame => simp [hraise] at hunwind
    | error failure' =>
      simp only [hraise] at hunwind
      exact ih (c.frame.raise_catchable h failure' hraise) hunwind

theorem proceed_catchable {outcome : Except Failure Frame} {callers : Callers} {last : Failure}
    (h : FailsCatchably outcome) (hproceed : proceed callers outcome = .ended (.failed last)) :
    last.isCatchable = true := by
  cases outcome with
  | ok frame => cases hproceed
  | error failure => exact unwind_catchable (h failure rfl) hproceed

theorem Attempt.Ordinary.settle {a : Attempt} (ha : a.Ordinary) {f : Frame} {callers : Callers}
    {last : Failure} (h : a.settle f callers = .ended (.failed last)) :
    last.isCatchable = true := by
  cases a with
  | moves outcome callers => exact proceed_catchable ha h
  | raises failure => exact proceed_catchable (f.raise_catchable ha) h
  | ends ending => exact absurd (Progress.ended.inj h) (ha last)

/-- A call that is not linked is a plain failure, unless the method is there and the call is too
deep. -/
theorem link_plain_or_deep {env : Environment} {m : Machine} {caller : Module}
    {call : Frame.Call} {depth : Nat} {failure : Failure}
    (h : (link env m caller call depth).1 = .error failure) :
    failure.Plain ∨
      failure = .callDepthExceeded env.limits.maxCallDepth ∧ env.limits.maxCallDepth ≤ depth ∧
        ∃ loader level target index, m.loader = some loader ∧ caller.level = some level ∧
          (loader.resolveAt level call.symbol.owner).1 = .ok target ∧
          (target.image.findMethod? call.symbol.name call.descriptor).filter (fun index =>
            target.image.methods[index]?.any fun method =>
              method.isStatic == call.symbol.isStatic) = some index := by
  unfold link at h
  split at h
  case h_1 loader level hloader hlevel =>
    dsimp only at h
    split at h
    case h_1 => exact Or.inl (FailsOnly.error ⟨rfl, rfl⟩ _ h)
    case h_2 => exact Or.inl (FailsOnly.error ⟨rfl, rfl⟩ _ h)
    case h_3 target htarget =>
      split at h
      case h_1 => exact Or.inl (FailsOnly.error ⟨rfl, rfl⟩ _ h)
      case h_2 index hindex =>
        split at h
        case isTrue hdepth =>
          exact Or.inr ⟨(Except.error.inj h).symm, hdepth, loader, level, target, index, hloader,
            hlevel, htarget, hindex⟩
        case isFalse => exact Or.inl (Frame.enter_plain _ _ _ _ h)
  case h_2 => exact Or.inl (FailsOnly.error ⟨rfl, rfl⟩ _ h)

namespace Snapshot

variable {env : Environment} {s t : Snapshot}

theorem ordinary_receive (value : Value) (cs : Callers) : (cs.receive value).Ordinary := by
  unfold Callers.receive
  split
  case h_1 => rintro failure ⟨⟩
  case h_2 => exact (Frame.moveTo_plain _ _).catchably

/-- With fuel left, an attempt is an ordinary one or something stops the run. -/
theorem ordinary_or_stops (hfuel : t.machine.executed < env.limits.fuel) :
    (t.attempt env).2.Ordinary ∨
      ∃ failure, (t.attempt env).2 = .raises failure ∧ t.Stops env failure := by
  unfold attempt
  cases hexecute : t.frame.execute env.host with
  | error failure => exact Or.inl (t.frame.execute_plain env.host failure hexecute).catchable
  | ok flow =>
    cases flow with
    | next frame => exact Or.inl (Frame.moveTo_plain _ _).catchably
    | jump frame target => exact Or.inl (Frame.jump_plain _ _).catchably
    | ret value => exact Or.inl (ordinary_receive value t.callers)
    | allocate frame typeName => exact Or.inl (Frame.moveTo_plain _ _).catchably
    | call waiting call =>
      dsimp only [attemptCall]
      split
      case h_1 native hnative =>
        split
        case h_1 v hanswer => exact Or.inl (Frame.moveTo_plain _ _).catchably
        case h_2 failure hanswer =>
          cases hcatchable : failure.isCatchable with
          | true => exact Or.inl hcatchable
          | false =>
            exact Or.inr ⟨failure, rfl, .native hfuel hexecute hnative hanswer hcatchable⟩
        case h_3 code hanswer => exact Or.inl (by rintro failure ⟨⟩)
      case h_2 hnative =>
        split
        case h_1 frame hlink => exact Or.inl (.ok _)
        case h_2 failure hlink =>
          rcases link_plain_or_deep hlink with hplain |
            ⟨rfl, hdepth, loader, level, target, index, hloader, hlevel, htarget, hmethod⟩
          · exact Or.inl hplain.catchable
          · exact Or.inr ⟨_, rfl, .depth hfuel hexecute hnative hloader hlevel htarget hmethod
              hdepth⟩

/-- A run that ends with a failure no handler may catch has visited a snapshot where something
stopped it. -/
theorem exists_stops {failure : Failure}
    (h : (run env (env.limits.fuel - s.machine.executed) s.machine s.frame s.callers).2 =
      .failed failure) (huncatchable : failure.isCatchable = false) :
    ∃ last cause, s.Visits env last ∧ last.Stops env cause := by
  rcases exists_last env s with ⟨last, hvisits, hlast⟩
  by_cases hfuel : last.machine.executed < env.limits.fuel
  · rcases hlast hfuel with ⟨ending, hnext⟩
    rcases ordinary_or_stops hfuel with hordinary | ⟨cause, -, hstops⟩
    · -- What is ordinary ends in no such failure.
      obtain rfl : ending = .failed failure := (hvisits.run_of_ended hfuel hnext).symm.trans h
      rw [last.next_eq_settle] at hnext
      have hcatchable := hordinary.settle hnext
      rw [huncatchable] at hcatchable
      cases hcatchable
    · exact ⟨last, cause, hvisits, hstops⟩
  · exact ⟨last, _, hvisits, .fuel (Nat.not_lt.1 hfuel)⟩

end Snapshot

/-! ## Calls -/

namespace Machine

variable {env : Environment} {m : Machine} {target : Module} {index : Nat} {args : List Value}

/-- The run of a called method comes to a snapshot. -/
def Visits (env : Environment) (m : Machine) (target : Module) (index : Nat) (args : List Value)
    (t : Snapshot) : Prop :=
  env.limits.maxCallDepth ≠ 0 ∧
    ∃ frame, Frame.enter target index args = .ok frame ∧
      Snapshot.Visits env ⟨m, frame, .empty⟩ t

/-- A call ends where something stops its run. The failure leaves all frames. -/
theorem call_stops {t : Snapshot} {failure : Failure}
    (hvisits : m.Visits env target index args t) (hstops : t.Stops env failure) :
    m.call env target index args =
      (t.halted env, .failed (abandon failure t.frame t.callers)) := by
  rcases hvisits with ⟨hdepth, frame, henter, hvisits⟩
  rw [call, if_neg hdepth, henter, ← hstops.run_eq, ← hvisits.run_eq]

/-- A call that ends with a failure no handler may catch was too deep already or has visited a
snapshot where something stopped it. -/
theorem exists_stops {failure : Failure}
    (h : (m.call env target index args).2 = .failed failure)
    (huncatchable : failure.isCatchable = false) :
    (env.limits.maxCallDepth = 0 ∧ failure = .callDepthExceeded 0) ∨
      ∃ t cause, m.Visits env target index args t ∧ t.Stops env cause ∧
        failure = abandon cause t.frame t.callers := by
  by_cases hdepth : env.limits.maxCallDepth = 0
  · rw [call, if_pos hdepth] at h
    exact Or.inl ⟨hdepth, (Ending.failed.inj h).symm⟩
  · cases henter : Frame.enter target index args with
    | error failure' =>
      rw [call, if_neg hdepth, henter] at h
      obtain rfl := Ending.failed.inj h
      rw [(Frame.enter_plain _ _ _ _ henter).catchable] at huncatchable
      cases huncatchable
    | ok frame =>
      have hrun := h
      rw [call, if_neg hdepth, henter] at hrun
      rcases Snapshot.exists_stops (s := ⟨m, frame, .empty⟩) hrun huncatchable with
        ⟨t, cause, hvisits, hstops⟩
      have hthere : m.Visits env target index args t := ⟨hdepth, frame, henter, hvisits⟩
      rw [call_stops hthere hstops] at h
      exact Or.inr ⟨t, cause, hthere, hstops, (Ending.failed.inj h).symm⟩

end Machine

end Interposition
