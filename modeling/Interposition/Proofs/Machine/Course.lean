import Interposition.Machine.Run
import Mathlib.Logic.Relation

/-!
# Interposition.Proofs.Machine.Course — the course of a run

A run goes from snapshot to snapshot, one instruction at a time. This module splits a step in
two: what the instruction comes to before any handler is asked (`attempt`), and what handlers
make of it (`settle`). With the two apart one can say which failures arise in a run and which
of them a handler catches.

`run_last` ties the snapshots to `run`: every run ends at a snapshot it reaches, by the step it
takes there or because its fuel is gone. `link_cases` says once what linking a call comes to.
-/

namespace Interposition

/-! ## Defects -/

/-- The root of the failure is a defect of the code. -/
def Failure.isDefect (f : Failure) : Bool :=
  match f.root with
  | .malformed _ => true
  | _ => false

@[simp] theorem Failure.isDefect_frame (place : Place) (f : Failure) :
    (Failure.frame place f).isDefect = f.isDefect := rfl

@[simp] theorem Failure.isDefect_mismatch (expected : String) (found : Value) :
    (Failure.mismatch expected found).isDefect = false := rfl

/-! ## Handlers -/

/-- Some handler of the frame takes the failure. -/
def Frame.catches (f : Frame) (failure : Failure) : Bool :=
  failure.isCatchable && f.method.handlers.any (·.covers f.offset)

/-- A failure that is caught goes on at the target of a handler that covers the instruction, with
the message of its root on an otherwise empty stack. -/
theorem Frame.raise_of_catches {f : Frame} {failure : Failure} (h : f.catches failure = true) :
    ∃ handler ∈ f.method.handlers, handler.covers f.offset = true ∧
      f.raise failure =
        { f with stack := [.str failure.root.message] : Frame }.jump handler.target := by
  rcases (Bool.and_eq_true _ _).mp h with ⟨hcatchable, hany⟩
  rcases Option.isSome_iff_exists.1 (List.find?_isSome.2 (List.any_eq_true.1 hany)) with
    ⟨handler, hfind⟩
  refine ⟨handler, List.mem_of_find?_eq_some hfind, ?_, ?_⟩
  · simpa using List.find?_some hfind
  · simp only [raise, hcatchable, if_true, hfind]

/-- A failure that is not caught leaves the frame with a layer for it. -/
theorem Frame.raise_of_not_catches {f : Frame} {failure : Failure}
    (h : f.catches failure = false) : f.raise failure = .error (.frame f.place failure) := by
  unfold raise
  by_cases hcatchable : failure.isCatchable = true
  · have hnone : f.method.handlers.find? (·.covers f.offset) = none := by
      simpa [catches, hcatchable] using h
    simp only [hcatchable, if_true, hnone]
  · simp only [hcatchable, Bool.false_eq_true, if_false]

/-- The failures that handlers catch when a failure arrives at the innermost of some frames. A
handler whose target is no instruction catches a failure and fails itself, so there may be more
than one. -/
def Failure.caughtIn (failure : Failure) : List Frame → List Failure
  | [] => []
  | f :: outer =>
    let later :=
      match f.raise failure with
      | .ok _ => []
      | .error failure => failure.caughtIn outer
    if f.catches failure then failure :: later else later

/-! ## Attempts -/

/-- What an instruction comes to before any handler is asked. -/
inductive Attempt where
  /-- Control goes on in the innermost frame or in the one behind it, unless it is lost. -/
  | moves (outcome : Except Failure Frame) (callers : Callers)
  /-- The instruction fails. -/
  | raises (failure : Failure)
  | ends (ending : Ending)

/-- A machine in the middle of a run: the frame about to execute an instruction and the frames
that wait for it. -/
structure Snapshot where
  machine : Machine
  frame : Frame
  callers : Callers

/-- What comes of the result of a call. -/
def Callers.receive (value : Value) (cs : Callers) : Attempt :=
  match cs.pop? with
  | none => .ends (.returned value)
  | some (c, cs) => .moves (if c.keepsResult then c.frame.push value else c.frame).advance cs

theorem Callers.list_of_pop? {cs rest : Callers} {c : Caller} (h : cs.pop? = some (c, rest)) :
    cs.list = c :: rest.list := by
  rcases cs with ⟨list, depth, hdepth⟩
  cases list with
  | nil => cases h
  | cons first list =>
    obtain ⟨rfl, rfl⟩ := by simpa [pop?] using h
    rfl

/-- What linking a call comes to. The loader of the caller is asked, if it is there, and a method
of the module it answers with is entered. A call that is not linked is no defect of the code. -/
theorem link_cases (env : Environment) (m : Machine) (caller : Module) (call : Frame.Call)
    (depth : Nat) :
    (∃ failure, link env m caller call depth = (.error failure, m) ∧ failure.isDefect = false) ∨
      ∃ loader level, m.loader = some loader ∧ caller.level = some level ∧
        (link env m caller call depth).2 =
          { m with loader := some (loader.resolveAt level call.symbol.owner).2 } ∧
        ((∃ failure, (link env m caller call depth).1 = .error failure ∧
            failure.isDefect = false) ∨
          ∃ target index, (loader.resolveAt level call.symbol.owner).1 = .ok target ∧
            (target.image.findMethod? call.symbol.name call.descriptor).filter (fun index =>
              target.image.methods[index]?.any fun method =>
                method.isStatic == call.symbol.isStatic) = some index ∧
            (link env m caller call depth).1 = Frame.enter target index call.args) := by
  unfold link
  split
  case h_1 loader level hloader hlevel =>
    refine Or.inr ⟨loader, level, hloader, hlevel, ?_⟩
    dsimp only
    split
    case h_1 => exact ⟨rfl, Or.inl ⟨_, rfl, rfl⟩⟩
    case h_2 => exact ⟨rfl, Or.inl ⟨_, rfl, rfl⟩⟩
    case h_3 target htarget =>
      split
      case h_1 => exact ⟨rfl, Or.inl ⟨_, rfl, rfl⟩⟩
      case h_2 index hindex =>
        split
        · exact ⟨rfl, Or.inl ⟨_, rfl, rfl⟩⟩
        · exact ⟨rfl, Or.inr ⟨target, index, htarget, hindex, rfl⟩⟩
  case h_2 => exact Or.inl ⟨_, rfl, rfl⟩

/-- A call is attempted: of a native, or of a method that is linked now. -/
def attemptCall (env : Environment) (m : Machine) (s : Snapshot) (waiting : Frame)
    (call : Frame.Call) : Machine × Attempt :=
  match env.host.native? call.symbol with
  | some native =>
    let (answer, world) := native call.args m.world
    let m := { m with world }
    match answer with
    | .value v =>
      (m, .moves (if call.keepsResult then waiting.push v else waiting).advance s.callers)
    | .failure failure => (m, .raises failure)
    | .exit code => (m, .ends (.exited code))
  | none =>
    let (answer, m) := link env m s.frame.module call (s.callers.depth + 1)
    match answer with
    | .ok frame => (m, .moves (.ok frame) (s.callers.push ⟨waiting, call.keepsResult⟩))
    | .error failure => (m, .raises failure)

/-- The instruction of a snapshot is executed. -/
def Snapshot.attempt (env : Environment) (s : Snapshot) : Machine × Attempt :=
  let m := { s.machine with executed := s.machine.executed + 1 }
  match s.frame.execute env.host with
  | .error failure => (m, .raises failure)
  | .ok (.next frame) => (m, .moves frame.advance s.callers)
  | .ok (.jump frame target) => (m, .moves (frame.jump target) s.callers)
  | .ok (.ret value) => (m, s.callers.receive value)
  | .ok (.allocate frame typeName) =>
    let (object, world) := m.world.allocate typeName
    ({ m with world }, .moves (frame.push object).advance s.callers)
  | .ok (.call waiting call) => attemptCall env m s waiting call

/-- What handlers make of an attempt of the instruction of `f`. -/
def Attempt.settle (f : Frame) (callers : Callers) : Attempt → Progress
  | moves outcome callers => proceed callers outcome
  | raises failure => proceed callers (f.raise failure)
  | ends ending => .ended ending

/-- The failures that handlers catch of an attempt. Control that is lost is a failure of no
frame, so it arrives at the frames that wait. -/
def Attempt.caught (f : Frame) (callers : Callers) : Attempt → List Failure
  | moves (.ok _) _ => []
  | moves (.error failure) callers => failure.caughtIn (callers.list.map Caller.frame)
  | raises failure => failure.caughtIn (f :: callers.list.map Caller.frame)
  | ends _ => []

namespace Snapshot

/-- The next instruction of a run. -/
def next (env : Environment) (s : Snapshot) : Machine × Progress :=
  step env s.machine s.frame s.callers

/-- The failures that handlers catch at the next instruction. -/
def caught (env : Environment) (s : Snapshot) : List Failure :=
  (s.attempt env).2.caught s.frame s.callers

/-- A step is an attempt and what handlers make of it. -/
theorem next_eq_settle (env : Environment) (s : Snapshot) :
    s.next env = ((s.attempt env).1, (s.attempt env).2.settle s.frame s.callers) := by
  unfold next step attempt
  cases s.frame.execute env.host with
  | error failure => rfl
  | ok flow =>
    cases flow with
    | next frame => rfl
    | jump frame target => rfl
    | ret value =>
      simp only [giveBack, Callers.receive]
      split <;> simp_all [Attempt.settle]
    | allocate frame typeName => rfl
    | call waiting call =>
      simp only [perform, attemptCall]
      split
      · split <;> simp_all [Attempt.settle]
      · split <;> simp_all [Attempt.settle, proceed]

/-! ## Courses -/

/-- A snapshot that is one instruction later. -/
def Leads (env : Environment) (s t : Snapshot) : Prop :=
  s.next env = (t.machine, .running t.frame t.callers)

/-- A step that leads on is an attempt that settles to where it leads. -/
theorem Leads.settles {env : Environment} {s t : Snapshot} (h : s.Leads env t) :
    (s.attempt env).1 = t.machine ∧
      (s.attempt env).2.settle s.frame s.callers = .running t.frame t.callers :=
  Prod.mk.inj ((s.next_eq_settle env).symm.trans h)

/-- A snapshot that is some number of instructions later. -/
def Reaches (env : Environment) : Snapshot → Snapshot → Prop :=
  Relation.ReflTransGen (Leads env)

/-- What every step keeps holds all along. -/
theorem Reaches.invariant {env : Environment} {P : Snapshot → Prop} {s t : Snapshot}
    (h : s.Reaches env t) (hs : P s) (hstep : ∀ a b, P a → a.Leads env b → P b) : P t := by
  induction h with
  | refl => exact hs
  | tail _ hleads ih => exact hstep _ _ ih hleads

/-- A run ends at a snapshot it reaches: by the step there, or because its fuel is gone. -/
theorem run_last (env : Environment) (fuel : Nat) (s : Snapshot) :
    ∃ last, s.Reaches env last ∧
      (last.next env = ((run env fuel s.machine s.frame s.callers).1,
          .ended (run env fuel s.machine s.frame s.callers).2) ∨
        run env fuel s.machine s.frame s.callers = (last.machine,
          .failed (abandon (.fuelExhausted last.machine.executed) last.frame last.callers))) := by
  induction fuel generalizing s with
  | zero => exact ⟨s, .refl, Or.inr rfl⟩
  | succ fuel ih =>
    rw [run]
    cases hnext : step env s.machine s.frame s.callers with
    | mk m progress =>
      cases progress with
      | ended ending => exact ⟨s, .refl, Or.inl hnext⟩
      | running f callers =>
        -- The run goes on from the snapshot that the step leads to.
        have hleads : s.Leads env ⟨m, f, callers⟩ := hnext
        rcases ih ⟨m, f, callers⟩ with ⟨last, hreaches, hlast⟩
        exact ⟨last, .head hleads hreaches, hlast⟩

end Snapshot

end Interposition
