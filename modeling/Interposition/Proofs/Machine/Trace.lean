import Interposition.Proofs.Machine.Termination

/-!
# Interposition.Proofs.Machine.Trace — the instructions that a run executes

A trace has the snapshots of a run whose instructions are executed, in order. The run visits them
all (`Snapshot.visits_of_mem_trace`). Whatever each instruction makes of something that can be seen
of a machine, a run makes of it what the instructions of its trace do one after another
(`Snapshot.run_observed`); in particular it executes as many as the trace has
(`Snapshot.run_executed`).
-/

namespace Interposition

namespace Snapshot

variable {env : Environment} {s t : Snapshot}

/-- The snapshots whose instructions a run with some fuel executes. -/
def trace (env : Environment) : Nat → Snapshot → List Snapshot
  | 0, _ => []
  | fuel + 1, s =>
    s :: match s.next env with
      | (m, .running f callers) => trace env fuel ⟨m, f, callers⟩
      | (_, .ended _) => []

/-- The run visits the snapshots of its trace, and has fuel for their instructions. -/
theorem visits_of_mem_trace {fuel : Nat} (hfuel : s.machine.executed + fuel ≤ env.limits.fuel)
    (h : t ∈ s.trace env fuel) : s.Visits env t ∧ t.machine.executed < env.limits.fuel := by
  induction fuel generalizing s with
  | zero => cases h
  | succ fuel ih =>
    have hleft : s.machine.executed < env.limits.fuel := by omega
    rw [trace] at h
    rcases List.mem_cons.1 h with rfl | hlater
    · exact ⟨.refl, hleft⟩
    · cases hnext : s.next env with
      | mk m progress =>
        rw [hnext] at hlater
        cases progress with
        | ended ending => cases hlater
        | running f callers =>
          have hleads : s.Leads env ⟨m, f, callers⟩ := hnext
          have hexecuted := hleads.executed
          rcases ih (by omega) hlater with ⟨hvisits, ht⟩
          exact ⟨.head ⟨hleft, hleads⟩ hvisits, ht⟩

/-- What is seen of the machine after a run is what the instructions of the trace have made, one
after another, of what was seen of it before. -/
theorem run_observed {α : Type} (observe : Machine → α) {change : α → Snapshot → α}
    (hstep : ∀ s : Snapshot, observe (s.attempt env).1 = change (observe s.machine) s) (fuel : Nat)
    (s : Snapshot) :
    observe (run env fuel s.machine s.frame s.callers).1 =
      (s.trace env fuel).foldl change (observe s.machine) := by
  induction fuel generalizing s with
  | zero => rfl
  | succ fuel ih =>
    have hone := hstep s
    have hattempt : (s.next env).1 = (s.attempt env).1 := by rw [next_eq_settle]
    rw [run, trace, List.foldl_cons, ← hone, ← hattempt, next]
    cases step env s.machine s.frame s.callers with
    | mk m progress =>
      cases progress with
      | ended ending => rfl
      | running f callers => exact ih ⟨m, f, callers⟩

/-- A run executes the instructions of its trace, each of them once. -/
theorem run_executed (fuel : Nat) (s : Snapshot) :
    (run env fuel s.machine s.frame s.callers).1.executed =
      s.machine.executed + (s.trace env fuel).length := by
  have hcount (snapshots : List Snapshot) (n : Nat) :
      snapshots.foldl (fun n _ => n + 1) n = n + snapshots.length := by
    induction snapshots generalizing n with
    | nil => rfl
    | cons first rest ih =>
      rw [List.foldl_cons, ih, List.length_cons]
      omega
  rw [← hcount]
  exact run_observed Machine.executed (fun s => attempt_executed env s) fuel s

end Snapshot

/-- The snapshots whose instructions are executed in a call. -/
def Machine.trace (env : Environment) (m : Machine) (target : Module) (index : Nat)
    (args : List Value) : List Snapshot :=
  match m.start env target index args with
  | .error _ => []
  | .ok s => s.trace env (env.limits.fuel - m.executed)

namespace Machine

variable {env : Environment} {m : Machine} {target : Module} {index : Nat} {args : List Value}

theorem visits_of_mem_trace {t : Snapshot} (hm : m.executed ≤ env.limits.fuel)
    (h : t ∈ m.trace env target index args) :
    m.Visits env target index args t ∧ t.machine.executed < env.limits.fuel := by
  unfold trace at h
  cases hstart : m.start env target index args with
  | error failure =>
    rw [hstart] at h
    cases h
  | ok s =>
    rw [hstart] at h
    rcases start_eq_ok hstart with ⟨hdepth, frame, henter, rfl⟩
    have hbudget : m.executed + (env.limits.fuel - m.executed) ≤ env.limits.fuel := by omega
    rcases Snapshot.visits_of_mem_trace hbudget h with ⟨hvisits, ht⟩
    exact ⟨⟨hdepth, frame, henter, hvisits⟩, ht⟩

/-- What is seen of a machine after a call is what the instructions of the trace have made of what
was seen of it before. -/
theorem call_observed {α : Type} (observe : Machine → α) {change : α → Snapshot → α}
    (hstep : ∀ s : Snapshot, observe (s.attempt env).1 = change (observe s.machine) s) :
    observe (m.call env target index args).1 =
      (m.trace env target index args).foldl change (observe m) := by
  unfold trace
  cases hstart : m.start env target index args with
  | error failure =>
    rw [call_of_start_error hstart]
    rfl
  | ok s =>
    rw [call_of_start hstart]
    rcases start_eq_ok hstart with ⟨-, frame, -, rfl⟩
    exact Snapshot.run_observed observe hstep _ _

end Machine

end Interposition
