import Interposition.Machine.Console
import Mathlib.Algebra.Group.Nat.Defs

/-!
# Interposition.Proofs.Machine.Conservation — no line of a console is lost or made up

Lines come to a console from any number of sources and are taken out one at a time or all at once,
in any order. What one operation takes in and what it takes out balance
(`Console.perform_balance`), so they do over every sequence of operations
(`Console.after_balance`): the lines taken out and those still buffered, one after the other, are
the lines that were accepted. The counters follow (`Console.after_counts`), and a console never
holds more lines than it has room for (`Console.size_after_le`).

The main statement, `Console.after_ofCapacity_conserves`, is all this of a new console.
-/

namespace Interposition

namespace Console

/-! ## Operations -/

/-- What is done with a console. -/
inductive Operation where
  | emit (line : Line)
  | pop
  | drain
deriving DecidableEq, Repr

/-- The line that an operation emits. -/
def Operation.line? : Operation → Option Line
  | emit line => some line
  | _ => none

/-- The lines that an operation takes out, and the console after it. -/
def perform (c : Console) : Operation → List Line × Console
  | .emit line => ([], c.emit line)
  | .pop => (c.pop.1.toList, c.pop.2)
  | .drain => c.drain

/-- The console after some operations. -/
def after (c : Console) (ops : List Operation) : Console :=
  ops.foldl (fun c op => (c.perform op).2) c

/-- The lines that operations take out, in order. -/
def taken (c : Console) : List Operation → List Line
  | [] => []
  | op :: rest => (c.perform op).1 ++ (c.perform op).2.taken rest

/-- A line is accepted if it is counted as one that was taken in. -/
def Accepts (c : Console) (line : Line) : Prop :=
  (c.emit line).emitted = c.emitted + 1

instance (c : Console) (line : Line) : Decidable (c.Accepts line) :=
  inferInstanceAs (Decidable (_ = _))

/-- The line that an operation emits, if it is accepted. -/
def gained (c : Console) (op : Operation) : List Line :=
  op.line?.toList.filter (c.Accepts ·)

/-- The lines that are emitted and accepted, in order. -/
def accepted (c : Console) : List Operation → List Line
  | [] => []
  | op :: rest => c.gained op ++ (c.perform op).2.accepted rest

/-! ## One operation -/

/-- There is room for a line. -/
theorem emit_of_lt {c : Console} (h : c.size < c.capacity) (line : Line) :
    c.emit line = { c with buffered := c.buffered.push line, emitted := c.emitted + 1 } := by
  rw [emit, if_pos h]

/-- There is no room for a line. -/
theorem emit_of_le {c : Console} (h : c.capacity ≤ c.size) (line : Line) :
    c.emit line = { c with dropped := c.dropped + 1 } := by
  rw [emit, if_neg (Nat.not_lt.2 h)]

theorem accepts_iff {c : Console} {line : Line} : c.Accepts line ↔ c.size < c.capacity := by
  rw [Accepts]
  by_cases hroom : c.size < c.capacity
  · simp [emit_of_lt hroom, hroom]
  · simp [emit_of_le (Nat.not_lt.1 hroom), hroom]

theorem capacity_perform (c : Console) (op : Operation) :
    (c.perform op).2.capacity = c.capacity := by
  cases op with
  | emit line =>
    unfold perform emit
    dsimp only
    split <;> rfl
  | pop => rfl
  | drain => rfl

/-- What is buffered before an operation and what it takes in is what it takes out and what is
buffered after it. -/
theorem perform_balance (c : Console) (op : Operation) :
    c.buffered.toList ++ c.gained op =
      (c.perform op).1 ++ (c.perform op).2.buffered.toList := by
  cases op with
  | emit line =>
    by_cases hroom : c.size < c.capacity
    · simp [gained, Operation.line?, accepts_iff, hroom, perform, emit_of_lt hroom]
    · simp [gained, Operation.line?, accepts_iff, hroom, perform,
        emit_of_le (Nat.not_lt.1 hroom)]
  | pop =>
    rcases c with ⟨capacity, ⟨lines⟩, emitted, dropped⟩
    cases lines <;> simp [gained, Operation.line?, perform, pop]
  | drain => simp [gained, Operation.line?, perform, drain]

/-- An operation counts the line that it emits, once: as taken in if it is accepted, and else as
dropped. -/
theorem perform_counts (c : Console) (op : Operation) :
    (c.perform op).2.emitted = c.emitted + (c.gained op).length ∧
      (c.perform op).2.emitted + (c.perform op).2.dropped =
        c.emitted + c.dropped + op.line?.toList.length := by
  cases op with
  | emit line =>
    by_cases hroom : c.size < c.capacity
    · simp [gained, Operation.line?, accepts_iff, hroom, perform, emit_of_lt hroom]
      omega
    · simp [gained, Operation.line?, accepts_iff, hroom, perform,
        emit_of_le (Nat.not_lt.1 hroom)]
      omega
  | pop => exact ⟨rfl, rfl⟩
  | drain => exact ⟨rfl, rfl⟩

/-- A console that holds no more than it has room for does so after an operation. -/
theorem size_perform_le {c : Console} (h : c.size ≤ c.capacity) (op : Operation) :
    (c.perform op).2.size ≤ c.capacity := by
  cases op with
  | emit line =>
    by_cases hroom : c.size < c.capacity
    · simpa [perform, emit_of_lt hroom, size, Nat.succ_le_iff] using hroom
    · simpa [perform, emit_of_le (Nat.not_lt.1 hroom), size] using h
  | pop =>
    simp only [perform, pop, size, Array.size_extract] at h ⊢
    omega
  | drain => exact Nat.zero_le _

/-- Draining takes out what as many pops as there are lines take out, and leaves what they leave. -/
theorem drain_eq_pops (c : Console) :
    c.drain = (c.taken (List.replicate c.size .pop), c.after (List.replicate c.size .pop)) := by
  rcases c with ⟨capacity, ⟨lines⟩, emitted, dropped⟩
  induction lines with
  | nil => rfl
  | cons line rest ih =>
    have hpop : Console.perform ⟨capacity, ⟨line :: rest⟩, emitted, dropped⟩ .pop =
        ([line], ⟨capacity, ⟨rest⟩, emitted, dropped⟩) := by
      simp [perform, pop]
    have hsize : size ⟨capacity, ⟨line :: rest⟩, emitted, dropped⟩ =
        size ⟨capacity, ⟨rest⟩, emitted, dropped⟩ + 1 := rfl
    rcases Prod.mk.inj ih with ⟨htaken, hafter⟩
    rw [hsize, List.replicate_succ, taken, after, List.foldl_cons, hpop, ← htaken, ← after,
      ← hafter]
    rfl

/-! ## Sequences of operations -/

theorem capacity_after (c : Console) (ops : List Operation) :
    (c.after ops).capacity = c.capacity := by
  induction ops generalizing c with
  | nil => rfl
  | cons op rest ih => rw [after, List.foldl_cons, ← after, ih, capacity_perform]

theorem after_balance (c : Console) (ops : List Operation) :
    c.buffered.toList ++ c.accepted ops = c.taken ops ++ (c.after ops).buffered.toList := by
  induction ops generalizing c with
  | nil => simp [accepted, taken, after]
  | cons op rest ih =>
    calc c.buffered.toList ++ c.accepted (op :: rest)
        = (c.buffered.toList ++ c.gained op) ++ (c.perform op).2.accepted rest := by
          rw [accepted, List.append_assoc]
      _ = (c.perform op).1 ++
            ((c.perform op).2.buffered.toList ++ (c.perform op).2.accepted rest) := by
          rw [perform_balance, List.append_assoc]
      _ = c.taken (op :: rest) ++ (c.after (op :: rest)).buffered.toList := by
          rw [ih, taken, List.append_assoc]
          rfl

theorem after_counts (c : Console) (ops : List Operation) :
    (c.after ops).emitted = c.emitted + (c.accepted ops).length ∧
      (c.after ops).emitted + (c.after ops).dropped =
        c.emitted + c.dropped + (ops.filterMap Operation.line?).length := by
  induction ops generalizing c with
  | nil => exact ⟨rfl, rfl⟩
  | cons op rest ih =>
    rcases ih (c.perform op).2 with ⟨haccepted, hall⟩
    rcases perform_counts c op with ⟨hgained, hcounted⟩
    have hlines : ((op :: rest).filterMap Operation.line?).length =
        op.line?.toList.length + (rest.filterMap Operation.line?).length := by
      cases hline : op.line? <;> simp [hline, Nat.add_comm]
    rw [after, List.foldl_cons, ← after, accepted, List.length_append, hlines]
    omega

theorem size_after_le {c : Console} (h : c.size ≤ c.capacity) (ops : List Operation) :
    (c.after ops).size ≤ c.capacity := by
  induction ops generalizing c with
  | nil => exact h
  | cons op rest ih =>
    rw [after, List.foldl_cons, ← after, ← capacity_perform c op]
    refine ih ?_
    rw [capacity_perform]
    exact size_perform_le h op

/-- What is accepted is some of what is emitted, as it is and in that order. -/
theorem accepted_sublist (c : Console) (ops : List Operation) :
    (c.accepted ops).Sublist (ops.filterMap Operation.line?) := by
  induction ops generalizing c with
  | nil => exact List.Sublist.refl _
  | cons op rest ih =>
    have hfirst : (op :: rest).filterMap Operation.line? =
        op.line?.toList ++ rest.filterMap Operation.line? := by
      cases hline : op.line? <;> simp [hline]
    rw [hfirst, accepted]
    exact List.filter_sublist.append (ih _)

/-- The counters of a new console fit 64 bits until that many lines have been emitted. -/
theorem counters_after_lt {capacity : Nat} {ops : List Operation}
    (h : (ops.filterMap Operation.line?).length < 2 ^ 64) :
    ((ofCapacity capacity).after ops).emitted < 2 ^ 64 ∧
      ((ofCapacity capacity).after ops).dropped < 2 ^ 64 := by
  have hcounted := ((ofCapacity capacity).after_counts ops).2
  have hnone : (ofCapacity capacity).emitted + (ofCapacity capacity).dropped = 0 := rfl
  omega

/-- A console conserves its lines. After any operations on a new one of some capacity,

* the lines taken out, followed by those still buffered, are those that were accepted, which are
  some of the lines emitted, as they were and in order;
* the next line is dropped, and that is all that happens to it, exactly if there are as many lines
  buffered as there is room for, which is one at least; else it is accepted as the last one;
* every line emitted was counted as accepted or as dropped, as many are buffered as were accepted
  and not taken out, and these are never more than there is room for. -/
theorem after_ofCapacity_conserves (capacity : Nat) (ops : List Operation) :
    let new := ofCapacity capacity
    let c := new.after ops
    (new.taken ops ++ c.buffered.toList = new.accepted ops ∧
      (new.accepted ops).Sublist (ops.filterMap Operation.line?)) ∧
    (∀ line,
      (c.emit line = { c with dropped := c.dropped + 1 } ↔ c.size = max capacity 1) ∧
      (c.emit line = { c with buffered := c.buffered.push line, emitted := c.emitted + 1 } ↔
        c.size ≠ max capacity 1) ∧
      (c.Accepts line ↔ c.size ≠ max capacity 1)) ∧
    c.emitted + c.dropped = (ops.filterMap Operation.line?).length ∧
    c.size + (new.taken ops).length = c.emitted ∧
    c.size ≤ max capacity 1 := by
  intro new c
  have hbalance : new.accepted ops = new.taken ops ++ c.buffered.toList := new.after_balance ops
  rcases new.after_counts ops with ⟨haccepted, hcounted⟩
  have hcapacity : c.capacity = max capacity 1 := new.capacity_after ops
  have hsize : c.size ≤ max capacity 1 := size_after_le (Nat.zero_le _) ops
  refine ⟨⟨hbalance.symm, accepted_sublist new ops⟩, ?_, ?_, ?_, hsize⟩
  · intro line
    have haccepts : c.Accepts line ↔ c.size < max capacity 1 := by rw [accepts_iff, hcapacity]
    by_cases hfull : c.size = max capacity 1
    · have hemit := emit_of_le (c := c) (by omega) line
      refine ⟨by simp [hemit, hfull], ?_, by rw [haccepts]; omega⟩
      simp [hemit, hfull]
    · have hemit := emit_of_lt (c := c) (by omega) line
      refine ⟨?_, by simp [hemit, hfull], by rw [haccepts]; omega⟩
      simp [hemit, hfull]
  · have hnone : new.emitted + new.dropped = 0 := rfl
    rw [hcounted, hnone, Nat.zero_add]
  · have hlength := congrArg List.length hbalance
    have hnone : new.emitted = 0 := rfl
    simp only [List.length_append, Array.length_toList] at hlength
    rw [haccepted, hnone, hlength, size]
    omega

end Console

end Interposition
