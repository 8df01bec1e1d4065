import Interposition.Proofs.Image.WellFormed

/-!
# Interposition.Proofs.Image.FlowPass — the flow pass against heights that balance

`Routine.Balanced` says what a map of heights is without the verifier's tables: where an
instruction starts is the sum of the widths before it. `Routine.discipline_iff` ties it to the
discipline that the verifier is known to decide.

The pass itself has a bound on its steps. `Routine.Pass` is the loop without one: a list of
rounds, each of which takes the next pending position. No position is taken twice, so the loop
comes to an end by itself and the bound never cuts it short (`follow_eq`).

The main statement, `check_decides`, says both of a method of any image.
-/

namespace Interposition

/-! ## Heights that balance -/

/-- The instruction at a position starts at a byte offset. -/
def Code.StartsAt (code : Array Instruction) (position : Nat) (offset : UInt32) : Prop :=
  position < code.size ∧ Code.startOf code position = offset.toNat

/-- The range of a handler is not empty and goes from an instruction to an instruction or the
end of the code. Its target is an instruction. -/
structure Handler.Fits (h : Handler) (code : Array Instruction) : Prop where
  nonempty : h.start < h.stop
  start : ∃ position, Code.StartsAt code position h.start
  stop : h.stop.toNat = Code.byteLength code ∨ ∃ position, Code.StartsAt code position h.stop
  target : ∃ position, Code.StartsAt code position h.target

namespace Routine

/-- A partial map of heights that has the entry at nothing and every handler's target at the
failure message. Where it has a height, the instruction finds its operands, the target of a
jump starts an instruction, control does not run off the end, and the map has the height after
the instruction at every successor. -/
structure Balanced (r : Routine) (heights : Nat → Option Nat) : Prop where
  entry : heights 0 = some 0
  caught : ∀ h ∈ r.method.handlers, ∀ position,
    Code.StartsAt r.method.code position h.target → heights position = some 1
  step : ∀ position height, heights position = some height →
    ∃ i e, r.method.code[position]? = some i ∧
      r.effect (Code.startOf r.method.code position) i = .ok e ∧ e.pops ≤ height ∧
      (∀ target, i.jumpTarget? = some target → ∃ goal, Code.StartsAt r.method.code goal target ∧
        heights goal = some (height - e.pops + e.pushes)) ∧
      (i.isTerminal = false → position + 1 < r.method.code.size ∧
        heights (position + 1) = some (height - e.pops + e.pushes))

variable {r : Routine}

theorem position?_eq_some_iff (hstarts : r.starts = Code.offsets r.method.code)
    {offset : UInt32} {position : Nat} :
    r.position? offset = some position ↔ Code.StartsAt r.method.code position offset := by
  rw [Routine.position?, hstarts, Code.position?_eq_some_iff, Code.StartsAt]

theorem isSome_position? (hstarts : r.starts = Code.offsets r.method.code) {offset : UInt32} :
    (r.position? offset).isSome = true ↔
      ∃ position, Code.StartsAt r.method.code position offset := by
  simp only [Option.isSome_iff_exists, position?_eq_some_iff hstarts]

theorem offset_eq_startOf (hstarts : r.starts = Code.offsets r.method.code) {position : Nat}
    (h : position < r.method.code.size) :
    r.offset position = Code.startOf r.method.code position := by
  rw [Routine.offset, hstarts, Code.offsets_getElem?, if_pos h, Option.getD_some]

theorem handlerOk_iff (hstarts : r.starts = Code.offsets r.method.code) {h : Handler} :
    r.handlerOk h = true ↔ h.Fits r.method.code := by
  simp only [handlerOk, Bool.and_eq_true, Bool.or_eq_true, decide_eq_true_eq, beq_iff_eq,
    isSome_position? hstarts]
  constructor
  · rintro ⟨⟨⟨hnonempty, hstart⟩, hstop⟩, htarget⟩
    exact ⟨hnonempty, hstart, hstop, htarget⟩
  · rintro ⟨hnonempty, hstart, hstop, htarget⟩
    exact ⟨⟨⟨hnonempty, hstart⟩, hstop⟩, htarget⟩

/-- At an instruction, what the discipline allows is what balances. -/
theorem allows_iff (hstarts : r.starts = Code.offsets r.method.code)
    {heights : Nat → Option Nat} {position height : Nat} :
    r.Allows heights position height ↔
      ∃ i e, r.method.code[position]? = some i ∧
        r.effect (Code.startOf r.method.code position) i = .ok e ∧ e.pops ≤ height ∧
        (∀ target, i.jumpTarget? = some target →
          ∃ goal, Code.StartsAt r.method.code goal target ∧
            heights goal = some (height - e.pops + e.pushes)) ∧
        (i.isTerminal = false → position + 1 < r.method.code.size ∧
          heights (position + 1) = some (height - e.pops + e.pushes)) := by
  have hoffset {i : Instruction} (hi : r.method.code[position]? = some i) :
      r.offset position = Code.startOf r.method.code position :=
    offset_eq_startOf hstarts (Array.getElem?_eq_some_iff.1 hi).1
  simp only [Allows, position?_eq_some_iff hstarts]
  constructor
  · rintro ⟨i, e, hi, he, hrest⟩
    exact ⟨i, e, hi, by rwa [← hoffset hi], hrest⟩
  · rintro ⟨i, e, hi, he, hrest⟩
    exact ⟨i, e, hi, by rwa [hoffset hi], hrest⟩

/-- The discipline is that the handlers fit, there is code, and the heights balance. -/
theorem discipline_iff (hstarts : r.starts = Code.offsets r.method.code)
    {heights : Nat → Option Nat} :
    r.Discipline heights ↔ (∀ h ∈ r.method.handlers, h.Fits r.method.code) ∧
      0 < r.method.code.size ∧ r.Balanced heights := by
  constructor
  · intro hd
    refine ⟨fun h hmem => (handlerOk_iff hstarts).1 (hd.handlers h hmem), hd.nonempty,
      hd.entry, ?_, fun p k hk => (allows_iff hstarts).1 (hd.closed p k hk)⟩
    intro h hmem position hposition
    rcases hd.caught h hmem with ⟨goal, hgoal, hheight⟩
    rw [(position?_eq_some_iff hstarts).2 hposition] at hgoal
    rwa [Option.some.inj hgoal]
  · rintro ⟨hfits, hnonempty, hb⟩
    refine ⟨hnonempty, fun h hmem => (handlerOk_iff hstarts).2 (hfits h hmem), hb.entry, ?_,
      fun p k hk => (allows_iff hstarts).2 (hb.step p k hk)⟩
    intro h hmem
    rcases (hfits h hmem).target with ⟨goal, hgoal⟩
    exact ⟨goal, (position?_eq_some_iff hstarts).2 hgoal, hb.caught h hmem goal hgoal⟩

/-! ## The loop without a bound -/

/-- Rounds of the pass that all go well. Each takes the next pending position and visits it on
the height found for it. The list has the positions taken, in order. -/
inductive Pass (r : Routine) : Flow → List Nat → Flow → Prop
  | nil (flow : Flow) : Pass r flow [] flow
  | cons {flow rest after last : Flow} {p height : Nat} {i : Instruction} {positions : List Nat}
      (hnext : flow.next? = some (p, rest)) (hi : r.method.code[p]? = some i)
      (hheight : rest.height? p = some height) (hvisit : r.visit rest p height i = .ok after)
      (hrest : Pass r after positions last) : Pass r flow (p :: positions) last

/-- The loop ends at a flow after the given positions: nothing is pending, or the next position
is a new one and its visit meets a fault. -/
inductive Ends (r : Routine) (positions : List Nat) (last : Flow) :
    Except VerifyError Unit → Prop
  | finished (hnext : last.next? = none) : Ends r positions last (.ok ())
  | faulty {rest : Flow} {p height : Nat} {i : Instruction} {e : VerifyError}
      (hnext : last.next? = some (p, rest)) (hnew : p ∉ positions)
      (hi : r.method.code[p]? = some i) (hheight : rest.height? p = some height)
      (hvisit : r.visit rest p height i = .error e) : Ends r positions last (.error e)

/-- Rounds keep the invariant of the pass. -/
theorem Pass.following {flow last : Flow} {positions done : List Nat}
    (hpass : r.Pass flow positions last) (hstarts : r.starts.size = r.method.code.size)
    (hf : r.Following flow done) : r.Following last (done ++ positions) := by
  induction hpass generalizing done with
  | nil flow => rwa [List.append_nil]
  | cons hnext hi hheight hvisit _ ih =>
    rcases hf.next hstarts hnext with ⟨i, height, hi', hheight', hvisits⟩
    obtain rfl := Option.some.inj (hi.symm.trans hi')
    obtain rfl := Option.some.inj (hheight.symm.trans hheight')
    rw [List.append_cons]
    exact ih (hvisits _ hvisit).1

/-- The bounded pass with steps enough gives the answer of the loop at its end. -/
theorem follow_eq {steps : Nat} {flow : Flow} {done : List Nat}
    (hstarts : r.starts.size = r.method.code.size) (hf : r.Following flow done)
    (hsteps : r.method.code.size ≤ steps + done.length) :
    ∃ positions last, r.Pass flow positions last ∧
      r.Ends (done ++ positions) last (r.follow steps flow) := by
  induction steps generalizing flow done with
  | zero =>
    -- All positions are taken, so nothing is pending and no step is missed.
    have hlength := hf.length_le
    have hqueue : flow.queue = [] := List.length_eq_zero_iff.1 (by omega)
    refine ⟨[], flow, .nil flow, .finished ?_⟩
    cases hnext : flow.next? with
    | none => rfl
    | some found =>
      have hcons := (Flow.queue_of_next? hnext).1
      rw [hqueue] at hcons
      cases hcons
  | succ steps ih =>
    rw [follow]
    cases hnext : flow.next? with
    | none => exact ⟨[], flow, .nil flow, .finished hnext⟩
    | some found =>
      rcases found with ⟨p, rest⟩
      rcases hf.next hstarts hnext with ⟨i, height, hi, hheight, hvisits⟩
      simp only [hi, hheight]
      cases hvisit : r.visit rest p height i with
      | error e =>
        have hnew : p ∉ done := by
          have hnodup := hf.nodup
          rw [(Flow.queue_of_next? hnext).1, List.nodup_append] at hnodup
          intro hmem
          exact hnodup.2.2 p hmem p (List.mem_cons_self ..) rfl
        refine ⟨[], flow, .nil flow, .faulty hnext ?_ hi hheight hvisit⟩
        rwa [List.append_nil]
      | ok after =>
        have hsteps' : r.method.code.size ≤ steps + (done ++ [p]).length := by
          rw [List.length_append, List.length_singleton]
          omega
        rcases ih (hvisits after hvisit).1 hsteps' with ⟨positions, last, hpass, hends⟩
        refine ⟨p :: positions, last, .cons hnext hi hheight hvisit hpass, ?_⟩
        rwa [List.append_cons]

/-- The check of a routine is its pass when the handlers fit and control can start. -/
theorem check_eq_follow {start : Flow}
    (hok : ∀ h ∈ r.method.handlers, r.handlerOk h = true) (hnonempty : 0 < r.method.code.size)
    (hentries : r.entries = .ok start) : r.check = r.follow r.method.code.size start := by
  have hempty : r.method.code.isEmpty = false := by
    simpa [Array.isEmpty_iff_size_eq_zero] using Nat.ne_of_gt hnonempty
  simp only [check, checkHandlers_eq_ok_iff.2 hok, checkFlow, hempty, hentries, bind, Except.bind]
  rfl

/-- The check of a method of any image passes exactly when its handlers fit, it has code, and
some heights balance. The loop that decides this never takes a position twice, comes to an end,
and its answer there is that of the check. -/
theorem check_decides {image : Image} {m : Method} (hr : Routine.ofMethod image m = .ok r) :
    (r.check = .ok () ↔ (∀ h ∈ m.handlers, h.Fits m.code) ∧ 0 < m.code.size ∧
      ∃ heights, r.Balanced heights) ∧
    ((∀ h ∈ m.handlers, h.Fits m.code) → 0 < m.code.size → ∀ start, r.entries = .ok start →
      (∀ positions last, r.Pass start positions last →
        positions.Nodup ∧ ∀ p ∈ positions, p < m.code.size) ∧
      ∃ positions last, r.Pass start positions last ∧ r.Ends positions last r.check) := by
  rcases ofMethod_eq_ok_iff.1 hr with ⟨_, _, _, _, _, _, _, hroutine⟩
  obtain rfl : r.method = m := by rw [hroutine]
  have hstarts : r.starts = Code.offsets r.method.code := by rw [hroutine]
  have hsize : r.starts.size = r.method.code.size := by rw [hstarts, Code.offsets_size]
  constructor
  · rw [check_eq_ok_iff hsize]
    simp only [discipline_iff hstarts, exists_and_left]
  · intro hfits hnonempty start hentries
    have hok := fun h hmem => (handlerOk_iff hstarts).2 (hfits h hmem)
    have hf := (entries_sound hnonempty hsize hok hentries).1
    have hfollowing : r.Following start [] := ⟨hf, by simp⟩
    constructor
    · intro positions last hpass
      have hlast := hpass.following hsize hfollowing
      rw [List.nil_append] at hlast
      exact ⟨(List.nodup_append.1 hlast.nodup).1,
        fun p hp => hlast.lt (List.mem_append_left _ hp)⟩
    · have hsteps : r.method.code.size ≤ r.method.code.size + ([] : List Nat).length := by simp
      rcases follow_eq hsize hfollowing hsteps with ⟨positions, last, hpass, hends⟩
      rw [List.nil_append] at hends
      rw [check_eq_follow hok hnonempty hentries]
      exact ⟨positions, last, hpass, hends⟩

/-- A loop under a handler, and an instruction that control never reaches. -/
def circling : Method :=
  ⟨1, 0, 1, 0, #[.pushTrue, .jumpIfFalse 11, .jump 0, .ret, .pop, .ret, .add], [⟨0, 11, 12⟩]⟩

theorem check_decides_circling :
    ∃ r start, Routine.ofMethod ⟨1, 0, ⟨#[.utf8 "main", .utf8 "()V"]⟩, 0, #[circling]⟩ circling =
        .ok r ∧
      r.entries = .ok start ∧ (∃ heights, r.Balanced heights) ∧
      ∃ positions last, r.Pass start positions last ∧ positions.Nodup ∧
        r.Ends positions last (.ok ()) := by
  have hpasses : (do
      let r ← Routine.ofMethod ⟨1, 0, ⟨#[.utf8 "main", .utf8 "()V"]⟩, 0, #[circling]⟩ circling
      let _ ← r.entries
      r.check) = .ok () := by decide +kernel
  rcases bind_eq_ok_iff.1 hpasses with ⟨r, hr, hrest⟩
  rcases bind_eq_ok_iff.1 hrest with ⟨start, hentries, hcheck⟩
  rcases check_decides hr with ⟨hdecides, hloop⟩
  rcases hdecides.1 hcheck with ⟨hfits, hnonempty, hbalanced⟩
  rcases hloop hfits hnonempty start hentries with ⟨hrounds, positions, last, hpass, hends⟩
  rw [hcheck] at hends
  exact ⟨r, start, hr, hentries, hbalanced, positions, last, hpass, (hrounds _ _ hpass).1, hends⟩

end Routine

end Interposition
