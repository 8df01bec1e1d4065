import Interposition.Image.Verify
import Interposition.Proofs.Checks
import Interposition.Proofs.Image.Offsets
import Mathlib.Data.List.Nodup
import Mathlib.Data.List.Perm.Subperm

/-!
# Interposition.Proofs.Image.Discipline — the flow pass decides the stack discipline

`Routine.Discipline` says without any search what it means that there is one stack height for
every instruction that control can reach: there is a partial map from positions to heights that
has the entry and the handlers' targets and is closed under executing an instruction.

The main statement, `check_eq_ok_iff`, is that the flow pass finds such a map exactly when there
is one. Soundness follows the queue: `Following` is the invariant of the pass, and at its end
nothing is pending, so what was found is closed. Completeness follows the map: what is found
always agrees with it, so the pass never meets a fault.
-/

namespace Interposition

/-! ## The discipline -/

namespace Routine

/-- The instruction at `position` may be executed on a stack of the given height: its operand is
of the right kind, its operands are there, and control goes on only to positions that have the
height after it. -/
def Allows (r : Routine) (heights : Nat → Option Nat) (position height : Nat) : Prop :=
  ∃ i e, r.method.code[position]? = some i ∧ r.effect (r.offset position) i = .ok e ∧
    e.pops ≤ height ∧
    (∀ target, i.jumpTarget? = some target →
      ∃ goal, r.position? target = some goal ∧
        heights goal = some (height - e.pops + e.pushes)) ∧
    (i.isTerminal = false → position + 1 < r.method.code.size ∧
      heights (position + 1) = some (height - e.pops + e.pushes))

/-- A map of heights that has the entry on an empty stack and each handler's target on a stack
that holds the message, and that is closed under executing instructions. -/
structure Discipline (r : Routine) (heights : Nat → Option Nat) : Prop where
  nonempty : 0 < r.method.code.size
  handlers : ∀ h ∈ r.method.handlers, r.handlerOk h = true
  entry : heights 0 = some 0
  caught : ∀ h ∈ r.method.handlers, ∃ goal, r.position? h.target = some goal ∧
    heights goal = some 1
  closed : ∀ position height, heights position = some height → r.Allows heights position height

/-- More heights allow more. -/
theorem Allows.mono {r : Routine} {heights more : Nat → Option Nat} {position height : Nat}
    (hallows : r.Allows heights position height)
    (hmore : ∀ p k, heights p = some k → more p = some k) : r.Allows more position height := by
  rcases hallows with ⟨i, e, hi, he, hpops, hjump, hnext⟩
  refine ⟨i, e, hi, he, hpops, ?_, ?_⟩
  · intro target htarget
    rcases hjump target htarget with ⟨goal, hgoal, hheight⟩
    exact ⟨goal, hgoal, hmore _ _ hheight⟩
  · intro hterminal
    rcases hnext hterminal with ⟨hlt, hheight⟩
    exact ⟨hlt, hmore _ _ hheight⟩

/-! ## The table and the queue -/

/-- The height found for a position. -/
def Flow.height? (flow : Flow) (position : Nat) : Option Nat :=
  flow.heights[position]?.join

/-- The positions whose successors are still to be visited, first come first. -/
def Flow.queue (flow : Flow) : List Nat :=
  flow.pending ++ flow.later.reverse

theorem Flow.queue_of_next? {flow rest : Flow} {position : Nat}
    (h : flow.next? = some (position, rest)) :
    flow.queue = position :: rest.queue ∧ rest.heights = flow.heights := by
  unfold Flow.next? at h
  split at h
  case h_1 p pending hpending =>
    obtain ⟨rfl, rfl⟩ := by simpa using h
    simp [Flow.queue, hpending]
  case h_2 hpending =>
    split at h
    case h_1 p pending hlater =>
      obtain ⟨rfl, rfl⟩ := by simpa using h
      simp [Flow.queue, hpending, hlater]
    case h_2 => cases h

theorem Flow.queue_of_next?_none {flow : Flow} (h : flow.next? = none) : flow.queue = [] := by
  unfold Flow.next? at h
  split at h
  case h_1 => cases h
  case h_2 hpending =>
    split at h
    case h_1 => cases h
    case h_2 hlater => simp [Flow.queue, hpending, hlater]

/-- A flow that holds what another one holds. -/
def Flow.Extends (more flow : Flow) : Prop :=
  ∀ p k, flow.height? p = some k → more.height? p = some k

theorem Flow.Extends.refl (flow : Flow) : flow.Extends flow :=
  fun _ _ h => h

theorem Flow.Extends.trans {a b c : Flow} (hcb : c.Extends b) (hba : b.Extends a) :
    c.Extends a :=
  fun p k h => hcb p k (hba p k h)

theorem Flow.height?_lt {flow : Flow} {p k : Nat} (h : flow.height? p = some k) :
    p < flow.heights.size := by
  unfold Flow.height? at h
  by_cases hp : p < flow.heights.size
  · exact hp
  · simp [Array.getElem?_eq_none (Nat.not_lt.1 hp)] at h

/-- Arriving at a position notes its height. A position is pending from its first arrival on. -/
theorem arrive_ok {r : Routine} {flow flow' : Flow} {p height : Nat}
    (h : r.arrive flow p height = .ok flow') (hp : p < flow.heights.size) :
    flow'.height? p = some height ∧ flow'.heights.size = flow.heights.size ∧
      (flow' = flow ∨
        flow.height? p = none ∧ flow'.queue = flow.queue ++ [p] ∧
          ∀ q, q ≠ p → flow'.height? q = flow.height? q) := by
  unfold arrive at h
  split at h
  case h_1 known hknown =>
    split at h
    case isTrue heq =>
      obtain rfl := by simpa using h
      exact ⟨by rw [Flow.height?, hknown, heq], rfl, Or.inl rfl⟩
    case isFalse => cases h
  case h_2 hknown =>
    obtain rfl := by simpa using h
    refine ⟨?_, by simp, Or.inr ⟨hknown, by simp [Flow.queue], ?_⟩⟩
    · simp [Flow.height?, hp]
    · intro q hq
      simp [Flow.height?, Array.getElem?_setIfInBounds_ne (Ne.symm hq)]

theorem arrive_extends {r : Routine} {flow flow' : Flow} {p height : Nat}
    (h : r.arrive flow p height = .ok flow') (hp : p < flow.heights.size) :
    flow'.Extends flow := by
  intro q k hq
  rcases arrive_ok h hp with ⟨_, _, rfl | ⟨hnew, _, hrest⟩⟩
  · exact hq
  · have hne : q ≠ p := by
      rintro rfl
      rw [hnew] at hq
      cases hq
    rwa [hrest q hne]

/-! ## Soundness -/

/-- The positions with a height are those visited and those pending, each once. -/
structure Tracked (r : Routine) (flow : Flow) (done : List Nat) : Prop where
  size : flow.heights.size = r.method.code.size
  nodup : (done ++ flow.queue).Nodup
  found : ∀ p, p ∈ done ++ flow.queue ↔ (flow.height? p).isSome

theorem Tracked.lt {r : Routine} {flow : Flow} {done : List Nat} (ht : r.Tracked flow done)
    {p : Nat} (hp : p ∈ done ++ flow.queue) : p < r.method.code.size := by
  rcases Option.isSome_iff_exists.1 ((ht.found p).1 hp) with ⟨k, hk⟩
  rw [← ht.size]
  exact Flow.height?_lt hk

theorem Tracked.arrive {r : Routine} {flow flow' : Flow} {done : List Nat} {p height : Nat}
    (ht : r.Tracked flow done) (h : r.arrive flow p height = .ok flow')
    (hp : p < r.method.code.size) : r.Tracked flow' done := by
  rw [← ht.size] at hp
  rcases arrive_ok h hp with ⟨hheight, hsize, rfl | ⟨hnew, hqueue, hrest⟩⟩
  · exact ht
  · have hfresh : p ∉ done ++ flow.queue := by
      intro hmem
      have hsome := (ht.found p).1 hmem
      simp [hnew] at hsome
    refine ⟨hsize.trans ht.size, ?_, ?_⟩
    · rw [hqueue, ← List.append_assoc]
      rw [← List.concat_eq_append]
      exact (List.nodup_concat _ _).2 ⟨hfresh, ht.nodup⟩
    · intro q
      rw [hqueue, ← List.append_assoc, List.mem_append, List.mem_singleton]
      by_cases hq : q = p
      · simp [hq, hheight]
      · simp [hq, hrest q hq, ht.found q]

/-- A position taken from the queue counts as visited. -/
theorem Tracked.next {r : Routine} {flow rest : Flow} {done : List Nat} {p : Nat}
    (ht : r.Tracked flow done) (h : flow.next? = some (p, rest)) :
    r.Tracked rest (done ++ [p]) := by
  rcases Flow.queue_of_next? h with ⟨hqueue, hheights⟩
  have hsame : done ++ [p] ++ rest.queue = done ++ flow.queue := by simp [hqueue]
  refine ⟨by rw [hheights, ht.size], by rw [hsame]; exact ht.nodup, ?_⟩
  intro q
  rw [hsame, ht.found, Flow.height?, Flow.height?, hheights]

/-- A visit passes when its three parts do: the operands are there, the target of a jump is
arrived at, and so is the next position. -/
theorem visit_eq_ok_iff {r : Routine} {flow flow' : Flow} {p height : Nat} {i : Instruction} :
    r.visit flow p height i = .ok flow' ↔
      ∃ e mid, r.effect (r.offset p) i = .ok e ∧ e.pops ≤ height ∧
        (match i.jumpTarget? with
          | none => mid = flow
          | some target => ∃ goal, r.position? target = some goal ∧
              r.arrive flow goal (height - e.pops + e.pushes) = .ok mid) ∧
        (if i.isTerminal then flow' = mid
          else p + 1 < r.method.code.size ∧
            r.arrive mid (p + 1) (height - e.pops + e.pushes) = .ok flow') := by
  simp only [visit, bind, Except.bind, throw, throwThe, MonadExceptOf.throw, pure, Except.pure]
  cases he : r.effect (r.offset p) i with
  | error err => simp
  | ok e =>
    have hlast (mid : Flow) :
        (if i.isTerminal then (.ok mid : Except VerifyError Flow)
          else if p + 1 < r.method.code.size then
            r.arrive mid (p + 1) (height - e.pops + e.pushes)
          else .error (.fallsOffEnd r.label)) = .ok flow' ↔
        if i.isTerminal then flow' = mid
        else p + 1 < r.method.code.size ∧
          r.arrive mid (p + 1) (height - e.pops + e.pushes) = .ok flow' := by
      split
      · simp [eq_comm]
      · split
        case isTrue hinside => simp [hinside]
        case isFalse houtside => simp [houtside]
    by_cases hpops : height < e.pops
    · simp [hpops, Nat.not_le.2 hpops]
    · have hle : e.pops ≤ height := Nat.not_lt.1 hpops
      simp only [hpops, if_false, Except.ok.injEq, exists_and_left, exists_eq_left', hle, true_and]
      cases i.jumpTarget? with
      | none => simp [hlast]
      | some target =>
        cases hgoal : r.position? target with
        | none => simp [hgoal]
        | some goal =>
          cases hmid : r.arrive flow goal (height - e.pops + e.pushes) with
          | error err => simp [hgoal, hmid]
          | ok mid => simp [hgoal, hmid, hlast]

/-- A visit that passes keeps track of what it finds and shows its position to be allowed. -/
theorem Tracked.visit {r : Routine} {flow flow' : Flow} {done : List Nat} {p height : Nat}
    {i : Instruction} (ht : r.Tracked flow done) (h : r.visit flow p height i = .ok flow')
    (hi : r.method.code[p]? = some i) (hstarts : r.starts.size = r.method.code.size) :
    r.Tracked flow' done ∧ flow'.Extends flow ∧ r.Allows flow'.height? p height := by
  rcases visit_eq_ok_iff.1 h with ⟨e, mid, he, hpops, hjump, hnext⟩
  -- The jump first: it leads from `flow` to `mid`.
  have hmid : r.Tracked mid done ∧ mid.Extends flow ∧
      ∀ target, i.jumpTarget? = some target → ∃ goal, r.position? target = some goal ∧
        mid.height? goal = some (height - e.pops + e.pushes) := by
    cases htarget : i.jumpTarget? with
    | none =>
      simp only [htarget] at hjump
      subst hjump
      exact ⟨ht, .refl _, by simp⟩
    | some target =>
      simp only [htarget] at hjump
      rcases hjump with ⟨goal, hgoal, harrive⟩
      have hlt : goal < r.method.code.size := by
        rw [← hstarts]
        exact Code.lt_of_position? hgoal
      have hlt' : goal < flow.heights.size := by rwa [ht.size]
      refine ⟨ht.arrive harrive hlt, arrive_extends harrive hlt', ?_⟩
      rintro _ ⟨⟩
      exact ⟨goal, hgoal, (arrive_ok harrive hlt').1⟩
  rcases hmid with ⟨htmid, hextends, hjumps⟩
  -- Then the next position: it leads from `mid` to `flow'`.
  by_cases hterminal : i.isTerminal = true
  · simp only [hterminal, if_true] at hnext
    subst hnext
    exact ⟨htmid, hextends, i, e, hi, he, hpops, hjumps, by simp [hterminal]⟩
  · simp only [hterminal] at hnext
    rcases hnext with ⟨hlt, harrive⟩
    have hlt' : p + 1 < mid.heights.size := by rwa [htmid.size]
    have hextends' := arrive_extends harrive hlt'
    refine ⟨htmid.arrive harrive hlt, hextends'.trans hextends, i, e, hi, he, hpops, ?_, ?_⟩
    · intro target htarget
      rcases hjumps target htarget with ⟨goal, hgoal, hheight⟩
      exact ⟨goal, hgoal, hextends' _ _ hheight⟩
    · intro _
      exact ⟨hlt, (arrive_ok harrive hlt').1⟩

/-- The invariant of the pass: all that was visited is allowed by what was found. -/
structure Following (r : Routine) (flow : Flow) (done : List Nat) : Prop
    extends r.Tracked flow done where
  visited : ∀ p ∈ done, ∀ k, flow.height? p = some k → r.Allows flow.height? p k

/-- There are never more positions visited or pending than there are instructions. -/
theorem Tracked.length_le {r : Routine} {flow : Flow} {done : List Nat}
    (ht : r.Tracked flow done) : done.length + flow.queue.length ≤ r.method.code.size := by
  have hsub : done ++ flow.queue ⊆ List.range r.method.code.size := by
    intro p hp
    exact List.mem_range.2 (ht.lt hp)
  have hlength := (List.subperm_of_subset ht.nodup hsub).length_le
  rwa [List.length_append, List.length_range] at hlength

/-- The heights of a flow that has nothing pending are closed. -/
theorem Following.closed {r : Routine} {flow : Flow} {done : List Nat}
    (hf : r.Following flow done) (hqueue : flow.queue = []) :
    ∀ p k, flow.height? p = some k → r.Allows flow.height? p k := by
  intro p k hk
  have hp : p ∈ done ++ flow.queue := (hf.found p).2 (by simp [hk])
  rw [hqueue, List.append_nil] at hp
  exact hf.visited p hp k hk

/-- A pending position has an instruction and a height, and a visit of it keeps the invariant. -/
theorem Following.next {r : Routine} {flow rest : Flow} {done : List Nat} {p : Nat}
    (hf : r.Following flow done) (hstarts : r.starts.size = r.method.code.size)
    (hnext : flow.next? = some (p, rest)) :
    ∃ i height, r.method.code[p]? = some i ∧ rest.heights[p]?.join = some height ∧
      ∀ flow', r.visit rest p height i = .ok flow' →
        r.Following flow' (done ++ [p]) ∧ flow'.Extends flow := by
  rcases Flow.queue_of_next? hnext with ⟨hqueue, hheights⟩
  have hsame (q : Nat) : rest.height? q = flow.height? q := by
    rw [Flow.height?, Flow.height?, hheights]
  have hp : p ∈ done ++ flow.queue := by simp [hqueue]
  have hlt : p < r.method.code.size := hf.lt hp
  rcases Option.isSome_iff_exists.1 ((hf.found p).1 hp) with ⟨height, hheight⟩
  have hi : r.method.code[p]? = some r.method.code[p] := Array.getElem?_eq_getElem hlt
  refine ⟨r.method.code[p], height, hi, (hsame p).trans hheight, ?_⟩
  intro flow' hvisit
  rcases (hf.toTracked.next hnext).visit hvisit hi hstarts with ⟨ht', hextends, hallows⟩
  have hextends' : flow'.Extends flow := by
    intro q k hq
    exact hextends q k ((hsame q).trans hq)
  refine ⟨⟨ht', ?_⟩, hextends'⟩
  intro q hq k hk
  rcases List.mem_append.1 hq with hq | hq
  · -- visited before: what was found since allows no less
    have hsome := (hf.found q).1 (List.mem_append_left _ hq)
    rcases Option.isSome_iff_exists.1 hsome with ⟨k', hk'⟩
    obtain rfl : k' = k := Option.some.inj ((hextends' q k' hk').symm.trans hk)
    exact (hf.visited q hq k' hk').mono hextends'
  · rcases List.mem_singleton.1 hq with rfl
    obtain rfl : height = k := Option.some.inj ((hextends' q height hheight).symm.trans hk)
    exact hallows

/-- Following control to the end closes the heights found so far. There are steps enough: each
position is visited once. -/
theorem follow_sound {r : Routine} {steps : Nat} {flow : Flow} {done : List Nat}
    (hstarts : r.starts.size = r.method.code.size) (hf : r.Following flow done)
    (hsteps : r.method.code.size ≤ steps + done.length) (h : r.follow steps flow = .ok ()) :
    ∃ last : Flow, last.Extends flow ∧
      ∀ p k, last.height? p = some k → r.Allows last.height? p k := by
  induction steps generalizing flow done with
  | zero =>
    -- Every position is visited, so none is pending.
    have hlength := hf.length_le
    have hqueue : flow.queue = [] := List.length_eq_zero_iff.1 (by omega)
    exact ⟨flow, .refl _, hf.closed hqueue⟩
  | succ steps ih =>
    rw [follow] at h
    cases hnext : flow.next? with
    | none => exact ⟨flow, .refl _, hf.closed (Flow.queue_of_next?_none hnext)⟩
    | some found =>
      rcases found with ⟨p, rest⟩
      rcases hf.next hstarts hnext with ⟨i, height, hi, hheight, hvisits⟩
      simp only [hnext, hi, hheight] at h
      cases hvisit : r.visit rest p height i with
      | error e => simp [hvisit] at h
      | ok flow' =>
        simp only [hvisit] at h
        rcases hvisits flow' hvisit with ⟨hf', hextends⟩
        have hsteps' : r.method.code.size ≤ steps + (done ++ [p]).length := by
          rw [List.length_append, List.length_singleton]
          omega
        rcases ih hf' hsteps' h with ⟨last, hlast, hclosed⟩
        exact ⟨last, hlast.trans hextends, hclosed⟩

/-- Control starts at the targets of handlers that are as they should be. -/
theorem Tracked.arriveAll {r : Routine} {flow flow' : Flow} {hs : List Handler}
    (ht : r.Tracked flow []) (hstarts : r.starts.size = r.method.code.size)
    (hok : ∀ h ∈ hs, r.handlerOk h = true)
    (h : hs.foldlM (fun flow h => r.arrive flow ((r.position? h.target).getD 0) 1) flow =
      .ok flow') :
    r.Tracked flow' [] ∧ flow'.Extends flow ∧
      ∀ h ∈ hs, ∃ goal, r.position? h.target = some goal ∧ flow'.height? goal = some 1 := by
  induction hs generalizing flow with
  | nil =>
    obtain rfl : flow = flow' := by simpa [pure, Except.pure] using h
    exact ⟨ht, .refl _, by simp⟩
  | cons first rest ih =>
    rcases bind_eq_ok_iff.1 (List.foldlM_cons.symm.trans h) with ⟨mid, hmid, hrest⟩
    have hfirst := hok first (List.mem_cons_self ..)
    obtain ⟨goal, hgoal⟩ : ∃ goal, r.position? first.target = some goal := by
      simp only [handlerOk, Bool.and_eq_true] at hfirst
      exact Option.isSome_iff_exists.1 hfirst.2
    rw [hgoal, Option.getD_some] at hmid
    have hlt : goal < r.method.code.size := by
      rw [← hstarts]
      exact Code.lt_of_position? hgoal
    have hlt' : goal < flow.heights.size := by rwa [ht.size]
    rcases ih (ht.arrive hmid hlt) (fun h hmem => hok h (List.mem_cons_of_mem _ hmem)) hrest with
      ⟨ht', hextends, hcaught⟩
    refine ⟨ht', hextends.trans (arrive_extends hmid hlt'), ?_⟩
    intro h hmem
    rcases List.mem_cons.1 hmem with rfl | hmem
    · exact ⟨goal, hgoal, hextends _ _ (arrive_ok hmid hlt').1⟩
    · exact hcaught h hmem

theorem tracked_start (r : Routine) :
    r.Tracked ⟨Array.replicate r.method.code.size none, [], []⟩ [] := by
  have hnone (p : Nat) :
      (⟨Array.replicate r.method.code.size none, [], []⟩ : Flow).height? p = none := by
    simp only [Flow.height?, Array.getElem?_replicate]
    split <;> rfl
  refine ⟨by simp, by simp [Flow.queue], ?_⟩
  intro p
  rw [hnone p]
  simp [Flow.queue]

/-- The flow that control starts with. -/
theorem entries_sound {r : Routine} {flow : Flow} (hnonempty : 0 < r.method.code.size)
    (hstarts : r.starts.size = r.method.code.size)
    (hok : ∀ h ∈ r.method.handlers, r.handlerOk h = true) (h : r.entries = .ok flow) :
    r.Tracked flow [] ∧ flow.height? 0 = some 0 ∧
      ∀ h ∈ r.method.handlers, ∃ goal, r.position? h.target = some goal ∧
        flow.height? goal = some 1 := by
  rcases bind_eq_ok_iff.1 h with ⟨first, hfirst, hrest⟩
  have hlt := hnonempty
  rw [← (tracked_start r).size] at hlt
  rcases ((tracked_start r).arrive hfirst hnonempty).arriveAll hstarts hok hrest with
    ⟨ht, hextends, hcaught⟩
  exact ⟨ht, hextends _ _ (arrive_ok hfirst hlt).1, hcaught⟩

/-! ## Completeness -/

/-- All that was found agrees with a given map. -/
def Flow.Agrees (flow : Flow) (heights : Nat → Option Nat) : Prop :=
  ∀ p k, flow.height? p = some k → heights p = some k

theorem Flow.Agrees.arrive {r : Routine} {flow : Flow} {heights : Nat → Option Nat} {p k : Nat}
    (ha : flow.Agrees heights) (hp : heights p = some k) :
    ∃ flow', r.arrive flow p k = .ok flow' ∧ flow'.Agrees heights := by
  unfold Routine.arrive
  split
  case h_1 known hknown =>
    -- A height that is known is that of the map, so there is no conflict.
    obtain rfl : known = k := Option.some.inj ((ha p known hknown).symm.trans hp)
    exact ⟨flow, by simp, ha⟩
  case h_2 hnew =>
    refine ⟨_, rfl, ?_⟩
    intro q k' hq
    -- The table changes at the one position only.
    by_cases hqp : q = p
    · subst hqp
      by_cases hlt : q < flow.heights.size
      · obtain rfl : k = k' := by simpa [Flow.height?, hlt] using hq
        exact hp
      · simp [Flow.height?, hlt] at hq
    · rw [Flow.height?, Array.getElem?_setIfInBounds_ne (Ne.symm hqp)] at hq
      exact ha q k' hq

theorem Flow.Agrees.arriveAll {r : Routine} {flow : Flow} {heights : Nat → Option Nat}
    {hs : List Handler} (ha : flow.Agrees heights)
    (hcaught : ∀ h ∈ hs, ∃ goal, r.position? h.target = some goal ∧ heights goal = some 1) :
    ∃ flow', hs.foldlM (fun flow h => r.arrive flow ((r.position? h.target).getD 0) 1) flow =
      .ok flow' ∧ flow'.Agrees heights := by
  induction hs generalizing flow with
  | nil => exact ⟨flow, rfl, ha⟩
  | cons first rest ih =>
    rcases hcaught first (List.mem_cons_self ..) with ⟨goal, hgoal, hheight⟩
    obtain ⟨mid, hmid, hagrees⟩ := ha.arrive (r := r) hheight
    rcases ih hagrees fun h hmem => hcaught h (List.mem_cons_of_mem _ hmem) with
      ⟨flow', hrest, hagrees'⟩
    refine ⟨flow', ?_, hagrees'⟩
    rw [List.foldlM_cons]
    exact bind_eq_ok_iff.2 ⟨mid, by rw [hgoal]; exact hmid, hrest⟩

theorem Flow.Agrees.visit {r : Routine} {flow : Flow} {heights : Nat → Option Nat}
    {p height : Nat} {i : Instruction} (ha : flow.Agrees heights)
    (hallows : r.Allows heights p height) (hi : r.method.code[p]? = some i) :
    ∃ flow', r.visit flow p height i = .ok flow' ∧ flow'.Agrees heights := by
  rcases hallows with ⟨i', e, hi', he, hpops, hjump, hnext⟩
  obtain rfl : i' = i := Option.some.inj (hi'.symm.trans hi)
  have hmid : ∃ mid : Flow, mid.Agrees heights ∧
      match i'.jumpTarget? with
      | none => mid = flow
      | some target => ∃ goal, r.position? target = some goal ∧
          r.arrive flow goal (height - e.pops + e.pushes) = .ok mid := by
    cases htarget : i'.jumpTarget? with
    | none => exact ⟨flow, ha, rfl⟩
    | some target =>
      rcases hjump target htarget with ⟨goal, hgoal, hheight⟩
      obtain ⟨mid, harrive, hagrees⟩ := ha.arrive (r := r) hheight
      exact ⟨mid, hagrees, goal, hgoal, harrive⟩
  rcases hmid with ⟨mid, hagrees, hmid⟩
  by_cases hterminal : i'.isTerminal = true
  · exact ⟨mid, visit_eq_ok_iff.2 ⟨e, mid, he, hpops, hmid, by simp [hterminal]⟩, hagrees⟩
  · rcases hnext (by simpa using hterminal) with ⟨hlt, hheight⟩
    obtain ⟨flow', harrive, hagrees'⟩ := hagrees.arrive (r := r) hheight
    exact ⟨flow', visit_eq_ok_iff.2 ⟨e, mid, he, hpops, hmid, by simp [hterminal, hlt, harrive]⟩,
      hagrees'⟩

/-- A flow that agrees with a closed map is followed without a fault. -/
theorem follow_complete {r : Routine} {heights : Nat → Option Nat} {steps : Nat} {flow : Flow}
    (hclosed : ∀ p k, heights p = some k → r.Allows heights p k) (ha : flow.Agrees heights) :
    r.follow steps flow = .ok () := by
  induction steps generalizing flow with
  | zero => rfl
  | succ steps ih =>
    rw [follow]
    cases hnext : flow.next? with
    | none => rfl
    | some found =>
      rcases found with ⟨p, rest⟩
      have hrest : rest.Agrees heights := by
        intro q k hq
        rw [Flow.height?, (Flow.queue_of_next? hnext).2] at hq
        exact ha q k hq
      dsimp only
      split
      case h_1 i height hi hheight =>
        have hallows := hclosed p height (hrest p height hheight)
        rcases hrest.visit hallows hi with ⟨flow', hvisit, hagrees⟩
        rw [hvisit]
        exact ih hagrees
      case h_2 => exact ih hrest

/-! ## The decision -/

theorem checkHandlers_eq_ok_iff {r : Routine} :
    r.checkHandlers = .ok () ↔ ∀ h ∈ r.method.handlers, r.handlerOk h = true := by
  rw [checkHandlers, checkEach_eq_ok_iff]
  constructor
  · intro hall h hmem
    rcases List.mem_iff_getElem?.1 hmem with ⟨i, hi⟩
    have hcheck := hall i h hi
    by_contra hnot
    simp [hnot] at hcheck
  · intro hall i h hi
    simp [hall h (List.mem_of_getElem? hi)]

/-- The check of a routine passes exactly when some map of heights keeps the discipline. -/
theorem check_eq_ok_iff {r : Routine} (hstarts : r.starts.size = r.method.code.size) :
    r.check = .ok () ↔ ∃ heights, r.Discipline heights := by
  -- The three parts of the check: the handlers, the code, the pass.
  have hcheck : r.check = .ok () ↔ (∀ h ∈ r.method.handlers, r.handlerOk h = true) ∧
      0 < r.method.code.size ∧ ∃ flow, r.entries = .ok flow ∧
        r.follow r.method.code.size flow = .ok () := by
    rw [← checkHandlers_eq_ok_iff, check, check_bind_eq_ok_iff, checkFlow]
    by_cases hempty : r.method.code.isEmpty = true
    · simp [hempty, throw, throwThe, MonadExceptOf.throw, bind, Except.bind,
        Array.isEmpty_iff_size_eq_zero.1 hempty]
    · have hpos : 0 < r.method.code.size := by
        rw [Array.isEmpty_iff_size_eq_zero] at hempty
        omega
      simp [hempty, hpos, bind_eq_ok_iff]
  rw [hcheck]
  constructor
  · rintro ⟨hok, hnonempty, flow, hentries, hfollow⟩
    -- What the pass has found at its end is such a map.
    rcases entries_sound hnonempty hstarts hok hentries with ⟨ht, hentry, hcaught⟩
    rcases follow_sound hstarts ⟨ht, by simp⟩ (by simp) hfollow with
      ⟨last, hextends, hclosed⟩
    refine ⟨last.height?, hnonempty, hok, hextends _ _ hentry, ?_, hclosed⟩
    intro h hmem
    rcases hcaught h hmem with ⟨goal, hgoal, hheight⟩
    exact ⟨goal, hgoal, hextends _ _ hheight⟩
  · rintro ⟨heights, hd⟩
    refine ⟨hd.handlers, hd.nonempty, ?_⟩
    -- The pass starts with nothing found, which agrees with every map.
    have hstart : (⟨Array.replicate r.method.code.size none, [], []⟩ : Flow).Agrees heights := by
      intro p k hp
      have hfound := ((tracked_start r).found p).2 (by simp [hp])
      simp [Flow.queue] at hfound
    obtain ⟨first, hfirst, hagrees⟩ := hstart.arrive (r := r) hd.entry
    rcases hagrees.arriveAll hd.caught with ⟨flow, hrest, hagrees'⟩
    exact ⟨flow, bind_eq_ok_iff.2 ⟨first, hfirst, hrest⟩, follow_complete hd.closed hagrees'⟩

end Routine

end Interposition
