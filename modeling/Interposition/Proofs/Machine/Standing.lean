import Interposition.Proofs.Machine.Confinement
import Interposition.Proofs.Machine.Soundness

/-!
# Interposition.Proofs.Machine.Standing — verified code on any host

Natives may fail as they like, also as only defective code does. That changes which failures there
are, but not where control goes on: the stack has the heights that the verifier found on any host
(`Snapshot.Sound.onward`). So an instruction about to be executed has operands of the right kind
(`Frame.Stands.applies`).
-/

namespace Interposition

variable {heights : Heights}

/-- The effect of the instruction of a frame that stands applies. -/
theorem Frame.Stands.applies {f : Frame} (hf : f.Stands heights) (hheights : heights.Sound) :
    ∃ (r : Routine) (e : Routine.Effect), r.pool = f.module.image.pool ∧ r.method = f.method ∧
      r.effect (r.offset f.position) f.instruction = .ok e := by
  rcases hf.discipline hheights with ⟨r, hpool, hmethod, -, hd⟩
  rcases hd.closed _ _ hf.height with ⟨i, e, hi, he, -⟩
  rw [hmethod] at hi
  obtain rfl := Frame.instruction_eq_of_getElem? hi
  exact ⟨r, e, hpool, hmethod, he⟩

/-! ## Handlers -/

/-- A frame that catches a failure stands. -/
theorem Frame.Fits.raise_stands {f g : Frame} {failure : Failure} (hf : f.Fits)
    (hheights : heights.Sound) (h : f.raise failure = .ok g) : g.Stands heights := by
  rcases hf.raise hheights failure with ⟨g', hg', hstands⟩ | ⟨-, hraise⟩
  · rcases Except.ok.inj (hg'.symm.trans h) with rfl
    exact hstands
  · rw [hraise] at h
    cases h

theorem unwind_stands (hheights : heights.Sound) {cs : List Caller}
    (hcs : ∀ c ∈ cs, c.Waits heights) {failure : Failure} {f : Frame} {callers : Callers}
    (h : unwind failure cs = .running f callers) : f.Stands heights ∧ callers.Wait heights := by
  induction cs generalizing failure with
  | nil => cases h
  | cons c rest ih =>
    rcases List.forall_mem_cons.1 hcs with ⟨hc, hrest⟩
    rw [unwind] at h
    split at h
    case h_1 g hraise =>
      rcases Progress.running.inj h with ⟨rfl, rfl⟩
      exact ⟨hc.toFits.raise_stands hheights hraise, hrest⟩
    case h_2 failure' hraise => exact ih hrest h

/-- An attempt goes on as it should if it loses no control. -/
def Attempt.Lands (heights : Heights) : Attempt → Prop
  | moves outcome callers => (∃ f, outcome = .ok f ∧ f.Stands heights) ∧ callers.Wait heights
  | raises _ => True
  | ends _ => True

theorem Attempt.Sound.lands {a : Attempt} (ha : a.Sound heights) : a.Lands heights := by
  cases a with
  | moves outcome callers => exact ha
  | raises failure => trivial
  | ends ending => trivial

theorem Attempt.Lands.settle {a : Attempt} {f g : Frame} {callers callers' : Callers}
    (ha : a.Lands heights) (hheights : heights.Sound) (hf : f.Fits)
    (hcallers : callers.Wait heights) (h : a.settle f callers = .running g callers') :
    g.Stands heights ∧ callers'.Wait heights := by
  cases a with
  | moves outcome waiting =>
    rcases ha with ⟨⟨g', rfl, hstands⟩, hwait⟩
    rcases Progress.running.inj h with ⟨rfl, rfl⟩
    exact ⟨hstands, hwait⟩
  | raises failure =>
    simp only [Attempt.settle] at h
    cases hraise : f.raise failure with
    | ok g' =>
      rw [hraise] at h
      rcases Progress.running.inj h with ⟨rfl, rfl⟩
      exact ⟨hf.raise_stands hheights hraise, hcallers⟩
    | error failure' =>
      rw [hraise] at h
      exact unwind_stands hheights hcallers h
  | ends ending => cases h

/-! ## Steps -/

/-- The environment with no natives on its host. -/
def Environment.bare (env : Environment) : Environment :=
  { env with host := ⟨[], env.host.fields⟩ }

/-- Without a call of a native, an attempt is the same on a host that has none. -/
theorem Snapshot.attempt_of_no_native {env : Environment} {s : Snapshot}
    (h : ∀ waiting call, s.frame.execute env.host = .ok (.call waiting call) →
      env.host.native? call.symbol = none) :
    s.attempt env = s.attempt env.bare := by
  have hbare : s.frame.execute env.bare.host = s.frame.execute env.host :=
    Frame.execute_congr rfl s.frame
  unfold Snapshot.attempt
  rw [hbare]
  cases hexecute : s.frame.execute env.host with
  | error failure => rfl
  | ok flow =>
    cases flow with
    | call waiting call =>
      simp only [attemptCall, h waiting call hexecute]
      rfl
    | _ => rfl

theorem Snapshot.Sound.lands {s : Snapshot} (hs : s.Sound heights) (hheights : heights.Sound)
    (env : Environment) :
    (s.attempt env).1.Verified ∧ (s.attempt env).2.Lands heights := by
  by_cases hnative : ∃ waiting call native,
      s.frame.execute env.host = .ok (.call waiting call) ∧
        env.host.native? call.symbol = some native
  · rcases hnative with ⟨waiting, call, native, hexecute, hnative⟩
    simp only [Snapshot.attempt, hexecute, attemptCall, hnative]
    split
    case h_1 v hanswer =>
      exact ⟨hs.machine, (hs.frame.waits hheights hexecute).advance v, hs.callers⟩
    case h_2 failure hanswer => exact ⟨hs.machine, trivial⟩
    case h_3 code hanswer => exact ⟨hs.machine, trivial⟩
  · have hnone (waiting : Frame) (call : Frame.Call)
        (hexecute : s.frame.execute env.host = .ok (.call waiting call)) :
        env.host.native? call.symbol = none := by
      cases hcalled : env.host.native? call.symbol with
      | none => rfl
      | some native => exact absurd ⟨waiting, call, native, hexecute, hcalled⟩ hnative
    rw [attempt_of_no_native hnone]
    have hhost : env.bare.host.Sound := by
      intro symbol native hlookup
      cases hlookup
    rcases attempt_sound hs hheights hhost with ⟨hm, ha⟩
    exact ⟨hm, ha.lands⟩

/-- A step on any host keeps the heights. -/
theorem Snapshot.Sound.onward {env : Environment} {s t : Snapshot} (hs : s.Sound heights)
    (hheights : heights.Sound) (h : s.Leads env t) : t.Sound heights := by
  rcases hs.lands hheights env with ⟨hm, ha⟩
  rcases h.settles with ⟨hmachine, hprogress⟩
  rcases ha.settle hheights hs.frame.toFits hs.callers hprogress with ⟨hframe, hcallers⟩
  rw [hmachine] at hm
  exact ⟨hm, hframe, hcallers⟩

end Interposition
