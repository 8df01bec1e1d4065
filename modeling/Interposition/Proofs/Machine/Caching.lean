import Interposition.Proofs.Linking.Coherence
import Interposition.Proofs.Machine.Renaming
import Interposition.Proofs.Machine.Trace

/-!
# Interposition.Proofs.Machine.Caching — runs do not see what has been loaded

Two machines in activations that are the same up to the identities of objects, on two states of one
stack of loaders, take the same steps (`Snapshot.Twins.next`): whatever a call is linked to, each
stack answers with it, be it there already or not. They may also be in two worlds, if natives and
the making of objects treat the two alike. So they run to the same end, up to the identities of the
objects in it (`run_twins`), if what the instructions on the way show of objects is the same in both
worlds.
-/

namespace Interposition

/-! ## Loaders -/

/-- Two states of one stack. -/
structure Loader.Twins (k k' : Loader) : Prop where
  coherent : k.Coherent
  keeps : k.Keeps k'

namespace Loader.Twins

variable {k k' : Loader}

theorem of_keeps {l : Loader} (h : l.Keeps k) (h' : l.Keeps k') : k.Twins k' :=
  ⟨h.coherent, h'.coherent, h'.fresh_eq.trans h.fresh_eq.symm⟩

theorem onward (h : k.Twins k') {j j' : Loader} (hj : k.Keeps j) (hj' : k'.Keeps j') :
    j.Twins j' :=
  of_keeps hj (h.keeps.trans hj')

theorem resolve (h : k.Twins k') (name : String) :
    (k'.resolve name).1 = (k.resolve name).1 ∧ (k.resolve name).2.Twins (k'.resolve name).2 := by
  rcases h.coherent.resolve name with ⟨hkeeps, hanswer⟩
  rcases h.keeps.coherent.resolve name with ⟨hkeeps', hanswer'⟩
  rw [hanswer, hanswer', h.keeps.answer_eq]
  exact ⟨rfl, h.onward hkeeps hkeeps'⟩

theorem resolveAt (h : k.Twins k') (level : Nat) (name : String) :
    (k'.resolveAt level name).1 = (k.resolveAt level name).1 ∧
      (k.resolveAt level name).2.Twins (k'.resolveAt level name).2 := by
  rcases h.coherent.resolveAt level name with ⟨hkeeps, hanswer⟩
  rcases h.keeps.coherent.resolveAt level name with ⟨hkeeps', hanswer'⟩
  rw [hanswer, hanswer', h.keeps.answerAt_eq]
  exact ⟨rfl, h.onward hkeeps hkeeps'⟩

end Loader.Twins

/-! ## Worlds -/

/-- The same answer, up to the identity of an object. -/
inductive Answer.Renamed (ρ : Renaming) : Answer → Answer → Prop
  | value {v v' : Value} (h : v.Renamed ρ v') : Renamed ρ (.value v) (.value v')
  | failure (failure : Failure) : Renamed ρ (.failure failure) (.failure failure)
  | exit (code : Int32) : Renamed ρ (.exit code) (.exit code)

/-- A native answers the same, up to renaming, in related worlds. -/
def Native.Overlooks (native : Native) (ρ : Renaming) (R : World → World → Prop) : Prop :=
  ∀ args args' w w', Value.RenamedAll ρ args args' → R w w' →
    (native args w).1.Renamed ρ (native args' w').1 ∧ R (native args w).2 (native args' w').2

/-- Related worlds are treated alike by the natives of a host, and by the making of objects. What is
in fields is the same in both. -/
structure Host.Overlooks (host : Host) (ρ : Renaming) (R : World → World → Prop) : Prop where
  native : ∀ symbol native, host.native? symbol = some native → native.Overlooks ρ R
  fields : host.FieldsStay ρ
  allocate : ∀ typeName w w', R w w' →
    (w.allocate typeName).1.Renamed ρ (w'.allocate typeName).1 ∧
      R (w.allocate typeName).2 (w'.allocate typeName).2

/-- In one world, all natives do. -/
theorem Host.overlooks_eq (host : Host) : host.Overlooks .same (· = ·) where
  native := by
    rintro _ native _ args args' w _ hargs rfl
    obtain rfl := Value.renamedAll_same_iff.1 hargs
    refine ⟨?_, rfl⟩
    cases (native args w).1 with
    | value v => exact .value (Value.renamed_same_iff.2 rfl)
    | failure failure => exact .failure failure
    | exit code => exact .exit code
  fields := fun _ _ _ _ => Value.renamed_same_iff.2 rfl
  allocate := by
    rintro _ w _ rfl
    exact ⟨Value.renamed_same_iff.2 rfl, rfl⟩

/-! ## Machines -/

variable {env : Environment} {ρ : Renaming} {R : World → World → Prop} {m m' : Machine}

/-- Two machines that have come equally far, on two states of one stack and in related worlds. -/
structure Machine.Twins (R : World → World → Prop) (m m' : Machine) : Prop where
  executed_eq : m'.executed = m.executed
  worlds : R m.world m'.world
  loaders : Option.Rel Loader.Twins m.loader m'.loader

/-- Two machines in the middle of their runs, in frames that are the same up to renaming. -/
structure Snapshot.Twins (ρ : Renaming) (R : World → World → Prop) (s s' : Snapshot) : Prop where
  machine : s.machine.Twins R s'.machine
  frame : s.frame.Renamed ρ s'.frame
  callers : s.callers.Paired (Frame.Renamed ρ) s'.callers

/-- Two outcomes of a step of twins. -/
def Twinned (ρ : Renaming) (R : World → World → Prop) (x x' : Machine × Progress) : Prop :=
  x.1.Twins R x'.1 ∧ x.2.Paired (Frame.Renamed ρ) (Value.Renamed ρ) x'.2

theorem link_twins (env : Environment) (hm : m.Twins R m') (caller : Module)
    {call call' : Frame.Call} (hcall : call.Renamed ρ call') (depth : Nat) :
    Alike (Frame.Renamed ρ) (link env m caller call depth).1 (link env m' caller call' depth).1 ∧
      (link env m caller call depth).2.Twins R (link env m' caller call' depth).2 := by
  rcases m with ⟨_, loader, world⟩
  rcases m' with ⟨executed, loader', world'⟩
  rcases hm with ⟨rfl, hworlds, hloaders⟩
  cases hloaders with
  | none =>
    simp only [link, hcall.symbol_eq]
    exact ⟨.error _, rfl, hworlds, .none⟩
  | @some k k' hk =>
    cases hlevel : caller.level with
    | none =>
      simp only [link, hlevel, hcall.symbol_eq]
      exact ⟨.error _, rfl, hworlds, .some hk⟩
    | some level =>
      rcases hk.resolveAt level call.symbol.owner with ⟨hanswer, hj⟩
      have hmachine : Machine.Twins R
          ⟨executed, some (k.resolveAt level call.symbol.owner).2, world⟩
          ⟨executed, some (k'.resolveAt level call.symbol.owner).2, world'⟩ :=
        ⟨rfl, hworlds, .some hj⟩
      simp only [link, hlevel, hcall.symbol_eq, hcall.descriptor_eq, hanswer]
      -- The two machines are asked the same from here on.
      split
      · exact ⟨.error _, hmachine⟩
      · exact ⟨.error _, hmachine⟩
      · split
        · exact ⟨.error _, hmachine⟩
        · split
          · exact ⟨.error _, hmachine⟩
          · exact ⟨Frame.enter_renamed _ _ hcall.args, hmachine⟩

theorem perform_twins (hhost : env.host.Overlooks ρ R) (hm : m.Twins R m')
    {before before' waiting waiting' : Frame} {call call' : Frame.Call} {cs cs' : Callers}
    (hbefore : before.Renamed ρ before') (hwaiting : waiting.Renamed ρ waiting')
    (hcall : call.Renamed ρ call') (hcs : cs.Paired (Frame.Renamed ρ) cs') :
    Twinned ρ R (perform env m before waiting call cs)
      (perform env m' before' waiting' call' cs') := by
  have hpairing := Frame.Renamed.pairing ρ
  unfold perform
  rw [hcall.symbol_eq]
  cases hnative : env.host.native? call.symbol with
  | some native =>
    have hanswered := hhost.native _ native hnative _ _ _ _ hcall.args hm.worlds
    simp only [hcall.keepsResult_eq]
    generalize native call.args m.world = answered, native call'.args m'.world = answered'
      at hanswered
    rcases answered with ⟨answer, world⟩
    rcases answered' with ⟨answer', world'⟩
    rcases hanswered with ⟨hanswer, hworlds⟩
    have hmachine : Machine.Twins R { m with world } { m' with world := world' } :=
      ⟨hm.executed_eq, hworlds, hm.loaders⟩
    cases hanswer with
    | value hv => exact ⟨hmachine, hpairing.proceed hcs (hpairing.resume hwaiting hv _)⟩
    | failure failure => exact ⟨hmachine, hpairing.proceed hcs (hbefore.raise failure)⟩
    | exit code => exact ⟨hmachine, .ended (.exited code)⟩
  | none =>
    have hlinked := link_twins env hm before.module hcall (cs.depth + 1)
    simp only [hcs.depth_eq, hbefore.module_eq]
    generalize link env m before.module call (cs.depth + 1) = linked,
      link env m' before.module call' (cs.depth + 1) = linked' at hlinked
    rcases linked with ⟨entered, j⟩
    rcases linked' with ⟨entered', j'⟩
    rcases hlinked with ⟨hentered, hmachine⟩
    cases hentered with
    | ok hf => exact ⟨hmachine, .running hf (.cons ⟨hwaiting, hcall.keepsResult_eq⟩ hcs)⟩
    | error failure => exact ⟨hmachine, hpairing.proceed hcs (hbefore.raise failure)⟩

namespace Snapshot

variable {s s' : Snapshot}

/-- Twins take the same step. -/
theorem Twins.next (h : s.Twins ρ R s') (hhost : env.host.Overlooks ρ R)
    (hdiscreet : s.frame.Discreet ρ) : Twinned ρ R (s.next env) (s'.next env) := by
  have hpairing := Frame.Renamed.pairing ρ
  have hexecute := h.frame.execute hhost.fields hdiscreet
  have hm : Machine.Twins R { s.machine with executed := s.machine.executed + 1 }
      { s'.machine with executed := s'.machine.executed + 1 } :=
    ⟨congrArg (· + 1) h.machine.executed_eq, h.machine.worlds, h.machine.loaders⟩
  unfold Snapshot.next step
  generalize s.frame.execute env.host = outcome, s'.frame.execute env.host = outcome' at hexecute
  cases hexecute with
  | error failure => exact ⟨hm, hpairing.proceed h.callers (h.frame.raise failure)⟩
  | ok hflow =>
    cases hflow with
    | next hf => exact ⟨hm, hpairing.proceed h.callers hf.advance⟩
    | jump hf target => exact ⟨hm, hpairing.proceed h.callers (hf.jump target)⟩
    | ret hv => exact ⟨hm, hpairing.giveBack h.callers hv⟩
    | allocate hf typeName =>
      rcases hhost.allocate typeName _ _ h.machine.worlds with ⟨hobject, hworlds⟩
      exact ⟨⟨hm.executed_eq, hworlds, hm.loaders⟩,
        hpairing.proceed h.callers (hf.push hobject).advance⟩
    | call hf hcall => exact perform_twins hhost hm h.frame hf hcall h.callers

end Snapshot

/-- Twins run to the same end. -/
theorem run_twins (hhost : env.host.Overlooks ρ R) {fuel : Nat} {s s' : Snapshot}
    (h : s.Twins ρ R s') (hdiscreet : ∀ t ∈ s.trace env fuel, t.frame.Discreet ρ) :
    (run env fuel s.machine s.frame s.callers).1.Twins R
        (run env fuel s'.machine s'.frame s'.callers).1 ∧
      (run env fuel s.machine s.frame s.callers).2.Paired (Value.Renamed ρ)
        (run env fuel s'.machine s'.frame s'.callers).2 := by
  induction fuel generalizing s s' with
  | zero =>
    rw [run, run, h.machine.executed_eq,
      (Frame.Renamed.pairing ρ).abandon_eq h.frame h.callers]
    exact ⟨h.machine, .failed _⟩
  | succ fuel ih =>
    rw [Snapshot.trace] at hdiscreet
    have hstep : Twinned ρ R (s.next env) (s'.next env) :=
      h.next hhost (hdiscreet s List.mem_cons_self)
    rw [run, run]
    cases hnext : s.next env with
    | mk m progress =>
      cases hnext' : s'.next env with
      | mk m' progress' =>
        rw [hnext, hnext'] at hstep
        rw [hnext] at hdiscreet
        rcases hstep with ⟨hm, hprogress⟩
        unfold Snapshot.next at hnext hnext'
        rw [hnext, hnext']
        cases hprogress with
        | ended hending => exact ⟨hm, hending⟩
        | @running f f' cs cs' hf hcs =>
          have hlater : Snapshot.Twins ρ R ⟨m, f, cs⟩ ⟨m', f', cs'⟩ := ⟨hm, hf, hcs⟩
          exact ih hlater fun t ht => hdiscreet t (List.mem_cons_of_mem _ ht)

theorem Machine.call_twins (hhost : env.host.Overlooks ρ R) (hm : m.Twins R m') (target : Module)
    (index : Nat) {args args' : List Value} (hargs : Value.RenamedAll ρ args args')
    (hdiscreet : ∀ t ∈ m.trace env target index args, t.frame.Discreet ρ) :
    (m.call env target index args).1.Twins R (m'.call env target index args').1 ∧
      (m.call env target index args).2.Paired (Value.Renamed ρ)
        (m'.call env target index args').2 := by
  unfold Machine.trace Machine.start at hdiscreet
  unfold Machine.call
  split
  · exact ⟨hm, .failed _⟩
  · rename_i hdepth
    rw [if_neg hdepth] at hdiscreet
    have henter := Frame.enter_renamed target index hargs
    generalize Frame.enter target index args = entered,
      Frame.enter target index args' = entered' at henter hdiscreet
    cases henter with
    | error failure => exact ⟨hm, .failed failure⟩
    | @ok f f' hf =>
      have htwins : Snapshot.Twins ρ R ⟨m, f, .empty⟩ ⟨m', f', .empty⟩ := ⟨hm, hf, .nil⟩
      rw [hm.executed_eq]
      exact run_twins hhost htwins hdiscreet

end Interposition
