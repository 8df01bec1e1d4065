import Interposition.Proofs.Linking.Coherence
import Interposition.Proofs.Machine.Mirroring
import Interposition.Proofs.Machine.Pairing

/-!
# Interposition.Proofs.Machine.Lockstep — runs of redirected modules

Two machines run in lockstep when their loaders answer alike, the one with modules and the other
with modules that mirror them, and the host has one native for the source and the target of each
rule. Every step of one is a step of the other (`Snapshot.Mirrors.next`), so both runs end the same
way, after as many instructions, with the same world, and natives are handed the same arguments in
the same order (`run_mirrors`).
-/

namespace Interposition

variable {rules : RuleSet} {heights : Heights} {env : Environment}

/-- The host has the same native for the source and for the target of each rule. -/
def Host.Equates (host : Host) (rules : RuleSet) : Prop :=
  ∀ rule ∈ rules.rules, ∃ native, host.native? rule.source = some native ∧
    host.native? rule.target = some native

/-! ## Loaders -/

/-- Coherent stacks that answer alike, each at any of its levels. -/
structure Loader.Mirrors (rules : RuleSet) (k k' : Loader) : Prop where
  coherent : k.Coherent
  coherent' : k'.Coherent
  answers : ∀ level level' name,
    Alike (Module.Mirrors rules) (k.answerAt level name) (k'.answerAt level' name)

theorem Loader.Mirrors.keeps {k k' j j' : Loader} (h : k.Mirrors rules k') (hj : k.Keeps j)
    (hj' : k'.Keeps j') : j.Mirrors rules j' := by
  refine ⟨hj.coherent, hj'.coherent, ?_⟩
  intro level level' name
  rw [hj.answerAt_eq, hj'.answerAt_eq]
  exact h.answers level level' name

theorem Loader.Mirrors.resolveAt {k k' : Loader} (h : k.Mirrors rules k') (level level' : Nat)
    (name : String) :
    Alike (Module.Mirrors rules) (k.resolveAt level name).1 (k'.resolveAt level' name).1 ∧
      (k.resolveAt level name).2.Mirrors rules (k'.resolveAt level' name).2 := by
  rcases h.coherent.resolveAt level name with ⟨hkeeps, hanswer⟩
  rcases h.coherent'.resolveAt level' name with ⟨hkeeps', hanswer'⟩
  rw [hanswer, hanswer']
  exact ⟨h.answers level level' name, h.keeps hkeeps hkeeps'⟩

/-! ## Machines -/

/-- Machines in the same world, at the same count, with loaders that answer alike. -/
structure Machine.Mirrors (rules : RuleSet) (m m' : Machine) : Prop where
  executed_eq : m'.executed = m.executed
  world_eq : m'.world = m.world
  loaders : Option.Rel (Loader.Mirrors rules) m.loader m'.loader

/-- Machines in lockstep, each in the middle of its run. -/
structure Snapshot.Mirrors (rules : RuleSet) (s s' : Snapshot) : Prop where
  machine : s.machine.Mirrors rules s'.machine
  frame : s.frame.Mirrors rules s'.frame
  callers : s.callers.Paired (Frame.Mirrors rules) s'.callers

/-! ## Steps -/

/-- Frames that mirror each other keep doing so, with the same values. -/
theorem Frame.Mirrors.pairing (rules : RuleSet) : Pairing (Frame.Mirrors rules) (· = ·) where
  place_eq := place_eq
  push := by
    rintro f f' v _ h rfl
    exact h.push v
  advance := advance
  raise := raise

/-- The same call is linked alike through loaders that answer alike. -/
theorem link_mirrors (env : Environment) {m m' : Machine} {caller caller' : Module}
    (hm : m.Mirrors rules m') (hcaller : caller.Mirrors rules caller') (call : Frame.Call)
    (depth : Nat) :
    Alike (Frame.Mirrors rules) (link env m caller call depth).1
        (link env m' caller' call depth).1 ∧
      (link env m caller call depth).2.Mirrors rules (link env m' caller' call depth).2 := by
  rcases hcaller.levels with ⟨level, level', hlevel, hlevel'⟩
  rcases m with ⟨_, loader, _⟩
  rcases m' with ⟨executed, loader', world⟩
  rcases hm with ⟨rfl, rfl, hloaders⟩
  cases hloaders with
  | none =>
    simp only [link, hcaller.name_eq]
    exact ⟨.error _, rfl, rfl, .none⟩
  | @some k k' hk =>
    have hresolved := hk.resolveAt level level' call.symbol.owner
    simp only [link, hlevel, hlevel']
    generalize k.resolveAt level call.symbol.owner = found,
      k'.resolveAt level' call.symbol.owner = found' at hresolved
    rcases found with ⟨answer, j⟩
    rcases found' with ⟨answer', j'⟩
    rcases hresolved with ⟨hanswer, hj⟩
    have hmachine : Machine.Mirrors rules ⟨executed, some j, world⟩ ⟨executed, some j', world⟩ :=
      ⟨rfl, rfl, .some hj⟩
    cases hanswer with
    | error e => cases e <;> exact ⟨.error _, hmachine⟩
    | @ok target target' htarget =>
      have hkind : (fun index : Nat => target'.image.methods[index]?.any fun method =>
            method.isStatic == call.symbol.isStatic) =
          fun index : Nat => target.image.methods[index]?.any fun method =>
            method.isStatic == call.symbol.isStatic :=
        funext fun index => htarget.any_isStatic (· == call.symbol.isStatic) index
      simp only [htarget.findMethod?_eq, hkind]
      split
      · exact ⟨.error _, hmachine⟩
      · split
        · exact ⟨.error _, hmachine⟩
        · exact ⟨htarget.enter _ call.args, hmachine⟩

/-! ### Calls -/

/-- Two outcomes of a step in lockstep. -/
def Stepped (rules : RuleSet) (x x' : Machine × Progress) : Prop :=
  x.1.Mirrors rules x'.1 ∧ x.2.Paired (Frame.Mirrors rules) (· = ·) x'.2

/-- A call that is not the same in both machines has one native in both. -/
theorem Frame.Call.Mirrors.native?_cases {c c' : Frame.Call} (h : c.Mirrors rules c')
    (hhost : env.host.Equates rules) :
    (∃ native, env.host.native? c.symbol = some native ∧
        env.host.native? c'.symbol = some native) ∨
      env.host.native? c.symbol = none ∧ c' = c := by
  cases h with
  | same =>
    cases hnative : env.host.native? c.symbol with
    | none => exact Or.inr ⟨rfl, rfl⟩
    | some native => exact Or.inl ⟨native, rfl, rfl⟩
  | redirected hrule hsource htarget hargs =>
    rcases hhost _ hrule with ⟨native, hnative, hnative'⟩
    rw [hsource, htarget]
    exact Or.inl ⟨native, hnative, hnative'⟩

theorem perform_mirrors {m m' : Machine} {before before' waiting waiting' : Frame}
    {c c' : Frame.Call} {cs cs' : Callers} (hhost : env.host.Equates rules)
    (hm : m.Mirrors rules m') (hbefore : before.Mirrors rules before')
    (hwaiting : waiting.Mirrors rules waiting') (hcall : c.Mirrors rules c')
    (hcs : cs.Paired (Frame.Mirrors rules) cs') :
    Stepped rules (perform env m before waiting c cs) (perform env m' before' waiting' c' cs') := by
  have hpairing := Frame.Mirrors.pairing rules
  unfold perform
  rcases hcall.native?_cases hhost with ⟨native, hnative, hnative'⟩ | ⟨hnone, rfl⟩
  · -- One native gets the same operands in the same world.
    rw [hnative, hnative']
    simp only [hcall.args_eq, hm.world_eq, hcall.keepsResult_eq]
    generalize native c.args m.world = answered
    rcases answered with ⟨answer, world⟩
    have hmachine : Machine.Mirrors rules { m with world } { m' with world } :=
      ⟨hm.executed_eq, rfl, hm.loaders⟩
    cases answer with
    | value v => exact ⟨hmachine, hpairing.proceed hcs (hpairing.resume hwaiting rfl _)⟩
    | failure failure => exact ⟨hmachine, hpairing.proceed hcs (hbefore.raise failure)⟩
    | exit code => exact ⟨hmachine, .ended (.exited code)⟩
  · rw [hnone]
    have hlinked := link_mirrors env hm hbefore.module c' (cs.depth + 1)
    simp only [hcs.depth_eq]
    generalize link env m before.module c' (cs.depth + 1) = linked,
      link env m' before'.module c' (cs.depth + 1) = linked' at hlinked
    rcases linked with ⟨entered, j⟩
    rcases linked' with ⟨entered', j'⟩
    rcases hlinked with ⟨hentered, hmachine⟩
    cases hentered with
    | ok hf => exact ⟨hmachine, .running hf (.cons ⟨hwaiting, rfl⟩ hcs)⟩
    | error failure => exact ⟨hmachine, hpairing.proceed hcs (hbefore.raise failure)⟩

namespace Snapshot

variable {s s' : Snapshot}

/-- Machines in lockstep take the same step. -/
theorem Mirrors.next (h : s.Mirrors rules s') (hs : s.Sound heights) (hheights : heights.Sound)
    (hstatic : ∀ rule ∈ rules.rules, rule.source.kind = .static)
    (hhost : env.host.Equates rules) : Stepped rules (s.next env) (s'.next env) := by
  have hpairing := Frame.Mirrors.pairing rules
  have hexecute := h.frame.execute hs.frame hheights hstatic env.host
  have hm : Machine.Mirrors rules { s.machine with executed := s.machine.executed + 1 }
      { s'.machine with executed := s'.machine.executed + 1 } := by
    refine ⟨?_, h.machine.world_eq, h.machine.loaders⟩
    exact congrArg (· + 1) h.machine.executed_eq
  unfold Snapshot.next step
  generalize s.frame.execute env.host = outcome, s'.frame.execute env.host = outcome' at hexecute
  cases hexecute with
  | error failure => exact ⟨hm, hpairing.proceed h.callers (h.frame.raise failure)⟩
  | ok hflow =>
    cases hflow with
    | next hf => exact ⟨hm, hpairing.proceed h.callers hf.advance⟩
    | jump hf target => exact ⟨hm, hpairing.proceed h.callers (hf.jump target)⟩
    | ret value => exact ⟨hm, hpairing.giveBack h.callers rfl⟩
    | allocate hf typeName =>
      rw [h.machine.world_eq]
      exact ⟨⟨hm.executed_eq, rfl, hm.loaders⟩,
        hpairing.proceed h.callers (hf.push _).advance⟩
    | call hf hcall => exact perform_mirrors hhost hm h.frame hf hcall h.callers

/-! ## Natives -/

/-- The arguments that the next instruction hands to a native, if it calls one. -/
def handed? (env : Environment) (s : Snapshot) : Option (List Value) :=
  match s.frame.execute env.host with
  | .ok (.call _ call) => (env.host.native? call.symbol).map fun _ => call.args
  | _ => none

/-- The arguments that natives are handed in the next `fuel` instructions, in order. -/
def handed (env : Environment) : Nat → Snapshot → List (List Value)
  | 0, _ => []
  | fuel + 1, s =>
    let later :=
      match s.next env with
      | (m, .running f callers) => handed env fuel ⟨m, f, callers⟩
      | (_, .ended _) => []
    (s.handed? env).toList ++ later

theorem Mirrors.handed?_eq (h : s.Mirrors rules s') (hs : s.Sound heights)
    (hheights : heights.Sound) (hstatic : ∀ rule ∈ rules.rules, rule.source.kind = .static)
    (hhost : env.host.Equates rules) : s'.handed? env = s.handed? env := by
  have hexecute := h.frame.execute hs.frame hheights hstatic env.host
  unfold handed?
  generalize s.frame.execute env.host = outcome, s'.frame.execute env.host = outcome' at hexecute
  cases hexecute with
  | error failure => rfl
  | ok hflow =>
    cases hflow with
    | call hf hcall =>
      rcases hcall.native?_cases hhost with ⟨native, hnative, hnative'⟩ | ⟨hnone, rfl⟩
      · simp only [hnative, hnative', hcall.args_eq, Option.map_some]
      · rfl
    | _ => rfl

end Snapshot

/-! ## Runs -/

/-- Machines in lockstep run to the same end. -/
theorem run_mirrors {fuel : Nat} {s s' : Snapshot} (h : s.Mirrors rules s')
    (hs : s.Sound heights) (hheights : heights.Sound)
    (hstatic : ∀ rule ∈ rules.rules, rule.source.kind = .static)
    (hhost : env.host.Equates rules) :
    (run env fuel s.machine s.frame s.callers).1.Mirrors rules
        (run env fuel s'.machine s'.frame s'.callers).1 ∧
      (run env fuel s'.machine s'.frame s'.callers).2 =
        (run env fuel s.machine s.frame s.callers).2 ∧
      s'.handed env fuel = s.handed env fuel := by
  induction fuel generalizing s s' with
  | zero =>
    refine ⟨h.machine, ?_, rfl⟩
    rw [run, run, h.machine.executed_eq,
      (Frame.Mirrors.pairing rules).abandon_eq h.frame h.callers]
  | succ fuel ih =>
    have hstep : Stepped rules (s.next env) (s'.next env) := h.next hs hheights hstatic hhost
    have hhanded := h.handed?_eq hs hheights hstatic hhost
    rw [run, run, Snapshot.handed, Snapshot.handed, hhanded]
    cases hnext : s.next env with
    | mk m progress =>
      cases hnext' : s'.next env with
      | mk m' progress' =>
        rw [hnext, hnext'] at hstep
        rcases hstep with ⟨hm, hprogress⟩
        unfold Snapshot.next at hnext hnext'
        rw [hnext, hnext']
        cases hprogress with
        | ended hending => exact ⟨hm, hending.eq.symm, rfl⟩
        | @running f f' cs cs' hf hcs =>
          have hleads : s.Leads env ⟨m, f, cs⟩ := hnext
          have hlater : Snapshot.Mirrors rules ⟨m, f, cs⟩ ⟨m', f', cs'⟩ := ⟨hm, hf, hcs⟩
          rcases ih hlater (hs.onward hheights hleads) with ⟨hmachine, hending, hnatives⟩
          exact ⟨hmachine, hending, congrArg _ hnatives⟩

/-- The arguments that natives are handed in a call, in order. -/
def Machine.handed (env : Environment) (m : Machine) (target : Module) (index : Nat)
    (args : List Value) : List (List Value) :=
  if env.limits.maxCallDepth = 0 then []
  else
    match Frame.enter target index args with
    | .error _ => []
    | .ok frame => Snapshot.handed env (env.limits.fuel - m.executed) ⟨m, frame, .empty⟩

/-- A method and the one in its place are called to the same end, if the frame of the method
stands. -/
theorem Machine.call_mirrors {m m' : Machine} {target target' : Module} {index : Nat}
    {args : List Value} (hm : m.Mirrors rules m') (htarget : target.Mirrors rules target')
    (hverified : m.Verified)
    (hstands : ∀ f, Frame.enter target index args = .ok f → f.Stands heights)
    (hheights : heights.Sound) (hstatic : ∀ rule ∈ rules.rules, rule.source.kind = .static)
    (hhost : env.host.Equates rules) :
    (m.call env target index args).1.Mirrors rules (m'.call env target' index args).1 ∧
      (m'.call env target' index args).2 = (m.call env target index args).2 ∧
      m'.handed env target' index args = m.handed env target index args := by
  unfold Machine.call Machine.handed
  by_cases hdepth : env.limits.maxCallDepth = 0
  · simp only [if_pos hdepth, and_true]
    exact hm
  · simp only [if_neg hdepth, hm.executed_eq]
    have henter := htarget.enter index args
    generalize hentered : Frame.enter target index args = outcome,
      Frame.enter target' index args = outcome' at henter
    cases henter with
    | error failure => exact ⟨hm, rfl, rfl⟩
    | @ok f f' hf =>
      have hlockstep : Snapshot.Mirrors rules ⟨m, f, .empty⟩ ⟨m', f', .empty⟩ := ⟨hm, hf, .nil⟩
      have hsound : Snapshot.Sound heights ⟨m, f, .empty⟩ :=
        ⟨hverified, hstands f hentered, by simp [Callers.Wait, Callers.empty]⟩
      exact run_mirrors hlockstep hsound hheights hstatic hhost

end Interposition
