import Interposition.Proofs.Machine.Course
import Interposition.Proofs.Machine.Execution

/-!
# Interposition.Proofs.Machine.Confinement — what a run can come to execute

Control goes to another module only where a call is linked, and what is linked is what the
loader answers the caller with. So a property of modules that loaders keep up holds of every
module a run executes (`Snapshot.Reaches.confined`), and the loaders a run leaves behind are
those it may come to (`Machine.call_confined`).

Of the natives of a host a run sees those it calls. If it never calls a symbol, it is the same
whatever native the host has for it (`Machine.call_agrees`).
-/

namespace Interposition

/-- A property of modules and one of loaders such that loaders answer the modules with modules
that have the property again, and keep their own. -/
structure Confinement where
  modules : Module → Prop
  loaders : Loader → Prop
  closed : ∀ (loader : Loader) (caller : Module) (level : Nat) (name : String),
    loaders loader → modules caller → caller.level = some level →
      loaders (loader.resolveAt level name).2 ∧
        ∀ m, (loader.resolveAt level name).1 = .ok m → modules m

/-! ## Frames keep their method -/

namespace Frame

/-- Frames of the same method. -/
structure SameMethod (f g : Frame) : Prop where
  module_eq : g.module = f.module
  index_eq : g.index = f.index

namespace SameMethod

variable {f g k : Frame}

theorem trans (hfg : f.SameMethod g) (hgk : g.SameMethod k) : f.SameMethod k :=
  ⟨hgk.module_eq.trans hfg.module_eq, hgk.index_eq.trans hfg.index_eq⟩

theorem of_stays (h : f.Stays g) : f.SameMethod g :=
  ⟨h.module_eq, h.index_eq⟩

theorem of_moveTo {position : Nat} (h : f.moveTo position = .ok g) : f.SameMethod g := by
  unfold moveTo at h
  split at h
  · obtain rfl := Except.ok.inj h
    exact ⟨rfl, rfl⟩
  · cases h

theorem of_jump {target : UInt32} (h : f.jump target = .ok g) : f.SameMethod g := by
  unfold jump at h
  split at h
  · exact of_moveTo h
  · cases h

/-- A handler is in the method of the frame that catches. -/
theorem of_raise {failure : Failure} (h : f.raise failure = .ok g) : f.SameMethod g := by
  cases hcatches : f.catches failure with
  | true =>
    rcases raise_of_catches hcatches with ⟨handler, -, -, hraise⟩
    rw [hraise] at h
    rcases of_jump h with ⟨hmodule, hindex⟩
    exact ⟨hmodule, hindex⟩
  | false =>
    rw [raise_of_not_catches hcatches] at h
    cases h

end SameMethod

variable {m : Module} {index : Nat} {args : List Value} {f : Frame}

/-- A frame that is entered is of the method that was asked for. -/
theorem enter_method (h : enter m index args = .ok f) : f.module = m ∧ f.index = index := by
  cases hmethod : m.image.methods[index]? with
  | none =>
    rw [enter_of_none hmethod] at h
    cases h
  | some method =>
    rw [enter_of_some hmethod] at h
    split at h
    case isTrue => cases h
    case isFalse =>
      split at h
      case isTrue =>
        obtain rfl := Except.ok.inj h
        exact ⟨rfl, rfl⟩
      case isFalse => cases h

theorem enter_module (h : enter m index args = .ok f) : f.module = m :=
  (enter_method h).1

theorem enter_index (h : enter m index args = .ok f) : f.index = index :=
  (enter_method h).2

end Frame

/-! ## Steps -/

variable {c : Confinement}

def Machine.Confined (c : Confinement) (m : Machine) : Prop :=
  ∀ loader, m.loader = some loader → c.loaders loader

def Callers.Confined (c : Confinement) (cs : Callers) : Prop :=
  ∀ caller ∈ cs.list, c.modules caller.frame.module

/-- What an instruction comes to if it stays among the modules of a confinement. -/
def Attempt.Confined (c : Confinement) : Attempt → Prop
  | moves outcome callers =>
    (∀ f, outcome = .ok f → c.modules f.module) ∧ callers.Confined c
  | raises _ => True
  | ends _ => True

/-- What comes after a step that stays among the modules of a confinement. -/
def Progress.Confined (c : Confinement) : Progress → Prop
  | running f callers => c.modules f.module ∧ callers.Confined c
  | ended _ => True

/-- All frames are of modules of a confinement, and so are the loaders. -/
structure Snapshot.Confined (c : Confinement) (s : Snapshot) : Prop where
  machine : s.machine.Confined c
  frame : c.modules s.frame.module
  callers : s.callers.Confined c

theorem unwind_confined {cs : List Caller} (hcs : ∀ caller ∈ cs, c.modules caller.frame.module)
    (failure : Failure) : (unwind failure cs).Confined c := by
  induction cs generalizing failure with
  | nil => trivial
  | cons caller rest ih =>
    rcases List.forall_mem_cons.1 hcs with ⟨hcaller, hrest⟩
    rw [unwind]
    split
    case h_1 g hraise =>
      have hmodule := (Frame.SameMethod.of_raise hraise).module_eq
      exact ⟨by rwa [hmodule], hrest⟩
    case h_2 failure' hraise => exact ih hrest failure'

theorem proceed_confined {callers : Callers} {outcome : Except Failure Frame}
    (hcallers : callers.Confined c) (houtcome : ∀ f, outcome = .ok f → c.modules f.module) :
    (proceed callers outcome).Confined c := by
  cases outcome with
  | ok f => exact ⟨houtcome f rfl, hcallers⟩
  | error failure => exact unwind_confined hcallers failure

theorem Attempt.Confined.settle {a : Attempt} {f : Frame} {callers : Callers}
    (ha : a.Confined c) (hf : c.modules f.module) (hcallers : callers.Confined c) :
    (a.settle f callers).Confined c := by
  cases a with
  | moves outcome callers' => exact proceed_confined ha.2 ha.1
  | raises failure =>
    refine proceed_confined hcallers ?_
    intro g hraise
    rwa [(Frame.SameMethod.of_raise hraise).module_eq]
  | ends ending => trivial

/-- A linked call enters a module that the loader answers its caller with. -/
theorem link_confined (env : Environment) {m : Machine} {caller : Module} (call : Frame.Call)
    (depth : Nat) (hm : m.Confined c) (hcaller : c.modules caller) :
    (link env m caller call depth).2.Confined c ∧
      ∀ f, (link env m caller call depth).1 = .ok f → c.modules f.module := by
  rcases link_cases env m caller call depth with
    ⟨failure, hlink, -⟩ | ⟨loader, level, hloader, hlevel, hmachine, hanswer⟩
  · rw [hlink]
    exact ⟨hm, by simp⟩
  · rcases c.closed loader caller level call.symbol.owner (hm loader hloader) hcaller hlevel with
      ⟨hstays, hresolved⟩
    refine ⟨?_, ?_⟩
    · rw [hmachine]
      rintro _ ⟨⟩
      exact hstays
    · intro f hf
      rcases hanswer with ⟨failure, hfailure, -⟩ | ⟨target, index, htarget, -, henter⟩
      · rw [hfailure] at hf
        cases hf
      · rw [Frame.enter_module (henter.symm.trans hf)]
        exact hresolved target htarget

theorem Callers.Confined.receive {cs : Callers} (hcs : cs.Confined c) (value : Value) :
    (cs.receive value).Confined c := by
  unfold Callers.receive
  split
  case h_1 => trivial
  case h_2 caller rest hpop =>
    rw [Callers.Confined, Callers.list_of_pop? hpop] at hcs
    rcases List.forall_mem_cons.1 hcs with ⟨hcaller, hrest⟩
    refine ⟨?_, hrest⟩
    intro g hadvance
    rw [(Frame.SameMethod.of_moveTo hadvance).module_eq]
    split
    · exact hcaller
    · exact hcaller

theorem attemptCall_confined {env : Environment} {m : Machine} {s : Snapshot} {waiting : Frame}
    {call : Frame.Call} (hs : s.Confined c) (hm : m.Confined c)
    (hwaiting : c.modules waiting.module) :
    (attemptCall env m s waiting call).1.Confined c ∧
      (attemptCall env m s waiting call).2.Confined c := by
  unfold attemptCall
  split
  case h_1 native hnative =>
    dsimp only
    split
    case h_1 v hanswer =>
      refine ⟨hm, ?_, hs.callers⟩
      intro g hadvance
      rw [(Frame.SameMethod.of_moveTo hadvance).module_eq]
      split
      · exact hwaiting
      · exact hwaiting
    case h_2 failure hanswer => exact ⟨hm, trivial⟩
    case h_3 code hanswer => exact ⟨hm, trivial⟩
  case h_2 =>
    rcases link_confined env call (s.callers.depth + 1) hm hs.frame with ⟨hlinked, hentered⟩
    dsimp only
    split
    case h_1 f hf =>
      refine ⟨hlinked, ?_, List.forall_mem_cons.2 ⟨hwaiting, hs.callers⟩⟩
      rintro _ ⟨⟩
      exact hentered f hf
    case h_2 failure hfailure => exact ⟨hlinked, trivial⟩

theorem Snapshot.Confined.attempt {s : Snapshot} (hs : s.Confined c) (env : Environment) :
    (s.attempt env).1.Confined c ∧ (s.attempt env).2.Confined c := by
  have hadvance {f g : Frame} (hstays : s.frame.Stays f) (h : f.advance = .ok g) :
      c.modules g.module := by
    rw [(Frame.SameMethod.of_moveTo h).module_eq, hstays.module_eq]
    exact hs.frame
  unfold Snapshot.attempt
  cases hexecute : s.frame.execute env.host with
  | error failure => exact ⟨hs.machine, trivial⟩
  | ok flow =>
    have hof := Frame.execute_of hexecute
    cases flow with
    | next f => exact ⟨hs.machine, fun g h => hadvance hof.1 h, hs.callers⟩
    | jump f target =>
      refine ⟨hs.machine, ?_, hs.callers⟩
      intro g hjump
      rw [(Frame.SameMethod.of_jump hjump).module_eq, hof.1.module_eq]
      exact hs.frame
    | ret value => exact ⟨hs.machine, hs.callers.receive value⟩
    | allocate f typeName =>
      exact ⟨hs.machine, fun g h => hadvance (hof.1.push _) h, hs.callers⟩
    | call waiting call =>
      rcases hof with ⟨kind, index, -, hcall⟩
      -- The frame that waits is the frame that calls, with its operands taken.
      have hwaiting : c.modules waiting.module := by
        rw [(Frame.call_stays hcall).module_eq]
        exact hs.frame
      exact attemptCall_confined hs hs.machine hwaiting

/-- A step stays among the modules of a confinement. -/
theorem Snapshot.Confined.next {env : Environment} {s t : Snapshot} (hs : s.Confined c)
    (h : s.Leads env t) : t.Confined c := by
  rcases hs.attempt env with ⟨hm, ha⟩
  have hsettle := ha.settle hs.frame hs.callers
  rcases h.settles with ⟨hmachine, hprogress⟩
  rw [hprogress] at hsettle
  rw [hmachine] at hm
  exact ⟨hm, hsettle.1, hsettle.2⟩

/-! ## Runs -/

theorem Snapshot.Reaches.confined {env : Environment} {s t : Snapshot} (h : s.Reaches env t)
    (hs : s.Confined c) : t.Confined c :=
  h.invariant hs fun _ _ ha hleads => ha.next hleads

/-- The loaders that a run leaves behind are loaders of the confinement. -/
theorem run_confined {env : Environment} {fuel : Nat} {s : Snapshot} (hs : s.Confined c) :
    (run env fuel s.machine s.frame s.callers).1.Confined c := by
  rcases s.run_last env fuel with ⟨last, hreaches, hlast⟩
  have hconfined := hreaches.confined hs
  rcases hlast with hnext | hexhausted
  -- The last step may have linked a call, so the loaders are those after it.
  · have hmachine := congrArg Prod.fst ((last.next_eq_settle env).symm.trans hnext)
    rw [← hmachine]
    exact (hconfined.attempt env).1
  · rw [hexhausted]
    exact hconfined.machine

theorem Machine.call_confined {env : Environment} {m : Machine} {target : Module} {index : Nat}
    {args : List Value} (hm : m.Confined c) (htarget : c.modules target) :
    (m.call env target index args).1.Confined c := by
  unfold Machine.call
  split
  · exact hm
  · split
    case h_1 => exact hm
    case h_2 f henter =>
      have hf : c.modules f.module := by rwa [Frame.enter_module henter]
      exact run_confined (s := ⟨m, f, .empty⟩) ⟨hm, hf, by simp [Callers.Confined, Callers.empty]⟩

/-! ## Natives that are not called -/

/-- The instruction of a snapshot calls a symbol. -/
def Snapshot.Calls (env : Environment) (symbol : Symbol) (s : Snapshot) : Prop :=
  ∃ waiting call, s.frame.execute env.host = .ok (.call waiting call) ∧ call.symbol = symbol

/-- Environments that differ at most in the native of a symbol. -/
structure Environment.AgreesBut (symbol : Symbol) (env other : Environment) : Prop where
  limits_eq : other.limits = env.limits
  fields_eq : other.host.fields = env.host.fields
  native?_eq : ∀ called, called ≠ symbol → other.host.native? called = env.host.native? called

/-- Inside a frame only the fields of the host are seen. -/
theorem Frame.execute_congr {host other : Host} (h : other.fields = host.fields) (f : Frame) :
    f.execute other = f.execute host := by
  unfold Frame.execute
  simp only [Host.field?, h]

/-- A step that does not call the symbol is the same in both environments. -/
theorem Snapshot.next_agrees {symbol : Symbol} {env other : Environment} {s : Snapshot}
    (hagrees : env.AgreesBut symbol other) (hcalls : ¬ s.Calls env symbol) :
    s.next other = s.next env := by
  unfold Snapshot.next step
  rw [Frame.execute_congr hagrees.fields_eq]
  cases hexecute : s.frame.execute env.host with
  | error failure => rfl
  | ok flow =>
    cases flow with
    | call waiting call =>
      -- Only a call looks a native up, and it is one of another symbol.
      have hnot : call.symbol ≠ symbol := fun heq => hcalls ⟨waiting, call, hexecute, heq⟩
      simp only [perform, link, hagrees.native?_eq call.symbol hnot, hagrees.limits_eq]
    | _ => rfl

theorem run_agrees {symbol : Symbol} {env other : Environment} {s : Snapshot}
    (hagrees : env.AgreesBut symbol other)
    (hcalls : ∀ t, s.Reaches env t → ¬ t.Calls env symbol) (fuel : Nat) :
    run other fuel s.machine s.frame s.callers = run env fuel s.machine s.frame s.callers := by
  induction fuel generalizing s with
  | zero => rfl
  | succ fuel ih =>
    have hstep := s.next_agrees hagrees (hcalls s .refl)
    unfold Snapshot.next at hstep
    rw [run, run, hstep]
    cases hnext : step env s.machine s.frame s.callers with
    | mk m progress =>
      cases progress with
      | ended ending => rfl
      | running f callers =>
        have hleads : s.Leads env ⟨m, f, callers⟩ := hnext
        exact ih (s := ⟨m, f, callers⟩) fun t ht => hcalls t (.head hleads ht)

theorem Machine.call_agrees {symbol : Symbol} {env other : Environment} {m : Machine}
    {target : Module} {index : Nat} {args : List Value} (hagrees : env.AgreesBut symbol other)
    (hcalls : ∀ f t, Frame.enter target index args = .ok f →
      Snapshot.Reaches env ⟨m, f, .empty⟩ t → ¬ t.Calls env symbol) :
    m.call other target index args = m.call env target index args := by
  unfold Machine.call
  rw [hagrees.limits_eq]
  split
  · rfl
  · split
    case h_1 => rfl
    case h_2 f henter =>
      exact run_agrees (s := ⟨m, f, .empty⟩) hagrees (fun t ht => hcalls f t henter ht) _

theorem Environment.agreesBut_register (env : Environment) (symbol : Symbol) (native : Native) :
    env.AgreesBut symbol { env with host := env.host.register symbol native } := by
  refine ⟨rfl, rfl, ?_⟩
  intro called hcalled
  have hne : (called == symbol) = false := beq_eq_false_iff_ne.2 hcalled
  simp only [Host.native?, Host.register, List.lookup_cons, hne]

end Interposition
