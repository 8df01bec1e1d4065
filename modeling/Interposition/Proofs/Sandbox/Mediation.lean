import Interposition.Proofs.Linking.Mediation
import Interposition.Proofs.Machine.Confinement
import Interposition.Proofs.Sandbox.Invocation
import Interposition.Sandbox.Traps

/-!
# Interposition.Proofs.Sandbox.Mediation — runs that never call what rules take away

A sandbox whose topmost loader is a layer that takes all names executes redirected modules only,
the modules loaded while it runs included. A static call of such a module goes to the symbol its
constant names, so no instruction calls a symbol that the rules take away, and the native of the
symbol makes no difference (`Sandbox.invoke_mediated`).
-/

namespace Interposition

/-- The modules of a layer that mediates a symbol at a level, and the stacks it is on top of. -/
def Confinement.mediated (level : Nat) (source : Symbol) : Confinement where
  modules := Module.Mediated level source
  loaders := Loader.Mediates level source
  closed := by
    intro loader caller here name hloader hcaller hlevel
    rcases Option.some.inj (hcaller.level_eq.symm.trans hlevel) with rfl
    exact hloader.resolveAt name

/-- All modules, and what becomes of a stack of loaders. -/
def Confinement.evolving (start : Loader) : Confinement where
  modules _ := True
  loaders := start.Evolves
  closed := fun _ _ level name hloader _ _ => ⟨hloader.resolve level name, fun _ _ => trivial⟩

/-! ## Calls -/

/-- An instruction that calls a static symbol names it. -/
theorem Snapshot.Calls.names {env : Environment} {source : Symbol} {s : Snapshot}
    (h : s.Calls env source) (hstatic : source.kind = .static) :
    ∃ index, s.frame.instruction = .invoke .static index ∧
      s.frame.module.image.pool.Names (index, .static) source := by
  rcases h with ⟨waiting, call, hexecute, rfl⟩
  rcases Frame.execute_of hexecute with ⟨kind, index, hi, hcall⟩
  rcases Frame.call_eq_ok_iff.1 hcall with ⟨m, signature, owner, hm, hparse, -, howner, rfl, -⟩
  -- The owner of an instance call is that of the receiver, a static call has the one written.
  obtain rfl : kind = .static := hstatic
  obtain rfl : m.owner = owner := Except.ok.inj howner
  exact ⟨index, hi, m, hm, map_eq_ok_iff.2 ⟨signature, hparse, rfl⟩⟩

/-- A module without a call of a static symbol does not call it. -/
theorem Module.Mediated.not_calls {env : Environment} {level : Nat} {source : Symbol}
    {s : Snapshot} (hs : s.frame.module.Mediated level source) (hstatic : source.kind = .static) :
    ¬s.Calls env source := by
  intro hcalls
  rcases hcalls.names hstatic with ⟨index, hi, hnames⟩
  have hmethod : s.frame.method ∈ s.frame.module.image.methods :=
    Array.mem_of_getElem? s.frame.method_found
  have hcode : .invoke .static index ∈ s.frame.method.code := by
    rw [← hi]
    exact Array.getElem_mem s.frame.position_lt
  exact hs.avoids _ hmethod _ _ hcode hnames

/-! ## Traps -/

/-- Rules that are all taken are in the registry. The others are those that were there. -/
theorem Traps.registerAll_ok {rules : List Rule} {r r' : Registry}
    (h : registerAll r rules = (.ok (), r')) :
    (∀ rule ∈ rules, rule ∈ r'.rules.rules) ∧ (∀ rule ∈ r.rules.rules, rule ∈ r'.rules.rules) ∧
      ∀ rule ∈ r'.rules.rules, rule ∈ r.rules.rules ∨ rule ∈ rules := by
  induction rules generalizing r with
  | nil =>
    rcases (Prod.mk.inj h).2 with rfl
    exact ⟨by simp, fun _ h => h, fun _ h => Or.inl h⟩
  | cons rule rest ih =>
    rw [registerAll] at h
    split at h
    case h_1 => cases h
    case h_2 mid hinsert =>
      rcases Registry.insert_eq_ok hinsert with ⟨hthere, hkept, hadded⟩
      rcases ih h with ⟨hrest, hkept', hadded'⟩
      refine ⟨List.forall_mem_cons.2 ⟨hkept' rule hthere, hrest⟩, ?_, ?_⟩
      · intro other hother
        exact hkept' other (hkept other hother)
      · intro other hother
        -- A rule there is now was there before, or is one of those registered.
        rcases hadded' other hother with hmid | hmem
        · rcases hadded other hmid with hold | rfl
          · exact Or.inl hold
          · exact Or.inr List.mem_cons_self
        · exact Or.inr (List.mem_cons_of_mem _ hmem)

/-- Traps that are installed have their rules registered, and the host has their natives first. -/
theorem Traps.install_ok {tag : String} {forced : List String} {host host' : Host}
    {r r' : Registry} (h : install tag forced host r = (.ok host', r')) :
    registerAll r [exitRule, printRule, getBooleanRule] = (.ok (), r') ∧
      host' = ((host.register exitRule.target handleExit).register printRule.target
        (handlePrint tag)).register getBooleanRule.target (handleGetBoolean forced) := by
  unfold install at h
  split at h
  case h_1 => cases h
  case h_2 registry hregister =>
    rcases Prod.mk.inj h with ⟨hhost, rfl⟩
    exact ⟨hregister, (Except.ok.inj hhost).symm⟩

/-- Installed traps take away the static calls they stand in for, if no other rule has them for
a target. -/
theorem Traps.install_withholds {tag : String} {forced : List String} {host host' : Host}
    {r r' : Registry} (h : install tag forced host r = (.ok host', r')) {source : Symbol}
    (hsource : source ∈ [Core.exitSymbol, Core.getBooleanSymbol])
    (hr : ∀ rule ∈ r.rules.rules,
      ¬(rule.target.owner = source.owner ∧ rule.target.name = source.name)) :
    r'.rules.Withholds source := by
  rcases registerAll_ok (install_ok h).1 with ⟨hthere, -, hadded⟩
  -- The stand-ins have an owner of their own, so no trap brings the call back.
  have htraps : ∀ rule ∈ [exitRule, printRule, getBooleanRule],
      rule.target.owner ≠ source.owner := by
    simp only [List.mem_cons, List.not_mem_nil, or_false] at hsource
    rcases hsource with rfl | rfl
    · decide
    · decide
  refine ⟨?_, ?_, ?_⟩
  · simp only [List.mem_cons, List.not_mem_nil, or_false] at hsource
    rcases hsource with rfl | rfl
    · rfl
    · rfl
  · simp only [List.mem_cons, List.not_mem_nil, or_false] at hsource
    rcases hsource with rfl | rfl
    · exact ⟨exitRule, hthere exitRule (by simp), rfl⟩
    · exact ⟨getBooleanRule, hthere getBooleanRule (by simp), rfl⟩
  · intro rule hrule
    rcases hadded rule hrule with hold | htrap
    · exact hr rule hold
    · exact fun htarget => htraps rule htrap htarget.1

/-! ## Runs -/

namespace Sandbox

/-- A run of an entry point on arguments comes to a snapshot, if its fuel lasts. -/
def Runs (s : Sandbox) (entry : EntryPoint) (args : List Value) (t : Snapshot) : Prop :=
  ∃ module index f, (s.resolveEntry entry).1 = .ok module ∧ entry.find module args = .ok index ∧
    Frame.enter module index args = .ok f ∧
    Snapshot.Reaches s.env ⟨⟨0, some (s.resolveEntry entry).2, s.world⟩, f, .empty⟩ t

/-- The sandbox with a native registered under a symbol. -/
def withNative (s : Sandbox) (symbol : Symbol) (native : Native) : Sandbox :=
  { s with env := { s.env with host := s.env.host.register symbol native } }

variable {s : Sandbox} {level : Nat} {source : Symbol}

/-- Below a mediating layer all runs stay among mediated modules. -/
theorem Runs.mediated {entry : EntryPoint} {args : List Value} {t : Snapshot}
    (h : s.Runs entry args t) (hs : s.loader.Mediates level source) :
    t.Confined (.mediated level source) := by
  rcases h with ⟨module, index, f, hmodule, -, henter, hreaches⟩
  rcases s.resolveEntry_eq entry with ⟨hloader, hanswer⟩
  rcases hs.resolve entry.module with ⟨hmediates, hmediated⟩
  refine hreaches.confined ⟨?_, ?_, by simp [Callers.Confined, Callers.empty]⟩
  · rintro _ ⟨⟩
    rw [hloader]
    exact hmediates
  · rw [Frame.enter_module henter]
    exact hmediated module (hanswer module hmodule)

/-- A symbol that no run calls may have any native. -/
theorem invoke_withNative {entry : EntryPoint} {args : List Value}
    (h : ∀ t, s.Runs entry args t → ¬t.Calls s.env source) (native : Native) :
    (s.withNative source native).invoke entry args =
      ((s.invoke entry args).1, (s.invoke entry args).2.withNative source native) := by
  have hcalled : (s.withNative source native).called entry args = s.called entry args := rfl
  cases htarget : s.called entry args with
  | error e =>
    rw [invoke_of_error htarget, invoke_of_error (hcalled.trans htarget)]
    rfl
  | ok target =>
    rcases target with ⟨module, index⟩
    rcases called_eq_ok_iff.1 htarget with ⟨hmodule, hfind⟩
    -- The run that the call makes is the run of the entry point.
    have hnever : ∀ f t, Frame.enter module index args = .ok f →
        Snapshot.Reaches s.env ⟨s.machine entry, f, .empty⟩ t → ¬t.Calls s.env source := by
      intro f t henter hreaches
      exact h t ⟨module, index, f, hmodule, hfind, henter, hreaches⟩
    have hcall := Machine.call_agrees (s.env.agreesBut_register source native) hnever
    have hmachine : (s.withNative source native).machine entry = s.machine entry := rfl
    rw [invoke_of_ok htarget, invoke_of_ok (hcalled.trans htarget), hmachine]
    dsimp only [withNative]
    rw [hcall]
    rfl

/-- A native that makes a difference to what is seen of an invocation is called in it. -/
theorem exists_calls {entry : EntryPoint} {args : List Value} (native : Native)
    (observe : Except Interruption Outcome → Bool)
    (h : observe ((s.withNative source native).invoke entry args).1 ≠
      observe (s.invoke entry args).1) :
    ∃ t, s.Runs entry args t ∧ t.Calls s.env source := by
  by_contra hnone
  have hnever (t : Snapshot) (ht : s.Runs entry args t) : ¬t.Calls s.env source :=
    fun hcalls => hnone ⟨t, ht, hcalls⟩
  rw [invoke_withNative hnever native] at h
  exact h rfl

/-- An invocation resolves the module of its entry point. What it leaves behind is what becomes of
the loaders from then on. -/
theorem resolve_evolves_invoke (s : Sandbox) (entry : EntryPoint) (args : List Value) :
    (s.loader.resolve entry.module).2.Evolves (s.invoke entry args).2.loader := by
  rw [← (s.resolveEntry_eq entry).1]
  cases htarget : s.called entry args with
  | error e =>
    rw [invoke_of_error htarget]
    exact .refl
  | ok target =>
    rw [invoke_of_ok htarget]
    have hstart : Machine.Confined (.evolving (s.resolveEntry entry).2) (s.machine entry) := by
      rintro _ ⟨⟩
      exact .refl
    have hend : Machine.Confined (.evolving (s.resolveEntry entry).2)
        ((s.machine entry).call s.env target.1 target.2 args).1 :=
      Machine.call_confined hstart trivial
    dsimp only
    cases hleft : ((s.machine entry).call s.env target.1 target.2 args).1.loader with
    | none => exact .refl
    | some left => exact hend left hleft

/-- So what holds for all that becomes of the loaders holds in all later invocations. -/
theorem invoke_evolves (s : Sandbox) (entry : EntryPoint) (args : List Value) :
    s.loader.Evolves (s.invoke entry args).2.loader :=
  (s.loader.resolve_evolves entry.module).trans (s.resolve_evolves_invoke entry args)

/-- Complete mediation. Let a layer that takes all names, and has defined no module yet, be on
top of a stack of loaders, and let anything have been loaded and resolved since. Then

* no run of any entry point on any arguments, in any environment, calls a static symbol that the
  rules of the layer take away, and whichever native is registered under it, an invocation has
  the same outcome and leaves the same loaders and the same world;
* this is so of the exit and of the property read of the core library once the traps are
  installed in the registry, if no rule that was there before has them for a target. -/
theorem invoke_mediated {s : Sandbox} {l : Layer} {below : Loader}
    (hselects : ∀ name, l.selects name = true) (hspace : l.space = .empty)
    (hevolves : (Loader.layer l below).Evolves s.loader) (entry : EntryPoint)
    (args : List Value) :
    (∀ rule ∈ l.registry.rules.rules, rule.source.kind = .static →
      (∀ other ∈ l.registry.rules.rules, ¬(other.target.owner = rule.source.owner ∧
        other.target.name = rule.source.name)) →
      (∀ t, s.Runs entry args t → ¬t.Calls s.env rule.source) ∧
        ∀ native, (s.withNative rule.source native).invoke entry args =
          ((s.invoke entry args).1, (s.invoke entry args).2.withNative rule.source native)) ∧
    ∀ tag forced host host' registry,
      Traps.install tag forced host registry = (.ok host', l.registry) →
      ∀ symbol ∈ [Core.exitSymbol, Core.getBooleanSymbol],
        (∀ rule ∈ registry.rules.rules, ¬(rule.target.owner = symbol.owner ∧
          rule.target.name = symbol.name)) →
        ∀ t, s.Runs entry args t → ¬t.Calls s.env symbol := by
  have hcalls (source : Symbol) (hsource : l.registry.rules.Withholds source) (t : Snapshot)
      (ht : s.Runs entry args t) : ¬t.Calls s.env source := by
    -- A fresh layer has no modules, so it mediates all that its rules take away.
    have hlayer : l.Mediates (below.level + 1) source := by
      refine ⟨hselects, hsource, ?_⟩
      rw [hspace]
      intro m hm
      cases hm
    have hloader : s.loader.Mediates (below.level + 1) source := hevolves.mediates ⟨rfl, hlayer⟩
    exact (ht.mediated hloader).frame.not_calls hsource.static
  constructor
  · intro rule hrule hstatic huntargeted
    have hnever := hcalls rule.source ⟨hstatic, ⟨rule, hrule, rfl⟩, huntargeted⟩
    exact ⟨hnever, invoke_withNative hnever⟩
  · intro tag forced host host' registry hinstall symbol hsymbol huntargeted
    exact hcalls symbol (Traps.install_withholds hinstall hsymbol huntargeted)

end Sandbox

/-- A program that exits with a code. -/
def Image.exiting : Image where
  major := 1
  minor := 0
  pool := ⟨#[.utf8 "a", .utf8 "main", .utf8 "()V", .utf8 "core.System", .utf8 "exit", .utf8 "(I)V",
    .method ⟨3, 4, 5⟩, .int 7]⟩
  thisName := 0
  methods := #[⟨1, 1, 2, 0, #[.const 7, .invoke .static 6, .ret], []⟩]

/-- A program that exits with a code, in a layer with the traps installed. -/
def Sandbox.exiting : Sandbox where
  env := ⟨Core.host.register Traps.exitRule.target Traps.handleExit, ⟨10, 2⟩⟩
  loader := .layer ⟨fun _ => true, (Traps.install "a" [] Core.host .empty).2, .empty, .zero⟩
    (.bundle (.of (.memory [(resourcePath "a", Image.exiting.bytes)])))
  world := .initial 4

theorem Sandbox.invoke_mediated_exiting :
    (match (exiting.invoke (.main "a") []).1 with
      | .ok outcome => some (outcome.kind, outcome.exitCode)
      | .error _ => none) = some ("controlled_failure", 7) ∧
    (∀ native, (exiting.withNative Core.exitSymbol native).invoke (.main "a") [] =
      ((exiting.invoke (.main "a") []).1,
        (exiting.invoke (.main "a") []).2.withNative Core.exitSymbol native)) ∧
    ∀ symbol ∈ [Core.exitSymbol, Core.getBooleanSymbol],
      ∀ t, exiting.Runs (.main "a") [] t → ¬t.Calls exiting.env symbol := by
  obtain ⟨hrules, htraps⟩ := invoke_mediated (s := exiting) (fun _ => rfl) rfl .refl (.main "a") []
  refine ⟨by decide +kernel, ?_, ?_⟩
  · have hrule : Traps.exitRule ∈ (Traps.install "a" [] Core.host .empty).2.rules.rules := by
      decide +kernel
    exact (hrules Traps.exitRule hrule rfl (by decide +kernel)).2
  · intro symbol hsymbol
    obtain ⟨host, hinstall⟩ : ∃ host, Traps.install "a" [] Core.host .empty =
        (.ok host, (Traps.install "a" [] Core.host .empty).2) := ⟨_, rfl⟩
    exact htraps "a" [] Core.host host .empty hinstall symbol hsymbol
      (by simp [Registry.empty, RuleSet.empty])

end Interposition
