import Interposition.Proofs.Machine.Caching
import Interposition.Proofs.Sandbox.Console
import Interposition.Proofs.Sandbox.History

/-!
# Interposition.Proofs.Sandbox.Caching — what has been loaded before makes no difference

A layer with fixed rules on a bundle of files answers for a name in the same way whatever it and the
bundle were used for before, and so an invocation has the same outcome (`Sandbox.Twins.invoke`). In
a world in which objects have been made, new ones get other identities, and the outcome is the same
up to these. What resolving adds to the spaces is the answers for the names that are resolved
(`Loader.Coherent.has_resolveAll_iff`), in whichever order and however often.
-/

namespace Interposition

/-! ## Worlds -/

/-- The objects that are made from now on in one world stand for those in the other. -/
def World.Renamed (ρ : Renaming) (w w' : World) : Prop :=
  ∀ later, ρ.maps (w.identity later) (w'.identity later)

theorem World.renamed_between (w w' : World) : w.Renamed (.between w w') w' :=
  fun later => Or.inr ⟨later, rfl, rfl⟩

theorem World.identity_allocate (w : World) (typeName : String) (later : Nat) :
    (w.allocate typeName).2.identity later = w.identity (later + 1) := by
  simp only [allocate, identity]
  rw [Nat.add_assoc, Nat.add_comm 1 later]

variable {ρ : Renaming}

theorem World.Renamed.allocate {w w' : World} (h : w.Renamed ρ w') (typeName : String) :
    (w.allocate typeName).1.Renamed ρ (w'.allocate typeName).1 ∧
      (w.allocate typeName).2.Renamed ρ (w'.allocate typeName).2 := by
  refine ⟨.object (h 0) typeName none, ?_⟩
  intro later
  rw [identity_allocate, identity_allocate]
  exact h (later + 1)

/-! ## Natives -/

/-- What a native answers depends on its arguments and on the identities of the objects that it
makes, but on nothing else in the world, and on identities only as far as it answers with them. -/
def Native.Blind (native : Native) (ρ : Renaming) : Prop :=
  native.Overlooks ρ (World.Renamed ρ)

/-- All natives of a host are blind, and what is in its fields stands for itself. -/
structure Host.Blind (host : Host) (ρ : Renaming) : Prop where
  native : ∀ symbol native, host.native? symbol = some native → native.Blind ρ
  fields : host.FieldsStay ρ

theorem Native.blind_ofArgs {α : Type} {read : List Value → Except Failure α}
    {act : α → World → Answer × World}
    (hread : ∀ args args', Value.RenamedAll ρ args args' → read args' = read args)
    (hact : ∀ a w w', w.Renamed ρ w' →
      (act a w).1.Renamed ρ (act a w').1 ∧ (act a w).2.Renamed ρ (act a w').2) :
    (ofArgs read act).Blind ρ := by
  intro args args' w w' hargs hworlds
  unfold ofArgs
  rw [hread args args' hargs]
  cases read args with
  | error failure => exact ⟨.failure failure, hworlds⟩
  | ok a => exact hact a w w' hworlds

/-- An integer argument is no object. -/
theorem Native.intArg_renamed (name : String) {args args' : List Value}
    (h : Value.RenamedAll ρ args args') (index : Nat) :
    intArg name args' index = intArg name args index := by
  have harg := Value.RenamedAll.getElem? h index
  unfold intArg
  generalize args[index]? = found, args'[index]? = found' at harg
  cases harg with
  | none => rfl
  | some hv => cases hv <;> rfl

theorem Traps.handleExit_blind (ρ : Renaming) : handleExit.Blind ρ := by
  refine Native.blind_ofArgs (fun _ _ h => Native.intArg_renamed _ h 0) ?_
  intro code w w' hworlds
  exact ⟨.failure _, hworlds⟩

theorem Host.blind_empty (ρ : Renaming) : Host.empty.Blind ρ where
  native := by
    intro symbol native hnative
    cases hnative
  fields := by
    intro owner name v hv
    cases hv

theorem Host.Blind.register {host : Host} (h : host.Blind ρ) (symbol : Symbol) {native : Native}
    (hblind : native.Blind ρ) : (host.register symbol native).Blind ρ := by
  refine ⟨?_, h.fields⟩
  intro called found hfound
  rw [Host.native?, Host.register, List.lookup_cons] at hfound
  split at hfound
  · obtain rfl : native = found := Option.some.inj hfound
    exact hblind
  · exact h.native called found hfound

/-- Blind natives do not tell worlds apart in which new objects stand for each other. -/
theorem Host.Blind.overlooks {host : Host} (h : host.Blind ρ) :
    host.Overlooks ρ (World.Renamed ρ) where
  native := h.native
  fields := h.fields
  allocate := fun typeName _ _ hworlds => hworlds.allocate typeName

/-! ## Invocations -/

/-- An entry point accepts the same arguments, whatever the identities of objects. -/
theorem EntryPoint.find_renamed (entry : EntryPoint) (m : Module) {args args' : List Value}
    (h : Value.RenamedAll ρ args args') : entry.find m args' = entry.find m args := by
  have hmisfit (types : List ValueType) :
      firstMisfit? 0 args' types = firstMisfit? 0 args types := by
    generalize 0 = index
    induction h generalizing index types with
    | nil => rfl
    | cons hv _ ih =>
      cases types with
      | nil => rfl
      | cons type types => rw [firstMisfit?, firstMisfit?, hv.conformsTo_eq, ih]
  simp only [find, h.length_eq, hmisfit]

/-- The same outcome, up to the identity of an object. -/
inductive Outcome.Renamed (ρ : Renaming) : Outcome → Outcome → Prop
  | success {v v' : Value} (h : v.Renamed ρ v') : Renamed ρ (.success v) (.success v')
  | controlledFailure (code : Int32) : Renamed ρ (.controlledFailure code) (.controlledFailure code)
  | crash (entry : String) (failure : Failure) :
      Renamed ρ (.crash entry failure) (.crash entry failure)

theorem Outcome.Renamed.eq {o o' : Outcome} (h : o.Renamed .same o') : o = o' := by
  cases h with
  | success hv => rw [Value.renamed_same_iff.1 hv]
  | controlledFailure code => rfl
  | crash entry failure => rfl

/-- A failure shows no identities. -/
theorem Outcome.renamed_ofFailure (ρ : Renaming) (entry : String) (failure : Failure) :
    (ofFailure entry failure).Renamed ρ (ofFailure entry failure) := by
  unfold ofFailure
  split
  · split
    · exact .success .void
    · exact .controlledFailure _
  · exact .crash entry failure

/-- Related ends have related outcomes. -/
theorem Ending.Paired.outcome {e e' : Ending} (h : e.Paired (Value.Renamed ρ) e')
    (entry : String) : Alike (Outcome.Renamed ρ) (e.outcome entry) (e'.outcome entry) := by
  cases h with
  | returned hv => exact .ok (.success hv)
  | failed failure => exact .ok (Outcome.renamed_ofFailure ρ entry failure)
  | exited code => exact .error _

namespace Sandbox

/-- Two states of one sandbox, in related worlds. -/
structure Twins (R : World → World → Prop) (s s' : Sandbox) : Prop where
  env_eq : s'.env = s.env
  worlds : R s.world s'.world
  loaders : s.loader.Twins s'.loader

variable {R : World → World → Prop} {s s' : Sandbox}

theorem Twins.resolveEntry (h : s.Twins R s') (entry : EntryPoint) :
    (s'.resolveEntry entry).1 = (s.resolveEntry entry).1 ∧
      (s.resolveEntry entry).2.Twins (s'.resolveEntry entry).2 := by
  rcases h.loaders.resolve entry.module with ⟨hanswer, hloaders⟩
  rw [(s.resolveEntry_eq entry).1, (s'.resolveEntry_eq entry).1]
  refine ⟨?_, hloaders⟩
  unfold Sandbox.resolveEntry
  generalize s.loader.resolve entry.module = found, s'.loader.resolve entry.module = found'
    at hanswer
  rcases found with ⟨answer, k⟩
  rcases found' with ⟨answer', k'⟩
  obtain rfl : answer' = answer := hanswer
  cases answer' with
  | ok module => rfl
  | error e => cases e <;> rfl

/-- An invocation has the same outcome up to renaming, and leaves the two twins. -/
theorem Twins.invoke (h : s.Twins R s') (hhost : s.env.host.Overlooks ρ R) (entry : EntryPoint)
    {args args' : List Value} (hargs : Value.RenamedAll ρ args args')
    (hdiscreet : ∀ t ∈ s.trace entry args, t.frame.Discreet ρ) :
    Alike (Outcome.Renamed ρ) (s.invoke entry args).1 (s'.invoke entry args').1 ∧
      (s.invoke entry args).2.Twins R (s'.invoke entry args').2 := by
  rcases h.resolveEntry entry with ⟨hanswer, hresolved⟩
  have hcalled : s'.called entry args' = s.called entry args := by
    simp only [called, hanswer, entry.find_renamed _ hargs]
  unfold trace at hdiscreet
  cases htarget : s.called entry args with
  | error e =>
    rw [invoke_of_error htarget, invoke_of_error (hcalled.trans htarget)]
    exact ⟨.error _, h.env_eq, h.worlds, hresolved⟩
  | ok target =>
    rcases target with ⟨module, index⟩
    rw [htarget] at hdiscreet
    have hstart : (s.machine entry).Twins R (s'.machine entry) := ⟨rfl, h.worlds, .some hresolved⟩
    rcases Machine.call_twins hhost hstart module index hargs hdiscreet with ⟨hmachine, hending⟩
    rw [invoke_of_ok htarget, invoke_of_ok (hcalled.trans htarget), h.env_eq]
    refine ⟨hending.outcome _, rfl, hmachine.worlds, ?_⟩
    -- A machine keeps the loaders it was started with, if it has any.
    have hloaders := hmachine.loaders
    dsimp only
    generalize ((s.machine entry).call s.env module index args).1.loader = left,
      ((s'.machine entry).call s.env module index args').1.loader = left' at hloaders
    cases hloaders with
    | none => exact hresolved
    | some hk => exact hk

/-- Where every identity stands for itself, the outcomes are equal. -/
theorem Twins.invoke_eq (h : s.Twins R s') (hhost : s.env.host.Overlooks .same R)
    (entry : EntryPoint) (args : List Value) :
    (s'.invoke entry args).1 = (s.invoke entry args).1 := by
  have hdiscreet : ∀ t ∈ s.trace entry args, t.frame.Discreet .same := by
    intro t _
    refine t.frame.discreet_of_keepsAddresses ?_
    rintro i _ rfl
    rfl
  have hargs : Value.RenamedAll .same args args := Value.renamedAll_same_iff.2 rfl
  exact ((h.invoke hhost entry hargs hdiscreet).1.eq fun _ _ => Outcome.Renamed.eq).symm

end Sandbox

/-! ## Resolving several names -/

namespace Loader

/-- The stack that is left when names are resolved in order. -/
def resolveAll (l : Loader) (names : List String) : Loader :=
  names.foldl (fun l name => (l.resolve name).2) l

theorem resolveAll_evolves (l : Loader) (names : List String) : l.Evolves (l.resolveAll names) := by
  induction names generalizing l with
  | nil => exact .refl
  | cons name rest ih => exact (l.resolve_evolves name).trans (ih (l.resolve name).2)

theorem has_of_find? {l : Loader} {name : String} {m : Module} (h : l.find? name = some m) :
    l.Has m := by
  rw [find?_eq, Option.bind_eq_some_iff] at h
  rcases h with ⟨s, hs, hfind⟩
  exact ⟨s, List.mem_of_find?_eq_some hs, Space.mem_of_find? hfind⟩

namespace Coherent

variable {l : Loader}

/-- Resolving a name adds the answer for it to what a stack has. -/
theorem has_resolve_iff (hl : l.Coherent) (name : String) (m : Module) :
    (l.resolve name).2.Has m ↔ l.Has m ∨ l.answer name = .ok m := by
  have hloads := l.resolve_loads name
  rw [(hl.resolve name).2] at hloads
  generalize (l.resolve name).2 = k, l.answer name = answer at hloads
  cases hloads with
  | fails e hshelves => simp [Has, hshelves]
  | found m' hfind hshelves =>
    have hthere : m' = m → l.Has m := by
      rintro rfl
      exact has_of_find? hfind
    simpa [Has, hshelves] using hthere
  | gains m' _ _ hgains =>
    rw [Has, hgains.exists_mem_iff, Except.ok.injEq, eq_comm]
    rfl

/-- Resolving names adds the answers for them, whatever their order. -/
theorem has_resolveAll_iff (hl : l.Coherent) (names : List String) (m : Module) :
    (l.resolveAll names).Has m ↔ l.Has m ∨ ∃ name ∈ names, l.answer name = .ok m := by
  induction names generalizing l with
  | nil => simp [resolveAll]
  | cons name rest ih =>
    have hkeeps := (hl.resolve name).1
    have hrest := ih hkeeps.coherent
    simp only [hkeeps.answer_eq] at hrest
    rw [List.exists_mem_cons_iff, ← or_assoc, ← hl.has_resolve_iff, ← hrest]
    rfl

/-- What is answered for a name that is resolved among others is found from then on. -/
theorem find?_resolveAll_iff (hl : l.Coherent) {names : List String} {name : String}
    (h : name ∈ names) (m : Module) :
    (l.resolveAll names).find? name = some m ↔ l.answer name = .ok m := by
  have hkeeps := (l.resolveAll_evolves names).keeps hl
  constructor
  · intro hfind
    rw [← hkeeps.answer_eq]
    exact hkeeps.coherent.find? hfind
  · intro hanswer
    rcases List.append_of_mem h with ⟨earlier, later, rfl⟩
    have hearlier := (l.resolveAll_evolves earlier).keeps hl
    have hresolved : ((l.resolveAll earlier).resolve name).1 = .ok m := by
      rw [(hearlier.coherent.resolve name).2, hearlier.answer_eq, hanswer]
    have hfind := ((l.resolveAll earlier).resolve_loads name).find? hresolved
    have hlater := (((l.resolveAll earlier).resolve name).2.resolveAll_evolves later).grows
    have hsplit : l.resolveAll (earlier ++ name :: later) =
        (((l.resolveAll earlier).resolve name).2).resolveAll later := by
      simp [resolveAll]
    rw [hsplit]
    exact find?_of_grows hlater hfind

end Coherent

/-! ## Histories -/

/-- A use of the loader at a level of a stack. -/
def useAt (l : Loader) (level : Nat) (use : Use) : Loader :=
  (l.within level fun here => ((), here.use use)).2

/-- The stack that is left when loaders at levels of it are put to uses. -/
def afterAt (l : Loader) (uses : List (Nat × Use)) : Loader :=
  uses.foldl (fun l use => l.useAt use.1 use.2) l

theorem Proper.useAt_evolves {files : List (String × List UInt8)} {selects : String → Bool}
    {k : Loader} (hk : k.Proper files selects) (hfrozen : k.Frozen) (level : Nat) (use : Use) :
    k.Evolves (k.useAt level use) := by
  rcases hk.shape with ⟨l, b, rfl, -, -⟩
  rw [useAt, within]
  split
  · exact hfrozen.use_evolves use
  · -- A bundle has no rules that could change.
    have hbundle : (bundle b).Frozen := by
      intro r hr
      cases hr
    exact (hbundle.use_evolves use).layer l

theorem Proper.afterAt_evolves {files : List (String × List UInt8)} {selects : String → Bool}
    {k : Loader} (hk : k.Proper files selects) (hfrozen : k.Frozen) (uses : List (Nat × Use)) :
    k.Evolves (k.afterAt uses) := by
  induction uses generalizing k with
  | nil => exact .refl
  | cons use rest ih =>
    have hstep := hk.useAt_evolves hfrozen use.1 use.2
    exact hstep.trans (ih (hk.evolves hfrozen hstep) (hfrozen.evolves hstep))

/-- What a layer and the bundle below were used for makes no difference. Let a new layer on a new
bundle of files have rules that are fixed, and let the two be put to uses of two kinds: in both
orders, modules are loaded and resolved and programs are run, through the layer or through the
bundle. Then both stacks that are left

* answer alike for every name, at each of their levels: with the same module, whose loader is at the
  same level, or with the same error, be the name looked for once more after a refused load or not;
* run every program to the same outcome, if they do so in one world;
* do so in two worlds, whatever was done to them before, if natives are blind and new objects get
  the same identities in both;
* do so up to the identities of objects if new objects in the one world stand for those in the
  other, so also when objects have been made in one of the worlds before, as long as the program
  shows no text of an object that differs;
* have the same modules after the same names are resolved, in whichever order and however often, and
  the same is found under each of these names in the one and in the other. -/
theorem uses_unobserved (files : List (String × List UInt8)) (selects : String → Bool)
    (registry : Registry) (uses uses' : List (Nat × Use)) :
    let k := (interposed files selects registry.freeze).afterAt uses
    let k' := (interposed files selects registry.freeze).afterAt uses'
    (∀ name, (k'.resolve name).1 = (k.resolve name).1 ∧
      (k'.resolveTwice name).1 = (k.resolveTwice name).1) ∧
    (∀ level name, (k'.resolveAt level name).1 = (k.resolveAt level name).1) ∧
    (∀ env world entry args,
      (Sandbox.invoke ⟨env, k', world⟩ entry args).1 =
        (Sandbox.invoke ⟨env, k, world⟩ entry args).1) ∧
    (∀ env world world' entry args, env.host.Blind .same → world.Renamed .same world' →
      (Sandbox.invoke ⟨env, k', world'⟩ entry args).1 =
        (Sandbox.invoke ⟨env, k, world⟩ entry args).1) ∧
    (∀ ρ env world world' entry args args', env.host.Blind ρ → world.Renamed ρ world' →
      Value.RenamedAll ρ args args' →
      (∀ t ∈ Sandbox.trace ⟨env, k, world⟩ entry args, t.frame.Discreet ρ) →
      Alike (Outcome.Renamed ρ) (Sandbox.invoke ⟨env, k, world⟩ entry args).1
        (Sandbox.invoke ⟨env, k', world'⟩ entry args').1) ∧
    ∀ names names', (∀ name, name ∈ names' ↔ name ∈ names) →
      (∀ m, (k.resolveAll names').Has m ↔ (k.resolveAll names).Has m) ∧
      ∀ name ∈ names, (k'.resolveAll names').find? name = (k.resolveAll names).find? name := by
  intro k k'
  have hproper : (interposed files selects registry.freeze).Proper files selects :=
    proper_interposed _
  have hfrozen : (interposed files selects registry.freeze).Frozen := by
    rintro _ ⟨⟩
    rfl
  have hkeeps : (interposed files selects registry.freeze).Keeps k :=
    (hproper.afterAt_evolves hfrozen uses).keeps hproper.coherent
  have hkeeps' : (interposed files selects registry.freeze).Keeps k' :=
    (hproper.afterAt_evolves hfrozen uses').keeps hproper.coherent
  have htwins : k.Twins k' := .of_keeps hkeeps hkeeps'
  refine ⟨?alike, fun level name => (htwins.resolveAt level name).1, ?one, ?same, ?renamed,
    ?several⟩
  case alike =>
    intro name
    rw [resolveTwice_eq, resolveTwice_eq]
    exact ⟨(htwins.resolve name).1, (htwins.resolve name).1⟩
  case one =>
    intro env world entry args
    have hsandboxes : Sandbox.Twins (· = ·) ⟨env, k, world⟩ ⟨env, k', world⟩ := ⟨rfl, rfl, htwins⟩
    exact hsandboxes.invoke_eq env.host.overlooks_eq entry args
  case same =>
    intro env world world' entry args hblind hworlds
    have hsandboxes : Sandbox.Twins (World.Renamed .same) ⟨env, k, world⟩ ⟨env, k', world'⟩ :=
      ⟨rfl, hworlds, htwins⟩
    exact hsandboxes.invoke_eq hblind.overlooks entry args
  case renamed =>
    intro ρ env world world' entry args args' hblind hworlds hargs hdiscreet
    have hsandboxes : Sandbox.Twins (World.Renamed ρ) ⟨env, k, world⟩ ⟨env, k', world'⟩ :=
      ⟨rfl, hworlds, htwins⟩
    exact (hsandboxes.invoke hblind.overlooks entry hargs hdiscreet).1
  case several =>
    intro names names' hnames
    constructor
    · intro m
      rw [hkeeps.coherent.has_resolveAll_iff, hkeeps.coherent.has_resolveAll_iff]
      simp only [hnames]
    · intro name hname
      refine Option.ext fun m => ?_
      rw [hkeeps.coherent.find?_resolveAll_iff hname,
        hkeeps'.coherent.find?_resolveAll_iff ((hnames name).2 hname), htwins.keeps.answer_eq]

end Loader

/-- A program that returns a new object. -/
def Image.making : Image where
  major := 1
  minor := 0
  pool := ⟨#[.utf8 "b", .utf8 "make", .utf8 "()Lb;"]⟩
  thisName := 0
  methods := #[⟨1, 1, 2, 0, #[.new 0, .retValue], []⟩]

namespace Loader

/-- A program that exits is run through a layer that has its module and has run it before, and
through one that has defined nothing, in worlds with different properties. A program that makes an
object is run through both too, the second time in the world that it has left before. The object is
another one there. -/
theorem uses_unobserved_exiting :
    let files := [(resourcePath "a", Image.exiting.bytes), (resourcePath "b", Image.making.bytes)]
    let start := interposed files (fun _ => true) (Traps.install "a" [] Core.host .empty).2.freeze
    let env : Environment :=
      ⟨Host.empty.register Traps.exitRule.target Traps.handleExit, ⟨10, 2⟩⟩
    let used := start.afterAt
      [(0, .request (.load "a")), (1, .run env (.initial 4) (.main "a") [])]
    let world := (World.initial 4).setProperty "verbose" "true"
    let making : EntryPoint := ⟨"b", "make", "()Lb;"⟩
    let later := (Sandbox.invoke ⟨env, used, world⟩ making []).2.world
    (start.space.size = 0 ∧ used.space.size = 1 ∧
      (match (Sandbox.invoke ⟨env, used, world⟩ (.main "a") []).1 with
        | .ok outcome => some (outcome.kind, outcome.exitCode)
        | .error _ => none) = some ("controlled_failure", 7)) ∧
    (Sandbox.invoke ⟨env, used, world⟩ (.main "a") []).1 =
      (Sandbox.invoke ⟨env, start, .initial 4⟩ (.main "a") []).1 ∧
    ([(start, world), (used, later)].map fun (k, w) =>
      match (Sandbox.invoke ⟨env, k, w⟩ making []).1 with
        | .ok (.success v) => v.text
        | _ => "") = ["b@0x7f0000000020", "b@0x7f0000000030"] ∧
    Alike (Outcome.Renamed (.between world later)) (Sandbox.invoke ⟨env, start, world⟩ making []).1
      (Sandbox.invoke ⟨env, used, later⟩ making []).1 := by
  intro files start env used world making later
  have hblind (ρ : Renaming) : env.host.Blind ρ :=
    (Host.blind_empty ρ).register _ (Traps.handleExit_blind ρ)
  obtain ⟨-, -, -, hworlds, hrenamed, -⟩ := uses_unobserved files (fun _ => true)
    (Traps.install "a" [] Core.host .empty).2 []
    [(0, .request (.load "a")), (1, .run env (.initial 4) (.main "a") [])]
  refine ⟨by decide +kernel, ?_, by decide +kernel, ?_⟩
  · exact hworlds env (.initial 4) world (.main "a") [] (hblind .same) fun _ => rfl
  · have hshown : (Sandbox.trace ⟨env, start, world⟩ making []).all (fun t => t.frame.shown.isEmpty)
        = true := by
      decide +kernel
    refine hrenamed (.between world later) env world later making [] [] (hblind _)
      (World.renamed_between _ _) .nil ?_
    intro t ht
    exact Frame.discreet_of_shown _ (List.all_eq_true.1 hshown t ht)

end Loader

end Interposition
