import Interposition.Proofs.Machine.Lockstep
import Interposition.Proofs.Sandbox.Mediation

/-!
# Interposition.Proofs.Sandbox.Transparency — redirection that nobody notices

A layer is put on top of a bundle. If each of its rules is for a static call, and the host has the
same native for the source and the target of each, then no invocation tells the layer from its
absence (`Sandbox.invoke_transparent`). The modules that the layer defines mirror those that the
bundle defines (`Module.define_redirected`), so the stack with the layer answers as the bundle does
(`Loader.mirrors_layer`), whichever names the layer takes. The rest is the lockstep of two machines.
-/

namespace Interposition

variable {rules : RuleSet}

/-! ## Modules -/

/-- A well-formed image is defined under its own name and under no other. -/
theorem Module.define_wellFormed {bytes : List UInt8} {image : Image}
    (hdecode : Image.decode bytes = .ok image) (hwell : image.WellFormed) (name : String)
    (derived : Bool) (level : Option Nat) :
    define name bytes derived level =
      if image.name? = some name then
        .ok ⟨name, bytes, image, image.methods.map fun m => Code.offsets m.code, derived, level⟩
      else .error (.verify name (.nameMismatch name (image.name?.getD ""))) := by
  unfold define
  rw [hdecode, mapError_ok]
  simp only [bind, Except.bind, hwell.verifyNamed_eq]
  by_cases hname : image.name? = some name
  · rw [if_pos hname, if_pos hname]
    rfl
  · rw [if_neg hname, if_neg hname]
    rfl

/-- Bytes and what rules for static calls make of them define modules that mirror each other, or
neither does, for the same reason. -/
theorem Module.define_redirected {bytes encoded : List UInt8} {report : RedirectReport}
    {image : Image} (hstatic : ∀ rule ∈ rules.rules, rule.source.kind = .static)
    (hdecode : Image.decode bytes = .ok image) (hverify : image.verify = .ok ())
    (h : transform rules bytes = .ok (encoded, report)) (name : String) (derived derived' : Bool)
    (level level' : Nat) :
    Alike (Module.Mirrors rules) (define name bytes derived (some level))
      (define name encoded derived' (some level')) := by
  have hwell : image.WellFormed := Image.verify_eq_ok_iff.1 hverify
  rcases transform_eq_ok h with ⟨original, image', horiginal, hredirect, hdecode'⟩
  obtain rfl : image = original := Except.ok.inj (hdecode.symm.trans horiginal)
  have hsize : image.pool.size ≤ Pool.capacity := (Image.decode_eq_ok_iff.1 hdecode).2.1.pool_size
  have hreads : ∀ rule ∈ rules.rules, rule.source.Reads := by
    intro rule hrule
    exact Symbol.reads_of_static (hstatic rule hrule)
  rcases Image.redirect_wellFormed hsize hreads hwell hredirect with ⟨hwell', hname⟩
  have halters : image.Alters (Instruction.Mirrors rules image'.pool) image' := by
    rcases Image.redirect_alters hsize hredirect with ⟨-, rfl⟩ | halters
    · exact .refl (fun _ => Or.inl rfl) _
    · exact halters.mono fun _ _ hbecomes => Or.inr hbecomes
  rw [define_wellFormed hdecode hwell, define_wellFormed hdecode' hwell', hname]
  split
  · exact .ok ⟨rfl, halters, ⟨hverify, rfl⟩, halters.offsets_eq, level, level', rfl, rfl⟩
  · exact .error _

/-! ## Stacks -/

/-- Every module in the files has an image that the verifier accepts and that the rules can
redirect. -/
def RuleSet.Suits (rules : RuleSet) (files : List (String × List UInt8)) : Prop :=
  ∀ name bytes, files.lookup (resourcePath name) = some bytes →
    ∃ image, Image.decode bytes = .ok image ∧ image.verify = .ok () ∧
      (transform rules bytes).isOk = true

namespace Loader

variable {files : List (String × List UInt8)} {l : Layer}

/-- What a bundle answers mirrors itself. -/
theorem answer_bundle (r : Resources) (name : String) :
    Alike (Module.Mirrors rules) ((bundle (.of r)).answer name) ((bundle (.of r)).answer name) := by
  refine .refl ?_
  intro m hm
  rcases bind_eq_ok_iff.1 hm with ⟨bytes, -, hdefine⟩
  have hverified : m.Verified := Module.verified_ofDefine _ _ _ _ _ hdefine
  rcases Module.define_eq_ok hdefine with ⟨image, -, -, rfl⟩
  exact .refl hverified rfl

/-- What a layer answers mirrors what the bundle below answers. -/
theorem answer_layer (hsuits : l.registry.rules.Suits files)
    (hstatic : ∀ rule ∈ l.registry.rules.rules, rule.source.kind = .static) (name : String) :
    Alike (Module.Mirrors l.registry.rules) ((bundle (.of (.memory files))).answer name)
      ((layer l (bundle (.of (.memory files)))).answer name) := by
  have hbundle : (bundle (.of (.memory files))).answer name =
      (Resources.memory files).readModule name >>= fun bytes =>
        Module.define name bytes false (some 0) := rfl
  have hlayer : (layer l (bundle (.of (.memory files)))).answer name =
      if l.selects name then
        (Resources.memory files).readModule name >>= fun bytes => l.answer 1 name bytes
      else (bundle (.of (.memory files))).answer name := rfl
  rw [hlayer]
  split
  case isTrue =>
    rw [hbundle]
    cases hread : (Resources.memory files).readModule name with
    | error e => exact .error e
    | ok bytes =>
      rcases hsuits name bytes (Resources.readModule_memory.1 hread) with
        ⟨image, hdecode, hverify, hredirects⟩
      cases htransform : transform l.registry.rules bytes with
      | error e =>
        rw [htransform] at hredirects
        cases hredirects
      | ok result =>
        have hanswer : l.answer 1 name bytes = Module.define name result.1 true (some 1) := by
          rw [Layer.answer, htransform]
          rfl
        have halike : Alike (Module.Mirrors l.registry.rules)
            (Module.define name bytes false (some 0))
            (Module.define name result.1 true (some 1)) :=
          Module.define_redirected hstatic hdecode hverify htransform name false true 0 1
        rw [← hanswer] at halike
        exact halike
  case isFalse => exact answer_bundle _ _

/-- A bundle answers alike with and without a layer on top. -/
theorem mirrors_layer (hspace : l.space = .empty) (hsuits : l.registry.rules.Suits files)
    (hstatic : ∀ rule ∈ l.registry.rules.rules, rule.source.kind = .static) :
    (bundle (.of (.memory files))).Mirrors l.registry.rules
      (layer l (bundle (.of (.memory files)))) := by
  have hcoherent : (bundle (.of (.memory files))).Coherent := coherent_bundle _
  refine ⟨hcoherent, coherent_layer hcoherent hspace, ?_⟩
  intro level level' name
  rw [answerAt, answerAt]
  split
  case isTrue => exact answer_layer hsuits hstatic name
  case isFalse => exact answer_bundle _ _

end Loader

/-! ## Entry points -/

/-- An entry point finds the method at the same index, or refuses it for the same reason. -/
theorem EntryPoint.find_mirrors {m m' : Module} (h : m.Mirrors rules m') (entry : EntryPoint)
    (args : List Value) : entry.find m' args = entry.find m args := by
  have hstatic (index : Nat) : m'.image.methods[index]?.any Method.isStatic =
      m.image.methods[index]?.any Method.isStatic := h.any_isStatic id index
  simp only [find, h.findMethod?_eq, hstatic]

/-! ## Sandboxes -/

/-- Sandboxes with the same host, limits and world, the first with verified modules, whose loaders
answer alike. -/
structure Sandbox.Mirrors (rules : RuleSet) (s s' : Sandbox) : Prop where
  env_eq : s'.env = s.env
  world_eq : s'.world = s.world
  loaders : s.loader.Mirrors rules s'.loader
  verified : s.loader.All Module.Verified

namespace Sandbox

/-- The number of instructions that an invocation executes. -/
def executed (s : Sandbox) (entry : EntryPoint) (args : List Value) : Nat :=
  match s.called entry args with
  | .error _ => 0
  | .ok (module, index) => ((s.machine entry).call s.env module index args).1.executed

/-- The arguments that natives are handed in an invocation, in order. -/
def handed (s : Sandbox) (entry : EntryPoint) (args : List Value) : List (List Value) :=
  match s.called entry args with
  | .error _ => []
  | .ok (module, index) => (s.machine entry).handed s.env module index args

variable {s s' : Sandbox}

/-- Entry points are resolved alike. -/
theorem Mirrors.resolveEntry (h : s.Mirrors rules s') (entry : EntryPoint) :
    Alike (Module.Mirrors rules) (s.resolveEntry entry).1 (s'.resolveEntry entry).1 ∧
      (s.resolveEntry entry).2.Mirrors rules (s'.resolveEntry entry).2 := by
  -- A stack resolves as the loader at its own level does.
  have hself (k : Loader) : k.resolve entry.module = k.resolveAt k.level entry.module :=
    (k.within_self (fun l => l.resolve entry.module)).symm
  have hresolved := h.loaders.resolveAt s.loader.level s'.loader.level entry.module
  rw [← hself, ← hself] at hresolved
  unfold Sandbox.resolveEntry
  generalize s.loader.resolve entry.module = found,
    s'.loader.resolve entry.module = found' at hresolved
  rcases found with ⟨answer, k⟩
  rcases found' with ⟨answer', k'⟩
  rcases hresolved with ⟨hanswer, hloaders⟩
  cases hanswer with
  | ok hmirrors => exact ⟨.ok hmirrors, hloaders⟩
  | error e => cases e <;> exact ⟨.error _, hloaders⟩

/-- The same method is called. -/
theorem Mirrors.called (h : s.Mirrors rules s') (entry : EntryPoint) (args : List Value) :
    Alike (fun x x' => x.1.Mirrors rules x'.1 ∧ x'.2 = x.2 ∧ entry.find x.1 args = .ok x.2)
      (s.called entry args) (s'.called entry args) := by
  refine (h.resolveEntry entry).1.bind ?_
  intro module module' hmodule
  rw [entry.find_mirrors hmodule args]
  cases hfind : entry.find module args with
  | error e => exact .error e
  | ok index => exact .ok ⟨hmodule, rfl, hfind⟩

/-- The machines that are started are in lockstep, and the first has verified modules only. -/
theorem Mirrors.machine (h : s.Mirrors rules s') (entry : EntryPoint) :
    (s.machine entry).Mirrors rules (s'.machine entry) ∧ (s.machine entry).Verified := by
  constructor
  · exact ⟨rfl, h.world_eq, .some (h.resolveEntry entry).2⟩
  · rintro _ ⟨⟩
    rw [(s.resolveEntry_eq entry).1]
    exact (Loader.resolve_all Module.verified_ofDefine h.verified).1

/-- The call of the method that is found comes to the same end in both sandboxes. -/
theorem Mirrors.call (h : s.Mirrors rules s')
    (hstatic : ∀ rule ∈ rules.rules, rule.source.kind = .static)
    (hnatives : s.env.host.Equates rules) {entry : EntryPoint} {args : List Value}
    {module module' : Module} {index : Nat} (hmodule : module.Mirrors rules module')
    (hfind : entry.find module args = .ok index) :
    ((s.machine entry).call s.env module index args).1.Mirrors rules
        ((s'.machine entry).call s'.env module' index args).1 ∧
      ((s'.machine entry).call s'.env module' index args).2 =
        ((s.machine entry).call s.env module index args).2 ∧
      (s'.machine entry).handed s'.env module' index args =
        (s.machine entry).handed s.env module index args := by
  rcases Heights.exists_sound with ⟨heights, hheights⟩
  rcases entry.find_eq_ok hfind with ⟨method, signature, hmethod, hdescriptor, hparse, hargs⟩
  rcases Frame.enter_stands hmodule.verified hheights hmethod hdescriptor hparse hargs with
    ⟨entered, hentered, hstands⟩
  have hall : ∀ f, Frame.enter module index args = .ok f → f.Stands heights := by
    intro f henter
    obtain rfl : entered = f := Except.ok.inj (hentered.symm.trans henter)
    exact hstands
  rcases h.machine entry with ⟨hmachine, hverified⟩
  rw [h.env_eq]
  exact Machine.call_mirrors hmachine hmodule hverified hall hheights hstatic hnatives

/-- An invocation is the same in both sandboxes, and they answer alike after it. -/
theorem Mirrors.invoke (h : s.Mirrors rules s')
    (hstatic : ∀ rule ∈ rules.rules, rule.source.kind = .static)
    (hnatives : s.env.host.Equates rules) (entry : EntryPoint) (args : List Value) :
    (s'.invoke entry args).1 = (s.invoke entry args).1 ∧
      (s.invoke entry args).2.Mirrors rules (s'.invoke entry args).2 ∧
      s'.executed entry args = s.executed entry args ∧
      s'.handed entry args = s.handed entry args := by
  have hverified : (s.invoke entry args).2.loader.All Module.Verified :=
    (s.invoke_evolves entry args).all Module.verified_ofDefine h.verified
  have hresolved := (h.resolveEntry entry).2
  have hcalled := h.called entry args
  unfold executed handed
  generalize hfirst : s.called entry args = called, hsecond : s'.called entry args = called'
    at hcalled
  cases hcalled with
  | error e =>
    rw [invoke_of_error hfirst] at hverified
    rw [invoke_of_error hfirst, invoke_of_error hsecond]
    exact ⟨rfl, ⟨h.env_eq, h.world_eq, hresolved, hverified⟩, rfl, rfl⟩
  | @ok target target' htarget =>
    rcases target with ⟨module, index⟩
    rcases target' with ⟨module', index'⟩
    rcases htarget with ⟨hmodule, hindex, hfind⟩
    obtain rfl : index' = index := hindex
    rcases h.call hstatic hnatives hmodule hfind with ⟨hmachine, hending, hhanded⟩
    rw [invoke_of_ok hfirst] at hverified
    rw [invoke_of_ok hfirst, invoke_of_ok hsecond]
    refine ⟨?_, ⟨h.env_eq, hmachine.world_eq, ?_, hverified⟩, hmachine.executed_eq, hhanded⟩
    · exact congrArg (Ending.outcome entry.text) hending
    · -- A machine keeps the loaders it was started with, if it has any.
      have hloaders := hmachine.loaders
      generalize ((s.machine entry).call s.env module index' args).1.loader = left,
        ((s'.machine entry).call s'.env module' index' args).1.loader = left' at hloaders
      cases hloaders with
      | none => exact hresolved
      | some hk => exact hk

/-- Transparency. Let a layer that has defined no module yet be put on top of an in-memory bundle,
for whichever names. Let the bundle alone and the stack with the layer have loaded and resolved
anything since, each on its own. If

* all modules in the files are verified and can be redirected,
* the rules of the layer are for static calls, and
* the host has the same native for the source and the target of each rule,

then an invocation under the same limits and in the same world is the same with and without the
layer: the error that keeps it from running or the outcome, with all that a failure keeps of the
places it left, the world it leaves, the number of instructions, and the arguments that natives
are handed. -/
theorem invoke_transparent {plain layered : Sandbox} {files : List (String × List UInt8)}
    {l : Layer} (hspace : l.space = .empty) (hsuits : l.registry.rules.Suits files)
    (hstatic : ∀ rule ∈ l.registry.rules.rules, rule.source.kind = .static)
    (hnatives : plain.env.host.Equates l.registry.rules)
    (hplain : (Loader.bundle (.of (.memory files))).Evolves plain.loader)
    (hlayered : (Loader.layer l (.bundle (.of (.memory files)))).Evolves layered.loader)
    (henv : layered.env = plain.env) (hworld : layered.world = plain.world) (entry : EntryPoint)
    (args : List Value) :
    (layered.invoke entry args).1 = (plain.invoke entry args).1 ∧
      (layered.invoke entry args).2.world = (plain.invoke entry args).2.world ∧
      layered.executed entry args = plain.executed entry args ∧
      layered.handed entry args = plain.handed entry args := by
  have hfresh : (Loader.bundle (.of (.memory files))).Mirrors l.registry.rules
      (.layer l (.bundle (.of (.memory files)))) := Loader.mirrors_layer hspace hsuits hstatic
  have hloaders : plain.loader.Mirrors l.registry.rules layered.loader :=
    hfresh.keeps (hplain.keeps hfresh.coherent) (hlayered.keeps hfresh.coherent')
  have hverified : plain.loader.All Module.Verified :=
    hplain.all Module.verified_ofDefine (by simp [Loader.All, Bundle.of, Space.empty])
  have hmirrors : plain.Mirrors l.registry.rules layered :=
    ⟨henv, hworld, hloaders, hverified⟩
  rcases hmirrors.invoke hstatic hnatives entry args with ⟨hresult, hleft, hexecuted, hhanded⟩
  exact ⟨hresult, hleft.world_eq, hexecuted, hhanded⟩

end Sandbox

/-- A program that hands a number to a native and goes on in another module, which does the same
and throws. -/
def Image.putting : Image where
  major := 1
  minor := 0
  pool := ⟨#[.utf8 "a", .utf8 "main", .utf8 "()V", .utf8 "lib", .utf8 "put", .utf8 "(I)V",
    .method ⟨3, 4, 5⟩, .int 7, .utf8 "b", .method ⟨8, 1, 2⟩]⟩
  thisName := 0
  methods := #[⟨1, 1, 2, 0, #[.const 7, .invoke .static 6, .invoke .static 9, .ret], []⟩]

def Image.throwing : Image where
  major := 1
  minor := 0
  pool := ⟨#[.utf8 "b", .utf8 "main", .utf8 "()V", .utf8 "lib", .utf8 "put", .utf8 "(I)V",
    .method ⟨3, 4, 5⟩, .int 8, .utf8 "gone", .str 8]⟩
  thisName := 0
  methods := #[⟨1, 1, 2, 0, #[.const 7, .invoke .static 6, .const 9, .throw], []⟩]

/-- Calls of `lib.put(I)V` go to `spy.put(I)V`. -/
def Rule.putting : Rule :=
  .redirect ⟨"lib", "put", ⟨[.int], none⟩, .static⟩ "spy" "put"

/-- A layer that takes the first module and leaves the other one to the bundle. -/
def Layer.putting : Layer :=
  ⟨(· == "a"), ⟨.ofList [.putting], false⟩, .empty, .zero⟩

/-- The files of both modules. -/
def Image.puttingFiles : List (String × List UInt8) :=
  [(resourcePath "a", putting.bytes), (resourcePath "b", throwing.bytes)]

/-- Loaders on a host that records what it is handed under the source and under the target. -/
def Sandbox.putting (loader : Loader) : Sandbox where
  env :=
    let native := Native.recorded Rule.putting.source fun _ => .value .void
    ⟨(Host.empty.register Rule.putting.source native).register Rule.putting.target native, ⟨20, 3⟩⟩
  loader := loader
  world := .initial 4

/-- One of two calls is redirected, and what the program leaves behind is what it leaves without
the layer. -/
theorem Sandbox.invoke_transparent_putting :
    let plain := Sandbox.putting (.bundle (.of (.memory Image.puttingFiles)))
    let layered := Sandbox.putting (.layer .putting (.bundle (.of (.memory Image.puttingFiles))))
    ((match (plain.invoke (.main "a") []).1 with
        | .ok outcome => some (Summary.ofOutcome outcome)
        | .error _ => none) =
        some (.crash ["subsystem crashed in a.main()V", "at a.main()V @6", "at b.main()V @9",
          "gone"]) ∧
      plain.executed (.main "a") [] = 7 ∧
      (plain.handed (.main "a") []).map (·.map Value.text) = [["7"], ["8"]] ∧
      (layered.invoke (.main "a") []).2.loader.tally = ⟨1, 1⟩) ∧
    (layered.invoke (.main "a") []).1 = (plain.invoke (.main "a") []).1 ∧
      (layered.invoke (.main "a") []).2.world = (plain.invoke (.main "a") []).2.world ∧
      layered.executed (.main "a") [] = plain.executed (.main "a") [] ∧
      layered.handed (.main "a") [] = plain.handed (.main "a") [] := by
  intro plain layered
  refine ⟨by decide +kernel, ?_⟩
  have hrules : Layer.putting.registry.rules.rules = [Rule.putting] := rfl
  have hsuits : Layer.putting.registry.rules.Suits Image.puttingFiles := by
    intro name bytes hbytes
    have hcases : bytes = Image.putting.bytes ∨ bytes = Image.throwing.bytes := by
      simp only [Image.puttingFiles, List.lookup_cons] at hbytes
      grind
    rcases hcases with rfl | rfl
    · exact ⟨.putting, by decide +kernel⟩
    · exact ⟨.throwing, by decide +kernel⟩
  have hstatic : ∀ rule ∈ Layer.putting.registry.rules.rules, rule.source.kind = .static := by
    simp [hrules, Rule.putting, Rule.redirect]
  have hnatives : plain.env.host.Equates Layer.putting.registry.rules := by
    intro rule hrule
    rw [hrules, List.mem_singleton] at hrule
    rw [hrule]
    exact ⟨_, rfl, rfl⟩
  exact @invoke_transparent plain layered _ _ rfl hsuits hstatic hnatives .refl .refl rfl rfl
    (.main "a") []

end Interposition
