import Interposition.Proofs.Image.Alteration
import Interposition.Proofs.Linking.Coherence
import Interposition.Proofs.Sandbox.Mediation

/-!
# Interposition.Proofs.Sandbox.Capture — where printed lines go

With the traps installed, a call of the core library's print is redirected if that is what its
constant names. The line goes to the console then (`Sandbox.invoke_captures`). But an instance call
goes to the type of its receiver, whatever owner is written there. So a call that is written with
another owner is not redirected, and still prints when its receiver is a stream of the core library
(`Sandbox.invoke_prints_elsewhere`).
-/

namespace Interposition

/-! ## Calls -/

theorem Frame.instruction?_eq (f : Frame) :
    f.module.image.instruction? f.index f.position = some f.instruction := by
  rw [Image.instruction?, f.method_found]
  exact f.getElem?_position

/-- An instruction that calls a symbol has its name, its signature and its kind written there. Its
owner is written there if it is a static call. -/
theorem Snapshot.Calls.instruction {env : Environment} {symbol : Symbol} {s : Snapshot}
    (h : s.Calls env symbol) :
    ∃ index m, s.frame.instruction = .invoke symbol.kind index ∧
      s.frame.module.image.pool.method? index = some m ∧ m.name = symbol.name ∧
      Signature.parse m.descriptor = .ok symbol.signature := by
  rcases h with ⟨waiting, call, hexecute, rfl⟩
  rcases Frame.execute_of hexecute with ⟨kind, index, hi, hcall⟩
  rcases Frame.call_eq_ok_iff.1 hcall with ⟨m, signature, owner, hm, hparse, -, -, rfl, -⟩
  exact ⟨index, m, hi, hm, rfl, hparse⟩

/-! ## Traps -/

/-- Installed traps have the rule for prints, and the host has the native that captures them. -/
theorem Traps.install_captures {tag : String} {forced : List String} {host host' : Host}
    {r r' : Registry} (h : install tag forced host r = (.ok host', r')) :
    r'.rules.lookup Core.printSymbol = some printRule ∧
      host'.native? printRule.target = some (handlePrint tag) := by
  rcases install_ok h with ⟨hregister, rfl⟩
  have hmem : printRule ∈ r'.rules.rules := (registerAll_ok hregister).1 printRule (by simp)
  refine ⟨RuleSet.lookup_source hmem, ?_⟩
  have hother : (printRule.target == getBooleanRule.target) = false := by decide
  simp [Host.native?, Host.register, List.lookup_cons, hother]

/-- A frame at a redirected print hands the receiver and the line to the trap. -/
theorem Traps.execute_print (host : Host) {f : Frame} {target : UInt16} {line receiver : Value}
    {rest : List Value} (hi : f.instruction = .invoke .static target)
    (hm : f.module.image.pool.method? target = some printRule.target.texts)
    (hstack : f.stack = line :: receiver :: rest) :
    f.execute host = .ok (.call { f with stack := rest }
      ⟨printRule.target, printRule.target.signature.descriptor, [receiver, line]⟩) := by
  have hparse : Signature.parse printRule.target.texts.descriptor =
      .ok printRule.target.signature := by decide +kernel
  have harity : printRule.target.signature.arity + CallKind.static.receivers = 2 := rfl
  have hcall : f.call .static target = .ok
      (⟨printRule.target, printRule.target.signature.descriptor, [receiver, line]⟩,
        { f with stack := rest }) := by
    rw [Frame.call_eq hm hparse, harity, if_neg (by simp [hstack]), Frame.operands, harity, hstack]
    rfl
  simp only [Frame.execute, hi, hcall]
  rfl

/-- The line of a redirected print goes to the console. -/
theorem Traps.next_print {env : Environment} {t : Snapshot} {target : UInt16} {tag line : String}
    {receiver : Value} {rest : List Value} (hi : t.frame.instruction = .invoke .static target)
    (hm : t.frame.module.image.pool.method? target = some printRule.target.texts)
    (hnative : env.host.native? printRule.target = some (handlePrint tag))
    (hstack : t.frame.stack = .str line :: receiver :: rest) :
    (t.next env).1.world = t.machine.world.emit ⟨tag, line⟩ := by
  have hexecute := execute_print env.host hi hm hstack
  unfold Snapshot.next step
  rw [hexecute]
  simp only [perform, hnative]
  rfl

/-! ## Runs -/

/-- The modules that a stack answers with, where each of them resolves its references at the top,
and all that becomes of the stack. -/
def Confinement.answers (start : Loader)
    (htop : ∀ name m, start.answer name = .ok m → m.level = some start.level) : Confinement where
  modules m := ∃ name, start.answer name = .ok m
  loaders := start.Keeps
  closed := by
    rintro loader caller level name hloader ⟨origin, horigin⟩ hlevel
    obtain rfl : start.level = level :=
      Option.some.inj ((htop origin caller horigin).symm.trans hlevel)
    rcases hloader.coherent.resolveAt start.level name with ⟨hkeeps, hanswer⟩
    refine ⟨hloader.trans hkeeps, ?_⟩
    intro m hm
    refine ⟨name, ?_⟩
    rw [← start.answerAt_level, ← hloader.answerAt_eq, ← hanswer, hm]

namespace Sandbox

variable {s : Sandbox}

/-- All runs stay among the modules that the stack answers with. -/
theorem Runs.answers {entry : EntryPoint} {args : List Value} {t : Snapshot} {start : Loader}
    (h : s.Runs entry args t)
    (htop : ∀ name m, start.answer name = .ok m → m.level = some start.level)
    (hs : start.Keeps s.loader) : t.Confined (.answers start htop) := by
  rcases h with ⟨module, index, f, hmodule, -, henter, hreaches⟩
  rcases s.resolveEntry_eq entry with ⟨hloader, hanswer⟩
  rcases hs.coherent.resolve entry.module with ⟨hkeeps, hresolved⟩
  refine hreaches.confined ⟨?_, ?_, by simp [Callers.Confined, Callers.empty]⟩
  · rintro _ ⟨⟩
    rw [hloader]
    exact hs.trans hkeeps
  · rw [Frame.enter_module henter]
    refine ⟨entry.module, ?_⟩
    rw [← hs.answer_eq, ← hresolved, hanswer module hmodule]

end Sandbox

/-- The image in the file of the module that a snapshot is in, and the instruction that is written
there in the place of the one about to be executed. -/
def Snapshot.Written (files : List (String × List UInt8)) (t : Snapshot) (original : Image)
    (i : Instruction) : Prop :=
  ∃ bytes, files.lookup (resourcePath t.frame.module.name) = some bytes ∧
    Image.decode bytes = .ok original ∧
    original.instruction? t.frame.index t.frame.position = some i

/-- Below a layer that takes all names and has rules, an instruction about to be executed is what
the rules make of the one that is written in its file. -/
theorem Sandbox.Runs.written {s : Sandbox} {files : List (String × List UInt8)} {l : Layer}
    {entry : EntryPoint} {args : List Value} {t : Snapshot} (h : s.Runs entry args t)
    (hselects : ∀ name, l.selects name = true) (hspace : l.space = .empty)
    (hrules : l.registry.rules.isEmpty = false)
    (hevolves : (Loader.layer l (.bundle (.of (.memory files)))).Evolves s.loader) :
    ∃ original i, t.Written files original i ∧
      t.frame.module.image.pool.Extends original.pool ∧
      i.Becomes l.registry.rules t.frame.module.image.pool t.frame.instruction := by
  have hanswer (name : String) (m : Module)
      (hm : (Loader.layer l (.bundle (.of (.memory files)))).answer name = .ok m) :
      ∃ bytes, files.lookup (resourcePath name) = some bytes ∧
        l.answer 1 name bytes = .ok m := by
    rw [Loader.answer, if_pos (hselects name)] at hm
    rcases bind_eq_ok_iff.1 hm with ⟨bytes, hread, hm⟩
    exact ⟨bytes, Resources.readModule_memory.1 hread, hm⟩
  have hcoherent : (Loader.layer l (.bundle (.of (.memory files)))).Coherent :=
    Loader.coherent_layer (Loader.coherent_bundle _) hspace
  have htop (name : String) (m : Module)
      (hm : (Loader.layer l (.bundle (.of (.memory files)))).answer name = .ok m) :
      m.level = some (Loader.layer l (.bundle (.of (.memory files)))).level := by
    rcases hanswer name m hm with ⟨bytes, -, hm⟩
    exact (Layer.answer_eq_ok hm).2.1
  rcases (h.answers htop (hevolves.keeps hcoherent)).frame with ⟨name, hm⟩
  rcases hanswer name _ hm with ⟨bytes, hbytes, hm⟩
  rcases Layer.answer_eq_ok hm with ⟨hname, -, original, report, hdecode, hredirect⟩
  have hsize := (Image.decode_eq_ok_iff.1 hdecode).2.1.pool_size
  rcases Image.redirect_alters hsize hredirect with ⟨hempty, -⟩ | halters
  · rw [hrules] at hempty
    cases hempty
  · rcases halters.exists_instruction t.frame.instruction?_eq with ⟨i, hi, hbecomes⟩
    exact ⟨original, i, ⟨bytes, by rwa [hname], hdecode, hi⟩, halters.extends_pool, hbecomes⟩

namespace Sandbox

/-- Capture at the calls that are written as prints. Let a layer that takes all names, and has
defined no module yet, be on top of an in-memory bundle, let anything have been loaded and resolved
since, and let the traps be installed on the host of the core library and in the registry of the
layer. Then, whichever instruction a run comes to,

* if a print is written there, with the owner of the core library, the native of the library is
  not called, and the line on top of the stack goes to the console;
* if the native of the library is called, it is by an instance call whose constant has the name
  and the signature of a print and another owner. -/
theorem invoke_captures {s : Sandbox} {files : List (String × List UInt8)} {l : Layer}
    {tag : String} {forced : List String} {registry : Registry}
    (hselects : ∀ name, l.selects name = true) (hspace : l.space = .empty)
    (hevolves : (Loader.layer l (.bundle (.of (.memory files)))).Evolves s.loader)
    (hinstall : Traps.install tag forced Core.host registry = (.ok s.env.host, l.registry))
    {entry : EntryPoint} {args : List Value} {t : Snapshot} (h : s.Runs entry args t) :
    (∃ original i, t.Written files original i ∧
      ∀ index, i = .invoke .virtual index →
        original.pool.Names (index, .virtual) Core.printSymbol →
        ¬ t.Calls s.env Core.printSymbol ∧
          ∀ line receiver rest, t.frame.stack = .str line :: receiver :: rest →
            (t.next s.env).1.world = t.machine.world.emit ⟨tag, line⟩) ∧
    (t.Calls s.env Core.printSymbol →
      ∃ index m, t.frame.instruction = .invoke .virtual index ∧
        t.frame.module.image.pool.method? index = some m ∧ m.owner ≠ Core.printStream ∧
        m.name = "println" ∧ Signature.parse m.descriptor = .ok ⟨[.str], none⟩) := by
  rcases Traps.install_captures hinstall with ⟨hrule, hnative⟩
  have hrules : l.registry.rules.isEmpty = false := by
    by_contra hempty
    have hnone : l.registry.rules.lookup Core.printSymbol = none :=
      RuleSet.lookup_eq_none (by simpa using hempty)
    rw [hrule] at hnone
    cases hnone
  rcases h.written hselects hspace hrules hevolves with
    ⟨original, i, hwritten, hextends, hbecomes⟩
  constructor
  · refine ⟨original, i, hwritten, ?_⟩
    rintro index rfl hnames
    rcases hbecomes.of_ruled (hnames.extends hextends) hrule with ⟨target, hi, htarget⟩
    constructor
    · intro hcalls
      rcases hcalls.instruction with ⟨_, _, hvirtual, -⟩
      rw [hi] at hvirtual
      cases hvirtual
    · intro line receiver rest hstack
      exact Traps.next_print hi htarget hnative hstack
  · intro hcalls
    rcases hcalls.instruction with ⟨index, m, hi, hm, hname, hparse⟩
    refine ⟨index, m, hi, hm, ?_, hname, hparse⟩
    intro howner
    have hnames : t.frame.module.image.pool.Names (index, .virtual) Core.printSymbol :=
      ⟨m, hm, map_eq_ok_iff.2 ⟨_, hparse, by rw [howner, hname]; rfl⟩⟩
    rw [hi] at hbecomes
    -- An instance call is never what a rule makes of another.
    rcases hbecomes.calls_target hnames hrule with ⟨hstatic, -⟩
    cases hstatic

end Sandbox

/-- A program that prints a line on a stream of the core library. The owner of the print is the
constant at an index: that of the library (12) or another one (13). -/
def Image.printing (owner : UInt16) : Image where
  major := 1
  minor := 0
  pool := ⟨#[.utf8 "a", .utf8 "main", .utf8 "()V", .utf8 "core.System", .utf8 "out",
    .utf8 "Lcore.PrintStream;", .field ⟨3, 4, 5⟩, .utf8 "hi", .str 7, .utf8 "println",
    .utf8 "(T)V", .method ⟨owner, 9, 10⟩, .utf8 "core.PrintStream", .utf8 "app.Other"]⟩
  thisName := 0
  methods := #[⟨1, 1, 2, 0, #[.getStatic 6, .const 8, .invoke .virtual 11, .ret], []⟩]

/-- A program that prints, in a layer with the traps installed. -/
def Sandbox.printing (owner : UInt16) : Sandbox where
  env := ⟨((Core.host.register Traps.exitRule.target Traps.handleExit).register
    Traps.printRule.target (Traps.handlePrint "a")).register
    Traps.getBooleanRule.target (Traps.handleGetBoolean []), ⟨10, 2⟩⟩
  loader := .layer ⟨fun _ => true, (Traps.install "a" [] Core.host .empty).2, .empty, .zero⟩
    (.bundle (.of (.memory [(resourcePath "a", (Image.printing owner).bytes)])))
  world := .initial 4

namespace Sandbox

/-- A print with the owner of the core library goes to the console. -/
theorem invoke_captures_printing :
    (((printing 12).invoke (.main "a") []).2.world.console.buffered = #[⟨"a", "hi"⟩] ∧
      ((printing 12).invoke (.main "a") []).2.world.printed = #[]) ∧
    ∃ t, (printing 12).Runs (.main "a") [] t ∧
      t.Calls (printing 12).env Traps.printRule.target ∧
      ∃ original i,
        t.Written [(resourcePath "a", (Image.printing 12).bytes)] original i ∧
        ∀ index, i = .invoke .virtual index →
          original.pool.Names (index, .virtual) Core.printSymbol →
          ¬ t.Calls (printing 12).env Core.printSymbol ∧
            ∀ line receiver rest, t.frame.stack = .str line :: receiver :: rest →
              (t.next (printing 12).env).1.world = t.machine.world.emit ⟨"a", line⟩ := by
  refine ⟨by decide +kernel, ?_⟩
  have hinstall : Traps.install "a" [] Core.host .empty =
      (.ok (printing 12).env.host, (Traps.install "a" [] Core.host .empty).2) := rfl
  obtain ⟨t, hruns, hcalls⟩ : ∃ t, (printing 12).Runs (.main "a") [] t ∧
      t.Calls (printing 12).env Traps.printRule.target :=
    exists_calls (fun _ w => (.exit 3, w)) Except.isOk (by decide +kernel)
  exact ⟨t, hruns, hcalls, (invoke_captures (fun _ => rfl) rfl .refl hinstall hruns).1⟩

/-- A print with another owner is not captured, so the native of the core library may well be
called. -/
theorem invoke_prints_elsewhere :
    (((printing 13).invoke (.main "a") []).2.world.console.buffered = #[] ∧
      ((printing 13).invoke (.main "a") []).2.world.printed = #[(.out, "hi")]) ∧
    ¬ ∀ (files : List (String × List UInt8)) (l : Layer) (tag : String) (forced : List String)
        (registry : Registry) (s : Sandbox), (∀ name, l.selects name = true) → l.space = .empty →
      (Loader.layer l (.bundle (.of (.memory files)))).Evolves s.loader →
      Traps.install tag forced Core.host registry = (.ok s.env.host, l.registry) →
      ∀ entry args t, s.Runs entry args t → ¬ t.Calls s.env Core.printSymbol := by
  refine ⟨by decide +kernel, ?_⟩
  intro hnever
  obtain ⟨t, hruns, hcalls⟩ : ∃ t, (printing 13).Runs (.main "a") [] t ∧
      t.Calls (printing 13).env Core.printSymbol :=
    exists_calls (fun _ w => (.exit 3, w)) Except.isOk (by decide +kernel)
  exact hnever _ _ "a" [] .empty (printing 13) (fun _ => rfl) rfl .refl rfl (.main "a") [] t hruns
    hcalls

end Sandbox

end Interposition
