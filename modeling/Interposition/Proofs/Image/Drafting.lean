import Interposition.Image.Assembly
import Interposition.Proofs.Checks
import Mathlib.Data.List.Induction

/-!
# Interposition.Proofs.Image.Drafting — what is done with a draft

A module is drafted method by method, and a method by one operation after another. `Operation` has
what can be done with the draft of a method, `MethodScript` a method with all that is done with it.
Each operation is said by what it does to the items, the labels and the handlers of the draft
(`perform_items` and those after it), so that a whole sequence is said by what was added.

Whatever is done, a module keeps the methods it has and the first fault it met
(`MethodDraft.after_extends`, `ModuleDraft.after_extends`). So what is built at the end has every
method that was finished, and a fault anywhere is what building answers.
-/

namespace Interposition

/-- An instruction that refers to no constant and goes nowhere. -/
abbrev Instruction.Standalone :=
  { i : Instruction // i.poolOperand? = none ∧ i.jumpTarget? = none }

/-! ## Lists side by side -/

section Pairing

variable {α β γ : Type} {R : α → β → Prop} {S : β → γ → Prop} {as : List α} {bs : List β}
  {cs : List γ}

theorem forall₂_comp (h : List.Forall₂ R as bs) (h' : List.Forall₂ S bs cs) :
    List.Forall₂ (fun a c => ∃ b, R a b ∧ S b c) as cs := by
  induction h generalizing cs with
  | nil =>
    cases h'
    exact .nil
  | cons hab _ ih =>
    cases h' with
    | cons hbc hrest => exact .cons ⟨_, hab, hbc⟩ (ih hrest)

theorem exists_right_of_forall₂ (h : List.Forall₂ R as bs) {a : α} (ha : a ∈ as) :
    ∃ b ∈ bs, R a b := by
  induction h with
  | nil => cases ha
  | cons hfirst _ ih =>
    rcases List.mem_cons.1 ha with rfl | ha
    · exact ⟨_, List.mem_cons_self, hfirst⟩
    · rcases ih ha with ⟨b, hb, hab⟩
      exact ⟨b, List.mem_cons_of_mem _ hb, hab⟩

theorem exists_left_of_forall₂ (h : List.Forall₂ R as bs) {b : β} (hb : b ∈ bs) :
    ∃ a ∈ as, R a b :=
  exists_right_of_forall₂ h.flip hb

end Pairing

namespace MethodDraft

/-! ## Operations -/

/-- What is done with the draft of a method. -/
inductive Operation where
  | plain (i : Instruction.Standalone)
  | int (value : Int64)
  | str (text : String)
  | getStatic (field : MemberTexts)
  | new (typeName : String)
  | invoke (kind : CallKind) (method : MemberTexts)
  | jump (label : Nat)
  | jumpIfFalse (label : Nat)
  | newLabel
  | bind (label : Nat)
  | handler (labels : HandlerLabels)
  | setLocals (count : UInt16)
  | finish
deriving DecidableEq

namespace Operation

/-- Whether an operation emits an instruction. -/
def emits : Operation → Bool
  | newLabel | bind _ | handler _ | setLocals _ | finish => false
  | _ => true

/-- Whether an operation makes a label. -/
def makesLabel : Operation → Bool
  | newLabel => true
  | _ => false

/-- The handler that an operation adds. -/
def handler? : Operation → Option HandlerLabels
  | handler labels => some labels
  | _ => none

/-- What an operation interns, and the instruction that it makes with the position of that. -/
def interned? : Operation → Option (Interning UInt16 × (UInt16 → Instruction))
  | int value => some (Pool.internInt value, .const)
  | str text => some (Pool.internStr text, .const)
  | getStatic field => some (Pool.internField field, .getStatic)
  | new typeName => some (Pool.internUtf8 typeName, .new)
  | invoke kind method => some (Pool.internMethod method, .invoke kind)
  | _ => none

/-- What an operation emits in a draft. -/
def item? (d : MethodDraft) : Operation → Option Item
  | plain i => some (.plain i)
  | jump label => some (.jump label)
  | jumpIfFalse label => some (.jumpIfFalse label)
  | op => op.interned?.map fun (operation, make) =>
    .plain (make (d.module.intern operation).1)

end Operation

def perform (d : MethodDraft) : Operation → MethodDraft
  | .plain i => d.emit (.plain i)
  | .int value => d.int value
  | .str text => d.str text
  | .getStatic field => d.getStatic field
  | .new typeName => d.new typeName
  | .invoke kind method => d.invoke kind method
  | .jump label => d.emit (.jump label)
  | .jumpIfFalse label => d.emit (.jumpIfFalse label)
  | .newLabel => d.newLabel
  | .bind label => d.bind label
  | .handler labels => d.handler labels
  | .setLocals count => d.setLocals count
  | .finish => d.finish

/-- The draft after some operations. -/
def after (d : MethodDraft) (ops : List Operation) : MethodDraft :=
  ops.foldl perform d

end MethodDraft

/-- A method and what is done with its draft. -/
structure MethodScript where
  name : String
  descriptor : String
  flags : UInt16
  operations : List MethodDraft.Operation
deriving DecidableEq

namespace ModuleDraft

/-- The draft of a method, after what is done with it. -/
def start (d : ModuleDraft) (s : MethodScript) : MethodDraft :=
  (d.method s.name s.descriptor s.flags).after s.operations

/-- The module after some methods have been drafted. -/
def after (d : ModuleDraft) (scripts : List MethodScript) : ModuleDraft :=
  scripts.foldl (fun d s => (d.start s).module) d

end ModuleDraft

/-! ## One operation -/

namespace MethodDraft

theorem after_concat (d : MethodDraft) (ops : List Operation) (op : Operation) :
    d.after (ops ++ [op]) = (d.after ops).perform op := by
  rw [after, List.foldl_append]
  rfl

/-- Finishing adds to the module alone. -/
theorem finish_eq (d : MethodDraft) : d.finish = { d with module := d.finish.module } := by
  unfold finish
  split <;> rfl

theorem perform_items (d : MethodDraft) (op : Operation) :
    (d.perform op).items.toList = d.items.toList ++ (op.item? d).toList := by
  cases op with
  | finish =>
    rw [perform, finish_eq]
    simp [Operation.item?, Operation.interned?]
  | newLabel | bind | handler | setLocals =>
    simp [perform, newLabel, bind, handler, setLocals, Operation.item?, Operation.interned?]
  | _ =>
    simp [perform, emit, int, str, getStatic, new, invoke, emitInterned, Operation.item?,
      Operation.interned?]

theorem perform_labels (d : MethodDraft) (op : Operation) :
    (d.perform op).labels =
      match op with
      | .newLabel => d.labels.push none
      | .bind label => d.labels.setIfInBounds label (some d.items.size)
      | _ => d.labels := by
  cases op with
  | finish =>
    rw [perform, finish_eq]
  | _ => rfl

theorem perform_handlers (d : MethodDraft) (op : Operation) :
    (d.perform op).handlers.toList = d.handlers.toList ++ op.handler?.toList := by
  cases op with
  | finish =>
    rw [perform, finish_eq]
    simp [Operation.handler?]
  | handler labels => simp [perform, handler, Operation.handler?]
  | _ => exact (List.append_nil _).symm

/-- What an operation interns goes to the pool of the module. Besides that, only finishing the
method changes the module. -/
theorem perform_module (d : MethodDraft) (op : Operation) :
    (d.perform op).module =
      match op.interned? with
      | some (operation, _) => (d.module.intern operation).2
      | none => if op = .finish then d.finish.module else d.module := by
  cases op <;> rfl

/-- The header of a method is fixed when its draft is started. -/
structure SameHeader (e d : MethodDraft) : Prop where
  label : e.label = d.label
  flags : e.flags = d.flags
  name : e.name = d.name
  descriptor : e.descriptor = d.descriptor

theorem perform_header (d : MethodDraft) (op : Operation) : (d.perform op).SameHeader d := by
  cases op with
  | finish =>
    rw [perform, finish_eq]
    exact ⟨rfl, rfl, rfl, rfl⟩
  | _ => exact ⟨rfl, rfl, rfl, rfl⟩

theorem after_header (d : MethodDraft) (ops : List Operation) : (d.after ops).SameHeader d := by
  induction ops using List.reverseRecOn with
  | nil => exact ⟨rfl, rfl, rfl, rfl⟩
  | append_singleton ops op ih =>
    rw [after_concat]
    have hlast := (d.after ops).perform_header op
    exact ⟨hlast.label.trans ih.label, hlast.flags.trans ih.flags, hlast.name.trans ih.name,
      hlast.descriptor.trans ih.descriptor⟩

theorem Operation.isSome_item? (op : Operation) (d : MethodDraft) :
    (op.item? d).isSome = op.emits := by
  cases op <;> rfl

/-- The items are one for each operation that emits, in order. -/
theorem forall₂_perform_items {R : Operation → Item → Prop} {d : MethodDraft}
    {ops : List Operation} {op : Operation}
    (h : List.Forall₂ R (ops.filter Operation.emits) d.items.toList)
    (hop : ∀ item, op.item? d = some item → R op item) :
    List.Forall₂ R ((ops ++ [op]).filter Operation.emits) (d.perform op).items.toList := by
  rw [perform_items, List.filter_append]
  refine List.rel_append h ?_
  have hemits := op.isSome_item? d
  cases hitem : op.item? d with
  | none =>
    rw [hitem] at hemits
    simp [← hemits]
  | some item =>
    rw [hitem] at hemits
    simpa [← hemits] using hop item hitem

namespace Operation

variable {op : Operation} {label : Nat}

theorem eq_jump_of_item? {d : MethodDraft} (h : op.item? d = some (.jump label)) :
    op = .jump label := by
  cases op <;> simp_all [item?, interned?]

theorem eq_jumpIfFalse_of_item? {d : MethodDraft} (h : op.item? d = some (.jumpIfFalse label)) :
    op = .jumpIfFalse label := by
  cases op <;> simp_all [item?, interned?]

theorem eq_handler_of_handler? {labels : HandlerLabels} (h : op.handler? = some labels) :
    op = .handler labels := by
  cases op <;> simp_all [handler?]

end Operation

end MethodDraft

/-! ## What stays -/

namespace ModuleDraft

/-- What comes of a draft by more operations has its methods first, and its fault. -/
structure Extends (later d : ModuleDraft) : Prop where
  methods : d.methods.toList <+: later.methods.toList
  fault : ∀ e, d.fault = some e → later.fault = some e

theorem Extends.refl (d : ModuleDraft) : d.Extends d :=
  ⟨List.prefix_refl _, fun _ h => h⟩

theorem Extends.trans {d e f : ModuleDraft} (hfe : f.Extends e) (hed : e.Extends d) :
    f.Extends d :=
  ⟨hed.methods.trans hfe.methods, fun error h => hfe.fault error (hed.fault error h)⟩

/-- Without a fault at the end there was none before. -/
theorem Extends.fault_eq_none {later d : ModuleDraft} (h : later.Extends d)
    (hlater : later.fault = none) : d.fault = none := by
  cases hfault : d.fault with
  | none => rfl
  | some e =>
    rw [h.fault e hfault] at hlater
    cases hlater

theorem fail_extends (d : ModuleDraft) (error : AssemblyError) : (d.fail error).Extends d := by
  refine ⟨List.prefix_refl _, ?_⟩
  intro e h
  rw [fail, h]
  rfl

theorem fault_fail (d : ModuleDraft) (error : AssemblyError) :
    (d.fail error).fault = some (d.fault.getD error) := by
  cases hfault : d.fault <;> simp [fail, hfault]

theorem intern_extends (d : ModuleDraft) (operation : Interning UInt16) :
    (d.intern operation).2.Extends d := by
  unfold intern
  split
  case h_1 => exact ⟨List.prefix_refl _, fun _ h => h⟩
  case h_2 index pool hpool =>
    refine (fail_extends _ _).trans ?_
    exact ⟨List.prefix_refl _, fun _ h => h⟩

theorem intern_methods (d : ModuleDraft) (operation : Interning UInt16) :
    (d.intern operation).2.methods = d.methods := by
  unfold intern
  split <;> rfl

/-- Interning that leaves no fault has found a position. -/
theorem intern_of_fault_eq_none {d : ModuleDraft} {operation : Interning UInt16}
    (h : (d.intern operation).2.fault = none) :
    ∃ pool, operation d.pool = (.ok (d.intern operation).1, pool) ∧
      (d.intern operation).2 = { d with pool } := by
  unfold intern at h ⊢
  split
  case h_1 index pool hpool => exact ⟨pool, hpool, rfl⟩
  case h_2 overflow pool hpool =>
    rw [hpool] at h
    simp [fault_fail] at h

/-- Starting the draft of a method interns its name and its descriptor, after the fault of a
descriptor that cannot be read. -/
theorem method_eq (d : ModuleDraft) (name descriptor : String) (flags : UInt16) :
    ∃ read : ModuleDraft, (read = d ∨ ∃ error, read = d.fail error) ∧
      (d.method name descriptor flags).name = (read.intern (Pool.internUtf8 name)).1 ∧
      (d.method name descriptor flags).descriptor =
        ((read.intern (Pool.internUtf8 name)).2.intern (Pool.internUtf8 descriptor)).1 ∧
      (d.method name descriptor flags).module =
        ((read.intern (Pool.internUtf8 name)).2.intern (Pool.internUtf8 descriptor)).2 := by
  unfold method
  cases Signature.parse descriptor with
  | ok signature => exact ⟨d, Or.inl rfl, rfl, rfl, rfl⟩
  | error error => exact ⟨_, Or.inr ⟨_, rfl⟩, rfl, rfl, rfl⟩

theorem method_extends (d : ModuleDraft) (name descriptor : String) (flags : UInt16) :
    (d.method name descriptor flags).module.Extends d := by
  rcases d.method_eq name descriptor flags with ⟨read, hread, -, -, hmodule⟩
  rw [hmodule]
  refine (intern_extends _ _).trans ((intern_extends _ _).trans ?_)
  rcases hread with rfl | ⟨error, rfl⟩
  · exact .refl _
  · exact fail_extends _ _

end ModuleDraft

namespace MethodDraft

/-- A method that can be assembled is added to the module. -/
theorem finish_of_ok {d : MethodDraft} {m : Method} (h : d.assemble = .ok m) :
    d.finish.module = { d.module with methods := d.module.methods.push m } := by
  rw [finish, h]

theorem finish_of_error {d : MethodDraft} {error : AssemblyError} (h : d.assemble = .error error) :
    d.finish.module = d.module.fail error := by
  rw [finish, h]

theorem finish_extends (d : MethodDraft) : d.finish.module.Extends d.module := by
  cases h : d.assemble with
  | ok m =>
    rw [finish_of_ok h]
    exact ⟨by simp, fun _ hfault => hfault⟩
  | error error =>
    rw [finish_of_error h]
    exact ModuleDraft.fail_extends _ _

/-- Only finishing the method adds one to the module. -/
theorem perform_methods {d : MethodDraft} {op : Operation} (h : op ≠ .finish) :
    (d.perform op).module.methods = d.module.methods := by
  rw [perform_module]
  split
  case h_1 => exact ModuleDraft.intern_methods _ _
  case h_2 => rw [if_neg h]

theorem perform_extends (d : MethodDraft) (op : Operation) :
    (d.perform op).module.Extends d.module := by
  rw [perform_module]
  split
  case h_1 => exact ModuleDraft.intern_extends _ _
  case h_2 =>
    split
    · exact finish_extends d
    · exact .refl _

theorem after_extends (d : MethodDraft) (ops : List Operation) :
    (d.after ops).module.Extends d.module := by
  induction ops using List.reverseRecOn with
  | nil => exact .refl _
  | append_singleton ops op ih =>
    rw [after_concat]
    exact (perform_extends _ op).trans ih

end MethodDraft

namespace ModuleDraft

theorem start_extends (d : ModuleDraft) (s : MethodScript) : (d.start s).module.Extends d :=
  (MethodDraft.after_extends _ _).trans (method_extends d _ _ _)

theorem after_extends (d : ModuleDraft) (scripts : List MethodScript) :
    (d.after scripts).Extends d := by
  induction scripts generalizing d with
  | nil => exact .refl d
  | cons s rest ih => exact (ih (d.start s).module).trans (start_extends d s)

/-- A module is built unless a fault was met. -/
theorem build_eq_ok_iff {d : ModuleDraft} {image : Image} :
    d.build = .ok image ↔
      d.fault = none ∧ image = ⟨Image.majorVersion, Image.minorVersion, d.pool, 0, d.methods⟩ := by
  unfold build
  cases d.fault with
  | some error => simp
  | none => simp [eq_comm]

theorem build_eq_error_iff {d : ModuleDraft} {error : AssemblyError} :
    d.build = .error error ↔ d.fault = some error := by
  unfold build
  cases d.fault with
  | some error => simp
  | none => simp

end ModuleDraft

end Interposition
