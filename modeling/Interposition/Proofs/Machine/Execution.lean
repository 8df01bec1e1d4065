import Interposition.Image.Verify
import Interposition.Proofs.Checks
import Interposition.Proofs.Machine.Course

/-!
# Interposition.Proofs.Machine.Execution — what an instruction does to its frame

An instruction that goes on does so in the same activation, and only a call instruction calls
(`execute_of`). Where the verifier's effect of an instruction applies, the instruction does not
fail for a defect of the code and changes the height of the stack by exactly that effect
(`execute_conforms`).
-/

namespace Interposition

namespace Frame

/-! ## Position -/

theorem method_mem (f : Frame) : f.method ∈ f.module.image.methods :=
  Array.mem_of_getElem? f.method_found

theorem getElem?_position (f : Frame) : f.method.code[f.position]? = some f.instruction :=
  Array.getElem?_eq_getElem f.position_lt

theorem instruction_eq_of_getElem? {f : Frame} {i : Instruction}
    (h : f.method.code[f.position]? = some i) : f.instruction = i :=
  Option.some.inj (f.getElem?_position.symm.trans h)

/-! ## Entering -/

theorem enter_of_none {m : Module} {index : Nat} {args : List Value}
    (h : m.image.methods[index]? = none) :
    enter m index args = .error (.malformed (.noMethod index m.name)) := by
  unfold enter
  split
  case h_1 => rfl
  case h_2 method hmethod =>
    rw [h] at hmethod
    cases hmethod

theorem enter_of_some {m : Module} {index : Nat} {args : List Value} {method : Method}
    (h : m.image.methods[index]? = some method) :
    enter m index args =
      if method.maxLocals.toNat < args.length then
        .error (.malformed (.tooManyArguments args.length method.maxLocals.toNat))
      else if hnonempty : 0 < method.code.size then
        .ok ⟨m, index, method,
          args.toArray ++ Array.replicate (method.maxLocals.toNat - args.length) .void, [], 0, h,
          hnonempty⟩
      else .error (.malformed .offEnd) := by
  unfold enter
  split
  case h_1 hnone =>
    rw [h] at hnone
    cases hnone
  case h_2 found hfound =>
    obtain rfl : method = found := Option.some.inj (h.symm.trans hfound)
    rfl

/-! ## The activation stays -/

/-- Another state of the same activation, at the same instruction. -/
structure Stays (f g : Frame) : Prop where
  module_eq : g.module = f.module
  index_eq : g.index = f.index
  method_eq : g.method = f.method
  position_eq : g.position = f.position
  locals_size : g.locals.size = f.locals.size

theorem Stays.refl (f : Frame) : f.Stays f :=
  ⟨rfl, rfl, rfl, rfl, rfl⟩

theorem Stays.trans {f g k : Frame} (hfg : f.Stays g) (hgk : g.Stays k) : f.Stays k :=
  ⟨hgk.module_eq.trans hfg.module_eq, hgk.index_eq.trans hfg.index_eq,
    hgk.method_eq.trans hfg.method_eq, hgk.position_eq.trans hfg.position_eq,
    hgk.locals_size.trans hfg.locals_size⟩

theorem Stays.push {f g : Frame} (h : f.Stays g) (v : Value) : f.Stays (g.push v) :=
  ⟨h.module_eq, h.index_eq, h.method_eq, h.position_eq, h.locals_size⟩

theorem pop_stays {f g : Frame} {v : Value} (h : f.pop = .ok (v, g)) : f.Stays g := by
  unfold pop at h
  split at h
  · obtain ⟨-, rfl⟩ := by simpa using h
    exact ⟨rfl, rfl, rfl, rfl, rfl⟩
  · cases h

theorem pop2_stays {f g : Frame} {a b : Value} (h : f.pop2 = .ok (a, b, g)) : f.Stays g := by
  simp only [pop2, bind_eq_ok_iff] at h
  rcases h with ⟨⟨right, f₁⟩, h₁, ⟨left, f₂⟩, h₂, heq⟩
  obtain ⟨-, -, rfl⟩ := by simpa [pure, Except.pure] using heq
  exact (pop_stays h₁).trans (pop_stays h₂)

theorem popBool_stays {f g : Frame} {b : Bool} (h : f.popBool = .ok (b, g)) : f.Stays g := by
  simp only [popBool, bind_eq_ok_iff] at h
  rcases h with ⟨popped, hpop, heq⟩
  split at heq
  · obtain ⟨-, rfl⟩ := by simpa [pure, Except.pure] using heq
    exact pop_stays hpop
  · cases heq

theorem popInts_stays {f g : Frame} {a b : Int64} (h : f.popInts = .ok (a, b, g)) :
    f.Stays g := by
  simp only [popInts, bind_eq_ok_iff] at h
  rcases h with ⟨popped, hpop, heq⟩
  split at heq
  · obtain ⟨-, -, rfl⟩ := by simpa [pure, Except.pure] using heq
    exact pop2_stays hpop
  · cases heq
  · cases heq

/-! ## Calls -/

/-- The operands of a call as they are passed: the receiver, if there is one, and the arguments. -/
def operands (f : Frame) (signature : Signature) (kind : CallKind) : List Value :=
  (f.stack.take (signature.arity + kind.receivers)).reverse

/-- The owner a call goes to: the one written there, or the type of the receiver. -/
def calledOwner (m : MemberTexts) : CallKind → List Value → Except Failure String
  | .static, _ => .ok m.owner
  | .virtual, .object receiver :: _ => .ok receiver.typeName
  | .virtual, receiver :: _ => .error (.mismatch m.owner receiver)
  | .virtual, [] => .error (.malformed .underflow)

theorem call_eq {f : Frame} {kind : CallKind} {index : UInt16} {m : MemberTexts}
    {signature : Signature} (hm : f.module.image.pool.method? index = some m)
    (hparse : Signature.parse m.descriptor = .ok signature) :
    f.call kind index =
      if f.stack.length < signature.arity + kind.receivers then .error (.malformed .underflow)
      else (calledOwner m kind (f.operands signature kind)).map fun owner =>
        (⟨⟨owner, m.name, signature, kind⟩, m.descriptor, f.operands signature kind⟩,
          { f with stack := f.stack.drop (signature.arity + kind.receivers) }) := by
  have hlength (n : Nat) : (f.stack.take n).reverse.length < n ↔ f.stack.length < n := by
    simp only [List.length_reverse, List.length_take]
    omega
  simp only [Frame.call, hm, hparse, mapError_ok, bind, Except.bind, throw, throwThe,
    MonadExceptOf.throw, pure, Except.pure, hlength, operands]
  split
  · rfl
  · generalize (f.stack.take (signature.arity + kind.receivers)).reverse = args
    rcases kind with _ | _
    · rfl
    · rcases args with _ | ⟨_ | _ | _ | _ | _, _⟩ <;> rfl

/-- A call that passes is of a method of the pool whose descriptor reads, and takes its operands
off the stack. -/
theorem call_eq_ok_iff {f g : Frame} {kind : CallKind} {index : UInt16} {call : Call} :
    f.call kind index = .ok (call, g) ↔
      ∃ m signature owner, f.module.image.pool.method? index = some m ∧
        Signature.parse m.descriptor = .ok signature ∧
        signature.arity + kind.receivers ≤ f.stack.length ∧
        calledOwner m kind (f.operands signature kind) = .ok owner ∧
        call = ⟨⟨owner, m.name, signature, kind⟩, m.descriptor, f.operands signature kind⟩ ∧
        g = { f with stack := f.stack.drop (signature.arity + kind.receivers) } := by
  cases hm : f.module.image.pool.method? index with
  | none => simp [Frame.call, hm, throw, throwThe, MonadExceptOf.throw]
  | some m =>
    cases hparse : Signature.parse m.descriptor with
    | error e => simp [Frame.call, hm, hparse, bind, Except.bind]
    | ok signature =>
      rw [call_eq hm hparse]
      by_cases hlength : f.stack.length < signature.arity + kind.receivers
      · simp [hlength, hparse, Nat.not_le.2 hlength]
      · simp only [hlength, if_false, map_eq_ok_iff, Prod.mk.injEq]
        constructor
        · rintro ⟨owner, howner, hcall, hg⟩
          exact ⟨m, signature, owner, rfl, hparse, Nat.not_lt.1 hlength, howner, hcall.symm,
            hg.symm⟩
        · rintro ⟨_, signature', owner, ⟨⟩, hparse', -, howner, hcall, hg⟩
          rcases Except.ok.inj (hparse.symm.trans hparse') with rfl
          exact ⟨owner, howner, hcall.symm, hg.symm⟩

theorem call_stays {f g : Frame} {kind : CallKind} {index : UInt16} {call : Call}
    (h : f.call kind index = .ok (call, g)) : f.Stays g := by
  rcases call_eq_ok_iff.1 h with ⟨m, signature, owner, -, -, -, -, -, rfl⟩
  exact ⟨rfl, rfl, rfl, rfl, rfl⟩

/-- A call passes its receiver and its arguments, as many as the descriptor written there says. -/
theorem call_args {f g : Frame} {kind : CallKind} {index : UInt16} {call : Call}
    (h : f.call kind index = .ok (call, g)) :
    Signature.parse call.descriptor = .ok call.symbol.signature ∧ call.symbol.kind = kind ∧
      call.args.length = call.symbol.signature.arity + kind.receivers := by
  rcases call_eq_ok_iff.1 h with ⟨m, signature, owner, -, hparse, hlength, -, rfl, -⟩
  refine ⟨hparse, rfl, ?_⟩
  simp only [operands, List.length_reverse, List.length_take]
  omega

/-! ## Instructions -/

/-- What the instruction of a frame can come to. Whatever goes on does so in the activation of
the frame. -/
def Flow.Of (f : Frame) : Flow → Prop
  | next g => f.Stays g ∧ f.instruction.isTerminal = false
  | jump g target => f.Stays g ∧ f.instruction.jumpTarget? = some target
  | ret _ => f.instruction.isTerminal = true
  | allocate g _ => f.Stays g ∧ ∃ index, f.instruction = .new index
  | call g made => ∃ kind index, f.instruction = .invoke kind index ∧
      f.call kind index = .ok (made, g)

theorem Stays.store {f g : Frame} (h : f.Stays g) (slot : Nat) (v : Value) :
    f.Stays { g with locals := g.locals.setIfInBounds slot v } :=
  ⟨h.module_eq, h.index_eq, h.method_eq, h.position_eq, by simp [h.locals_size]⟩

theorem execute_of {host : Host} {f : Frame} {flow : Flow} (h : f.execute host = .ok flow) :
    flow.Of f := by
  cases hi : f.instruction <;>
    simp only [execute, hi, pure, Except.pure, bind_eq_ok_iff, Except.ok.injEq] at h
  case nop | pushTrue | pushFalse =>
    subst h
    exact ⟨by first | exact .refl f | exact .push (.refl f) _, by rw [hi]; rfl⟩
  case const index =>
    split at h
    · rcases Except.ok.inj h with rfl
      exact ⟨.push (.refl f) _, by rw [hi]; rfl⟩
    · rcases Except.ok.inj h with rfl
      exact ⟨.push (.refl f) _, by rw [hi]; rfl⟩
    · cases h
  case load slot =>
    split at h
    · rcases Except.ok.inj h with rfl
      exact ⟨.push (.refl f) _, by rw [hi]; rfl⟩
    · cases h
  case store slot =>
    rcases h with ⟨popped, hpop, h⟩
    split at h
    · rcases Except.ok.inj h with rfl
      exact ⟨(pop_stays hpop).store _ _, by rw [hi]; rfl⟩
    · cases h
  case pop =>
    rcases h with ⟨popped, hpop, rfl⟩
    exact ⟨pop_stays hpop, by rw [hi]; rfl⟩
  case dup =>
    rcases h with ⟨popped, hpop, rfl⟩
    exact ⟨.push (.refl f) _, by rw [hi]; rfl⟩
  case add | sub =>
    rcases h with ⟨popped, hpop, rfl⟩
    exact ⟨(popInts_stays hpop).push _, by rw [hi]; rfl⟩
  case equal | concat =>
    rcases h with ⟨popped, hpop, rfl⟩
    exact ⟨(pop2_stays hpop).push _, by rw [hi]; rfl⟩
  case negate =>
    rcases h with ⟨popped, hpop, rfl⟩
    exact ⟨(popBool_stays hpop).push _, by rw [hi]; rfl⟩
  case getStatic index =>
    split at h
    · cases h
    · split at h
      · rcases Except.ok.inj h with rfl
        exact ⟨.push (.refl f) _, by rw [hi]; rfl⟩
      · cases h
  case new index =>
    split at h
    · cases h
    · rcases Except.ok.inj h with rfl
      exact ⟨.refl f, index, hi⟩
  case jump target =>
    subst h
    exact ⟨.refl f, by rw [hi]; rfl⟩
  case jumpIfFalse target =>
    rcases h with ⟨popped, hpop, rfl⟩
    split
    · exact ⟨popBool_stays hpop, by rw [hi]; rfl⟩
    · exact ⟨popBool_stays hpop, by rw [hi]; rfl⟩
  case invoke kind index =>
    rcases h with ⟨called, hcall, rfl⟩
    exact ⟨kind, index, hi, hcall⟩
  case ret =>
    subst h
    exact congrArg Instruction.isTerminal hi
  case retValue =>
    rcases h with ⟨popped, hpop, rfl⟩
    exact congrArg Instruction.isTerminal hi
  case throw =>
    rcases h with ⟨popped, hpop, h⟩
    cases h

/-! ## Effects -/

/-- An outcome as the effect of an instruction has it: no failure for a defect of the code, and
a stack that is higher or lower by just the effect. A call takes its operands and leaves what it
leaves when it returns. -/
def Conforms (f : Frame) (e : Routine.Effect) : Except Failure Flow → Prop
  | .error failure => failure.isDefect = false
  | .ok (.next g) | .ok (.jump g _) => g.stack.length + e.pops = f.stack.length + e.pushes
  | .ok (.ret _) => True
  | .ok (.allocate g _) => g.stack.length + 1 + e.pops = f.stack.length + e.pushes
  | .ok (.call g c) => g.stack.length + e.pops = f.stack.length ∧
      e.pushes = if c.keepsResult then 1 else 0

theorem pop_of_le {f : Frame} (h : 1 ≤ f.stack.length) :
    ∃ v g, f.pop = .ok (v, g) ∧ g.stack.length + 1 = f.stack.length := by
  cases hstack : f.stack with
  | nil => simp [hstack] at h
  | cons v rest => exact ⟨v, { f with stack := rest }, by simp [pop, hstack], by simp⟩

theorem pop2_of_le {f : Frame} (h : 2 ≤ f.stack.length) :
    ∃ a b g, f.pop2 = .ok (a, b, g) ∧ g.stack.length + 2 = f.stack.length := by
  obtain ⟨b, f₁, hb, hlength₁⟩ := pop_of_le (f := f) (by omega)
  obtain ⟨a, f₂, ha, hlength₂⟩ := pop_of_le (f := f₁) (by omega)
  refine ⟨a, b, f₂, ?_, by omega⟩
  simp [pop2, hb, ha, bind, Except.bind, pure, Except.pure]

theorem popBool_of_le {f : Frame} (h : 1 ≤ f.stack.length) :
    (∃ b g, f.popBool = .ok (b, g) ∧ g.stack.length + 1 = f.stack.length) ∨
      ∃ v, f.popBool = .error (.mismatch "bool" v) := by
  rcases pop_of_le h with ⟨v, g, hpop, hlength⟩
  simp only [popBool, hpop, bind, Except.bind]
  cases v with
  | bool b => exact Or.inl ⟨b, g, rfl, hlength⟩
  | _ => exact Or.inr ⟨_, rfl⟩

theorem popInts_of_le {f : Frame} (h : 2 ≤ f.stack.length) :
    (∃ a b g, f.popInts = .ok (a, b, g) ∧ g.stack.length + 2 = f.stack.length) ∨
      ∃ v, f.popInts = .error (.mismatch "int" v) := by
  rcases pop2_of_le h with ⟨left, right, g, hpop, hlength⟩
  simp only [popInts, hpop, bind, Except.bind]
  cases left with
  | int a =>
    cases right with
    | int b => exact Or.inl ⟨a, b, g, rfl, hlength⟩
    | _ => exact Or.inr ⟨_, rfl⟩
  | _ => exact Or.inr ⟨_, rfl⟩

/-- A call whose descriptor reads and whose operands are there fails for its receiver at most. -/
theorem call_of_le {f : Frame} {kind : CallKind} {index : UInt16} {m : MemberTexts}
    {signature : Signature} (hm : f.module.image.pool.method? index = some m)
    (hparse : Signature.parse m.descriptor = .ok signature)
    (hle : signature.arity + kind.receivers ≤ f.stack.length) :
    (∃ c g, f.call kind index = .ok (c, g) ∧ c.symbol.signature = signature ∧
        g.stack.length + (signature.arity + kind.receivers) = f.stack.length) ∨
      ∃ v, f.call kind index = .error (.mismatch m.owner v) := by
  rw [call_eq hm hparse, if_neg (Nat.not_lt.2 hle)]
  cases kind with
  | static =>
    refine Or.inl ⟨_, _, rfl, rfl, ?_⟩
    simp only [List.length_drop]
    omega
  | virtual =>
    have hpos : 0 < (f.operands signature .virtual).length := by
      simp only [operands, List.length_reverse, List.length_take, CallKind.receivers] at hle ⊢
      omega
    cases hargs : f.operands signature .virtual with
    | nil => simp [hargs] at hpos
    | cons receiver rest =>
      cases receiver with
      | object o =>
        refine Or.inl ⟨_, _, rfl, rfl, ?_⟩
        simp only [List.length_drop]
        omega
      | _ => exact Or.inr ⟨_, rfl⟩

/-- Where the verifier's effect applies, an instruction conforms to it. -/
theorem execute_conforms {r : Routine} {host : Host} {f : Frame} {offset : Nat}
    {e : Routine.Effect} (hpool : r.pool = f.module.image.pool)
    (hlocals : f.locals.size = r.method.maxLocals.toNat)
    (he : r.effect offset f.instruction = .ok e) (hpops : e.pops ≤ f.stack.length) :
    f.Conforms e (f.execute host) := by
  cases hi : f.instruction <;> simp only [Routine.effect, hi, Except.ok.injEq] at he <;>
    simp only [execute, hi, pure, Except.pure]
  case nop | pushTrue | pushFalse =>
    subst he
    simp [Conforms, push]
  case const index =>
    rw [hpool] at he
    split at he
    case h_1 hget | h_2 hget =>
      rcases Except.ok.inj he with rfl
      simp [hget, Conforms, push]
    case h_3 => cases he
  case load slot =>
    split at he
    case isTrue hslot =>
      rcases Except.ok.inj he with rfl
      have hlt : slot.toNat < f.locals.size := by rwa [hlocals]
      simp [Array.getElem?_eq_getElem hlt, Conforms, push]
    case isFalse => cases he
  case store slot =>
    split at he
    case isTrue hslot =>
      rcases Except.ok.inj he with rfl
      rcases pop_of_le hpops with ⟨v, g, hpop, hlength⟩
      have hlt : slot.toNat < g.locals.size := by rwa [(pop_stays hpop).locals_size, hlocals]
      simpa [hpop, hlt, bind, Except.bind, Conforms] using hlength
    case isFalse => cases he
  case pop =>
    subst he
    rcases pop_of_le hpops with ⟨v, g, hpop, hlength⟩
    simpa [hpop, bind, Except.bind, Conforms] using hlength
  case dup =>
    subst he
    rcases pop_of_le hpops with ⟨v, g, hpop, hlength⟩
    simp [hpop, bind, Except.bind, Conforms, push]
  case add | sub =>
    subst he
    rcases popInts_of_le hpops with ⟨a, b, g, hpop, hlength⟩ | ⟨v, hpop⟩
    · simp only [hpop, bind, Except.bind, Conforms, push, List.length_cons]
      omega
    · simp [hpop, bind, Except.bind, Conforms]
  case equal | concat =>
    subst he
    rcases pop2_of_le hpops with ⟨a, b, g, hpop, hlength⟩
    simp only [hpop, bind, Except.bind, Conforms, push, List.length_cons]
    omega
  case negate =>
    subst he
    rcases popBool_of_le hpops with ⟨b, g, hpop, hlength⟩ | ⟨v, hpop⟩
    · simp only [hpop, bind, Except.bind, Conforms, push, List.length_cons]
      omega
    · simp [hpop, bind, Except.bind, Conforms]
  case getStatic index =>
    rw [hpool] at he
    split at he
    case h_1 m hm =>
      rcases Except.ok.inj he with rfl
      simp only [hm]
      split
      · simp [Conforms, push]
      · rfl
    case h_2 => cases he
  case new index =>
    rw [hpool] at he
    split at he
    case h_1 typeName htype =>
      rcases Except.ok.inj he with rfl
      simp [htype, Conforms]
    case h_2 => cases he
  case jump target =>
    subst he
    simp [Conforms]
  case jumpIfFalse target =>
    subst he
    rcases popBool_of_le hpops with ⟨b, g, hpop, hlength⟩ | ⟨v, hpop⟩
    · cases b <;> simpa [hpop, bind, Except.bind, Conforms] using hlength
    · simp [hpop, bind, Except.bind, Conforms]
  case invoke kind index =>
    rw [hpool] at he
    cases hm : f.module.image.pool.method? index with
    | none => simp [hm] at he
    | some m =>
      cases hparse : Signature.parse m.descriptor with
      | error error => simp [hm, hparse] at he
      | ok signature =>
        obtain rfl := by simpa [hm, hparse] using he
        rcases call_of_le hm hparse hpops with ⟨c, g, hcall, rfl, hlength⟩ | ⟨v, hcall⟩
        · simp only [hcall, bind, Except.bind]
          refine ⟨hlength, ?_⟩
          cases hvoid : c.symbol.signature.isVoid <;> simp [Call.keepsResult, hvoid]
        · simp [hcall, bind, Except.bind, Conforms]
  case ret => trivial
  case retValue =>
    split at he
    case isTrue => cases he
    case isFalse =>
      rcases Except.ok.inj he with rfl
      rcases pop_of_le hpops with ⟨v, g, hpop, hlength⟩
      simp [hpop, bind, Except.bind, Conforms]
  case throw =>
    subst he
    rcases pop_of_le hpops with ⟨v, g, hpop, hlength⟩
    simp [hpop, bind, Except.bind, Conforms, throw, throwThe, MonadExceptOf.throw,
      Failure.isDefect, Failure.root]

end Frame

end Interposition
