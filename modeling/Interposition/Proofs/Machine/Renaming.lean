import Interposition.Proofs.Machine.Execution
import Interposition.Proofs.Machine.Pairing

/-!
# Interposition.Proofs.Machine.Renaming — objects by other identities

A program tells objects apart but does not see their identities, except for the address in the text
of an untagged object. A `Renaming` relates the identities of one run to those of another. Frames
that are the same up to a renaming execute alike (`Frame.Renamed.execute`) if the text that the
instruction shows is the same in both, which is what `Frame.Discreet` says.
-/

namespace Interposition

/-- Which identity stands for which. Two identities are those of one object if and only if those
that stand for them are. -/
structure Renaming where
  maps : Identity → Identity → Prop
  one_to_one : ∀ {i i' j j'}, maps i i' → maps j j' →
    (i'.number = j'.number ↔ i.number = j.number)

namespace Renaming

/-- Every identity stands for itself. -/
def same : Renaming where
  maps := (· = ·)
  one_to_one := by
    rintro i _ j _ rfl rfl
    exact Iff.rfl

/-- Objects that have been made in both worlds stand for themselves, and those that are made from
now on stand for each other, in the order in which they are made. -/
def between (w w' : World) : Renaming where
  maps i i' :=
    i' = i ∧ i.number < w.made ∧ i.number < w'.made ∨
      ∃ later, i = w.identity later ∧ i' = w'.identity later
  one_to_one := by
    rintro i i' j j' (⟨rfl, hi, hi'⟩ | ⟨n, rfl, rfl⟩) (⟨rfl, hj, hj'⟩ | ⟨k, rfl, rfl⟩)
    · exact Iff.rfl
    · simp only [World.identity]
      omega
    · simp only [World.identity]
      omega
    · simp only [World.identity]
      omega

/-- Every identity has the address of the one that stands for it. -/
def KeepsAddresses (ρ : Renaming) : Prop :=
  ∀ i i', ρ.maps i i' → i'.address = i.address

end Renaming

variable {ρ : Renaming}

/-! ## Values -/

/-- Values that are equal but for the identities of objects. -/
inductive Value.Renamed (ρ : Renaming) : Value → Value → Prop
  | void : Renamed ρ .void .void
  | int (value : Int64) : Renamed ρ (.int value) (.int value)
  | bool (value : Bool) : Renamed ρ (.bool value) (.bool value)
  | str (text : String) : Renamed ρ (.str text) (.str text)
  | object {i i' : Identity} (h : ρ.maps i i') (typeName : String) (tag : Option String) :
      Renamed ρ (.object ⟨i, typeName, tag⟩) (.object ⟨i', typeName, tag⟩)

/-- Lists of values that are equal but for the identities of objects. -/
abbrev Value.RenamedAll (ρ : Renaming) : List Value → List Value → Prop :=
  List.Forall₂ (Value.Renamed ρ)

namespace Value

theorem RenamedAll.getElem? {vs vs' : List Value} (h : RenamedAll ρ vs vs') (index : Nat) :
    Option.Rel (Value.Renamed ρ) vs[index]? vs'[index]? := by
  induction h generalizing index with
  | nil => exact .none
  | cons hfirst _ ih =>
    cases index with
    | zero => exact .some hfirst
    | succ index => exact ih index

theorem RenamedAll.set {vs vs' : List Value} {v v' : Value} (h : RenamedAll ρ vs vs')
    (hv : v.Renamed ρ v') (index : Nat) : RenamedAll ρ (vs.set index v) (vs'.set index v') := by
  induction h generalizing index with
  | nil => exact .nil
  | cons hfirst hrest ih =>
    cases index with
    | zero => exact .cons hv hrest
    | succ index => exact .cons hfirst (ih index)

variable {v v' w w' : Value}

theorem renamed_same_iff : v.Renamed .same v' ↔ v = v' := by
  constructor
  · intro h
    cases h with
    | object hi =>
      obtain rfl : _ = _ := hi
      rfl
    | _ => rfl
  · rintro rfl
    cases v with
    | void => exact .void
    | int value => exact .int value
    | bool value => exact .bool value
    | str text => exact .str text
    | object o => exact .object rfl o.typeName o.tag

theorem renamedAll_same_iff {vs vs' : List Value} : RenamedAll .same vs vs' ↔ vs = vs' := by
  have hsame : Value.Renamed .same = Eq := by
    funext v v'
    exact propext renamed_same_iff
  rw [RenamedAll, hsame, List.forall₂_eq_eq_eq]

theorem Renamed.conformsTo_eq (h : v.Renamed ρ v') (type : ValueType) :
    v'.conformsTo type = v.conformsTo type := by
  cases h <;> cases type <;> rfl

/-- Objects are the same in one run if they are in the other. -/
theorem Renamed.same_eq (hv : v.Renamed ρ v') (hw : w.Renamed ρ w') :
    v'.same w' = v.same w := by
  cases hv with
  | object hi =>
    cases hw with
    | object hj =>
      rw [Value.same, Value.same, Bool.eq_iff_iff]
      simpa [BEq.beq] using ρ.one_to_one hi hj
    | _ => rfl
  | _ => cases hw <;> rfl

/-- Only the address of an object is shown. -/
theorem Renamed.text_eq (hρ : ρ.KeepsAddresses) (h : v.Renamed ρ v') : v'.text = v.text := by
  cases h with
  | object hi typeName tag =>
    cases tag with
    | none => rw [text, text, Object.text, Object.text, hρ _ _ hi]
    | some tag => rfl
  | _ => rfl

end Value

/-! ## Frames -/

namespace Frame

/-- Two frames of one method at the same position, with slots and operands that are equal but for
the identities of objects. -/
structure Renamed (ρ : Renaming) (f f' : Frame) : Prop where
  module_eq : f'.module = f.module
  index_eq : f'.index = f.index
  position_eq : f'.position = f.position
  locals : Value.RenamedAll ρ f.locals.toList f'.locals.toList
  stack : Value.RenamedAll ρ f.stack f'.stack

/-- The operands that the current instruction makes a text of. -/
def shown (f : Frame) : List Value :=
  match f.instruction with
  | .concat => f.stack.take 2
  | .throw => f.stack.take 1
  | _ => []

/-- The texts that the current instruction makes of operands are the same after renaming. -/
def Discreet (ρ : Renaming) (f : Frame) : Prop :=
  ∀ v ∈ f.shown, ∀ v', v.Renamed ρ v' → v'.text = v.text

theorem discreet_of_keepsAddresses (hρ : ρ.KeepsAddresses) (f : Frame) : f.Discreet ρ :=
  fun _ _ _ h => h.text_eq hρ

/-- A frame that makes no text of its operands is discreet. -/
theorem discreet_of_shown (ρ : Renaming) {f : Frame} (h : f.shown.isEmpty = true) :
    f.Discreet ρ := by
  intro v hv
  rw [List.isEmpty_iff.1 h] at hv
  cases hv

namespace Renamed

variable {f f' : Frame}

theorem method_eq (h : f.Renamed ρ f') : f'.method = f.method := by
  have hfound := f'.method_found
  rw [h.module_eq, h.index_eq, f.method_found] at hfound
  exact (Option.some.inj hfound).symm

theorem instruction_eq (h : f.Renamed ρ f') : f'.instruction = f.instruction := by
  refine instruction_eq_of_getElem? ?_
  rw [h.method_eq, h.position_eq]
  exact f.getElem?_position

theorem offset_eq (h : f.Renamed ρ f') : f'.offset = f.offset := by
  rw [offset, h.module_eq, h.index_eq, h.position_eq, offset]

theorem place_eq (h : f.Renamed ρ f') : f'.place = f.place := by
  rw [place, h.module_eq, h.index_eq, h.offset_eq, place]

theorem with_stack (h : f.Renamed ρ f') {stack stack' : List Value}
    (hstack : Value.RenamedAll ρ stack stack') :
    ({ f with stack } : Frame).Renamed ρ { f' with stack := stack' } :=
  ⟨h.module_eq, h.index_eq, h.position_eq, h.locals, hstack⟩

theorem push (h : f.Renamed ρ f') {v v' : Value} (hv : v.Renamed ρ v') :
    (f.push v).Renamed ρ (f'.push v') :=
  h.with_stack (.cons hv h.stack)

/-! ### Slots -/

theorem locals_size (h : f.Renamed ρ f') : f'.locals.size = f.locals.size :=
  h.locals.length_eq.symm

theorem getElem?_locals (h : f.Renamed ρ f') (slot : Nat) :
    Option.Rel (Value.Renamed ρ) f.locals[slot]? f'.locals[slot]? := by
  rw [← Array.getElem?_toList, ← Array.getElem?_toList]
  exact Value.RenamedAll.getElem? h.locals slot

theorem store (h : f.Renamed ρ f') (slot : Nat) {v v' : Value} (hv : v.Renamed ρ v') :
    ({ f with locals := f.locals.setIfInBounds slot v } : Frame).Renamed ρ
      { f' with locals := f'.locals.setIfInBounds slot v' } := by
  refine ⟨h.module_eq, h.index_eq, h.position_eq, ?_, h.stack⟩
  rw [Array.toList_setIfInBounds, Array.toList_setIfInBounds]
  exact Value.RenamedAll.set h.locals hv slot

/-! ### Moving on -/

theorem moveTo (h : f.Renamed ρ f') (position : Nat) :
    Alike (Renamed ρ) (f.moveTo position) (f'.moveTo position) := by
  have hmethod := h.method_eq
  unfold Frame.moveTo
  by_cases hlt : position < f.method.code.size
  · rw [dif_pos hlt, dif_pos (by rwa [hmethod])]
    exact .ok ⟨h.module_eq, h.index_eq, rfl, h.locals, h.stack⟩
  · rw [dif_neg hlt, dif_neg (by rwa [hmethod])]
    exact .error _

theorem advance (h : f.Renamed ρ f') : Alike (Renamed ρ) f.advance f'.advance := by
  rw [Frame.advance, Frame.advance, h.position_eq]
  exact h.moveTo _

theorem jump (h : f.Renamed ρ f') (target : UInt32) :
    Alike (Renamed ρ) (f.jump target) (f'.jump target) := by
  rw [Frame.jump, Frame.jump, h.module_eq, h.index_eq]
  split
  · exact h.moveTo _
  · exact .error _

theorem raise (h : f.Renamed ρ f') (failure : Failure) :
    Alike (Renamed ρ) (f.raise failure) (f'.raise failure) := by
  have hhandlers : f'.method.handlers = f.method.handlers := congrArg _ h.method_eq
  rw [Frame.raise, Frame.raise, hhandlers, h.offset_eq, h.place_eq]
  split
  · exact (h.with_stack (.cons (.str _) .nil)).jump _
  · exact .error _

/-- Renamed frames run side by side. -/
theorem pairing (ρ : Renaming) : Pairing (Renamed ρ) (Value.Renamed ρ) where
  place_eq := place_eq
  push hf hv := hf.push hv
  advance := advance
  raise := raise

end Renamed

/-- A method is entered alike on arguments that are renamed. -/
theorem enter_renamed (m : Module) (index : Nat) {args args' : List Value}
    (hargs : Value.RenamedAll ρ args args') :
    Alike (Renamed ρ) (enter m index args) (enter m index args') := by
  cases hmethod : m.image.methods[index]? with
  | none =>
    rw [enter_of_none hmethod, enter_of_none hmethod]
    exact .error _
  | some method =>
    rw [enter_of_some hmethod, enter_of_some hmethod, hargs.length_eq]
    split
    · exact .error _
    · split
      · refine .ok ⟨rfl, rfl, rfl, ?_, .nil⟩
        -- The slots behind the arguments are void in both.
        have hvoid (n : Nat) :
            Value.RenamedAll ρ (List.replicate n .void) (List.replicate n .void) :=
          List.forall₂_same.2 fun v hv => by
            rw [List.eq_of_mem_replicate hv]
            exact .void
        simpa using List.rel_append hargs (hvoid _)
      · exact .error _

/-! ## Operands -/

/-- What is taken off two frames is related, and what is left of them is renamed. -/
inductive Gives {α : Type} (A : α → α → Prop) (ρ : Renaming) : α × Frame → α × Frame → Prop
  | intro {a a' : α} {g g' : Frame} (ha : A a a') (hg : g.Renamed ρ g') : Gives A ρ (a, g) (a', g')

/-- The same for two operands. -/
inductive GivesBoth {α : Type} (A : α → α → Prop) (ρ : Renaming) :
    α × α × Frame → α × α × Frame → Prop
  | intro {a a' b b' : α} {g g' : Frame} (ha : A a a') (hb : A b b') (hg : g.Renamed ρ g') :
      GivesBoth A ρ (a, b, g) (a', b', g')

/-- The operands that are popped are those on top. -/
theorem take_of_pop {f g : Frame} {v : Value} (h : f.pop = .ok (v, g)) : f.stack.take 1 = [v] := by
  unfold pop at h
  split at h
  case h_1 top rest hstack =>
    obtain rfl : top = v := congrArg Prod.fst (Except.ok.inj h)
    rw [hstack, List.take_one, List.head?_cons, Option.toList_some]
  case h_2 => cases h

theorem take_of_pop2 {f g : Frame} {a b : Value} (h : f.pop2 = .ok (a, b, g)) :
    f.stack.take 2 = [b, a] := by
  simp only [pop2, bind_eq_ok_iff] at h
  rcases h with ⟨⟨right, f₁⟩, h₁, ⟨left, f₂⟩, h₂, heq⟩
  obtain ⟨rfl, rfl, -⟩ := by simpa [pure, Except.pure] using heq
  have hrest := take_of_pop h₂
  unfold pop at h₁
  split at h₁
  case h_1 top rest hstack =>
    obtain ⟨rfl, rfl⟩ := by simpa using h₁
    rw [hstack, List.take_succ_cons, hrest]
  case h_2 => cases h₁

namespace Renamed

variable {f f' : Frame}

theorem pop (h : f.Renamed ρ f') : Alike (Gives (Value.Renamed ρ) ρ) f.pop f'.pop := by
  have hstack := h.stack
  unfold Frame.pop
  generalize f.stack = stack, f'.stack = stack' at hstack
  cases hstack with
  | nil => exact .error _
  | cons hv hrest => exact .ok (.intro hv (h.with_stack hrest))

theorem pop2 (h : f.Renamed ρ f') : 
    Alike (GivesBoth (Value.Renamed ρ) ρ) f.pop2 f'.pop2 := by
  refine h.pop.bind ?_
  rintro _ _ ⟨hright, hg⟩
  refine hg.pop.bind ?_
  rintro _ _ ⟨hleft, hg⟩
  exact .ok (.intro hleft hright hg)

theorem popBool (h : f.Renamed ρ f') : Alike (Gives (· = ·) ρ) f.popBool f'.popBool := by
  refine h.pop.bind ?_
  rintro _ _ ⟨hv, hg⟩
  cases hv with
  | bool b => exact .ok (.intro rfl hg)
  | _ => exact .error _

theorem popInts (h : f.Renamed ρ f') : Alike (GivesBoth (· = ·) ρ) f.popInts f'.popInts := by
  refine h.pop2.bind ?_
  rintro _ _ ⟨hleft, hright, hg⟩
  cases hleft with
  | int a =>
    cases hright with
    | int b => exact .ok (.intro rfl rfl hg)
    | _ => exact .error _
  | _ => exact .error _

end Renamed

/-! ## Calls -/

/-- The same call of operands that are renamed. -/
structure Call.Renamed (ρ : Renaming) (c c' : Call) : Prop where
  symbol_eq : c'.symbol = c.symbol
  descriptor_eq : c'.descriptor = c.descriptor
  args : Value.RenamedAll ρ c.args c'.args

theorem Call.Renamed.keepsResult_eq {c c' : Call} (h : c.Renamed ρ c') :
    c'.keepsResult = c.keepsResult := by
  rw [Call.keepsResult, Call.keepsResult, h.symbol_eq]

/-- A call goes to the same owner, as the type of a receiver is no matter of its identity. -/
theorem calledOwner_renamed (m : MemberTexts) (kind : CallKind) {args args' : List Value}
    (hargs : Value.RenamedAll ρ args args') :
    calledOwner m kind args' = calledOwner m kind args := by
  cases kind with
  | static => rfl
  | virtual =>
    cases hargs with
    | nil => rfl
    | cons hreceiver _ => cases hreceiver <;> rfl

theorem Renamed.call {f f' : Frame} (h : f.Renamed ρ f') (kind : CallKind) (index : UInt16) :
    Alike (Gives (Call.Renamed ρ) ρ) (f.call kind index) (f'.call kind index) := by
  cases hm : f.module.image.pool.method? index with
  | none =>
    simp only [Frame.call, h.module_eq, hm]
    exact .error _
  | some m =>
    have hm' : f'.module.image.pool.method? index = some m := by rwa [h.module_eq]
    cases hparse : Signature.parse m.descriptor with
    | error e =>
      simp only [Frame.call, hm, hm', hparse]
      exact .error _
    | ok signature =>
      have hargs : Value.RenamedAll ρ (f.operands signature kind) (f'.operands signature kind) :=
        List.rel_reverse (List.forall₂_take _ h.stack)
      rw [call_eq hm hparse, call_eq hm' hparse, calledOwner_renamed m kind hargs,
        h.stack.length_eq]
      split
      · exact .error _
      · cases calledOwner m kind (f.operands signature kind) with
        | error failure => exact .error _
        | ok owner =>
          exact .ok (.intro ⟨rfl, rfl, hargs⟩ (h.with_stack (List.forall₂_drop _ h.stack)))

/-! ## Instructions -/

/-- What an instruction comes to in two frames that are renamed. -/
inductive Flow.Renamed (ρ : Renaming) : Flow → Flow → Prop
  | next {f f' : Frame} (h : f.Renamed ρ f') : Renamed ρ (.next f) (.next f')
  | jump {f f' : Frame} (h : f.Renamed ρ f') (target : UInt32) :
      Renamed ρ (.jump f target) (.jump f' target)
  | ret {v v' : Value} (hv : v.Renamed ρ v') : Renamed ρ (.ret v) (.ret v')
  | allocate {f f' : Frame} (h : f.Renamed ρ f') (typeName : String) :
      Renamed ρ (.allocate f typeName) (.allocate f' typeName)
  | call {f f' : Frame} {c c' : Call} (h : f.Renamed ρ f') (hcall : c.Renamed ρ c') :
      Renamed ρ (.call f c) (.call f' c')

end Frame

/-- The fields of a host have values that stand for themselves. -/
def Host.FieldsStay (host : Host) (ρ : Renaming) : Prop :=
  ∀ owner name v, host.field? owner name = some v → v.Renamed ρ v

/-- Renamed frames execute their instruction alike, if the texts that it shows are the same. -/
theorem Frame.Renamed.execute {f f' : Frame} (h : f.Renamed ρ f') {host : Host}
    (hfields : host.FieldsStay ρ) (hdiscreet : f.Discreet ρ) :
    Alike (Flow.Renamed ρ) (f.execute host) (f'.execute host) := by
  have hsame := h.instruction_eq
  have hmodule := h.module_eq
  cases hi : f.instruction <;> rw [hi] at hsame <;>
    simp only [Frame.execute, hi, hsame, hmodule]
  case nop => exact .ok (.next h)
  case pushTrue | pushFalse => exact .ok (.next (h.push (.bool _)))
  case const index =>
    split
    · exact .ok (.next (h.push (.int _)))
    · exact .ok (.next (h.push (.str _)))
    · exact .error _
  case load slot =>
    have hslot := h.getElem?_locals slot.toNat
    generalize f.locals[slot.toNat]? = found, f'.locals[slot.toNat]? = found' at hslot
    cases hslot with
    | none => exact .error _
    | some hv => exact .ok (.next (h.push hv))
  case store slot =>
    refine h.pop.bind ?_
    rintro _ _ ⟨hv, hg⟩
    dsimp only
    rw [hg.locals_size]
    split
    · exact .ok (.next (hg.store _ hv))
    · exact .error _
  case pop =>
    refine h.pop.bind ?_
    rintro _ _ ⟨hv, hg⟩
    exact .ok (.next hg)
  case dup =>
    refine h.pop.bind ?_
    rintro _ _ ⟨hv, hg⟩
    exact .ok (.next (h.push hv))
  case add | sub =>
    refine h.popInts.bind ?_
    rintro _ _ ⟨rfl, rfl, hg⟩
    exact .ok (.next (hg.push (.int _)))
  case equal =>
    refine h.pop2.bind ?_
    rintro _ _ ⟨ha, hb, hg⟩
    dsimp only
    rw [ha.same_eq hb]
    exact .ok (.next (hg.push (.bool _)))
  case concat =>
    refine h.pop2.bind_of_eq ?_
    rintro _ _ hpop ⟨ha, hb, hg⟩
    have htake := take_of_pop2 hpop
    have hshown (v : Value) (hv : v ∈ f.stack.take 2) : v ∈ f.shown := by
      rwa [Frame.shown, hi]
    rw [htake] at hshown
    dsimp only
    rw [hdiscreet _ (hshown _ (by simp)) _ ha, hdiscreet _ (hshown _ (by simp)) _ hb]
    exact .ok (.next (hg.push (.str _)))
  case negate =>
    refine h.popBool.bind ?_
    rintro _ _ ⟨rfl, hg⟩
    exact .ok (.next (hg.push (.bool _)))
  case getStatic index =>
    split
    · exact .error _
    · split
      · exact .ok (.next (h.push (hfields _ _ _ (by assumption))))
      · exact .error _
  case new index =>
    split
    · exact .error _
    · exact .ok (.allocate h _)
  case jump target => exact .ok (.jump h target)
  case jumpIfFalse target =>
    refine h.popBool.bind ?_
    rintro ⟨b, _⟩ _ ⟨rfl, hg⟩
    cases b with
    | true => exact .ok (.next hg)
    | false => exact .ok (.jump hg target)
  case invoke kind index =>
    refine (h.call kind index).bind ?_
    rintro _ _ ⟨hcall, hg⟩
    exact .ok (.call hg hcall)
  case ret => exact .ok (.ret .void)
  case retValue =>
    refine h.pop.bind ?_
    rintro _ _ ⟨hv, hg⟩
    exact .ok (.ret hv)
  case throw =>
    refine h.pop.bind_of_eq ?_
    rintro ⟨v, _⟩ _ hpop ⟨hv, hg⟩
    have hshown : v ∈ f.shown := by
      rw [Frame.shown, hi, take_of_pop hpop]
      exact List.mem_singleton_self _
    dsimp only
    rw [hdiscreet _ hshown _ hv]
    exact .error _

end Interposition
