import Interposition.Proofs.Image.Alteration
import Interposition.Proofs.Machine.Standing

/-!
# Interposition.Proofs.Machine.Mirroring — activations of redirected methods

A frame of a redirected method mirrors a frame of the original when both are at the same position
with the same slots and the same stack. Then both execute alike: the frames that go on mirror each
other, and a failure is the same in both (`Frame.Mirrors.execute`). A call that was redirected is
the one thing that differs: it takes the same operands and calls the target of the rule for the
symbol that the original calls.

What carries this is that the original is verified and its frame stands, so that every constant its
instruction refers to is there and is found in the larger pool too.
-/

namespace Interposition

variable {rules : RuleSet} {heights : Heights}

/-! ## Modules -/

/-- An instruction as it was or as rules make it. -/
def Instruction.Mirrors (rules : RuleSet) (p : Pool) (i i' : Instruction) : Prop :=
  i' = i ∨ i.Becomes rules p i'

/-- An instruction that is not as it was is the static call of a target. -/
theorem Instruction.Mirrors.cases {p : Pool} {i i' : Instruction} (h : i.Mirrors rules p i') :
    i' = i ∨ ∃ kind index target source rule, i = .invoke kind index ∧
      i' = .invoke .static target ∧ p.Names (index, kind) source ∧
      rules.lookup source = some rule ∧ p.method? target = some rule.target.texts := by
  rcases h with hsame | hbecomes
  · exact Or.inl hsame
  · cases hbecomes with
    | stays => exact Or.inl rfl
    | turns hnames hrule htarget => exact Or.inr ⟨_, _, _, _, _, rfl, rfl, hnames, hrule, htarget⟩

/-- A verified module and one that is defined from its redirected image, or from the same. -/
structure Module.Mirrors (rules : RuleSet) (m m' : Module) : Prop where
  name_eq : m'.name = m.name
  image : m.image.Alters (Instruction.Mirrors rules m'.image.pool) m'.image
  verified : m.Verified
  offsets_eq : m'.offsets = m.offsets
  levels : ∃ level level', m.level = some level ∧ m'.level = some level'

namespace Module

/-- A verified module mirrors itself. -/
theorem Mirrors.refl {m : Module} {level : Nat} (hm : m.Verified) (hlevel : m.level = some level) :
    m.Mirrors rules m :=
  ⟨rfl, .refl (fun _ => Or.inl rfl) _, hm, rfl, level, level, hlevel, hlevel⟩

variable {m m' : Module}

theorem Verified.wellFormed (hm : m.Verified) : m.image.WellFormed :=
  Image.verify_eq_ok_iff.1 hm.verified

theorem Mirrors.textsThere (h : m.Mirrors rules m') : m.image.TextsThere :=
  h.verified.wellFormed.textsThere

theorem Mirrors.methodOffsets_eq (h : m.Mirrors rules m') (index : Nat) :
    m'.methodOffsets index = m.methodOffsets index := by
  rw [methodOffsets, h.offsets_eq, methodOffsets]

theorem Mirrors.findMethod?_eq (h : m.Mirrors rules m') (name descriptor : String) :
    m'.image.findMethod? name descriptor = m.image.findMethod? name descriptor :=
  h.image.findMethod?_eq h.textsThere name descriptor

/-- A test of the flags of a method has the same answer for the method in its place. -/
theorem Mirrors.any_isStatic (h : m.Mirrors rules m') (test : Bool → Bool) (index : Nat) :
    (m'.image.methods[index]?.any fun method => test method.isStatic) =
      m.image.methods[index]?.any fun method => test method.isStatic := by
  cases hmethod' : m'.image.methods[index]? with
  | some method' =>
    rcases h.image.exists_method hmethod' with ⟨method, hmethod, halters⟩
    simp [hmethod, halters.isStatic_eq]
  | none =>
    have hsize := h.image.methods_size
    rw [Array.getElem?_eq_none_iff, hsize] at hmethod'
    rw [Array.getElem?_eq_none_iff.2 hmethod']

end Module

/-! ## Frames -/

/-- Two frames at the same position of a method and of the method in its place, with the same
slots and the same stack. -/
structure Frame.Mirrors (rules : RuleSet) (f f' : Frame) : Prop where
  module : f.module.Mirrors rules f'.module
  index_eq : f'.index = f.index
  locals_eq : f'.locals = f.locals
  stack_eq : f'.stack = f.stack
  position_eq : f'.position = f.position

namespace Frame.Mirrors

variable {f f' : Frame}

theorem method (h : f.Mirrors rules f') :
    f.method.Alters (Instruction.Mirrors rules f'.module.image.pool) f'.method := by
  have hfound := f'.method_found
  rw [h.index_eq] at hfound
  exact h.module.image.method f.index _ _ f.method_found hfound

theorem instruction (h : f.Mirrors rules f') :
    f.instruction.Mirrors rules f'.module.image.pool f'.instruction := by
  have hi' : f'.method.code[f.position]? = some f'.instruction := by
    rw [← h.position_eq]
    exact f'.getElem?_position
  rcases h.method.instruction _ _ hi' with ⟨i, hi, hmirrors⟩
  obtain rfl := instruction_eq_of_getElem? hi
  exact hmirrors

theorem offset_eq (h : f.Mirrors rules f') : f'.offset = f.offset := by
  rw [offset, h.module.methodOffsets_eq, h.index_eq, h.position_eq, offset]

theorem place_eq (h : f.Mirrors rules f') : f'.place = f.place := by
  have hlt : f.index < f.module.image.methods.size :=
    (Array.getElem?_eq_some_iff.1 f.method_found).1
  rw [place, h.module.name_eq, h.index_eq, h.offset_eq,
    h.module.image.describeMethod_eq h.module.textsThere hlt, place]

theorem with_locals (h : f.Mirrors rules f') (locals : Array Value) :
    ({ f with locals } : Frame).Mirrors rules { f' with locals } :=
  ⟨h.module, h.index_eq, rfl, h.stack_eq, h.position_eq⟩

theorem with_stack (h : f.Mirrors rules f') (stack : List Value) :
    ({ f with stack } : Frame).Mirrors rules { f' with stack } :=
  ⟨h.module, h.index_eq, h.locals_eq, rfl, h.position_eq⟩

theorem push (h : f.Mirrors rules f') (v : Value) : (f.push v).Mirrors rules (f'.push v) := by
  refine ⟨h.module, h.index_eq, h.locals_eq, ?_, h.position_eq⟩
  rw [Frame.push, Frame.push, h.stack_eq]

/-! ### Moving on -/

theorem moveTo (h : f.Mirrors rules f') (position : Nat) :
    Alike (Frame.Mirrors rules) (f.moveTo position) (f'.moveTo position) := by
  have hsize := h.method.code_size
  unfold Frame.moveTo
  by_cases hlt : position < f.method.code.size
  · rw [dif_pos hlt, dif_pos (by rwa [hsize])]
    exact .ok ⟨h.module, h.index_eq, h.locals_eq, h.stack_eq, rfl⟩
  · rw [dif_neg hlt, dif_neg (by rwa [hsize])]
    exact .error _

theorem advance (h : f.Mirrors rules f') :
    Alike (Frame.Mirrors rules) f.advance f'.advance := by
  rw [Frame.advance, Frame.advance, h.position_eq]
  exact h.moveTo _

theorem jump (h : f.Mirrors rules f') (target : UInt32) :
    Alike (Frame.Mirrors rules) (f.jump target) (f'.jump target) := by
  rw [Frame.jump, Frame.jump, h.index_eq, h.module.methodOffsets_eq]
  split
  · exact h.moveTo _
  · exact .error _

theorem raise (h : f.Mirrors rules f') (failure : Failure) :
    Alike (Frame.Mirrors rules) (f.raise failure) (f'.raise failure) := by
  rw [Frame.raise, Frame.raise, h.method.handlers_eq, h.offset_eq, h.place_eq]
  split
  · exact (h.with_stack _).jump _
  · exact .error _

end Frame.Mirrors

/-! ### Entering -/

/-- A method and the one in its place are entered alike. -/
theorem Module.Mirrors.enter {m m' : Module} (h : m.Mirrors rules m') (index : Nat)
    (args : List Value) :
    Alike (Frame.Mirrors rules) (Frame.enter m index args) (Frame.enter m' index args) := by
  cases hmethod : m.image.methods[index]? with
  | none =>
    have hmethod' : m'.image.methods[index]? = none := by
      rw [Array.getElem?_eq_none_iff, h.image.methods_size]
      exact Array.getElem?_eq_none_iff.1 hmethod
    rw [Frame.enter_of_none hmethod, Frame.enter_of_none hmethod', h.name_eq]
    exact .error _
  | some method =>
    have hlt : index < m'.image.methods.size := by
      rw [h.image.methods_size]
      exact (Array.getElem?_eq_some_iff.1 hmethod).1
    have hmethod' := Array.getElem?_eq_getElem hlt
    have halters := h.image.method index _ _ hmethod hmethod'
    have hslots := halters.maxLocals_eq
    have hsize := halters.code_size
    rw [Frame.enter_of_some hmethod, Frame.enter_of_some hmethod', hslots]
    split
    · exact .error _
    · by_cases hnonempty : 0 < method.code.size
      · rw [dif_pos hnonempty, dif_pos (by rwa [hsize])]
        exact .ok ⟨h, rfl, rfl, rfl, rfl⟩
      · rw [dif_neg hnonempty, dif_neg (by rwa [hsize])]
        exact .error _

/-! ## Operands -/

namespace Frame

/-- The same operand off two frames that mirror each other, and still do. -/
inductive Took {α : Type} (rules : RuleSet) : α × Frame → α × Frame → Prop
  | intro (a : α) {g g' : Frame} (h : g.Mirrors rules g') : Took rules (a, g) (a, g')

/-- The same two operands. -/
inductive TookBoth {α β : Type} (rules : RuleSet) : α × β × Frame → α × β × Frame → Prop
  | intro (a : α) (b : β) {g g' : Frame} (h : g.Mirrors rules g') :
      TookBoth rules (a, b, g) (a, b, g')

namespace Mirrors

variable {f f' : Frame}

theorem pop (h : f.Mirrors rules f') : Alike (Took rules) f.pop f'.pop := by
  unfold Frame.pop
  rw [h.stack_eq]
  split
  · exact .ok (.intro _ (h.with_stack _))
  · exact .error _

theorem pop2 (h : f.Mirrors rules f') : Alike (TookBoth rules) f.pop2 f'.pop2 := by
  refine h.pop.bind ?_
  rintro _ _ ⟨right, hright⟩
  refine hright.pop.bind ?_
  rintro _ _ ⟨left, hleft⟩
  exact .ok (.intro left right hleft)

theorem popBool (h : f.Mirrors rules f') : Alike (Took rules) f.popBool f'.popBool := by
  refine h.pop.bind ?_
  rintro _ _ ⟨v, hg⟩
  cases v with
  | bool b => exact .ok (.intro b hg)
  | _ => exact .error _

theorem popInts (h : f.Mirrors rules f') : Alike (TookBoth rules) f.popInts f'.popInts := by
  refine h.pop2.bind ?_
  rintro _ _ ⟨left, right, hg⟩
  cases left with
  | int a =>
    cases right with
    | int b => exact .ok (.intro a b hg)
    | _ => exact .error _
  | _ => exact .error _

end Mirrors

/-! ## Instructions -/

/-- The same call, or the call of a source and that of its target on the same operands. -/
inductive Call.Mirrors (rules : RuleSet) : Call → Call → Prop
  | same (c : Call) : Mirrors rules c c
  | redirected {c c' : Call} {rule : Rule} (hrule : rule ∈ rules.rules)
      (hsource : c.symbol = rule.source) (htarget : c'.symbol = rule.target)
      (hargs : c'.args = c.args) : Mirrors rules c c'

theorem Call.Mirrors.args_eq {c c' : Call} (h : c.Mirrors rules c') : c'.args = c.args := by
  cases h with
  | same => rfl
  | redirected _ _ _ hargs => exact hargs

/-- The result of a target is kept where that of the source is. -/
theorem Call.Mirrors.keepsResult_eq {c c' : Call} (h : c.Mirrors rules c') :
    c'.keepsResult = c.keepsResult := by
  cases h with
  | same => rfl
  | redirected hrule hsource htarget hargs =>
    rw [Call.keepsResult, Call.keepsResult, htarget, hsource, Rule.target_signature,
      Symbol.isVoid_staticSignature]

/-- What an instruction comes to in two frames that mirror each other. -/
inductive Flow.Mirrors (rules : RuleSet) : Flow → Flow → Prop
  | next {f f' : Frame} (h : f.Mirrors rules f') : Mirrors rules (.next f) (.next f')
  | jump {f f' : Frame} (h : f.Mirrors rules f') (target : UInt32) :
      Mirrors rules (.jump f target) (.jump f' target)
  | ret (value : Value) : Mirrors rules (.ret value) (.ret value)
  | allocate {f f' : Frame} (h : f.Mirrors rules f') (typeName : String) :
      Mirrors rules (.allocate f typeName) (.allocate f' typeName)
  | call {f f' : Frame} {c c' : Call} (h : f.Mirrors rules f') (hcall : c.Mirrors rules c') :
      Mirrors rules (.call f c) (.call f' c')

namespace Mirrors

variable {f f' : Frame}

/-- A call that stays is the same in both frames. -/
theorem call (h : f.Mirrors rules f') {kind : CallKind} {index : UInt16} {m : MemberTexts}
    {signature : Signature} (hm : f.module.image.pool.method? index = some m)
    (hparse : Signature.parse m.descriptor = .ok signature) :
    Alike (Took rules) (f.call kind index) (f'.call kind index) := by
  have hm' := h.module.image.extends_pool.method? hm
  rw [Frame.call_eq hm hparse, Frame.call_eq hm' hparse, Frame.operands, Frame.operands,
    h.stack_eq]
  split
  · exact .error _
  · cases calledOwner m kind (f.stack.take (signature.arity + kind.receivers)).reverse with
    | error failure => exact .error _
    | ok owner => exact .ok (.intro _ (h.with_stack _))

/-- A redirected call takes the operands of the call in whose place it stands. -/
theorem call_redirected (h : f.Mirrors rules f') {index target : UInt16} {rule : Rule}
    (hrule : rule ∈ rules.rules) (hstatic : rule.source.kind = .static)
    (hnames : f.module.image.pool.Names (index, .static) rule.source)
    (htarget : f'.module.image.pool.method? target = some rule.target.texts) :
    Alike (fun x y => x.2.Mirrors rules y.2 ∧ x.1.Mirrors rules y.1) (f.call .static index)
      (f'.call .static target) := by
  have hparse' := rule.parse_target (Symbol.reads_of_static hstatic) hnames
  rcases hnames with ⟨m, hm, hsource⟩
  rcases map_eq_ok_iff.1 hsource with ⟨signature, hparse, hsymbol⟩
  -- The target of a rule for a static call has the signature of the source.
  have hsignature : rule.target.signature = signature := by
    rw [rule.target_signature, Symbol.staticSignature, hstatic, ← hsymbol]
  rw [Frame.call_eq hm hparse, Frame.call_eq htarget hparse', hsignature, Frame.operands,
    Frame.operands, h.stack_eq]
  split
  · exact .error _
  · refine .ok ⟨h.with_stack _, .redirected hrule hsymbol ?_ rfl⟩
    rw [← hsignature, ← rule.target_static]
    rfl

/-- An instruction that stays is executed alike. -/
theorem execute_same (h : f.Mirrors rules f') (hf : f.Stands heights) (hheights : heights.Sound)
    (host : Host) (hsame : f'.instruction = f.instruction) :
    Alike (Flow.Mirrors rules) (f.execute host) (f'.execute host) := by
  rcases hf.applies hheights with ⟨r, e, hpool, -, he⟩
  have hextends := h.module.image.extends_pool
  cases hi : f.instruction <;> rw [hi] at hsame he <;>
    simp only [Frame.execute, hi, hsame]
  case nop => exact .ok (.next h)
  case pushTrue | pushFalse => exact .ok (.next (h.push _))
  case const index =>
    simp only [Routine.effect, hpool] at he
    split at he
    case h_1 v hget =>
      simp only [hget, hextends.get? hget]
      exact .ok (.next (h.push _))
    case h_2 text hget =>
      -- The text of a literal of the original is there.
      rcases hf.verified.wellFormed.admitted _ (Array.mem_of_getElem? hget) with ⟨s, hs⟩
      have hget' := hextends.get? hget
      have hstr : f.module.image.pool.str? index = some s := by simp [Pool.str?, hget, hs]
      have hstr' : f'.module.image.pool.str? index = some s := by
        simp [Pool.str?, hget', hextends.utf8? hs]
      simp only [hget, hget', hstr, hstr']
      exact .ok (.next (h.push _))
    case h_3 => cases he
  case load slot =>
    rw [h.locals_eq]
    split
    · exact .ok (.next (h.push _))
    · exact .error _
  case store slot =>
    refine h.pop.bind ?_
    rintro _ _ ⟨v, hg⟩
    dsimp only
    rw [hg.locals_eq]
    split
    · exact .ok (.next (hg.with_locals _))
    · exact .error _
  case pop =>
    refine h.pop.bind ?_
    rintro _ _ ⟨v, hg⟩
    exact .ok (.next hg)
  case dup =>
    refine h.pop.bind ?_
    rintro _ _ ⟨v, hg⟩
    exact .ok (.next (h.push v))
  case add | sub =>
    refine h.popInts.bind ?_
    rintro _ _ ⟨a, b, hg⟩
    exact .ok (.next (hg.push _))
  case equal | concat =>
    refine h.pop2.bind ?_
    rintro _ _ ⟨a, b, hg⟩
    exact .ok (.next (hg.push _))
  case negate =>
    refine h.popBool.bind ?_
    rintro _ _ ⟨b, hg⟩
    exact .ok (.next (hg.push _))
  case getStatic index =>
    simp only [Routine.effect, hpool] at he
    split at he
    case h_1 m hm =>
      rw [hm, hextends.field? hm]
      dsimp only
      split
      · exact .ok (.next (h.push _))
      · exact .error _
    case h_2 => cases he
  case new index =>
    simp only [Routine.effect, hpool] at he
    split at he
    case h_1 typeName htype =>
      rw [htype, hextends.utf8? htype]
      exact .ok (.allocate h typeName)
    case h_2 => cases he
  case jump target => exact .ok (.jump h target)
  case jumpIfFalse target =>
    refine h.popBool.bind ?_
    rintro _ _ ⟨b, hg⟩
    cases b with
    | true => exact .ok (.next hg)
    | false => exact .ok (.jump hg target)
  case invoke kind index =>
    simp only [Routine.effect, hpool] at he
    split at he
    case h_1 => cases he
    case h_2 m hm =>
      split at he
      case h_1 => cases he
      case h_2 signature hparse =>
        refine (h.call hm hparse).bind ?_
        rintro _ _ ⟨c, hg⟩
        exact .ok (.call hg (.same c))
  case ret => exact .ok (.ret _)
  case retValue =>
    refine h.pop.bind ?_
    rintro _ _ ⟨v, hg⟩
    exact .ok (.ret v)
  case throw =>
    refine h.pop.bind ?_
    rintro _ _ ⟨v, hg⟩
    exact .error _

/-- Frames that mirror each other execute their instructions alike. -/
theorem execute (h : f.Mirrors rules f') (hf : f.Stands heights) (hheights : heights.Sound)
    (hstatic : ∀ rule ∈ rules.rules, rule.source.kind = .static) (host : Host) :
    Alike (Flow.Mirrors rules) (f.execute host) (f'.execute host) := by
  rcases h.instruction.cases with
    hsame | ⟨kind, index, target, source, rule, hi, hi', hnames, hrule, htarget⟩
  · exact h.execute_same hf hheights host hsame
  rcases RuleSet.lookup_eq_some hrule with ⟨hmem, rfl⟩
  obtain rfl : kind = .static := by
    rcases hnames with ⟨m, -, hsource⟩
    rcases map_eq_ok_iff.1 hsource with ⟨signature, -, hsymbol⟩
    rw [← hstatic rule hmem, ← hsymbol]
  -- The constant is one of the original, which is what the effect of the instruction says.
  have horiginal : f.module.image.pool.Names (index, .static) rule.source := by
    rcases hf.applies hheights with ⟨r, e, hpool, -, he⟩
    rcases hnames with ⟨m, hm, hsource⟩
    simp only [hi, Routine.effect, hpool] at he
    split at he
    case h_1 => cases he
    case h_2 m' hm' =>
      have hlater := h.module.image.extends_pool.method? hm'
      obtain rfl : m = m' := Option.some.inj (hm.symm.trans hlater)
      exact ⟨m, hm', hsource⟩
  simp only [Frame.execute, hi, hi']
  refine (h.call_redirected hmem (hstatic rule hmem) horiginal htarget).bind ?_
  rintro ⟨c, g⟩ ⟨c', g'⟩ ⟨hg, hcall⟩
  exact .ok (.call hg hcall)

end Mirrors

end Frame

end Interposition
