import Interposition.Proofs.Image.Alteration
import Interposition.Proofs.Image.FlowPass

/-!
# Interposition.Proofs.Image.Reach — what control reaches and what is referred to there

`Method.Reached` follows control through a method without stack heights. A map of heights that
keeps the discipline has a height at every position reached, and its part at these positions keeps
it too (`Discipline.exists_reached`). So the verifier follows just the references of an image that
`Image.Follows` lists: those of instructions that are never reached are not among them.
-/

namespace Interposition

/-! ## Positions reached -/

/-- Where an instruction starts is a matter of the table of offsets. -/
theorem Code.startsAt_congr {code code' : Array Instruction} {position : Nat} {offset : UInt32}
    (h : Code.offsets code' = Code.offsets code) :
    Code.StartsAt code' position offset ↔ Code.StartsAt code position offset := by
  rw [Code.StartsAt, Code.StartsAt, ← Code.position?_eq_some_iff, ← Code.position?_eq_some_iff, h]

/-- Control may come to a position: at the entry, at the target of a handler, by a jump or from
the instruction before. -/
inductive Method.Reached (m : Method) : Nat → Prop
  | entry : Reached m 0
  | handler {h : Handler} {position : Nat} (hmem : h ∈ m.handlers)
      (hstarts : Code.StartsAt m.code position h.target) : Reached m position
  | jump {position goal : Nat} {i : Instruction} {target : UInt32}
      (hreached : Reached m position) (hi : m.code[position]? = some i)
      (htarget : i.jumpTarget? = some target) (hstarts : Code.StartsAt m.code goal target) :
      Reached m goal
  | next {position : Nat} {i : Instruction} (hreached : Reached m position)
      (hi : m.code[position]? = some i) (hterminal : i.isTerminal = false) :
      Reached m (position + 1)

/-- Altering instructions opens no way to a position, if their jumps and ends stay. -/
theorem Method.Alters.reached {R : Instruction → Instruction → Prop} {m m' : Method}
    (h : m.Alters R m') (hR : ∀ i i', R i i' →
      i'.jumpTarget? = i.jumpTarget? ∧ i'.isTerminal = i.isTerminal) {position : Nat}
    (hreached : m'.Reached position) : m.Reached position := by
  induction hreached with
  | entry => exact .entry
  | handler hmem hstarts =>
    rw [h.handlers_eq] at hmem
    exact .handler hmem ((Code.startsAt_congr h.offsets_eq).1 hstarts)
  | jump _ hi' htarget hstarts ih =>
    rcases h.instruction _ _ hi' with ⟨i, hi, hrelated⟩
    rw [(hR _ _ hrelated).1] at htarget
    exact .jump ih hi htarget ((Code.startsAt_congr h.offsets_eq).1 hstarts)
  | next _ hi' hterminal ih =>
    rcases h.instruction _ _ hi' with ⟨i, hi, hrelated⟩
    rw [(hR _ _ hrelated).2] at hterminal
    exact .next ih hi hterminal

namespace Routine

variable {r : Routine} {heights : Nat → Option Nat}

/-- There is a height wherever control comes. -/
theorem Discipline.isSome_of_reached (hd : r.Discipline heights)
    (hstarts : r.starts = Code.offsets r.method.code) {position : Nat}
    (h : r.method.Reached position) : (heights position).isSome := by
  have hb := ((discipline_iff hstarts).1 hd).2.2
  induction h with
  | entry =>
    rw [hb.entry]
    rfl
  | handler hmem hstart =>
    rw [hb.caught _ hmem _ hstart]
    rfl
  | @jump position goal i target _ hi htarget hstart ih =>
    rcases Option.isSome_iff_exists.1 ih with ⟨height, hheight⟩
    rcases hb.step _ _ hheight with ⟨i', e, hi', -, -, hjump, -⟩
    obtain rfl : i' = i := Option.some.inj (hi'.symm.trans hi)
    rcases hjump target htarget with ⟨goal', hstart', hgoal⟩
    -- One instruction starts at an offset, so the jump has one goal.
    have hposition := (position?_eq_some_iff hstarts).2 hstart
    rw [(position?_eq_some_iff hstarts).2 hstart'] at hposition
    rw [← Option.some.inj hposition, hgoal]
    rfl
  | @next position i _ hi hterminal ih =>
    rcases Option.isSome_iff_exists.1 ih with ⟨height, hheight⟩
    rcases hb.step _ _ hheight with ⟨i', e, hi', -, -, -, hnext⟩
    obtain rfl : i' = i := Option.some.inj (hi'.symm.trans hi)
    rw [(hnext hterminal).2]
    rfl

/-- The heights at the positions reached keep the discipline by themselves. -/
theorem Discipline.exists_reached (hd : r.Discipline heights)
    (hstarts : r.starts = Code.offsets r.method.code) :
    ∃ heights', r.Discipline heights' ∧ ∀ position height, heights' position = some height →
      r.method.Reached position := by
  classical
  rcases (discipline_iff hstarts).1 hd with ⟨hfits, hnonempty, hb⟩
  let heights' : Nat → Option Nat := fun p => if r.method.Reached p then heights p else none
  have hkept {p : Nat} (hp : r.method.Reached p) : heights' p = heights p := if_pos hp
  have honly (p height : Nat) (h : heights' p = some height) : r.method.Reached p := by
    by_contra hnot
    rw [show heights' p = none from if_neg hnot] at h
    cases h
  refine ⟨heights', (discipline_iff hstarts).2 ⟨hfits, hnonempty, ?_, ?_, ?_⟩, honly⟩
  · rw [hkept .entry]
    exact hb.entry
  · intro h hmem position hstart
    rw [hkept (.handler hmem hstart)]
    exact hb.caught h hmem position hstart
  · intro position height hheight
    have hreached := honly position height hheight
    rw [hkept hreached] at hheight
    rcases hb.step position height hheight with ⟨i, e, hi, he, hpops, hjump, hnext⟩
    refine ⟨i, e, hi, he, hpops, ?_, ?_⟩
    · intro target htarget
      rcases hjump target htarget with ⟨goal, hstart, hgoal⟩
      refine ⟨goal, hstart, ?_⟩
      rw [hkept (.jump hreached hi htarget hstart)]
      exact hgoal
    · intro hterminal
      rcases hnext hterminal with ⟨hlt, hgoal⟩
      refine ⟨hlt, ?_⟩
      rw [hkept (.next hreached hi hterminal)]
      exact hgoal

end Routine

/-! ## References -/

theorem Pool.lt_of_get? {p : Pool} {index : UInt16} {c : Constant} (h : p.get? index = some c) :
    index.toNat < p.size :=
  (Array.getElem?_eq_some_iff.1 h).1

theorem Pool.lt_of_utf8? {p : Pool} {index : UInt16} {text : String}
    (h : p.utf8? index = some text) : index.toNat < p.size :=
  lt_of_get? (get?_of_utf8? h)

/-- The positions of the pool that a constant refers to. -/
def Constant.references : Constant → List UInt16
  | .utf8 _ | .int _ => []
  | .str text => [text]
  | .method m | .field m => [m.owner, m.name, m.descriptor]

/-- The references of an image that are followed to verify it: its name, what its constants refer
to, the names and descriptors of its methods, and the operands of instructions that control
reaches. -/
inductive Image.Follows (image : Image) : UInt16 → Prop
  | name : Follows image image.thisName
  | constant {c : Constant} {index : UInt16} (hc : c ∈ image.pool.entries)
      (hindex : index ∈ c.references) : Follows image index
  | methodName {m : Method} (hm : m ∈ image.methods) : Follows image m.name
  | methodDescriptor {m : Method} (hm : m ∈ image.methods) : Follows image m.descriptor
  | operand {m : Method} {position : Nat} {i : Instruction} {index : UInt16}
      (hm : m ∈ image.methods) (hreached : m.Reached position)
      (hi : m.code[position]? = some i) (hindex : i.poolOperand? = some index) :
      Follows image index

namespace Image

/-- What control reaches in a well-formed image has an effect. -/
theorem WellFormed.exists_effect {image : Image} (h : image.WellFormed) {m : Method}
    (hm : m ∈ image.methods) {position : Nat} (hreached : m.Reached position) :
    ∃ r i e, Routine.ofMethod image m = .ok r ∧ m.code[position]? = some i ∧
      r.effect (r.offset position) i = .ok e := by
  rcases h.disciplined m hm with ⟨r, heights, hr, hd⟩
  rcases Routine.ofMethod_eq_ok_iff.1 hr with ⟨_, _, _, _, _, _, _, rfl⟩
  rcases Option.isSome_iff_exists.1 (hd.isSome_of_reached rfl hreached) with ⟨height, hheight⟩
  rcases hd.closed position height hheight with ⟨i, e, hi, he, -⟩
  exact ⟨_, i, e, hr, hi, he⟩

/-- In a well-formed image all that is followed is there. -/
theorem WellFormed.lt_of_follows {image : Image} (h : image.WellFormed) {index : UInt16}
    (hindex : image.Follows index) : index.toNat < image.pool.size := by
  cases hindex with
  | name =>
    rcases h.named with ⟨name, hname⟩
    exact Pool.lt_of_utf8? hname
  | @constant c _ hc hindex =>
    have hadmits := h.admitted c hc
    cases c with
    | utf8 text | int value => cases hindex
    | str text =>
      rcases hadmits with ⟨s, hs⟩
      obtain rfl : index = text := by simpa [Constant.references] using hindex
      exact Pool.lt_of_utf8? hs
    | method m | field m =>
      rcases hadmits with ⟨texts, _, htexts, -⟩
      rcases Pool.texts?_eq_some_iff.1 htexts with ⟨howner, hname, hdescriptor⟩
      simp only [Constant.references, List.mem_cons, List.not_mem_nil, or_false] at hindex
      rcases hindex with rfl | rfl | rfl
      · exact Pool.lt_of_utf8? howner
      · exact Pool.lt_of_utf8? hname
      · exact Pool.lt_of_utf8? hdescriptor
  | methodName hm =>
    rcases h.disciplined _ hm with ⟨r, heights, hr, -⟩
    rcases Routine.ofMethod_eq_ok_iff.1 hr with ⟨_, _, _, -, hname, -⟩
    exact Pool.lt_of_utf8? hname
  | methodDescriptor hm =>
    rcases h.disciplined _ hm with ⟨r, heights, hr, -⟩
    rcases Routine.ofMethod_eq_ok_iff.1 hr with ⟨_, _, _, hdescriptor, -⟩
    exact Pool.lt_of_utf8? hdescriptor
  | operand hm hreached hi hindex =>
    rcases h.exists_effect hm hreached with ⟨r, i', e, hr, hi', he⟩
    rcases Routine.ofMethod_eq_ok_iff.1 hr with ⟨_, _, _, _, _, _, _, rfl⟩
    obtain rfl := Option.some.inj (hi'.symm.trans hi)
    exact (Routine.provides_of_effect he hindex).lt

end Image

end Interposition
