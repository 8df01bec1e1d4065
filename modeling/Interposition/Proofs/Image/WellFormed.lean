import Interposition.Proofs.Image.Discipline
import Interposition.Proofs.Image.Interning

/-!
# Interposition.Proofs.Image.WellFormed — what a verified image is

`Image.WellFormed` says what it means for an image to be well formed without any order of
checks: every constant is admitted by the pool, the name is text, the labels of the methods
differ, and every method has a routine that keeps the stack discipline. `verify_eq_ok_iff`
says that the verifier accepts exactly these images.
-/

namespace Interposition

/-! ## The pool -/

/-- What a constant refers to is there and of the right kind. -/
def Pool.Admits (p : Pool) : Constant → Prop
  | .utf8 _ | .int _ => True
  | .str text => ∃ s, p.utf8? text = some s
  | .method m => ∃ texts signature, p.texts? m = some texts ∧
      Signature.parse texts.descriptor = .ok signature
  | .field m => ∃ texts type, p.texts? m = some texts ∧
      ValueType.parse texts.descriptor = .ok type

theorem Pool.requireUtf8_eq_ok_iff {p : Pool} {index : UInt16} {text : String} :
    p.requireUtf8 index = .ok text ↔ p.utf8? index = some text := by
  rw [requireUtf8]
  cases p.utf8? index with
  | none => simp
  | some s => simp

theorem Pool.requireDescriptor_eq_ok_iff {α : Type} {p : Pool}
    {parse : String → Except DescriptorError α} {index position : UInt16} {a : α} :
    p.requireDescriptor parse index position = .ok a ↔
      ∃ text, p.utf8? position = some text ∧ parse text = .ok a := by
  simp only [requireDescriptor, bind_eq_ok_iff, requireUtf8_eq_ok_iff, mapError_eq_ok_iff]

/-- The two kinds of member are checked alike: texts and a descriptor that reads. -/
theorem Pool.checkMember_eq_ok_iff {α : Type} {p : Pool} {m : Member} {index : UInt16}
    {parse : String → Except DescriptorError α} :
    (do
      let _ ← p.requireUtf8 m.owner
      let _ ← p.requireUtf8 m.name
      let _ ← p.requireDescriptor parse index m.descriptor : Except VerifyError Unit) = .ok () ↔
      ∃ texts a, p.texts? m = some texts ∧ parse texts.descriptor = .ok a := by
  simp only [bind_eq_ok_iff, requireUtf8_eq_ok_iff, requireDescriptor_eq_ok_iff,
    texts?_eq_some_iff]
  constructor
  · rintro ⟨owner, howner, name, hname, a, ⟨descriptor, hdescriptor, hparse⟩, -⟩
    exact ⟨⟨owner, name, descriptor⟩, a, ⟨howner, hname, hdescriptor⟩, hparse⟩
  · rintro ⟨texts, a, ⟨howner, hname, hdescriptor⟩, hparse⟩
    exact ⟨_, howner, _, hname, a, ⟨_, hdescriptor, hparse⟩, rfl⟩

theorem Pool.checkConstant_eq_ok_iff {p : Pool} {index : Nat} {c : Constant} :
    p.checkConstant index c = .ok () ↔ p.Admits c := by
  cases c with
  | utf8 text => simp [checkConstant, Admits]
  | int value => simp [checkConstant, Admits]
  | str text =>
    simp only [checkConstant, Admits, bind_eq_ok_iff, requireUtf8_eq_ok_iff]
    constructor
    · rintro ⟨s, hs, -⟩
      exact ⟨s, hs⟩
    · rintro ⟨s, hs⟩
      exact ⟨s, hs, rfl⟩
  | method m => exact checkMember_eq_ok_iff
  | field m => exact checkMember_eq_ok_iff

/-- A pool passes when it admits each of its constants. -/
theorem Pool.verify_eq_ok_iff {p : Pool} :
    p.verify = .ok () ↔ ∀ c ∈ p.entries, p.Admits c := by
  simp only [Pool.verify, checkEach_eq_ok_iff, checkConstant_eq_ok_iff]
  constructor
  · intro hall c hc
    rcases List.mem_iff_getElem?.1 (Array.mem_toList_iff.2 hc) with ⟨i, hi⟩
    exact hall i c hi
  · intro hall i c hi
    exact hall c (Array.mem_toList_iff.1 (List.mem_of_getElem? hi))

/-! ## Methods -/

/-- A method has a routine when its texts are there, its descriptor reads and its arguments
fit. -/
theorem Routine.ofMethod_eq_ok_iff {image : Image} {m : Method} {r : Routine} :
    Routine.ofMethod image m = .ok r ↔
      ∃ descriptor name signature, image.pool.utf8? m.descriptor = some descriptor ∧
        image.pool.utf8? m.name = some name ∧ Signature.parse descriptor = .ok signature ∧
        Routine.argumentSlots m signature ≤ m.maxLocals.toNat ∧
        r = ⟨image.pool, m, image.methodLabel m, signature, Code.offsets m.code⟩ := by
  simp only [ofMethod, bind_eq_ok_iff, Pool.requireUtf8_eq_ok_iff, mapError_eq_ok_iff]
  constructor
  · rintro ⟨descriptor, hdescriptor, name, hname, signature, hsignature, h⟩
    refine ⟨descriptor, name, signature, hdescriptor, hname, hsignature, ?_⟩
    by_cases hslots : m.maxLocals.toNat < argumentSlots m signature
    · simp [hslots, throw, throwThe, MonadExceptOf.throw, bind, Except.bind] at h
    · simp [hslots, pure, Except.pure] at h
      exact ⟨Nat.not_lt.1 hslots, h.symm⟩
  · rintro ⟨descriptor, name, signature, hdescriptor, hname, hsignature, hslots, rfl⟩
    refine ⟨descriptor, hdescriptor, name, hname, signature, hsignature, ?_⟩
    simp [Nat.not_lt.2 hslots, pure, Except.pure]

/-- The check of a method passes when its routine keeps the stack discipline. -/
theorem Routine.ofMethod_check_eq_ok_iff {image : Image} {m : Method} :
    Routine.ofMethod image m >>= Routine.check = .ok () ↔
      ∃ r heights, Routine.ofMethod image m = .ok r ∧ r.Discipline heights := by
  rw [bind_eq_ok_iff]
  constructor
  · rintro ⟨r, hr, hcheck⟩
    rcases ofMethod_eq_ok_iff.1 hr with ⟨_, _, _, _, _, _, _, rfl⟩
    rcases (check_eq_ok_iff (Code.offsets_size m.code)).1 hcheck with ⟨heights, hd⟩
    exact ⟨_, heights, hr, hd⟩
  · rintro ⟨r, heights, hr, hd⟩
    rcases ofMethod_eq_ok_iff.1 hr with ⟨_, _, _, _, _, _, _, rfl⟩
    exact ⟨_, hr, (check_eq_ok_iff (Code.offsets_size m.code)).2 ⟨heights, hd⟩⟩

namespace Image

theorem checkMethods_eq_ok_iff {image : Image} {seen : List String} {ms : List Method} :
    image.checkMethods seen ms = .ok () ↔
      (ms.map image.methodLabel).Nodup ∧ (∀ m ∈ ms, image.methodLabel m ∉ seen) ∧
        ∀ m ∈ ms, ∃ r heights, Routine.ofMethod image m = .ok r ∧ r.Discipline heights := by
  induction ms generalizing seen with
  | nil => simp [checkMethods]
  | cons m rest ih =>
    rw [checkMethods]
    by_cases htaken : image.methodLabel m ∈ seen
    · simp [htaken]
    · simp only [htaken, if_false, List.map_cons, List.nodup_cons, List.forall_mem_cons,
        ← Routine.ofMethod_check_eq_ok_iff]
      cases hcheck : Routine.ofMethod image m >>= Routine.check with
      | error e => simp
      | ok u =>
        simp only [ih, List.mem_cons, not_or, forall_and, ← Routine.ofMethod_check_eq_ok_iff]
        -- A label is new to the rest exactly when the rest is new to it.
        have hnew : (∀ m' ∈ rest, ¬ image.methodLabel m' = image.methodLabel m) ↔
            image.methodLabel m ∉ rest.map image.methodLabel := by
          simp [List.mem_map]
        simp only [← hnew]
        grind

/-! ## Images -/

/-- The constants refer to one another correctly, the image has a name, its methods differ by
their labels, and each method keeps the stack discipline. -/
structure WellFormed (image : Image) : Prop where
  admitted : ∀ c ∈ image.pool.entries, image.pool.Admits c
  named : ∃ name, image.name? = some name
  distinct : (image.methods.toList.map image.methodLabel).Nodup
  disciplined : ∀ m ∈ image.methods, ∃ r heights,
    Routine.ofMethod image m = .ok r ∧ r.Discipline heights

/-- The verifier accepts the well-formed images and no others. -/
theorem verify_eq_ok_iff {image : Image} : image.verify = .ok () ↔ image.WellFormed := by
  rw [verify, check_bind_eq_ok_iff, Pool.verify_eq_ok_iff, bind_eq_ok_iff]
  simp only [Pool.requireUtf8_eq_ok_iff, checkMethods_eq_ok_iff, Array.mem_toList_iff]
  constructor
  · rintro ⟨hadmitted, name, hname, hdistinct, -, hdisciplined⟩
    exact ⟨hadmitted, ⟨name, hname⟩, hdistinct, hdisciplined⟩
  · rintro ⟨hadmitted, ⟨name, hname⟩, hdistinct, hdisciplined⟩
    exact ⟨hadmitted, name, hname, hdistinct, by simp, hdisciplined⟩

theorem verifyNamed_eq_ok_iff {image : Image} {name : String} :
    image.verifyNamed name = .ok () ↔ image.WellFormed ∧ image.name? = some name := by
  rw [verifyNamed, check_bind_eq_ok_iff, verify_eq_ok_iff]
  by_cases hname : image.name? = some name
  · simp [hname, pure, Except.pure]
  · simp [hname, throw, throwThe, MonadExceptOf.throw]

/-- A well-formed image is refused under a name for nothing but its own name. -/
theorem WellFormed.verifyNamed_eq {image : Image} (h : image.WellFormed) (name : String) :
    image.verifyNamed name =
      if image.name? = some name then .ok ()
      else .error (.nameMismatch name (image.name?.getD "")) := by
  by_cases hname : image.name? = some name
  · rw [if_pos hname]
    exact verifyNamed_eq_ok_iff.2 ⟨h, hname⟩
  · rw [verifyNamed, verify_eq_ok_iff.2 h]
    simp [hname, bind, Except.bind, throw, throwThe, MonadExceptOf.throw]

/-- Every method of a well-formed pool has a descriptor that reads. -/
theorem WellFormed.parse_of_method? {image : Image} (h : image.WellFormed) {index : UInt16}
    {texts : MemberTexts} (hmethod : image.pool.method? index = some texts) :
    ∃ signature, Signature.parse texts.descriptor = .ok signature := by
  rcases Pool.method?_eq_some_iff.1 hmethod with ⟨m, hget, htexts⟩
  rcases h.admitted _ (Array.mem_of_getElem? hget) with ⟨texts', signature, htexts', hparse⟩
  obtain rfl : texts' = texts := Option.some.inj (htexts'.symm.trans htexts)
  exact ⟨signature, hparse⟩

end Image

end Interposition
