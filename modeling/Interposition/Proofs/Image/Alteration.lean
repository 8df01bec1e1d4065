import Interposition.Proofs.Image.Preservation

/-!
# Interposition.Proofs.Image.Alteration — images that differ in their instructions alone

`Image.Alters R` relates an image to one with a larger pool and the same methods, but for their
instructions: these are related one by one by `R`. Redirecting alters an image so, with the
instructions related as the rules say (`Image.redirect_alters`). Where the texts of the original
are there, names, descriptors, labels and byte offsets are the same in both.
-/

namespace Interposition

variable {R S : Instruction → Instruction → Prop}

/-! ## Methods -/

/-- A method with other instructions in the places of its own, each related to the one it stands
for. -/
structure Method.Alters (R : Instruction → Instruction → Prop) (m m' : Method) : Prop where
  flags_eq : m'.flags = m.flags
  name_eq : m'.name = m.name
  descriptor_eq : m'.descriptor = m.descriptor
  maxLocals_eq : m'.maxLocals = m.maxLocals
  handlers_eq : m'.handlers = m.handlers
  code_size : m'.code.size = m.code.size
  offsets_eq : Code.offsets m'.code = Code.offsets m.code
  instruction : ∀ (position : Nat) (i' : Instruction), m'.code[position]? = some i' →
    ∃ i, m.code[position]? = some i ∧ R i i'

theorem Method.Alters.mono {m m' : Method} (h : m.Alters R m') (hRS : ∀ i i', R i i' → S i i') :
    m.Alters S m' := by
  refine ⟨h.flags_eq, h.name_eq, h.descriptor_eq, h.maxLocals_eq, h.handlers_eq, h.code_size,
    h.offsets_eq, ?_⟩
  intro position i' hi'
  rcases h.instruction position i' hi' with ⟨i, hi, hR⟩
  exact ⟨i, hi, hRS i i' hR⟩

theorem Method.Alters.refl (hR : ∀ i, R i i) (m : Method) : m.Alters R m :=
  ⟨rfl, rfl, rfl, rfl, rfl, rfl, rfl, fun _ i hi => ⟨i, hi, hR i⟩⟩

/-- Replacements are put in place one by one. -/
theorem Method.alters_apply {m : Method} (known : Replacements)
    (h : ∀ i ∈ m.code, R i (known.apply i)) :
    m.Alters R { m with code := m.code.map known.apply } := by
  refine ⟨rfl, rfl, rfl, rfl, rfl, Array.size_map, known.offsets_map_apply m.code, ?_⟩
  intro position i' hi'
  rw [Array.getElem?_map, Option.map_eq_some_iff] at hi'
  rcases hi' with ⟨i, hi, rfl⟩
  exact ⟨i, hi, h i (Array.mem_of_getElem? hi)⟩

theorem Method.Alters.isStatic_eq {m m' : Method} (h : m.Alters R m') :
    m'.isStatic = m.isStatic := by
  rw [isStatic, h.flags_eq, isStatic]

/-! ## Images -/

namespace Image

/-- The instruction at a position of the method at an index. -/
def instruction? (image : Image) (index position : Nat) : Option Instruction :=
  image.methods[index]?.bind (·.code[position]?)

/-- An image with more constants behind its own and altered methods. -/
structure Alters (R : Instruction → Instruction → Prop) (image image' : Image) : Prop where
  extends_pool : image'.pool.Extends image.pool
  methods_size : image'.methods.size = image.methods.size
  method : ∀ (k : Nat) (m m' : Method), image.methods[k]? = some m →
    image'.methods[k]? = some m' → m.Alters R m'

variable {image image' : Image}

theorem Alters.mono (h : image.Alters R image') (hRS : ∀ i i', R i i' → S i i') :
    image.Alters S image' :=
  ⟨h.extends_pool, h.methods_size, fun k m m' hm hm' => (h.method k m m' hm hm').mono hRS⟩

theorem Alters.refl (hR : ∀ i, R i i) (image : Image) : image.Alters R image := by
  refine ⟨.refl _, rfl, ?_⟩
  intro k m m' hm hm'
  rcases Option.some.inj (hm.symm.trans hm') with rfl
  exact .refl hR m

/-- Every method of the altered image is an altered method. -/
theorem Alters.exists_method (h : image.Alters R image') {k : Nat} {m' : Method}
    (hm' : image'.methods[k]? = some m') :
    ∃ m, image.methods[k]? = some m ∧ m.Alters R m' := by
  have hlt : k < image.methods.size := by
    rw [← h.methods_size]
    exact (Array.getElem?_eq_some_iff.1 hm').1
  have hm := Array.getElem?_eq_getElem hlt
  exact ⟨_, hm, h.method k _ m' hm hm'⟩

theorem Alters.exists_instruction (h : image.Alters R image') {k position : Nat}
    {i' : Instruction} (hi' : image'.instruction? k position = some i') :
    ∃ i, image.instruction? k position = some i ∧ R i i' := by
  rcases Option.bind_eq_some_iff.1 hi' with ⟨m', hm', hcode⟩
  rcases h.exists_method hm' with ⟨m, hm, hmethod⟩
  rcases hmethod.instruction position i' hcode with ⟨i, hi, hR⟩
  exact ⟨i, Option.bind_eq_some_iff.2 ⟨m, hm, hi⟩, hR⟩

/-- What is the same for each method and the altered one is the same for all in order. -/
theorem Alters.map_methods {α : Type} (h : image.Alters R image') {f f' : Method → α}
    (hf : ∀ m ∈ image.methods, ∀ m', m.Alters R m' → f' m' = f m) :
    image'.methods.map f' = image.methods.map f := by
  refine Array.ext (by simp [h.methods_size]) ?_
  intro k hk' hk
  rw [Array.getElem_map, Array.getElem_map]
  refine hf _ (Array.getElem_mem _) _ ?_
  exact h.method k _ _ (Array.getElem?_eq_getElem _) (Array.getElem?_eq_getElem _)

theorem Alters.offsets_eq (h : image.Alters R image') :
    (image'.methods.map fun m => Code.offsets m.code) =
      image.methods.map fun m => Code.offsets m.code :=
  h.map_methods fun _ _ _ hmethod => hmethod.offsets_eq

/-! ### Texts -/

/-- The names and descriptors of all methods are texts of the pool. -/
def TextsThere (image : Image) : Prop :=
  ∀ m ∈ image.methods,
    ∃ name descriptor, image.methodName? m = some name ∧
      image.methodDescriptor? m = some descriptor

theorem WellFormed.textsThere (h : image.WellFormed) : image.TextsThere := by
  intro m hm
  rcases h.disciplined m hm with ⟨r, heights, hr, -⟩
  rcases Routine.ofMethod_eq_ok_iff.1 hr with ⟨descriptor, name, _, hdescriptor, hname, -⟩
  exact ⟨name, descriptor, hname, hdescriptor⟩

theorem Alters.texts_eq (h : image.Alters R image') (htexts : image.TextsThere) {m m' : Method}
    (hm : m ∈ image.methods) (hmethod : m.Alters R m') :
    image'.methodName? m' = image.methodName? m ∧
      image'.methodDescriptor? m' = image.methodDescriptor? m := by
  rcases htexts m hm with ⟨name, descriptor, hname, hdescriptor⟩
  constructor
  · rw [hname, methodName?, hmethod.name_eq]
    exact h.extends_pool.utf8? hname
  · rw [hdescriptor, methodDescriptor?, hmethod.descriptor_eq]
    exact h.extends_pool.utf8? hdescriptor

/-- A name and a descriptor find the method at the same index. -/
theorem Alters.findMethod?_eq (h : image.Alters R image') (htexts : image.TextsThere)
    (name descriptor : String) :
    image'.findMethod? name descriptor = image.findMethod? name descriptor := by
  have hmap : (image'.methods.map fun m => decide (image'.methodName? m = some name) &&
        decide (image'.methodDescriptor? m = some descriptor)) =
      image.methods.map fun m => decide (image.methodName? m = some name) &&
        decide (image.methodDescriptor? m = some descriptor) := by
    refine h.map_methods ?_
    intro m hm m' hmethod
    rcases h.texts_eq htexts hm hmethod with ⟨hname, hdescriptor⟩
    rw [hname, hdescriptor]
  have hfind := congrArg (Array.findIdx? id) hmap
  rw [Array.findIdx?_map, Array.findIdx?_map] at hfind
  exact hfind

theorem Alters.describeMethod_eq (h : image.Alters R image') (htexts : image.TextsThere)
    {k : Nat} (hk : k < image.methods.size) :
    image'.describeMethod k = image.describeMethod k := by
  have hk' : k < image'.methods.size := by rwa [h.methods_size]
  have hmethod := h.method k _ _ (Array.getElem?_eq_getElem hk) (Array.getElem?_eq_getElem hk')
  rcases h.texts_eq htexts (Array.getElem_mem hk) hmethod with ⟨hname, hdescriptor⟩
  simp only [describeMethod, Array.getElem?_eq_getElem hk, Array.getElem?_eq_getElem hk',
    methodLabel, hname, hdescriptor]

/-! ### Redirecting -/

/-- Without rules an image stays as it is. With rules it is altered as they say. -/
theorem redirect_alters {rules : RuleSet} {report : RedirectReport}
    (hsize : image.pool.size ≤ Pool.capacity)
    (h : image.redirect rules = .ok (image', report)) :
    (rules.isEmpty = true ∧ image' = image) ∨
      image.Alters (Instruction.Becomes rules image'.pool) image' := by
  rcases redirect_ok h hsize with ⟨hempty, rfl, -⟩ | ⟨known, hgrows, himage, -, hsettles⟩
  · exact Or.inl ⟨hempty, rfl⟩
  have hmethods : image'.methods = image.methods.map fun m =>
      { m with code := m.code.map known.apply } := congrArg Image.methods himage
  refine Or.inr ⟨hgrows.extends_pool, by simp [hmethods], ?_⟩
  intro k m m' hm hm'
  obtain rfl : { m with code := m.code.map known.apply } = m' := by
    simpa [hmethods, hm] using hm'
  have hmem : m ∈ image.methods := Array.mem_of_getElem? hm
  exact Method.alters_apply known fun i hi => becomes_of_settles hsettles hmem hi

end Image

end Interposition
