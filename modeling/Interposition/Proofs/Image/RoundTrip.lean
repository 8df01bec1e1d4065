import Interposition.Proofs.Image.Codec

/-!
# Interposition.Proofs.Image.RoundTrip — what decoding and encoding undo

Decoding and encoding are not quite inverse to one another, since each refuses something that the
other lets pass. A decoded image fits the format, but it may refer to constants that are not there:
then it has no encoding, and the fault names the first such reference
(`Image.encode_decoded`). An encoded image has all it refers to, but it may be of a version that
is not read (`Image.decode_encoded`).
-/

namespace Interposition

/-! ## References to nothing -/

/-- An instruction fails for the constant it refers to, if that is not one of so many. -/
theorem Instruction.checkEncodable_eq_error_iff {poolSize method position : Nat} {i : Instruction}
    {e : EncodeError} :
    i.checkEncodable poolSize method position = .error e ↔
      ∃ index, i.poolOperand? = some index ∧ poolSize ≤ index.toNat ∧
        e = .danglingOperand method position index := by
  unfold Instruction.checkEncodable
  cases i.poolOperand? with
  | none => simp
  | some index =>
    by_cases hinside : index.toNat < poolSize
    · simp [hinside, Nat.not_le.2 hinside]
    · have houtside : poolSize ≤ index.toNat := Nat.not_lt.1 hinside
      simp [hinside, houtside, eq_comm]

namespace Image

/-- The instruction at a position of a method refers to a constant that is not there. -/
def Dangles (image : Image) (method position : Nat) (index : UInt16) : Prop :=
  ∃ m i, image.methods[method]? = some m ∧ m.code[position]? = some i ∧
    i.poolOperand? = some index ∧ image.pool.size ≤ index.toNat

/-- An instruction is the first, by method and then by position, to refer to a constant that is
not there. -/
structure DanglesFirst (image : Image) (method position : Nat) (index : UInt16) : Prop where
  dangles : image.Dangles method position index
  first : ∀ method' position' index', image.Dangles method' position' index' →
    method < method' ∨ method = method' ∧ position ≤ position'

end Image

/-- A method whose tables fit fails for the first of its instructions that does. -/
theorem Method.Fits.checkEncodable_eq_error_iff {poolSize index : Nat} {m : Method}
    {e : EncodeError} (hm : m.Fits) :
    m.checkEncodable poolSize index = .error e ↔
      ∃ position i operand, m.code[position]? = some i ∧ i.poolOperand? = some operand ∧
        poolSize ≤ operand.toNat ∧ e = .danglingOperand index position operand ∧
        ∀ earlier < position, ∀ i', m.code[earlier]? = some i' → i'.RefersBelow poolSize := by
  have hcode : ¬ 4294967295 < Code.byteLength m.code := Nat.not_lt.2 hm.code
  have hhandlers : ¬ 65535 < m.handlers.length := Nat.not_lt.2 hm.handlers
  rw [Method.checkEncodable, if_neg hcode, if_neg hhandlers, checkEach_eq_error_iff]
  simp only [Nat.zero_add, Instruction.checkEncodable_eq_error_iff,
    Instruction.checkEncodable_eq_ok_iff, Array.getElem?_toList]
  constructor
  · rintro ⟨position, i, hi, ⟨operand, hoperand, hout, he⟩, hearlier⟩
    exact ⟨position, i, operand, hi, hoperand, hout, he, hearlier⟩
  · rintro ⟨position, i, operand, hi, hoperand, hout, he, hearlier⟩
    exact ⟨position, i, hi, ⟨operand, hoperand, hout, he⟩, hearlier⟩

namespace Image

variable {image : Image}

/-- What does not dangle refers to what is there. -/
theorem refersBelow_of_not_dangles {method position : Nat} {m : Method} {i : Instruction}
    (h : ∀ index, ¬ image.Dangles method position index)
    (hm : image.methods[method]? = some m) (hi : m.code[position]? = some i) :
    i.RefersBelow image.pool.size := by
  intro index hindex
  by_contra houtside
  exact h index ⟨m, i, hm, hi, hindex, Nat.not_lt.1 houtside⟩

theorem Dangles.not_refersBelow {method position : Nat} {index : UInt16}
    (h : image.Dangles method position index) :
    ∃ m i, image.methods[method]? = some m ∧ m.code[position]? = some i ∧
      ¬ i.RefersBelow image.pool.size := by
  rcases h with ⟨m, i, hm, hi, hindex, houtside⟩
  refine ⟨m, i, hm, hi, ?_⟩
  intro hrefers
  have hinside : index.toNat < image.pool.size := hrefers index hindex
  omega

/-- The methods of an image that fits fail for the first reference to nothing. -/
theorem Fits.checkMethods_eq_error_iff (himage : image.Fits) {e : EncodeError} :
    checkEach (Method.checkEncodable image.pool.size) 0 image.methods.toList = .error e ↔
      ∃ method position index, image.DanglesFirst method position index ∧
        e = .danglingOperand method position index := by
  rw [checkEach_eq_error_iff]
  simp only [Nat.zero_add, Array.getElem?_toList, Method.checkEncodable_eq_ok_iff]
  constructor
  · rintro ⟨method, m, hm, hfails, hbefore⟩
    have hfits : m.Fits := himage.methods m (Array.mem_of_getElem? hm)
    rcases hfits.checkEncodable_eq_error_iff.1 hfails with
      ⟨position, i, index, hi, hindex, houtside, he, hearlier⟩
    refine ⟨method, position, index, ⟨⟨m, i, hm, hi, hindex, houtside⟩, ?_⟩, he⟩
    intro method' position' index' hdangles
    rcases hdangles.not_refersBelow with ⟨m', i', hm', hi', hnot⟩
    rcases lt_trichotomy method method' with hlt | rfl | hgt
    · exact Or.inl hlt
    · -- In the same method: what comes before refers to what is there.
      right
      rcases Option.some.inj (hm.symm.trans hm') with rfl
      refine ⟨rfl, ?_⟩
      by_contra hlater
      exact hnot (hearlier position' (Nat.not_le.1 hlater) i' hi')
    · have hpassed := (hbefore method' hgt m' hm').2
      exact absurd (hpassed i' (Array.mem_of_getElem? hi')) hnot
  · rintro ⟨method, position, index, ⟨⟨m, i, hm, hi, hindex, houtside⟩, hfirst⟩, he⟩
    have hfits : m.Fits := himage.methods m (Array.mem_of_getElem? hm)
    refine ⟨method, m, hm, ?_, ?_⟩
    · refine hfits.checkEncodable_eq_error_iff.2
        ⟨position, i, index, hi, hindex, houtside, he, ?_⟩
      intro earlier hlt i' hi'
      refine refersBelow_of_not_dangles ?_ hm hi'
      intro index' hdangles
      have hafter := hfirst method earlier index' hdangles
      omega
    · intro method' hlt m' hm'
      refine ⟨himage.methods m' (Array.mem_of_getElem? hm'), ?_⟩
      intro i' hmem
      rcases Array.mem_iff_getElem?.1 hmem with ⟨position', hi'⟩
      refine refersBelow_of_not_dangles ?_ hm' hi'
      intro index' hdangles
      have hafter := hfirst method' position' index' hdangles
      omega

/-- An image that fits fails for its name, or else for the first reference to nothing. -/
theorem Fits.checkEncodable_eq_error_iff (himage : image.Fits) {e : EncodeError} :
    image.checkEncodable = .error e ↔
      (image.pool.size ≤ image.thisName.toNat ∧ e = .danglingName image.thisName) ∨
        image.thisName.toNat < image.pool.size ∧
          ∃ method position index, image.DanglesFirst method position index ∧
            e = .danglingOperand method position index := by
  have hconstants : checkEach Constant.checkEncodable 0 image.pool.entries.toList = .ok () := by
    have hfits (index : Nat) (c : Constant) : c.checkEncodable index = .ok () ↔ c.Fits :=
      Constant.checkEncodable_eq_ok_iff
    rw [checkEach_forall hfits]
    intro c hc
    exact himage.constants c (Array.mem_toList_iff.1 hc)
  unfold checkEncodable
  rw [if_neg (Nat.not_lt.2 himage.pool_size)]
  by_cases hname : image.pool.size ≤ image.thisName.toNat
  · have hnot : ¬ image.thisName.toNat < image.pool.size := Nat.not_lt.2 hname
    rw [if_pos hname]
    simp [hname, hnot, eq_comm]
  · have hinside : image.thisName.toNat < image.pool.size := Nat.not_le.1 hname
    rw [if_neg hname, if_neg (Nat.not_lt.2 himage.methods_size), hconstants]
    dsimp only
    rw [himage.checkMethods_eq_error_iff]
    simp [hname, hinside]

/-- An encoding fails for the fault that the checks find. -/
theorem encode_eq_error_iff {e : EncodeError} :
    image.encode = .error e ↔ image.checkEncodable = .error e := by
  rw [encode]
  cases image.checkEncodable with
  | error e' => simp
  | ok u => simp

/-- Encoding undoes decoding. The image that an input decodes to encodes to that input exactly when
its name and all that its instructions refer to are inside the pool. Otherwise the fault is that of
the name, or else that of the first instruction, by method and then by position, that refers to a
constant which is not there. There are no other faults. -/
theorem encode_decoded {input : List UInt8} (h : Image.decode input = .ok image) :
    (image.encode = .ok input ↔ image.thisName.toNat < image.pool.size ∧
      ∀ m ∈ image.methods, ∀ i ∈ m.code, i.RefersBelow image.pool.size) ∧
    (image.pool.size ≤ image.thisName.toNat →
      image.encode = .error (.danglingName image.thisName)) ∧
    (image.thisName.toNat < image.pool.size →
      (∃ m ∈ image.methods, ∃ i ∈ m.code, ¬ i.RefersBelow image.pool.size) →
      ∃ method position index, image.DanglesFirst method position index ∧
        image.encode = .error (.danglingOperand method position index)) ∧
    ∀ e, image.encode = .error e → e = .danglingName image.thisName ∨
      ∃ method position index, image.DanglesFirst method position index ∧
        e = .danglingOperand method position index := by
  rcases decode_eq_ok_iff.1 h with ⟨-, hfits, rfl⟩
  have hfaults (e : EncodeError) := hfits.checkEncodable_eq_error_iff (e := e)
  simp only [← encode_eq_error_iff] at hfaults
  refine ⟨?_, ?_, ?_, ?_⟩
  · rw [encode_eq_ok_iff]
    constructor
    · rintro ⟨hencodable, -⟩
      exact ⟨hencodable.named, hencodable.operands⟩
    · rintro ⟨hnamed, hoperands⟩
      exact ⟨⟨hfits, hnamed, hoperands⟩, rfl⟩
  · intro hname
    exact (hfaults _).2 (Or.inl ⟨hname, rfl⟩)
  · rintro hnamed ⟨m, hm, i, hi, hnot⟩
    cases hencode : image.encode with
    | ok bytes =>
      have hencodable := (encode_eq_ok_iff.1 hencode).1
      exact absurd (hencodable.operands m hm i hi) hnot
    | error e =>
      rcases (hfaults e).1 hencode with ⟨hname, -⟩ | ⟨-, method, position, index, hfirst, rfl⟩
      · omega
      · exact ⟨method, position, index, hfirst, rfl⟩
  · intro e he
    rcases (hfaults e).1 he with ⟨-, rfl⟩ | ⟨-, hdangling⟩
    · exact Or.inl rfl
    · exact Or.inr hdangling

/-- An image whose first method refers to nothing once, and whose second does twice. -/
def dangling : Image where
  major := 1
  minor := 3
  pool := ⟨#[.utf8 "é", .int (-1)]⟩
  thisName := 0
  methods := #[⟨1, 0, 0, 0, #[.const 1, .load 9, .jump 0, .invoke .virtual 7], [⟨0, 3, 3⟩]⟩,
    ⟨0, 0, 0, 0, #[.new 2, .getStatic 3], []⟩]

theorem encode_decoded_dangling :
    Image.decode dangling.bytes = .ok dangling ∧ dangling.DanglesFirst 0 3 7 ∧
      dangling.encode = .error (.danglingOperand 0 3 7) := by
  have hdecode : Image.decode dangling.bytes = .ok dangling := by decide +kernel
  have hfault : dangling.encode = .error (.danglingOperand 0 3 7) := by decide +kernel
  rcases encode_decoded hdecode with ⟨-, -, -, hfaults⟩
  rcases hfaults _ hfault with hname | ⟨method, position, index, hfirst, hoperand⟩
  · cases hname
  · rcases EncodeError.danglingOperand.inj hoperand with ⟨rfl, rfl, rfl⟩
    exact ⟨hdecode, hfirst, hfault⟩

/-! ## Versions -/

/-- A header of another version is refused. -/
theorem readHeader_of_major {c c' : Cursor} {major minor : UInt16}
    (hmajor : major ≠ Image.majorVersion)
    (h : c.After (Word.bytes32 Image.magic ++ (Word.bytes16 major ++ Word.bytes16 minor)) c') :
    Image.readHeader c = .error (.unsupportedVersion major minor) := by
  simp only [Cursor.after_append] at h
  rcases h with ⟨c₁, hmagic, c₂, hmajor', hminor⟩
  refine (Reader.bind_eq_of_ok (Reader.word32_eq_ok.2 hmagic)).trans ?_
  rw [if_neg (not_not.2 rfl)]
  refine (Reader.bind_eq_of_ok (Reader.word16_eq_ok.2 hmajor')).trans ?_
  refine (Reader.bind_eq_of_ok (Reader.word16_eq_ok.2 hminor)).trans ?_
  rw [if_pos hmajor]
  rfl

/-- What is written of an image of another version is refused for its version. -/
theorem decode_bytes_of_major (hmajor : image.major ≠ majorVersion) :
    Image.decode image.bytes = .error (.unsupportedVersion image.major image.minor) := by
  have hheader : ∃ rest, image.bytes =
      Word.bytes32 magic ++ (Word.bytes16 image.major ++ Word.bytes16 image.minor) ++ rest := by
    simp only [bytes, List.append_assoc]
    exact ⟨_, rfl⟩
  rcases hheader with ⟨rest, hrest⟩
  have hafter : (⟨0, image.bytes⟩ : Cursor).After
      (Word.bytes32 magic ++ (Word.bytes16 image.major ++ Word.bytes16 image.minor)) ⟨8, rest⟩ :=
    ⟨hrest, rfl⟩
  have hread : Image.read.run ⟨0, image.bytes⟩ =
      .error (.unsupportedVersion image.major image.minor) :=
    Reader.bind_eq_error (readHeader_of_major hmajor hafter)
  rw [decode, hread]

/-- Decoding undoes encoding. What an image encodes to decodes to the image if it has the one
version that is read, whichever minor version, and is refused for its version if it has another.
An image has an encoding exactly when every count and length fits its field and its name and all
that its instructions refer to are inside the pool. -/
theorem decode_encoded (image : Image) :
    (∀ bytes, image.encode = .ok bytes →
      (image.major = 1 → Image.decode bytes = .ok image) ∧
      (image.major ≠ 1 →
        Image.decode bytes = .error (.unsupportedVersion image.major image.minor))) ∧
    ((∃ bytes, image.encode = .ok bytes) ↔
      image.pool.size ≤ 65535 ∧ image.thisName.toNat < image.pool.size ∧
      (∀ text, .utf8 text ∈ image.pool.entries → text.utf8ByteSize ≤ 65535) ∧
      image.methods.size ≤ 65535 ∧
      ∀ m ∈ image.methods, m.handlers.length ≤ 65535 ∧ Code.byteLength m.code ≤ 4294967295 ∧
        ∀ i ∈ m.code, i.RefersBelow image.pool.size) := by
  constructor
  · intro bytes hencode
    constructor
    · intro hmajor
      exact decode_of_encode hencode hmajor
    · intro hmajor
      rw [(encode_eq_ok_iff.1 hencode).2]
      exact decode_bytes_of_major hmajor
  · simp only [encode_eq_ok_iff, exists_and_left, exists_eq, and_true]
    constructor
    · intro hencodable
      refine ⟨hencodable.pool_size, hencodable.named, ?_, hencodable.methods_size, ?_⟩
      · intro text htext
        exact hencodable.constants _ htext
      · intro m hm
        have hfits : m.Fits := hencodable.methods m hm
        exact ⟨hfits.handlers, hfits.code, hencodable.operands m hm⟩
    · rintro ⟨hpool, hnamed, htexts, hcount, hmethods⟩
      refine ⟨⟨hpool, ?_, hcount, ?_⟩, hnamed, ?_⟩
      · intro c hc
        cases c with
        | utf8 text => exact htexts text hc
        | _ => trivial
      · intro m hm
        rcases hmethods m hm with ⟨hhandlers, hcode, -⟩
        exact ⟨hcode, hhandlers⟩
      · intro m hm
        exact (hmethods m hm).2.2

/-- An image of a version that is written but not read. -/
def later : Image where
  major := 2
  minor := 7
  pool := ⟨#[.utf8 "a", .utf8 "()V"]⟩
  thisName := 0
  methods := #[⟨1, 0, 1, 0, #[.ret], []⟩]

theorem decode_encoded_later :
    ∃ bytes, later.encode = .ok bytes ∧ Image.decode bytes = .error (.unsupportedVersion 2 7) := by
  rcases decode_encoded later with ⟨hdecode, hencode⟩
  have hbytes : ∃ bytes, later.encode = .ok bytes := by
    refine hencode.2 ⟨by decide, by decide, ?_, by decide, ?_⟩
    · simp only [later, List.mem_toArray, List.mem_cons, List.not_mem_nil, or_false]
      rintro text (h | h)
      · rcases Constant.utf8.inj h with rfl
        decide
      · rcases Constant.utf8.inj h with rfl
        decide
    · simp only [later, List.mem_toArray, List.mem_singleton]
      rintro m rfl
      refine ⟨by decide, by decide, ?_⟩
      simp only [List.mem_toArray, List.mem_singleton]
      rintro i rfl index hindex
      cases hindex
  rcases hbytes with ⟨bytes, hbytes⟩
  exact ⟨bytes, hbytes, (hdecode bytes hbytes).2 (by decide)⟩

end Image

end Interposition
