import Interposition.Proofs.Image.Codec

/-!
# Interposition.Proofs.Image.Faults — where decoding stops, and why

No encoding of an instruction begins another one, so there is at most one way to split bytes into
instructions and a rest that no instruction begins (`Code.isPrefix_of_stuck`). Decoding finds this
way: it succeeds if nothing is left, and otherwise it reports the first byte that is left
(`Code.decode_located`).
-/

namespace Interposition

/-! ## Instructions -/

/-- What the table of widths has is the opcode of an instruction. -/
theorem Instruction.exists_opcode {opcode : UInt8} {width : Nat}
    (h : operandWidth? opcode = some width) : ∃ i : Instruction, i.opcode = opcode := by
  -- With all of an operand behind it the opcode decodes, and so begins an instruction.
  have henough : width ≤ (List.replicate width (0 : UInt8)).length := List.length_replicate.ge
  obtain ⟨i, tail, hdecode⟩ := exists_decode? h henough
  obtain ⟨rfl, -⟩ := cons_eq_encode_append.1 (decode?_eq_some_iff.1 hdecode)
  exact ⟨i, rfl⟩

/-- No encoding of an instruction begins another one. -/
theorem Instruction.encode_append_inj {i j : Instruction} {rest rest' : List UInt8}
    (h : i.encode ++ rest = j.encode ++ rest') : i = j ∧ rest = rest' := by
  rw [encode, List.cons_append] at h
  have hi : decode? i.opcode (i.operandBytes ++ rest) = some (i, rest) :=
    i.decode?_operandBytes rest
  have hj : decode? i.opcode (i.operandBytes ++ rest) = some (j, rest') := decode?_eq_some_iff.2 h
  exact Prod.mk.inj (Option.some.inj (hi.symm.trans hj))

namespace Code

/-! ## Instructions and a rest -/

/-- No instruction begins the input. -/
def Stuck (input : List UInt8) : Prop :=
  ∀ (i : Instruction) (tail : List UInt8), input ≠ i.encode ++ tail

/-- Whatever instructions there are at the start of the input, they are among those before a rest
that none begins. -/
theorem isPrefix_of_stuck {more others : List Instruction} {rest : List UInt8}
    (hrest : Stuck rest)
    (h : others.flatMap Instruction.encode <+: more.flatMap Instruction.encode ++ rest) :
    others <+: more := by
  induction others generalizing more with
  | nil => exact List.nil_prefix
  | cons i others ih =>
    obtain ⟨tail, htail⟩ := h
    rw [List.flatMap_cons, List.append_assoc] at htail
    cases more with
    | nil => exact absurd htail.symm (hrest i _)
    | cons j more =>
      rw [List.flatMap_cons, List.append_assoc] at htail
      obtain ⟨hsame, hlater⟩ := Instruction.encode_append_inj htail
      exact List.cons_prefix_cons.2 ⟨hsame, ih ⟨tail, hlater⟩⟩

/-- The bytes of code, as they stand in the image of a method. -/
def bytes (code : Array Instruction) : List UInt8 :=
  code.toList.flatMap Instruction.encode

theorem bytes_eq_nil {code : Array Instruction} (h : bytes code = []) : code = #[] := by
  rw [bytes, List.flatMap_eq_nil_iff] at h
  -- The bytes of an instruction begin with its opcode.
  refine Array.eq_empty_iff_forall_not_mem.2 ?_
  intro i hi
  cases h i (Array.mem_toList_iff.2 hi)

theorem bytes_append (code more : Array Instruction) :
    bytes (code ++ more) = bytes code ++ bytes more := by
  simp [bytes]

/-- Code whose bytes start the input, and no other code has more bytes that do. -/
structure LongestPrefix (raw : List UInt8) (code : Array Instruction) : Prop where
  isPrefix : bytes code <+: raw
  longest : ∀ other, bytes other <+: raw → (bytes other).length ≤ (bytes code).length

/-- Code at the start of the input begins the code before a rest that no instruction begins. -/
theorem exists_append_of_stuck {code other : Array Instruction} {rest : List UInt8}
    (hrest : Stuck rest) (h : bytes other <+: bytes code ++ rest) : ∃ more, code = other ++ more := by
  obtain ⟨more, hmore⟩ := isPrefix_of_stuck hrest h
  refine ⟨more.toArray, ?_⟩
  rw [← Array.toList_inj, Array.toList_append, ← hmore]

theorem longestPrefix_of_stuck {code : Array Instruction} {rest : List UInt8}
    (hrest : Stuck rest) : LongestPrefix (bytes code ++ rest) code := by
  refine ⟨List.prefix_append _ _, ?_⟩
  intro other hother
  obtain ⟨more, rfl⟩ := exists_append_of_stuck hrest hother
  rw [bytes_append, List.length_append]
  exact Nat.le_add_right _ _

theorem eq_of_longestPrefix {code other : Array Instruction} {rest : List UInt8}
    (hrest : Stuck rest) (h : LongestPrefix (bytes code ++ rest) other) : other = code := by
  have hle := h.longest code (List.prefix_append _ _)
  obtain ⟨more, rfl⟩ := exists_append_of_stuck hrest h.isPrefix
  rw [bytes_append, List.length_append] at hle
  have hnone : (bytes more).length = 0 := by omega
  rw [bytes_eq_nil (List.eq_nil_of_length_eq_zero hnone), Array.append_empty]

/-! ## Faults -/

/-- What a fault says of the first byte that no instruction begins at: its offset, and that it is
no opcode, or that fewer bytes follow it than the operand takes. -/
def Fault.Explains (offset : Nat) (opcode : UInt8) (rest : List UInt8) : Fault → Prop
  | .unknownOpcode reported byte =>
    reported = offset ∧ byte = opcode ∧ ∀ i : Instruction, i.opcode ≠ opcode
  | .truncated reported =>
    reported = offset ∧ (∃ i : Instruction, i.opcode = opcode) ∧
      ∀ i : Instruction, i.opcode = opcode → rest.length < i.operandBytes.length

theorem Fault.Explains.stuck {fault : Fault} {offset : Nat} {opcode : UInt8} {rest : List UInt8}
    (h : fault.Explains offset opcode rest) : Stuck (opcode :: rest) := by
  intro i tail heq
  obtain ⟨rfl, rfl⟩ := Instruction.cons_eq_encode_append.1 heq
  cases fault with
  | unknownOpcode reported byte => exact h.2.2 i rfl
  | truncated reported =>
    have hshort : (i.operandBytes ++ tail).length < i.operandBytes.length := h.2.2 i rfl
    rw [List.length_append] at hshort
    omega

/-- Decoding that fails has read instructions up to the byte that its fault explains. -/
theorem decodeFrom_eq_error {done : Array Instruction} {offset : Nat} {input : List UInt8}
    {fault : Fault} (h : decodeFrom done offset input = .error fault) :
    ∃ (more : List Instruction) (opcode : UInt8) (rest : List UInt8),
      input = more.flatMap Instruction.encode ++ opcode :: rest ∧
        fault.Explains (offset + (more.flatMap Instruction.encode).length) opcode rest := by
  fun_induction decodeFrom done offset input with
  | case1 done offset => cases h
  | case2 done offset opcode rest hnone =>
    obtain rfl := Except.error.inj h
    refine ⟨[], opcode, rest, rfl, rfl, rfl, ?_⟩
    rintro i rfl
    rw [i.operandWidth?_opcode] at hnone
    cases hnone
  | case3 done offset opcode rest width hwidth hshort =>
    obtain rfl := Except.error.inj h
    refine ⟨[], opcode, rest, rfl, rfl, Instruction.exists_opcode hwidth, ?_⟩
    rintro i rfl
    rw [i.operandWidth?_opcode, Option.some.injEq] at hwidth
    rwa [hwidth]
  | case4 done offset opcode rest width hwidth hlong hnone =>
    obtain ⟨i, tail, hdecode⟩ := Instruction.exists_decode? hwidth (Nat.not_lt.1 hlong)
    cases hnone.symm.trans hdecode
  | case5 done offset opcode rest width hwidth hlong i tail hdecode ih =>
    obtain ⟨more, opcode', rest', rfl, hexplains⟩ := ih h
    have hencode := Instruction.decode?_eq_some_iff.1 hdecode
    obtain ⟨rfl, -⟩ := Instruction.cons_eq_encode_append.1 hencode
    rw [i.operandWidth?_opcode, Option.some.injEq] at hwidth
    refine ⟨i :: more, opcode', rest', ?_, ?_⟩
    · rw [hencode, List.flatMap_cons, List.append_assoc]
    · have hlength : ((i :: more).flatMap Instruction.encode).length =
          1 + width + (more.flatMap Instruction.encode).length := by
        rw [List.flatMap_cons, List.length_append, ← hwidth, Instruction.encode, List.length_cons]
        omega
      rw [hlength, ← Nat.add_assoc, ← Nat.add_assoc]
      exact hexplains

/-- What comes of reading bytes as the code of a method. -/
structure Located (raw : List UInt8) (method : Nat)
    (result : Except DecodeError (Array Instruction)) : Prop where
  /-- Code is read from its bytes, and from no others. -/
  ok_iff : ∀ code, result = .ok code ↔ raw = bytes code
  unique : ∀ code other, raw = bytes code → raw = bytes other → code = other
  /-- Of all other bytes there is one longest part at the start that is code. The byte behind it is
  the one reported: it is no opcode, or too few bytes follow it for its operand. -/
  error : (∀ code, raw ≠ bytes code) → ∃ code opcode rest,
    LongestPrefix raw code ∧ (∀ other, LongestPrefix raw other → other = code) ∧
    raw = bytes code ++ opcode :: rest ∧
    ((∀ i : Instruction, i.opcode ≠ opcode) ∧
        result = .error (.unknownOpcode method (bytes code).length opcode) ∨
      (∃ i : Instruction, i.opcode = opcode) ∧
        (∀ i : Instruction, i.opcode = opcode → rest.length < i.operandBytes.length) ∧
        result = .error (.truncatedInstruction method (bytes code).length))

/-- Decoding accepts exactly the bytes of code, and locates what is wrong with any others. -/
theorem decode_located (raw : List UInt8) (method : Nat) :
    Located raw method ((decode raw).mapError (Fault.inMethod method)) := by
  refine ⟨?_, ?_, ?_⟩
  · intro code
    rw [mapError_eq_ok_iff]
    exact decode_eq_ok_iff
  · intro code other hcode hother
    exact Except.ok.inj ((decode_eq_ok_iff.2 hcode).symm.trans (decode_eq_ok_iff.2 hother))
  · intro hnone
    cases hdecode : decode raw with
    | ok code => exact absurd (decode_eq_ok_iff.1 hdecode) (hnone code)
    | error fault =>
      obtain ⟨more, opcode, rest, hraw, hexplains⟩ := decodeFrom_eq_error hdecode
      rw [Nat.zero_add] at hexplains
      subst hraw
      refine ⟨more.toArray, opcode, rest, longestPrefix_of_stuck hexplains.stuck,
        fun other => eq_of_longestPrefix hexplains.stuck, rfl, ?_⟩
      cases fault with
      | unknownOpcode offset byte =>
        obtain ⟨rfl, rfl, hno⟩ := hexplains
        exact Or.inl ⟨hno, rfl⟩
      | truncated offset =>
        obtain ⟨rfl, hopcode, hshort⟩ := hexplains
        exact Or.inr ⟨hopcode, hshort, rfl⟩

/-- One byte more would make the last two a call. -/
example : (decode [0x07, 0x20, 0, 0, 0, 0, 0x30, 0]).mapError (Fault.inMethod 2) =
    .error (.truncatedInstruction 2 6) := by
  decide +kernel

end Code

end Interposition
