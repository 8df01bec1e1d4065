import Interposition.Proofs.Image.Interning
import Interposition.Proofs.Image.Offsets
import Interposition.Proofs.Image.Readers

/-!
# Interposition.Proofs.Image.Codec — decoding and encoding are inverse

The bytes of an image decode to the image, and nothing else does (`Image.decode_eq_ok_iff`): an
input is an image exactly when it is what is written of one that fits the format. Encoding
succeeds exactly for the images whose counts and lengths fit and whose references are inside the
pool (`Image.encode_eq_ok_iff`).
-/

namespace Interposition

/-! ## Texts -/

/-- Bytes are a text when they are the encoding of it. -/
theorem Text.decode?_eq_some_iff {bytes : List UInt8} {text : String} :
    Text.decode? bytes = some text ↔ bytes = Text.utf8 text := by
  unfold Text.decode? String.fromUTF8? Text.utf8
  constructor
  · intro h
    split at h
    case isTrue hvalid =>
      rcases Option.some.inj h with rfl
      rfl
    case isFalse => cases h
  · rintro rfl
    have hvalid : (⟨text.toUTF8.data.toList.toArray⟩ : ByteArray).IsValidUTF8 := text.isValidUTF8
    rw [dif_pos hvalid]
    rfl

theorem Text.utf8_length (text : String) : (Text.utf8 text).length = text.utf8ByteSize :=
  rfl

/-! ## Instructions -/

namespace Instruction

/-- The table of widths has the width of every operand. -/
theorem operandWidth?_opcode (i : Instruction) :
    operandWidth? i.opcode = some i.operandBytes.length := by
  cases i with
  | invoke kind index => cases kind <;> rfl
  | _ => rfl

theorem encode_length (i : Instruction) : i.encode.length = i.width := by
  rw [encode, List.length_cons, width, operandWidth?_opcode, Option.getD_some, Nat.add_comm]

end Instruction

namespace Layout

/-- A layout belongs to an opcode: the instructions it makes have that opcode and their operand
for bytes. -/
def Of (opcode : UInt8) : Layout → Prop
  | bare i => i.encode = [opcode]
  | short make => ∀ w, (make w).encode = opcode :: Word.bytes16 w
  | wide make => ∀ w, (make w).encode = opcode :: Word.bytes32 w

theorem of_ofOpcode? {opcode : UInt8} {layout : Layout} (h : ofOpcode? opcode = some layout) :
    layout.Of opcode := by
  unfold ofOpcode? at h
  split at h
  case h_23 => cases h
  all_goals
    rcases Option.some.inj h with rfl
    first
      | rfl
      | exact fun w => rfl

theorem read_bare {i j : Instruction} {rest tail : List UInt8} :
    (bare i).read rest = .ok (j, tail) ↔ i = j ∧ rest = tail := by
  simp [read]

theorem read_short {make : UInt16 → Instruction} {i : Instruction} {rest tail : List UInt8} :
    (short make).read rest = .ok (i, tail) ↔ ∃ w, i = make w ∧ rest = Word.bytes16 w ++ tail := by
  constructor
  · intro h
    unfold read at h
    split at h
    case h_2 make' a b rest' heq =>
      rcases Layout.short.inj heq with rfl
      rcases Prod.mk.inj (Except.ok.inj h) with ⟨rfl, rfl⟩
      exact ⟨_, rfl, by rw [Word.bytes16_ofBytes16]; rfl⟩
    case h_1 heq => cases heq
    case h_3 heq => cases heq
    case h_4 => cases h
  · rintro ⟨w, rfl, rfl⟩
    simp [read, Word.bytes16, Word.ofBytes16_bytes16]

theorem read_wide {make : UInt32 → Instruction} {i : Instruction} {rest tail : List UInt8} :
    (wide make).read rest = .ok (i, tail) ↔ ∃ w, i = make w ∧ rest = Word.bytes32 w ++ tail := by
  constructor
  · intro h
    unfold read at h
    split at h
    case h_3 make' a b c d rest' heq =>
      rcases Layout.wide.inj heq with rfl
      rcases Prod.mk.inj (Except.ok.inj h) with ⟨rfl, rfl⟩
      exact ⟨_, rfl, by rw [Word.bytes32_ofBytes32]; rfl⟩
    case h_1 heq => cases heq
    case h_2 heq => cases heq
    case h_4 => cases h
  · rintro ⟨w, rfl, rfl⟩
    simp [read, Word.bytes32, Word.ofBytes32_bytes32]

/-- What reads as an instruction is its bytes. -/
theorem encode_of_read {opcode : UInt8} {layout : Layout} {rest tail : List UInt8}
    {i : Instruction} (hlayout : ofOpcode? opcode = some layout)
    (h : layout.read rest = .ok (i, tail)) : opcode :: rest = i.encode ++ tail := by
  have hof := of_ofOpcode? hlayout
  cases layout with
  | bare j =>
    rcases read_bare.1 h with ⟨rfl, rfl⟩
    have hencode : j.encode = [opcode] := hof
    rw [hencode]
    rfl
  | short make =>
    rcases read_short.1 h with ⟨w, rfl, rfl⟩
    rw [hof w]
    rfl
  | wide make =>
    rcases read_wide.1 h with ⟨w, rfl, rfl⟩
    rw [hof w]
    rfl

/-- An operand is read if all of it is there. -/
theorem exists_read {layout : Layout} {rest : List UInt8}
    (h : layout.operandWidth ≤ rest.length) : ∃ i tail, layout.read rest = .ok (i, tail) := by
  cases layout with
  | bare i => exact ⟨i, rest, rfl⟩
  | short make =>
    match rest, h with
    | _ :: _ :: _, _ => exact ⟨_, _, rfl⟩
  | wide make =>
    match rest, h with
    | _ :: _ :: _ :: _ :: _, _ => exact ⟨_, _, rfl⟩

/-- The two tables of opcodes agree: on which bytes are opcodes, and on how wide operands are. -/
theorem operandWidth?_eq (opcode : UInt8) :
    Instruction.operandWidth? opcode = (ofOpcode? opcode).map operandWidth := by
  unfold ofOpcode?
  split
  case h_23 =>
    -- A byte that makes no instruction is in no row of the table of widths.
    unfold Instruction.operandWidth?
    split
    case h_23 => rfl
    all_goals contradiction
  all_goals rfl

end Layout

namespace Instruction

/-- The bytes of an instruction decode to the instruction. -/
theorem decode?_operandBytes (i : Instruction) (rest : List UInt8) :
    decode? i.opcode (i.operandBytes ++ rest) = some (i, rest) := by
  have hread : ∃ layout, Layout.ofOpcode? i.opcode = some layout ∧
      layout.read (i.operandBytes ++ rest) = .ok (i, rest) := by
    cases i with
    | const w => exact ⟨.short .const, rfl, Layout.read_short.2 ⟨w, rfl, rfl⟩⟩
    | load w => exact ⟨.short .load, rfl, Layout.read_short.2 ⟨w, rfl, rfl⟩⟩
    | store w => exact ⟨.short .store, rfl, Layout.read_short.2 ⟨w, rfl, rfl⟩⟩
    | getStatic w => exact ⟨.short .getStatic, rfl, Layout.read_short.2 ⟨w, rfl, rfl⟩⟩
    | new w => exact ⟨.short .new, rfl, Layout.read_short.2 ⟨w, rfl, rfl⟩⟩
    | jump w => exact ⟨.wide .jump, rfl, Layout.read_wide.2 ⟨w, rfl, rfl⟩⟩
    | jumpIfFalse w => exact ⟨.wide .jumpIfFalse, rfl, Layout.read_wide.2 ⟨w, rfl, rfl⟩⟩
    | invoke kind w =>
      cases kind with
      | static => exact ⟨.short (.invoke .static), rfl, Layout.read_short.2 ⟨w, rfl, rfl⟩⟩
      | virtual => exact ⟨.short (.invoke .virtual), rfl, Layout.read_short.2 ⟨w, rfl, rfl⟩⟩
    | _ => exact ⟨.bare _, rfl, Layout.read_bare.2 ⟨rfl, rfl⟩⟩
  obtain ⟨layout, hlayout, hread⟩ := hread
  simp [decode?, hlayout, hread, Except.toOption]

theorem cons_eq_encode_append {opcode : UInt8} {i : Instruction} {rest tail : List UInt8} :
    opcode :: rest = i.encode ++ tail ↔ opcode = i.opcode ∧ rest = i.operandBytes ++ tail := by
  rw [encode, List.cons_append, List.cons.injEq]

/-- An opcode and what follows decode to the instruction that they begin with. -/
theorem decode?_eq_some_iff {opcode : UInt8} {rest tail : List UInt8} {i : Instruction} :
    decode? opcode rest = some (i, tail) ↔ opcode :: rest = i.encode ++ tail := by
  constructor
  · intro h
    rcases Option.bind_eq_some_iff.1 h with ⟨layout, hlayout, hread⟩
    exact Layout.encode_of_read hlayout (toOption_eq_some_iff.1 hread)
  · intro h
    obtain ⟨rfl, rfl⟩ := cons_eq_encode_append.1 h
    exact i.decode?_operandBytes tail

/-- Where the table of widths has an opcode and the operand is there, an instruction is decoded. -/
theorem exists_decode? {opcode : UInt8} {rest : List UInt8} {width : Nat}
    (hwidth : operandWidth? opcode = some width) (h : width ≤ rest.length) :
    ∃ i tail, decode? opcode rest = some (i, tail) := by
  rw [Layout.operandWidth?_eq] at hwidth
  obtain ⟨layout, hlayout, rfl⟩ := Option.map_eq_some_iff.1 hwidth
  obtain ⟨i, tail, hread⟩ := Layout.exists_read h
  exact ⟨i, tail, by simp [decode?, hlayout, hread, Except.toOption]⟩

end Instruction

/-! ## Code -/

namespace Code

theorem decodeFrom_eq_ok_iff {done code : Array Instruction} {offset : Nat} {input : List UInt8} :
    decodeFrom done offset input = .ok code ↔
      ∃ more : List Instruction, code = done ++ more.toArray ∧
        input = more.flatMap Instruction.encode := by
  fun_induction decodeFrom done offset input with
  | case1 done offset =>
    constructor
    · rintro ⟨⟩
      exact ⟨[], by simp, rfl⟩
    · rintro ⟨more, rfl, hinput⟩
      cases more with
      | nil => simp
      | cons i more => cases hinput
  | case2 done offset opcode rest hnone =>
    constructor
    · rintro ⟨⟩
    · rintro ⟨more, -, hinput⟩
      cases more with
      | nil => cases hinput
      | cons i more =>
        obtain ⟨rfl, -⟩ := Instruction.cons_eq_encode_append.1 hinput
        rw [i.operandWidth?_opcode] at hnone
        cases hnone
  | case3 done offset opcode rest width hwidth hshort =>
    constructor
    · rintro ⟨⟩
    · rintro ⟨more, -, hinput⟩
      cases more with
      | nil => cases hinput
      | cons i more =>
        obtain ⟨rfl, rfl⟩ := Instruction.cons_eq_encode_append.1 hinput
        rw [i.operandWidth?_opcode, Option.some.injEq] at hwidth
        rw [List.length_append] at hshort
        omega
  | case4 done offset opcode rest width hwidth hlong hnone =>
    -- The tables agree, so an opcode with all of its operand is decoded.
    obtain ⟨i, tail, hdecode⟩ := Instruction.exists_decode? hwidth (Nat.not_lt.1 hlong)
    cases hnone.symm.trans hdecode
  | case5 done offset opcode rest width hwidth hlong i tail hdecode ih =>
    rw [ih]
    constructor
    · rintro ⟨more, rfl, rfl⟩
      exact ⟨i :: more, by simp, Instruction.decode?_eq_some_iff.1 hdecode⟩
    · rintro ⟨more, rfl, hinput⟩
      cases more with
      | nil => cases hinput
      | cons i' more =>
        have hdecode' := Instruction.decode?_eq_some_iff.2 hinput
        obtain ⟨rfl, rfl⟩ := Prod.mk.inj (Option.some.inj (hdecode.symm.trans hdecode'))
        exact ⟨more, by simp, rfl⟩

/-- Bytes decode to the instructions that they are the encodings of. -/
theorem decode_eq_ok_iff {input : List UInt8} {code : Array Instruction} :
    decode input = .ok code ↔ input = code.toList.flatMap Instruction.encode := by
  rw [decode, decodeFrom_eq_ok_iff]
  constructor
  · rintro ⟨more, rfl, rfl⟩
    simp
  · intro h
    exact ⟨code.toList, by simp, h⟩

theorem length_flatMap_encode (code : Array Instruction) :
    (code.toList.flatMap Instruction.encode).length = byteLength code := by
  rw [byteLength_eq_sum, List.length_flatMap]
  simp [Instruction.encode_length]

end Code

/-! ## Parts of an image -/

open Reader

theorem Member.read_eq_ok {c c' : Cursor} {m : Member} :
    Member.read c = .ok (m, c') ↔ c.After m.bytes c' := by
  simp only [Member.read, bind_eq_ok, word16_eq_ok, pure_eq_ok, Member.bytes,
    Cursor.after_append]
  constructor
  · rintro ⟨owner, c₁, howner, name, c₂, hname, descriptor, c₃, hdescriptor, rfl, rfl⟩
    exact ⟨c₂, ⟨c₁, howner, hname⟩, hdescriptor⟩
  · rintro ⟨c₂, ⟨c₁, howner, hname⟩, hdescriptor⟩
    exact ⟨_, c₁, howner, _, c₂, hname, _, c', hdescriptor, rfl, rfl⟩

/-- The length of a text fits its field. -/
def Constant.Fits : Constant → Prop
  | .utf8 text => text.utf8ByteSize ≤ 65535
  | _ => True

/-- A text is read with its length in front. -/
theorem Constant.readUtf8_eq_ok {index : Nat} {c c' : Cursor} {constant : Constant} :
    (do
      let length ← Reader.word16
      match Text.decode? (← Reader.take length.toNat) with
      | some text => return .utf8 text
      | none => throw (.invalidUtf8 index) : Reader Constant) c = .ok (constant, c') ↔
      ∃ text, constant = .utf8 text ∧ text.utf8ByteSize ≤ 65535 ∧
        c.After (Word.bytes16 text.utf8ByteSize.toUInt16 ++ Text.utf8 text) c' := by
  simp only [bind_eq_ok, word16_eq_ok, take_eq_ok, Cursor.after_append]
  constructor
  · rintro ⟨length, c₁, hlength, bytes, c₂, ⟨hsize, hbytes⟩, h⟩
    cases htext : Text.decode? bytes with
    | none =>
      rw [htext] at h
      exact absurd h throw_ne_ok
    | some text =>
      rw [htext] at h
      rcases pure_eq_ok.1 h with ⟨rfl, rfl⟩
      rcases Text.decode?_eq_some_iff.1 htext with rfl
      have hsize' : text.utf8ByteSize = length.toNat := hsize
      have hlt := length.toNat_lt
      refine ⟨text, rfl, by omega, c₁, ?_, hbytes⟩
      rw [hsize']
      simpa using hlength
  · rintro ⟨text, rfl, hsize, c₁, hlength, hbytes⟩
    refine ⟨_, c₁, hlength, Text.utf8 text, c', ⟨?_, hbytes⟩, ?_⟩
    · rw [toNat_toUInt16 hsize, Text.utf8_length]
    · rw [Text.decode?_eq_some_iff.2 rfl]
      exact pure_eq_ok.2 ⟨rfl, rfl⟩

theorem Constant.read_exact (index : Nat) :
    (Constant.read index).Exact Constant.bytes Constant.Fits := by
  intro c c' constant
  constructor
  · intro h
    rcases bind_eq_ok.1 h with ⟨tag, c₁, hbyte, h⟩
    have htag := byte_eq_ok.1 hbyte
    split at h
    case h_1 =>
      rcases Constant.readUtf8_eq_ok.1 h with ⟨text, rfl, hsize, hafter⟩
      exact ⟨hsize, Cursor.after_cons.2 ⟨c₁, htag, hafter⟩⟩
    case h_2 =>
      rcases bind_eq_ok.1 h with ⟨w, c₂, hw, h⟩
      rcases pure_eq_ok.1 h with ⟨rfl, rfl⟩
      refine ⟨trivial, Cursor.after_cons.2 ⟨c₁, htag, ?_⟩⟩
      exact word64_eq_ok.1 hw
    case h_3 =>
      rcases bind_eq_ok.1 h with ⟨w, c₂, hw, h⟩
      rcases pure_eq_ok.1 h with ⟨rfl, rfl⟩
      exact ⟨trivial, Cursor.after_cons.2 ⟨c₁, htag, word16_eq_ok.1 hw⟩⟩
    case h_4 =>
      rcases bind_eq_ok.1 h with ⟨m, c₂, hm, h⟩
      rcases pure_eq_ok.1 h with ⟨rfl, rfl⟩
      exact ⟨trivial, Cursor.after_cons.2 ⟨c₁, htag, Member.read_eq_ok.1 hm⟩⟩
    case h_5 =>
      rcases bind_eq_ok.1 h with ⟨m, c₂, hm, h⟩
      rcases pure_eq_ok.1 h with ⟨rfl, rfl⟩
      exact ⟨trivial, Cursor.after_cons.2 ⟨c₁, htag, Member.read_eq_ok.1 hm⟩⟩
    case h_6 => exact absurd h throw_ne_ok
  · rintro ⟨hfits, hafter⟩
    rcases Cursor.after_cons.1 hafter with ⟨c₁, htag, hafter⟩
    refine bind_eq_ok.2 ⟨constant.tag, c₁, byte_eq_ok.2 htag, ?_⟩
    cases constant with
    | utf8 text => exact Constant.readUtf8_eq_ok.2 ⟨text, rfl, hfits, hafter⟩
    | int value =>
      refine bind_eq_ok.2 ⟨value.toUInt64, c', word64_eq_ok.2 hafter, ?_⟩
      exact pure_eq_ok.2 ⟨by simp, rfl⟩
    | str text =>
      exact bind_eq_ok.2 ⟨text, c', word16_eq_ok.2 hafter, pure_eq_ok.2 ⟨rfl, rfl⟩⟩
    | method m =>
      exact bind_eq_ok.2 ⟨m, c', Member.read_eq_ok.2 hafter, pure_eq_ok.2 ⟨rfl, rfl⟩⟩
    | field m =>
      exact bind_eq_ok.2 ⟨m, c', Member.read_eq_ok.2 hafter, pure_eq_ok.2 ⟨rfl, rfl⟩⟩

theorem Handler.read_exact : Handler.read.Exact Handler.bytes fun _ => True := by
  intro c c' h
  simp only [Handler.read, bind_eq_ok, word32_eq_ok, pure_eq_ok, Handler.bytes,
    Cursor.after_append, true_and]
  constructor
  · rintro ⟨start, c₁, hstart, stop, c₂, hstop, target, c₃, htarget, rfl, rfl⟩
    exact ⟨c₂, ⟨c₁, hstart, hstop⟩, htarget⟩
  · rintro ⟨c₂, ⟨c₁, hstart, hstop⟩, htarget⟩
    exact ⟨_, c₁, hstart, _, c₂, hstop, _, c', htarget, rfl, rfl⟩

/-! ## Methods -/

/-- The tables of a method fit their fields. -/
structure Method.Fits (m : Method) : Prop where
  code : Code.byteLength m.code ≤ 4294967295
  handlers : m.handlers.length ≤ 65535

theorem toNat_toUInt32 {n : Nat} (h : n ≤ 4294967295) : n.toUInt32.toNat = n := by
  simp only [Nat.toUInt32_eq, UInt32.toNat_ofNat']
  omega

/-- Code is read with its length in front. -/
theorem Code.read_eq_ok {α : Type} {index : Nat} {next : Array Instruction → Reader α}
    {c c' : Cursor} {a : α} :
    (do
      let length ← Reader.word32
      match Code.decode (← Reader.take length.toNat) with
      | .error fault => throw (fault.inMethod index)
      | .ok code => next code : Reader α) c = .ok (a, c') ↔
      ∃ code mid, Code.byteLength code ≤ 4294967295 ∧
        c.After (Word.bytes32 (Code.byteLength code).toUInt32 ++
          code.toList.flatMap Instruction.encode) mid ∧
        next code mid = .ok (a, c') := by
  simp only [bind_eq_ok, word32_eq_ok, take_eq_ok, Cursor.after_append]
  constructor
  · rintro ⟨length, c₁, hlength, bytes, c₂, ⟨hsize, hbytes⟩, h⟩
    cases hdecode : Code.decode bytes with
    | error fault =>
      rw [hdecode] at h
      exact absurd h throw_ne_ok
    | ok code =>
      rw [hdecode] at h
      rcases Code.decode_eq_ok_iff.1 hdecode with rfl
      rw [Code.length_flatMap_encode] at hsize
      have hlt := length.toNat_lt
      refine ⟨code, c₂, by omega, ⟨c₁, ?_, hbytes⟩, h⟩
      rw [hsize]
      simpa using hlength
  · rintro ⟨code, c₂, hsize, ⟨c₁, hlength, hbytes⟩, h⟩
    refine ⟨_, c₁, hlength, code.toList.flatMap Instruction.encode, c₂, ⟨?_, hbytes⟩, ?_⟩
    · rw [toNat_toUInt32 hsize, Code.length_flatMap_encode]
    · rw [Code.decode_eq_ok_iff.2 rfl]
      exact h

/-- Items are read with their number in front. -/
theorem Reader.counted_eq_ok {α β : Type} {item : Nat → Reader α} {write : α → List UInt8}
    {fits : α → Prop} (hitem : ∀ index, (item index).Exact write fits)
    {next : Array α → Reader β} {c c' : Cursor} {b : β} :
    (do
      let count ← Reader.word16
      next (← Reader.repeated item #[] count.toNat) : Reader β) c = .ok (b, c') ↔
      ∃ (as : Array α) (mid : Cursor), as.size ≤ 65535 ∧ (∀ a ∈ as, fits a) ∧
        c.After (Word.bytes16 as.size.toUInt16 ++ as.toList.flatMap write) mid ∧
        next as mid = .ok (b, c') := by
  simp only [bind_eq_ok, word16_eq_ok, repeated_eq_ok hitem, Cursor.after_append]
  constructor
  · rintro ⟨count, c₁, hcount, as, c₂, ⟨more, rfl, hlength, hfits, hafter⟩, h⟩
    have hlt := count.toNat_lt
    refine ⟨_, c₂, ?_, ?_, ⟨c₁, ?_, ?_⟩, h⟩
    · simp only [List.append_toArray, List.nil_append, List.size_toArray]
      omega
    · simpa using hfits
    · simpa [hlength] using hcount
    · simpa using hafter
  · rintro ⟨as, c₂, hsize, hfits, ⟨c₁, hcount, hafter⟩, h⟩
    refine ⟨_, c₁, hcount, as, c₂, ⟨as.toList, by simp, ?_, ?_, hafter⟩, h⟩
    · rw [toNat_toUInt16 hsize, Array.length_toList]
    · simpa using hfits

theorem Method.read_exact (index : Nat) :
    (Method.read index).Exact Method.bytes Method.Fits := by
  intro c c' m
  constructor
  · intro h
    rcases bind_eq_ok.1 h with ⟨flags, c₁, hflags, h⟩
    rcases bind_eq_ok.1 h with ⟨name, c₂, hname, h⟩
    rcases bind_eq_ok.1 h with ⟨descriptor, c₃, hdescriptor, h⟩
    rcases bind_eq_ok.1 h with ⟨maxLocals, c₄, hmaxLocals, h⟩
    rcases Code.read_eq_ok.1 h with ⟨code, c₅, hlength, hcode, h⟩
    rcases (Reader.counted_eq_ok fun _ => Handler.read_exact).1 h with
      ⟨handlers, c₆, hsize, -, hhandlers, h⟩
    rcases pure_eq_ok.1 h with ⟨rfl, rfl⟩
    rcases Cursor.after_append.1 hcode with ⟨c₇, hlength', hcode'⟩
    rcases Cursor.after_append.1 hhandlers with ⟨c₈, hcount, hhandlers'⟩
    refine ⟨⟨hlength, by simpa using hsize⟩, ?_⟩
    simp only [Method.bytes, List.append_assoc, Cursor.after_append, Array.length_toList]
    exact ⟨c₁, word16_eq_ok.1 hflags, c₂, word16_eq_ok.1 hname, c₃, word16_eq_ok.1 hdescriptor,
      c₄, word16_eq_ok.1 hmaxLocals, c₇, hlength', c₅, hcode', c₈, hcount, hhandlers'⟩
  · rintro ⟨⟨hlength, hsize⟩, hafter⟩
    simp only [Method.bytes, List.append_assoc, Cursor.after_append] at hafter
    obtain ⟨c₁, hflags, c₂, hname, c₃, hdescriptor, c₄, hmaxLocals, c₇, hlength', c₅, hcode', c₈,
      hcount, hhandlers'⟩ := hafter
    refine bind_eq_ok.2 ⟨_, c₁, word16_eq_ok.2 hflags, ?_⟩
    refine bind_eq_ok.2 ⟨_, c₂, word16_eq_ok.2 hname, ?_⟩
    refine bind_eq_ok.2 ⟨_, c₃, word16_eq_ok.2 hdescriptor, ?_⟩
    refine bind_eq_ok.2 ⟨_, c₄, word16_eq_ok.2 hmaxLocals, ?_⟩
    refine Code.read_eq_ok.2 ⟨m.code, c₅, hlength,
      Cursor.after_append.2 ⟨c₇, hlength', hcode'⟩, ?_⟩
    refine (Reader.counted_eq_ok fun _ => Handler.read_exact).2
      ⟨m.handlers.toArray, c', by simpa using hsize, fun _ _ => trivial, ?_, ?_⟩
    · exact Cursor.after_append.2 ⟨c₈, by simpa using hcount, by simpa using hhandlers'⟩
    · exact pure_eq_ok.2 ⟨by simp, rfl⟩

/-! ## Images -/

namespace Image

/-- The counts and lengths of an image fit their fields. -/
structure Fits (image : Image) : Prop where
  pool_size : image.pool.size ≤ Pool.capacity
  constants : ∀ c ∈ image.pool.entries, c.Fits
  methods_size : image.methods.size ≤ 65535
  methods : ∀ m ∈ image.methods, m.Fits

theorem readHeader_eq_ok {c c' : Cursor} {major minor : UInt16} :
    Image.readHeader c = .ok ((major, minor), c') ↔
      major = Image.majorVersion ∧
        c.After (Word.bytes32 Image.magic ++ (Word.bytes16 major ++ Word.bytes16 minor)) c' := by
  constructor
  · intro h
    rcases bind_eq_ok.1 h with ⟨magic, c₁, hmagic, h⟩
    by_cases hbad : magic ≠ Image.magic
    · rw [if_pos hbad] at h
      cases h
    · rcases not_not.1 hbad with rfl
      rw [if_neg hbad] at h
      rcases bind_eq_ok.1 h with ⟨major', c₂, hmajor, h⟩
      rcases bind_eq_ok.1 h with ⟨minor', c₃, hminor, h⟩
      by_cases hold : major' ≠ Image.majorVersion
      · rw [if_pos hold] at h
        cases h
      · rw [if_neg hold] at h
        rcases pure_eq_ok.1 h with ⟨hversion, rfl⟩
        rcases Prod.mk.inj hversion with ⟨rfl, rfl⟩
        refine ⟨not_not.1 hold, ?_⟩
        simp only [Cursor.after_append]
        exact ⟨c₁, word32_eq_ok.1 hmagic, c₂, word16_eq_ok.1 hmajor, word16_eq_ok.1 hminor⟩
  · rintro ⟨rfl, hafter⟩
    simp only [Cursor.after_append] at hafter
    rcases hafter with ⟨c₁, hmagic, c₂, hmajor, hminor⟩
    refine bind_eq_ok.2 ⟨Image.magic, c₁, word32_eq_ok.2 hmagic, ?_⟩
    rw [if_neg (not_not.2 rfl)]
    refine bind_eq_ok.2 ⟨Image.majorVersion, c₂, word16_eq_ok.2 hmajor, ?_⟩
    refine bind_eq_ok.2 ⟨minor, c', word16_eq_ok.2 hminor, ?_⟩
    rw [if_neg (not_not.2 rfl)]
    exact pure_eq_ok.2 ⟨rfl, rfl⟩

theorem read_eq_ok {c c' : Cursor} {image : Image} :
    Image.read c = .ok (image, c') ↔
      image.major = Image.majorVersion ∧ image.Fits ∧ c.After image.bytes c' := by
  constructor
  · intro h
    rcases bind_eq_ok.1 h with ⟨⟨major, minor⟩, c₁, hheader, h⟩
    rcases readHeader_eq_ok.1 hheader with ⟨hmajor, hheader'⟩
    rcases (Reader.counted_eq_ok Constant.read_exact).1 h with
      ⟨constants, c₂, hsize, hconstants, hafter₂, h⟩
    rcases bind_eq_ok.1 h with ⟨thisName, c₃, hthis, h⟩
    rcases (Reader.counted_eq_ok Method.read_exact).1 h with
      ⟨methods, c₄, hcount, hmethods, hafter₄, h⟩
    rcases pure_eq_ok.1 h with ⟨rfl, rfl⟩
    refine ⟨hmajor, ⟨hsize, hconstants, hcount, hmethods⟩, ?_⟩
    simp only [Cursor.after_append] at hheader' hafter₂ hafter₄
    rcases hheader' with ⟨d₁, hmagic, d₂, hmajor', hminor⟩
    rcases hafter₂ with ⟨d₃, hsize', hconstants'⟩
    rcases hafter₄ with ⟨d₄, hcount', hmethods'⟩
    simp only [bytes, List.append_assoc, Cursor.after_append]
    exact ⟨d₁, hmagic, d₂, hmajor', c₁, hminor, d₃, hsize', c₂, hconstants', c₃,
      word16_eq_ok.1 hthis, d₄, hcount', hmethods'⟩
  · rintro ⟨hmajor, ⟨hsize, hconstants, hcount, hmethods⟩, hafter⟩
    simp only [bytes, List.append_assoc, Cursor.after_append] at hafter
    obtain ⟨d₁, hmagic, d₂, hmajor', c₁, hminor, d₃, hsize', c₂, hconstants', c₃, hthis, d₄,
      hcount', hmethods'⟩ := hafter
    have hheader : c.After (Word.bytes32 Image.magic ++
        (Word.bytes16 image.major ++ Word.bytes16 image.minor)) c₁ := by
      simp only [Cursor.after_append]
      exact ⟨d₁, hmagic, d₂, hmajor', hminor⟩
    refine bind_eq_ok.2 ⟨(image.major, image.minor), c₁, readHeader_eq_ok.2 ⟨hmajor, hheader⟩, ?_⟩
    refine (Reader.counted_eq_ok Constant.read_exact).2 ⟨image.pool.entries, c₂, hsize, hconstants,
      Cursor.after_append.2 ⟨d₃, hsize', hconstants'⟩, ?_⟩
    refine bind_eq_ok.2 ⟨image.thisName, c₃, word16_eq_ok.2 hthis, ?_⟩
    refine (Reader.counted_eq_ok Method.read_exact).2 ⟨image.methods, c', hcount, hmethods,
      Cursor.after_append.2 ⟨d₄, hcount', hmethods'⟩, ?_⟩
    exact pure_eq_ok.2 ⟨rfl, rfl⟩

/-- An input decodes to an image when it is what is written of the image and the image fits the
format. -/
theorem decode_eq_ok_iff {input : List UInt8} {image : Image} :
    Image.decode input = .ok image ↔
      image.major = Image.majorVersion ∧ image.Fits ∧ input = image.bytes := by
  have hread : Image.decode input = .ok image ↔
      ∃ offset, Image.read ⟨0, input⟩ = .ok (image, ⟨offset, []⟩) := by
    unfold decode
    constructor
    · intro h
      split at h
      case h_1 => cases h
      case h_2 found offset hread =>
        rcases Except.ok.inj h with rfl
        exact ⟨offset, hread⟩
      case h_3 => cases h
    · rintro ⟨offset, hread⟩
      have hrun : Image.read.run ⟨0, input⟩ = .ok (image, ⟨offset, []⟩) := hread
      rw [hrun]
  rw [hread]
  simp only [read_eq_ok, Cursor.After, List.append_nil, Nat.zero_add]
  constructor
  · rintro ⟨offset, hmajor, hfits, hinput, -⟩
    exact ⟨hmajor, hfits, hinput⟩
  · rintro ⟨hmajor, hfits, hinput⟩
    exact ⟨_, hmajor, hfits, hinput, rfl⟩

end Image

/-! ## Encoding -/

/-- A check that does not depend on the index passes when all elements do. -/
theorem checkEach_forall {ε α : Type} {check : Nat → α → Except ε Unit} {P : α → Prop}
    (hcheck : ∀ index a, check index a = .ok () ↔ P a) (start : Nat) (as : List α) :
    checkEach check start as = .ok () ↔ ∀ a ∈ as, P a := by
  rw [checkEach_eq_ok_iff]
  simp only [hcheck]
  constructor
  · intro hall a ha
    rcases List.mem_iff_getElem?.1 ha with ⟨i, hi⟩
    exact hall i a hi
  · intro hall i a hi
    exact hall a (List.mem_of_getElem? hi)

theorem Constant.checkEncodable_eq_ok_iff {index : Nat} {c : Constant} :
    c.checkEncodable index = .ok () ↔ c.Fits := by
  cases c <;> simp [Constant.checkEncodable, Constant.Fits]

/-- The constant an instruction refers to, if any, is one of so many. -/
def Instruction.RefersBelow (poolSize : Nat) (i : Instruction) : Prop :=
  ∀ index, i.poolOperand? = some index → index.toNat < poolSize

theorem Instruction.checkEncodable_eq_ok_iff {poolSize method position : Nat} {i : Instruction} :
    i.checkEncodable poolSize method position = .ok () ↔ i.RefersBelow poolSize := by
  unfold Instruction.checkEncodable Instruction.RefersBelow
  cases i.poolOperand? with
  | none => simp
  | some index => simp

theorem Method.checkEncodable_eq_ok_iff {poolSize index : Nat} {m : Method} :
    m.checkEncodable poolSize index = .ok () ↔
      m.Fits ∧ ∀ i ∈ m.code, i.RefersBelow poolSize := by
  have hoperands (position : Nat) (i : Instruction) :
      i.checkEncodable poolSize index position = .ok () ↔ i.RefersBelow poolSize :=
    Instruction.checkEncodable_eq_ok_iff
  unfold Method.checkEncodable
  dsimp only
  by_cases hcode : 4294967295 < Code.byteLength m.code
  · rw [if_pos hcode]
    refine iff_of_false (by simp) ?_
    rintro ⟨hfits, -⟩
    exact absurd hfits.code (Nat.not_le.2 hcode)
  · rw [if_neg hcode]
    by_cases hhandlers : 65535 < m.handlers.length
    · rw [if_pos hhandlers]
      refine iff_of_false (by simp) ?_
      rintro ⟨hfits, -⟩
      exact absurd hfits.handlers (Nat.not_le.2 hhandlers)
    · rw [if_neg hhandlers, checkEach_forall hoperands]
      simp only [Array.mem_toList_iff]
      constructor
      · intro hall
        exact ⟨⟨Nat.not_lt.1 hcode, Nat.not_lt.1 hhandlers⟩, hall⟩
      · rintro ⟨-, hall⟩
        exact hall

namespace Image

/-- The image fits the format and refers to no constant that is not there. -/
structure Encodable (image : Image) : Prop extends image.Fits where
  named : image.thisName.toNat < image.pool.size
  operands : ∀ m ∈ image.methods, ∀ i ∈ m.code, i.RefersBelow image.pool.size

theorem checkEncodable_eq_ok_iff {image : Image} :
    image.checkEncodable = .ok () ↔ image.Encodable := by
  have hconstants (index : Nat) (c : Constant) : c.checkEncodable index = .ok () ↔ c.Fits :=
    Constant.checkEncodable_eq_ok_iff
  have hmethods (index : Nat) (m : Method) :
      m.checkEncodable image.pool.size index = .ok () ↔
        m.Fits ∧ ∀ i ∈ m.code, i.RefersBelow image.pool.size :=
    Method.checkEncodable_eq_ok_iff
  have hfirst := checkEach_forall hconstants 0 image.pool.entries.toList
  have hsecond := checkEach_forall hmethods 0 image.methods.toList
  simp only [Array.mem_toList_iff] at hfirst hsecond
  constructor
  · intro h
    unfold checkEncodable at h
    split at h
    · cases h
    split at h
    · cases h
    split at h
    · cases h
    case isFalse hpool hnamed hcount =>
      split at h
      · cases h
      case h_2 hpassed =>
        have hconstants' := hfirst.1 hpassed
        have hmethods' := hsecond.1 h
        exact ⟨⟨Nat.not_lt.1 hpool, hconstants', Nat.not_lt.1 hcount,
          fun m hm => (hmethods' m hm).1⟩, Nat.not_le.1 hnamed, fun m hm => (hmethods' m hm).2⟩
  · rintro ⟨⟨hpool, hconstants', hcount, hfits⟩, hnamed, hoperands⟩
    rw [checkEncodable, if_neg (Nat.not_lt.2 hpool), if_neg (Nat.not_le.2 hnamed),
      if_neg (Nat.not_lt.2 hcount), hfirst.2 hconstants']
    exact hsecond.2 fun m hm => ⟨hfits m hm, hoperands m hm⟩

/-- The encoding of an image is what is written of it, and there is one when the image fits the
format and all it refers to is there. -/
theorem encode_eq_ok_iff {image : Image} {bytes : List UInt8} :
    image.encode = .ok bytes ↔ image.Encodable ∧ bytes = image.bytes := by
  rw [← checkEncodable_eq_ok_iff, encode]
  cases image.checkEncodable with
  | error e => simp
  | ok u => simp [eq_comm]

/-- What was encoded decodes to what it was, if it has the version there is. -/
theorem decode_of_encode {image : Image} {bytes : List UInt8} (h : image.encode = .ok bytes)
    (hmajor : image.major = majorVersion) : Image.decode bytes = .ok image := by
  rcases encode_eq_ok_iff.1 h with ⟨hencodable, hbytes⟩
  exact decode_eq_ok_iff.2 ⟨hmajor, hencodable.toFits, hbytes⟩

end Image

end Interposition
