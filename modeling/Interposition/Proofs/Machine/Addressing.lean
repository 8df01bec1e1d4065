import Interposition.Proofs.Image.FlowPass
import Interposition.Proofs.Linking.Footprint
import Interposition.Proofs.Machine.Soundness

/-!
# Interposition.Proofs.Machine.Addressing — what a byte offset of code denotes

The table of offsets is made and searched in three places: by the verifier, for the report of a
redirection, and for a module that is defined. For code of a decoded image each of them means the
same by an offset, the start of the instruction that has its opcode there
(`Image.addressed_of_decode`).

Offsets are numbers here and words of 32 bits in an image. `Code.wordOffsets?` adds up words, and it
does not overflow as long as the length of the code fits in one.
-/

namespace Interposition

/-! ## The table in words -/

namespace Code

/-- The sum of two words, if it is a word. -/
def addWord? (a b : UInt32) : Option UInt32 :=
  if a.toNat + b.toNat ≤ 4294967295 then some (a + b) else none

/-- The offsets of instructions that are laid out from `start` on. The end of the last one is added
up too. -/
def wordOffsets? (start : UInt32) : List Instruction → Option (List UInt32)
  | [] => some []
  | i :: rest => do
    let next ← addWord? start i.width.toUInt32
    return start :: (← wordOffsets? next rest)

theorem addWord?_eq_some {a b : UInt32} (h : a.toNat + b.toNat ≤ 4294967295) :
    ∃ sum, addWord? a b = some sum ∧ sum.toNat = a.toNat + b.toNat := by
  refine ⟨a + b, if_pos h, ?_⟩
  rw [UInt32.toNat_add]
  exact Nat.mod_eq_of_lt (Nat.lt_succ_of_le h)

/-- Offsets up to the end that are words are added up without overflow. -/
theorem wordOffsets?_eq_some {start : UInt32} {is : List Instruction}
    (h : start.toNat + (is.map Instruction.width).sum ≤ 4294967295) :
    ∃ words, wordOffsets? start is = some words ∧
      words.map UInt32.toNat = (layOut start.toNat (is.map Instruction.width)).1.toList := by
  induction is generalizing start with
  | nil => exact ⟨[], rfl, rfl⟩
  | cons i rest ih =>
    rw [List.map_cons, List.sum_cons] at h
    have hwidth : i.width.toUInt32.toNat = i.width := toNat_toUInt32 (by omega)
    have hfirst : start.toNat + i.width.toUInt32.toNat ≤ 4294967295 := by omega
    obtain ⟨next, hnext, hsum⟩ := addWord?_eq_some hfirst
    rw [hwidth] at hsum
    have hrest : next.toNat + (rest.map Instruction.width).sum ≤ 4294967295 := by omega
    obtain ⟨words, hwords, hlater⟩ := ih hrest
    refine ⟨start :: words, ?_, ?_⟩
    · simp [wordOffsets?, hnext, hwords]
    · rw [List.map_cons, List.map_cons, layOut_cons, Array.toList_append, hlater, hsum]
      rfl

/-! ## Entries of the table -/

variable {code : Array Instruction}

theorem offsets_increasing (code : Array Instruction) : (offsets code).toList.Pairwise (· < ·) := by
  rw [List.pairwise_iff_getElem]
  intro p q hp hq hpq
  have hsize : (offsets code).toList.length = code.size := by simp
  have hentry {position : Nat} (hlt : position < (offsets code).toList.length) :
      (offsets code).toList[position] = startOf code position := by
    have hget := offsets_getElem? code position
    rw [if_pos (hsize ▸ hlt)] at hget
    exact (Array.getElem?_eq_some_iff.1 hget).2
  rw [hentry hp, hentry hq]
  exact startOf_lt hpq (by omega)

/-- An instruction starts where its opcode is in the bytes of its code. -/
theorem opcode_at_startOf {position : Nat} {i : Instruction} (hi : code[position]? = some i) :
    (code.toList.flatMap Instruction.encode)[startOf code position]? = some i.opcode := by
  have hi' : code.toList[position]? = some i := by rw [Array.getElem?_toList, hi]
  obtain ⟨before, after, hbytes, hlength⟩ := hasAt_flatMap Instruction.encode hi'
  rw [length_flatMap_take] at hlength
  rw [hbytes, ← hlength, List.getElem?_append_right (Nat.le_refl _), Nat.sub_self]
  rfl

/-- The table of the offsets of code. -/
structure Addressed (code : Array Instruction) : Prop where
  length_le : byteLength code ≤ 4294967295
  /-- Added up in words it does not overflow. -/
  words : ∃ words, wordOffsets? 0 code.toList = some words ∧
    words.map UInt32.toNat = (offsets code).toList
  increasing : (offsets code).toList.Pairwise (· < ·)
  /-- The entry of an instruction is the sum of the widths before it, and the place of its opcode in
  the bytes of the code. -/
  entry : ∀ position i, code[position]? = some i →
    (offsets code)[position]? = some ((code.toList.take position).map Instruction.width).sum ∧
    (code.toList.flatMap Instruction.encode)[
      ((code.toList.take position).map Instruction.width).sum]? = some i.opcode
  /-- A search finds the instruction that starts at an offset, and nothing where none does. -/
  search : ∀ (target : UInt32) position,
    position? (offsets code) target.toNat = some position ↔ StartsAt code position target

theorem addressed_of_le (h : byteLength code ≤ 4294967295) : Addressed code := by
  refine ⟨h, ?_, offsets_increasing code, ?_, ?_⟩
  · have hsum : (0 : UInt32).toNat + (code.toList.map Instruction.width).sum ≤ 4294967295 := by
      rw [← byteLength_eq_sum]
      simpa using h
    exact wordOffsets?_eq_some hsum
  · intro position i hi
    have hlt : position < code.size := (Array.getElem?_eq_some_iff.1 hi).1
    refine ⟨?_, opcode_at_startOf hi⟩
    rw [offsets_getElem?, if_pos hlt]
    rfl
  · intro target position
    exact position?_eq_some_iff

/-- Code is that of a method of a decoded image exactly if its length is a word. -/
theorem exists_decode_iff :
    (∃ input image, Image.decode input = .ok image ∧ ∃ m ∈ image.methods, m.code = code) ↔
      byteLength code ≤ 4294967295 := by
  constructor
  · rintro ⟨input, image, hdecode, m, hm, rfl⟩
    obtain ⟨-, hfits, -⟩ := Image.decode_eq_ok_iff.1 hdecode
    exact (hfits.methods m hm).code
  · intro hlength
    let m : Method := ⟨0, 0, 0, 0, code, []⟩
    let image : Image := ⟨Image.majorVersion, 0, .empty, 0, #[m]⟩
    have hmethod : m.Fits := ⟨hlength, by simp [m]⟩
    have hfits : image.Fits :=
      ⟨by simp [image, Pool.empty, Pool.size], by simp [image, Pool.empty], by simp [image],
        by simpa [image] using hmethod⟩
    exact ⟨image.bytes, image, Image.decode_eq_ok_iff.2 ⟨rfl, hfits, rfl⟩, m, by simp [image], rfl⟩

end Code

/-! ## The verifier -/

/-- A routine takes an offset for the instruction that starts there. -/
structure Routine.Addressed (r : Routine) : Prop where
  position_iff : ∀ target position,
    r.position? target = some position ↔ Code.StartsAt r.method.code position target
  offset_eq : ∀ position < r.method.code.size,
    r.offset position = Code.startOf r.method.code position
  handlerOk_iff : ∀ h, r.handlerOk h = true ↔ h.Fits r.method.code

theorem Routine.addressed {r : Routine} (hstarts : r.starts = Code.offsets r.method.code) :
    r.Addressed :=
  ⟨fun _ _ => position?_eq_some_iff hstarts, fun _ => offset_eq_startOf hstarts,
    fun _ => Routine.handlerOk_iff hstarts⟩

/-! ## The report -/

/-- A reported call starts at the offset that the report has for it. So does the call that takes
its place, and the redirected code has the table of the original one. -/
def RedirectedSite.Addressed (image image' : Image) (site : RedirectedSite) : Prop :=
  ∃ (index position : Nat) (m m' : Method) (kind : CallKind) (operand operand' : UInt16),
    image.methods[index]? = some m ∧ image'.methods[index]? = some m' ∧
    m.code[position]? = some (.invoke kind operand) ∧
    m'.code[position]? = some (.invoke .static operand') ∧
    site.method = image.methodLabel m ∧ site.offset = Code.startOf m.code position ∧
    Code.offsets m'.code = Code.offsets m.code

theorem Image.Applies.site_addressed {image image' : Image} {report : RedirectReport}
    {known : Replacements} (h : image.Applies image' report known) {site : RedirectedSite}
    (hsite : site ∈ report.sites) : site.Addressed image image' := by
  rw [h.sites_eq, ← known.map_site_placed, List.mem_map] at hsite
  obtain ⟨w, hw, rfl⟩ := hsite
  obtain ⟨m, i, hm, hi, hreport⟩ := Replacements.mem_placed.1 hw
  obtain ⟨kind, operand, replacement, rfl, hfind, hsite⟩ :=
    Replacements.report?_eq_some_iff.1 hreport
  refine ⟨w.method, w.position, m, known.applyMethod m, kind, operand, replacement.index, hm, ?_,
    hi, ?_, by rw [hsite], by rw [hsite], known.offsets_map_apply m.code⟩
  · rw [h.methods_eq, Array.getElem?_map, hm, Option.map_some]
  · rw [Array.getElem?_map, hi, Option.map_some, Replacements.apply, hfind]

/-! ## Frames -/

/-- A frame takes an offset for the instruction that starts there: its own, that of a jump, and
those of the range of a handler. -/
structure Frame.Addressed (f : Frame) : Prop where
  offset_eq : f.offset = Code.startOf f.method.code f.position
  lands : ∀ target position, Code.StartsAt f.method.code position target →
    ∃ hlt, f.jump target = .ok { f with position := position, position_lt := hlt }
  refused : ∀ target, (∀ position, ¬Code.StartsAt f.method.code position target) →
    f.jump target = .error (.malformed (.badBranch target))
  covers_iff : ∀ h : Handler, h.Fits f.method.code →
    ∀ first, Code.StartsAt f.method.code first h.start →
      (h.covers f.offset = true ↔ first ≤ f.position ∧
        ∀ last, Code.StartsAt f.method.code last h.stop → f.position < last)

/-- The bytes from one instruction up to another, or to the end, are those of the instructions
between them. -/
theorem Handler.covers_startOf {h : Handler} {code : Array Instruction} (hfits : h.Fits code)
    {first position : Nat} (hfirst : Code.StartsAt code first h.start)
    (hposition : position < code.size) :
    h.covers (Code.startOf code position) = true ↔
      first ≤ position ∧ ∀ last, Code.StartsAt code last h.stop → position < last := by
  have hstart : h.start.toNat ≤ Code.startOf code position ↔ first ≤ position := by
    rw [← hfirst.2, ← Nat.not_lt, ← Nat.not_lt,
      Code.startOf_lt_iff (Nat.le_of_lt hposition) (Nat.le_of_lt hfirst.1)]
  have hstop : Code.startOf code position < h.stop.toNat ↔
      ∀ last, Code.StartsAt code last h.stop → position < last := by
    constructor
    · intro hlt last hlast
      rw [← hlast.2] at hlt
      exact (Code.startOf_lt_iff (Nat.le_of_lt hposition) (Nat.le_of_lt hlast.1)).1 hlt
    · intro hbefore
      rcases hfits.stop with hend | ⟨last, hlast⟩
      · -- Every instruction is before the end of the code.
        rw [hend, ← Code.startOf_size]
        exact Code.startOf_lt hposition (Nat.le_refl _)
      · rw [← hlast.2]
        exact Code.startOf_lt (hbefore last hlast) (Nat.le_of_lt hlast.1)
  rw [Handler.covers, Bool.and_eq_true, decide_eq_true_eq, decide_eq_true_eq, hstart, hstop]

theorem Frame.addressed {f : Frame} (hmodule : f.module.Verified) : f.Addressed := by
  have htable : f.module.methodOffsets f.index = Code.offsets f.method.code :=
    hmodule.methodOffsets_eq f.method_found
  have hoffset : f.offset = Code.startOf f.method.code f.position := by
    rw [Frame.offset, htable, Code.offsets_getElem?, if_pos f.position_lt, Option.getD_some]
  refine ⟨hoffset, ?_, ?_, ?_⟩
  · intro target position hstarts
    have hfound : Code.position? (Code.offsets f.method.code) target.toNat = some position :=
      Code.position?_eq_some_iff.2 hstarts
    refine ⟨hstarts.1, ?_⟩
    simp only [Frame.jump, htable, hfound, Frame.moveTo]
    exact dif_pos hstarts.1
  · intro target hnone
    have hmissing : Code.position? (Code.offsets f.method.code) target.toNat = none := by
      rw [Option.eq_none_iff_forall_ne_some]
      intro position hfound
      exact hnone position (Code.position?_eq_some_iff.1 hfound)
    simp only [Frame.jump, htable, hmissing]
  · intro h hfits first hfirst
    rw [hoffset]
    exact h.covers_startOf hfits hfirst f.position_lt

/-! ## Images -/

/-- The code of an image is addressed in one way: in its tables, by the verifier, in the report of
a redirection, and in the frames of a module that the bytes of the image define. -/
structure Image.Addressed (input : List UInt8) (image : Image) : Prop where
  code : ∀ m ∈ image.methods, Code.Addressed m.code
  verifier : ∀ m ∈ image.methods, ∀ r, Routine.ofMethod image m = .ok r →
    r.method = m ∧ r.Addressed
  report : ∀ rules image' report, image.redirect rules = .ok (image', report) →
    ∀ site ∈ report.sites, site.Addressed image image'
  frames : ∀ name derived level module, Module.define name input derived level = .ok module →
    module.image = image ∧ ∀ f : Frame, f.module = module → f.Addressed

/-- Whatever bytes decode to is addressed in one way. -/
theorem Image.addressed_of_decode {input : List UInt8} {image : Image}
    (hdecode : Image.decode input = .ok image) : image.Addressed input := by
  obtain ⟨-, hfits, -⟩ := Image.decode_eq_ok_iff.1 hdecode
  refine ⟨?_, ?_, ?_, ?_⟩
  · intro m hm
    exact Code.addressed_of_le (hfits.methods m hm).code
  · intro m hm r hr
    obtain ⟨_, _, _, _, _, _, _, hroutine⟩ := Routine.ofMethod_eq_ok_iff.1 hr
    obtain rfl : r.method = m := by rw [hroutine]
    exact ⟨rfl, Routine.addressed (by rw [hroutine])⟩
  · intro rules image' report hredirect site hsite
    obtain ⟨known, happlies⟩ := Image.redirect_applies hfits.pool_size hredirect
    exact happlies.site_addressed hsite
  · intro name derived level module hdefine
    have hverified : module.Verified := Module.verified_ofDefine _ _ _ _ _ hdefine
    obtain ⟨image', hdecode', -, rfl⟩ := Module.define_eq_ok hdefine
    refine ⟨Except.ok.inj (hdecode'.symm.trans hdecode), ?_⟩
    rintro f hf
    exact Frame.addressed (hf ▸ hverified)

/-- An image of code with instructions of each width, a loop and a handler. -/
def Image.circling : Image :=
  ⟨1, 0, ⟨#[.utf8 "main", .utf8 "()V"]⟩, 0, #[Routine.circling]⟩

theorem Image.addressed_of_decode_circling :
    Image.circling.Addressed Image.circling.bytes ∧
      Code.offsets Routine.circling.code = #[0, 1, 6, 11, 12, 13, 14] := by
  have hdecode : Image.decode Image.circling.bytes = .ok .circling := by decide +kernel
  exact ⟨Image.addressed_of_decode hdecode, by decide⟩

end Interposition
