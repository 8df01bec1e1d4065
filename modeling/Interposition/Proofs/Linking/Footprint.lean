import Interposition.Proofs.Linking.Retention

/-!
# Interposition.Proofs.Linking.Footprint — which bytes a transformation changes

Transformed bytes are the original ones but for three things: the number of constants, the
constants behind those that were there, and the bytes of the calls that the report lists. What
stands behind the pool keeps its length, since a call takes three bytes before and after, and so
every byte there keeps its offset. `transform_footprint` says so of all bytes that can be
transformed. If the report lists nothing, the bytes are the original ones.

An encoding is a list of pieces of pieces. Where two encodings with pieces of the same lengths
differ, two pieces in the same place do (`flatMap_differs`), down to the bytes of an instruction.
-/

namespace Interposition

/-! ## Pieces -/

section Pieces

variable {α β : Type}

/-- A list stands in another one from `start` on. -/
def HasAt (whole part : List β) (start : Nat) : Prop :=
  ∃ before after, whole = before ++ (part ++ after) ∧ before.length = start

theorem HasAt.trans {whole part piece : List β} {i j : Nat} (h : HasAt whole part i)
    (hpart : HasAt part piece j) : HasAt whole piece (i + j) := by
  obtain ⟨before, after, rfl, rfl⟩ := h
  obtain ⟨before', after', rfl, rfl⟩ := hpart
  refine ⟨before ++ before', after' ++ after, ?_, List.length_append⟩
  simp only [List.append_assoc]

theorem hasAt_flatMap (f : α → List β) {as : List α} {j : Nat} {a : α} (h : as[j]? = some a) :
    HasAt (as.flatMap f) (f a) ((as.take j).flatMap f).length := by
  obtain ⟨hlt, rfl⟩ := List.getElem?_eq_some_iff.1 h
  refine ⟨(as.take j).flatMap f, (as.drop (j + 1)).flatMap f, ?_, rfl⟩
  have hsplit : as = as.take j ++ as[j] :: as.drop (j + 1) := by simp
  conv_lhs => rw [hsplit]
  rw [List.flatMap_append, List.flatMap_cons]

/-- Lists that differ in a part alone differ where the parts do. -/
theorem append_differs {before after part part' : List β} {i : Nat}
    (hlength : part'.length = part.length)
    (h : (before ++ (part' ++ after))[i]? ≠ (before ++ (part ++ after))[i]?) :
    ∃ k, i = before.length + k ∧ part'[k]? ≠ part[k]? := by
  by_cases hbefore : i < before.length
  · rw [List.getElem?_append_left hbefore, List.getElem?_append_left hbefore] at h
    exact absurd rfl h
  · have hle : before.length ≤ i := by omega
    rw [List.getElem?_append_right hle, List.getElem?_append_right hle] at h
    refine ⟨i - before.length, by omega, ?_⟩
    by_cases hpart : i - before.length < part.length
    · rw [List.getElem?_append_left (by omega), List.getElem?_append_left hpart] at h
      exact h
    · have hle' : part.length ≤ i - before.length := by omega
      rw [List.getElem?_append_right (by omega), List.getElem?_append_right hle', hlength] at h
      exact absurd rfl h

/-- Where lists of pieces of the same lengths differ, two pieces in the same place do. -/
theorem flatMap_differs {f g : α → List β} {as : List α} {i : Nat}
    (hlength : ∀ a ∈ as, (g a).length = (f a).length)
    (h : (as.flatMap g)[i]? ≠ (as.flatMap f)[i]?) :
    ∃ j a k, as[j]? = some a ∧ i = ((as.take j).flatMap f).length + k ∧
      (g a)[k]? ≠ (f a)[k]? := by
  induction as generalizing i with
  | nil => exact absurd rfl h
  | cons a rest ih =>
    have ha : (g a).length = (f a).length := hlength a List.mem_cons_self
    rw [List.flatMap_cons, List.flatMap_cons] at h
    by_cases hfirst : i < (f a).length
    · rw [List.getElem?_append_left (by omega), List.getElem?_append_left hfirst] at h
      exact ⟨0, a, i, rfl, by simp, h⟩
    · have hle : (f a).length ≤ i := by omega
      rw [List.getElem?_append_right (by omega), List.getElem?_append_right hle, ha] at h
      have hrest : ∀ b ∈ rest, (g b).length = (f b).length := fun b hb =>
        hlength b (List.mem_cons_of_mem a hb)
      obtain ⟨j, b, k, hb, hi, hdiffer⟩ := ih hrest h
      refine ⟨j + 1, b, k, hb, ?_, hdiffer⟩
      rw [List.take_succ_cons, List.flatMap_cons, List.length_append]
      omega

theorem length_flatMap_congr {f g : α → List β} {as : List α}
    (hlength : ∀ a ∈ as, (g a).length = (f a).length) :
    (as.flatMap g).length = (as.flatMap f).length := by
  rw [List.length_flatMap, List.length_flatMap, List.map_congr_left hlength]

end Pieces

/-! ## Parts of an encoding -/

def Pool.bytes (p : Pool) : List UInt8 :=
  p.entries.toList.flatMap Constant.bytes

/-- What stands in front of the code of a method. -/
def Method.frontBytes (m : Method) : List UInt8 :=
  Word.bytes16 m.flags ++ Word.bytes16 m.name ++ Word.bytes16 m.descriptor ++
    Word.bytes16 m.maxLocals ++ Word.bytes32 (Code.byteLength m.code).toUInt32

/-- What stands behind the code of a method. -/
def Method.backBytes (m : Method) : List UInt8 :=
  Word.bytes16 m.handlers.length.toUInt16 ++ m.handlers.flatMap Handler.bytes

theorem Method.bytes_eq (m : Method) :
    m.bytes = m.frontBytes ++ (m.code.toList.flatMap Instruction.encode ++ m.backBytes) := by
  simp only [Method.bytes, frontBytes, backBytes, List.append_assoc]

namespace Image

/-- Magic word and version. -/
def headerBytes (image : Image) : List UInt8 :=
  Word.bytes32 magic ++ Word.bytes16 image.major ++ Word.bytes16 image.minor

/-- What stands behind the pool and in front of the methods. -/
def nameBytes (image : Image) : List UInt8 :=
  Word.bytes16 image.thisName ++ Word.bytes16 image.methods.size.toUInt16

/-- What stands behind the pool: the name and the methods. -/
def tailBytes (image : Image) : List UInt8 :=
  image.nameBytes ++ image.methods.toList.flatMap Method.bytes

theorem bytes_eq (image : Image) :
    image.bytes = image.headerBytes ++ (Word.bytes16 image.pool.size.toUInt16 ++
      (image.pool.bytes ++ image.tailBytes)) := by
  simp only [bytes, headerBytes, Pool.bytes, tailBytes, nameBytes, List.append_assoc]

/-- Where the code of the method at an index starts behind the pool. -/
def codeStart (image : Image) (index : Nat) : Nat :=
  4 + (((image.methods.toList.take index).flatMap Method.bytes).length + 12)

end Image

/-- An instruction starts as far from the start of its code as those before it are long. -/
theorem Code.length_flatMap_take (code : Array Instruction) (position : Nat) :
    ((code.toList.take position).flatMap Instruction.encode).length = startOf code position := by
  rw [startOf, List.length_flatMap]
  simp only [Instruction.encode_length]

/-- The bytes of an instruction stand where its code and its position there say. -/
theorem Image.hasAt_encode {image : Image} {index position : Nat} {m : Method} {i : Instruction}
    (hm : image.methods[index]? = some m) (hi : m.code[position]? = some i) :
    HasAt image.tailBytes i.encode (image.codeStart index + Code.startOf m.code position) := by
  have hmethods : HasAt image.tailBytes (image.methods.toList.flatMap Method.bytes) 4 :=
    ⟨image.nameBytes, [], by rw [List.append_nil, tailBytes], rfl⟩
  have hm' : image.methods.toList[index]? = some m := by rw [Array.getElem?_toList, hm]
  have hi' : m.code.toList[position]? = some i := by rw [Array.getElem?_toList, hi]
  have hmethod := hasAt_flatMap Method.bytes hm'
  have hcode : HasAt m.bytes (m.code.toList.flatMap Instruction.encode) 12 :=
    ⟨m.frontBytes, m.backBytes, m.bytes_eq, rfl⟩
  have hinstruction := hasAt_flatMap Instruction.encode hi'
  rw [Code.length_flatMap_take] at hinstruction
  exact (hmethods.trans (hmethod.trans hcode)).trans hinstruction

/-! ## Redirected methods -/

/-- A method with replacements put in place. -/
abbrev Replacements.applyMethod (known : Replacements) (m : Method) : Method :=
  { m with code := m.code.map known.apply }

section Apply

variable (known : Replacements)

theorem Replacements.apply_encode_length (i : Instruction) :
    (known.apply i).encode.length = i.encode.length := by
  rw [Instruction.encode_length, Instruction.encode_length, known.apply_width]

theorem Replacements.applyMethod_bytes (m : Method) :
    (known.applyMethod m).bytes = m.frontBytes ++
      (m.code.toList.flatMap (fun i => (known.apply i).encode) ++ m.backBytes) := by
  have hwidths : (m.code.map known.apply).toList.map Instruction.width =
      m.code.toList.map Instruction.width := by
    simp [Function.comp_def]
  have hfront : (known.applyMethod m).frontBytes = m.frontBytes := by
    simp only [Method.frontBytes, Code.byteLength_congr hwidths]
  rw [Method.bytes_eq, hfront, Array.toList_map, List.flatMap_map]
  rfl

theorem Replacements.applyMethod_bytes_length (m : Method) :
    (known.applyMethod m).bytes.length = m.bytes.length := by
  have hlength (i : Instruction) (_ : i ∈ m.code.toList) := known.apply_encode_length i
  have hcode := length_flatMap_congr hlength
  rw [applyMethod_bytes, Method.bytes_eq]
  simp only [List.length_append, hcode]

/-- Where a method with replacements differs, an instruction has become another one. -/
theorem Replacements.applyMethod_differs {m : Method} {i : Nat}
    (h : (known.applyMethod m).bytes[i]? ≠ m.bytes[i]?) :
    ∃ position instruction k, m.code[position]? = some instruction ∧
      i = 12 + (Code.startOf m.code position + k) ∧
      (known.apply instruction).encode[k]? ≠ instruction.encode[k]? := by
  have hlength (i : Instruction) (_ : i ∈ m.code.toList) := known.apply_encode_length i
  rw [applyMethod_bytes, Method.bytes_eq] at h
  obtain ⟨k, rfl, hcode⟩ := append_differs (length_flatMap_congr hlength) h
  obtain ⟨position, instruction, k', hi, rfl, hdiffer⟩ := flatMap_differs hlength hcode
  rw [Code.length_flatMap_take]
  exact ⟨position, instruction, k', by rwa [Array.getElem?_toList] at hi, rfl, hdiffer⟩

/-- An instruction that becomes another one is a redirected call, and the bytes that differ are
those of its encoding. -/
theorem Replacements.call_of_differs {i : Instruction} {k : Nat}
    (h : (known.apply i).encode[k]? ≠ i.encode[k]?) :
    ∃ kind index replacement, i = .invoke kind index ∧
      known.find? (index, kind) = some replacement ∧ k < 3 := by
  have hcall : ∃ kind index, i = .invoke kind index := by
    by_contra hnot
    have hsame : known.apply i = i := apply_eq_self fun kind index heq => hnot ⟨kind, index, heq⟩
    rw [hsame] at h
    exact h rfl
  obtain ⟨kind, index, rfl⟩ := hcall
  cases hfind : known.find? (index, kind) with
  | none =>
    have hsame : known.apply (.invoke kind index) = .invoke kind index := by
      simp only [apply, hfind]
    rw [hsame] at h
    exact absurd rfl h
  | some replacement =>
    refine ⟨kind, index, replacement, rfl, hfind, ?_⟩
    by_contra hlarge
    have hend : (Instruction.invoke kind index).encode.length ≤ k := Nat.not_lt.1 hlarge
    have hend' : (known.apply (.invoke kind index)).encode.length ≤ k := by
      rwa [known.apply_encode_length]
    rw [List.getElem?_eq_none hend, List.getElem?_eq_none hend'] at h
    exact h rfl

end Apply

/-! ## Places -/

/-- A call of a report with the index of its method and its position in the code. -/
structure PlacedSite where
  method : Nat
  position : Nat
  site : RedirectedSite

namespace PlacedSite

/-- Where the bytes of the call start behind the pool. -/
def start (image : Image) (w : PlacedSite) : Nat :=
  image.codeStart w.method + w.site.offset

/-- Methods come in their order, and calls of one method in that of its code. -/
def Before (v w : PlacedSite) : Prop :=
  v.method < w.method ∨ v.method = w.method ∧ v.position < w.position

/-- The report tells of a call that was there, and of what it has become. Both are encoded at
one place. -/
def Shows (image image' : Image) (w : PlacedSite) : Prop :=
  ∃ m kind index target, image.methods[w.method]? = some m ∧
    m.code[w.position]? = some (.invoke kind index) ∧
    w.site.method = image.methodLabel m ∧ w.site.offset = Code.startOf m.code w.position ∧
    image'.pool.Names (index, kind) w.site.source ∧
    image'.pool.method? target = some w.site.target.texts ∧
    HasAt image.tailBytes (Instruction.invoke kind index).encode (w.start image) ∧
    HasAt image'.tailBytes (Instruction.invoke .static target).encode (w.start image)

end PlacedSite

/-- What is reported of an instruction at an offset in the method of a label. -/
def Replacements.report? (known : Replacements) (label : String) (i : Instruction) (offset : Nat) :
    Option RedirectedSite :=
  (i.callSite? label offset).bind known.redirected?

/-- What is reported are the calls whose operand has a replacement. -/
theorem Replacements.report?_eq_some_iff {known : Replacements} {label : String} {i : Instruction}
    {offset : Nat} {site : RedirectedSite} :
    known.report? label i offset = some site ↔
      ∃ kind index replacement, i = .invoke kind index ∧
        known.find? (index, kind) = some replacement ∧
        site = ⟨label, offset, replacement.source, replacement.target⟩ := by
  constructor
  · intro h
    obtain ⟨call, hcall, hreport⟩ := Option.bind_eq_some_iff.1 h
    obtain ⟨rfl, hmethod, hoffset⟩ := Instruction.callSite?_eq_some_iff.1 hcall
    obtain ⟨replacement, hfind, rfl⟩ := Option.map_eq_some_iff.1 hreport
    rw [hmethod, hoffset]
    exact ⟨call.kind, call.index, replacement, rfl, hfind, rfl⟩
  · rintro ⟨kind, index, replacement, rfl, hfind, rfl⟩
    have hreport : known.redirected? ⟨label, offset, kind, index⟩ =
        some ⟨label, offset, replacement.source, replacement.target⟩ := by
      rw [redirected?, hfind, Option.map_some]
    exact hreport

/-- What is reported of an image, call by call, with the places of the calls. -/
def Replacements.placed (known : Replacements) (image : Image) : List PlacedSite :=
  image.methods.toList.zipIdx.flatMap fun (m, index) =>
    m.code.toList.zipIdx.filterMap fun (i, position) =>
      (known.report? (image.methodLabel m) i (Code.startOf m.code position)).map fun site =>
        ⟨index, position, site⟩

theorem Replacements.mem_placed {known : Replacements} {image : Image} {w : PlacedSite} :
    w ∈ known.placed image ↔ ∃ m i, image.methods[w.method]? = some m ∧
      m.code[w.position]? = some i ∧
      known.report? (image.methodLabel m) i (Code.startOf m.code w.position) = some w.site := by
  simp only [placed, List.mem_flatMap, List.mem_filterMap, Prod.exists, List.mem_zipIdx_iff_getElem?,
    Array.getElem?_toList, Option.map_eq_some_iff]
  constructor
  · rintro ⟨m, index, hm, i, position, hi, site, hsite, rfl⟩
    exact ⟨m, i, hm, hi, hsite⟩
  · rintro ⟨m, i, hm, hi, hsite⟩
    exact ⟨m, w.method, hm, i, w.position, hi, w.site, hsite, rfl⟩

/-- Each instruction of a code with where it starts. -/
theorem Code.zip_offsets (code : Array Instruction) :
    code.toList.zip (offsets code).toList =
      code.toList.zipIdx.map fun (i, position) => (i, startOf code position) := by
  refine List.ext_getElem (by simp) ?_
  intro position hzip hindexed
  have hlt : position < code.size := by simpa using hindexed
  have hlt' : position < (offsets code).size := by simpa using hlt
  have hoffset : (offsets code)[position] = startOf code position := by
    have h := offsets_getElem? code position
    rw [if_pos hlt] at h
    exact (Array.getElem?_eq_some_iff.1 h).2
  simp [hoffset]

/-- The calls of the report that are in one method, without their places. -/
theorem Replacements.map_site_method (known : Replacements) (label : String) (index : Nat)
    (m : Method) :
    (m.code.toList.zipIdx.filterMap fun (i, position) =>
        (known.report? label i (Code.startOf m.code position)).map fun site =>
          (⟨index, position, site⟩ : PlacedSite)).map PlacedSite.site =
      (m.callSites label).filterMap known.redirected? := by
  rw [Method.callSites, Code.zip_offsets, List.map_filterMap, List.filterMap_filterMap,
    List.filterMap_map]
  refine List.filterMap_congr ?_
  rintro ⟨i, position⟩ _
  simp only [Option.map_map, Function.comp_def, Option.map_id']
  rfl

/-- Without their places these are the calls of the report. -/
theorem Replacements.map_site_placed (known : Replacements) (image : Image) :
    (known.placed image).map PlacedSite.site = image.callSites.filterMap known.redirected? := by
  rw [placed, List.map_flatMap, Image.callSites, List.filterMap_flatMap]
  simp only [known.map_site_method]
  have hmethods := List.zipIdx_map_fst 0 image.methods.toList
  conv_rhs => rw [← hmethods]
  rw [List.flatMap_map]

theorem pairwise_zipIdx {α : Type} (as : List α) :
    as.zipIdx.Pairwise fun a b => a.2 < b.2 := by
  have hindices : (as.zipIdx.map Prod.snd).Pairwise (· < ·) := by
    rw [List.zipIdx_map_snd]
    exact List.pairwise_lt_range'
  exact List.pairwise_map.1 hindices

theorem Replacements.placed_ordered (known : Replacements) (image : Image) :
    (known.placed image).Pairwise PlacedSite.Before := by
  rw [placed, List.pairwise_flatMap]
  constructor
  · rintro ⟨m, index⟩ _
    rw [List.pairwise_filterMap]
    refine (pairwise_zipIdx m.code.toList).imp ?_
    intro i j hlt v hv w hw
    obtain ⟨_, _, rfl⟩ := Option.map_eq_some_iff.1 hv
    obtain ⟨_, _, rfl⟩ := Option.map_eq_some_iff.1 hw
    right
    exact ⟨rfl, hlt⟩
  · refine (pairwise_zipIdx image.methods.toList).imp ?_
    intro m m' hlt v hv w hw
    obtain ⟨_, _, hv'⟩ := List.mem_filterMap.1 hv
    obtain ⟨_, _, hw'⟩ := List.mem_filterMap.1 hw
    obtain ⟨_, _, rfl⟩ := Option.map_eq_some_iff.1 hv'
    obtain ⟨_, _, rfl⟩ := Option.map_eq_some_iff.1 hw'
    left
    exact hlt

/-! ## Footprints -/

/-- How transformed bytes differ from the original ones, if those are the bytes of the images and
the report lists the calls that are placed. -/
structure Footprint (bytes bytes' : List UInt8) (report : RedirectReport) (image image' : Image)
    (placed : List PlacedSite) : Prop where
  original_eq : bytes = image.headerBytes ++ (Word.bytes16 image.pool.size.toUInt16 ++
    (image.pool.bytes ++ image.tailBytes))
  /-- The header and the constants stay, with a larger number in front and more constants behind
  them. -/
  transformed_eq : ∃ added : List Constant, added.length = report.poolGrowth ∧
    bytes' = image.headerBytes ++ (Word.bytes16 (image.pool.size + report.poolGrowth).toUInt16 ++
      (image.pool.bytes ++ (added.flatMap Constant.bytes ++ image'.tailBytes)))
  header_length : image.headerBytes.length = 8
  /-- The number of constants fits its field. -/
  size_le : image.pool.size + report.poolGrowth ≤ 65535
  tail_length : image'.tailBytes.length = image.tailBytes.length
  sites_eq : report.sites = placed.map PlacedSite.site
  ordered : placed.Pairwise PlacedSite.Before
  shows_call : ∀ w ∈ placed, w.Shows image image'
  /-- Behind the pool only bytes of reported calls differ. -/
  differs : ∀ i : Nat, image'.tailBytes[i]? ≠ image.tailBytes[i]? →
    ∃ w ∈ placed, w.start image ≤ i ∧ i < w.start image + 3

section Tails

variable {known : Replacements} {image image' : Image}

theorem Image.tailBytes_applied (hthis : image'.thisName = image.thisName)
    (hmethods : image'.methods = image.methods.map known.applyMethod) :
    image'.tailBytes = image.nameBytes ++
      (image.methods.toList.flatMap (fun m => (known.applyMethod m).bytes) ++ []) := by
  rw [tailBytes, nameBytes, nameBytes, hthis, hmethods, Array.size_map, Array.toList_map,
    List.flatMap_map, List.append_nil]

theorem Image.tailBytes_length (hthis : image'.thisName = image.thisName)
    (hmethods : image'.methods = image.methods.map known.applyMethod) :
    image'.tailBytes.length = image.tailBytes.length := by
  have hlength (m : Method) (_ : m ∈ image.methods.toList) := known.applyMethod_bytes_length m
  rw [tailBytes_applied hthis hmethods, tailBytes, List.append_nil, List.length_append,
    List.length_append, length_flatMap_congr hlength]

theorem Image.codeStart_applied (hmethods : image'.methods = image.methods.map known.applyMethod)
    (index : Nat) : image'.codeStart index = image.codeStart index := by
  have hlength (m : Method) (_ : m ∈ image.methods.toList.take index) :=
    known.applyMethod_bytes_length m
  rw [codeStart, codeStart, hmethods, Array.toList_map, ← List.map_take, List.flatMap_map,
    length_flatMap_congr hlength]

/-- Where the bytes behind the pool differ, a redirected call is encoded. -/
theorem Image.tailBytes_differs (hthis : image'.thisName = image.thisName)
    (hmethods : image'.methods = image.methods.map known.applyMethod) {i : Nat}
    (h : image'.tailBytes[i]? ≠ image.tailBytes[i]?) :
    ∃ w ∈ known.placed image, w.start image ≤ i ∧ i < w.start image + 3 := by
  have hlength (m : Method) (_ : m ∈ image.methods.toList) := known.applyMethod_bytes_length m
  have htail : image.tailBytes =
      image.nameBytes ++ (image.methods.toList.flatMap Method.bytes ++ []) := by
    rw [tailBytes, List.append_nil]
  rw [tailBytes_applied hthis hmethods, htail] at h
  obtain ⟨k, hi, hmethod⟩ := append_differs (length_flatMap_congr hlength) h
  obtain ⟨index, m, k', hm, hk, hcode⟩ := flatMap_differs hlength hmethod
  obtain ⟨position, instruction, k'', hinstruction, hk', hdiffer⟩ :=
    known.applyMethod_differs hcode
  obtain ⟨kind, operand, replacement, rfl, hfind, hk''⟩ := known.call_of_differs hdiffer
  have hname : image.nameBytes.length = 4 := rfl
  refine ⟨⟨index, position, ⟨image.methodLabel m, Code.startOf m.code position,
    replacement.source, replacement.target⟩⟩, ?_, ?_⟩
  · rw [Array.getElem?_toList] at hm
    refine Replacements.mem_placed.2 ⟨m, .invoke kind operand, hm, hinstruction, ?_⟩
    exact Replacements.report?_eq_some_iff.2 ⟨kind, operand, replacement, rfl, hfind, rfl⟩
  · simp only [PlacedSite.start, Image.codeStart]
    omega

end Tails

/-- What a redirection puts in place, with or without rules: each replacement stands for a call
whose symbol it has for a source, and refers to a constant that names its target. -/
structure Image.Applies (image image' : Image) (report : RedirectReport) (known : Replacements) :
    Prop where
  image_eq : image' = { image with
    pool := image'.pool
    methods := image.methods.map known.applyMethod }
  extends_pool : image'.pool.Extends image.pool
  size_le : image'.pool.size ≤ Pool.capacity
  sites_eq : report.sites = image.callSites.filterMap known.redirected?
  growth_eq : report.poolGrowth = image'.pool.size - image.pool.size
  replaces : ∀ site ∈ image.callSites, ∀ replacement,
    known.find? site.operand = some replacement →
      image'.pool.Names site.operand replacement.source ∧
        image'.pool.method? replacement.index = some replacement.target.texts

theorem Image.redirect_applies {rules : RuleSet} {image image' : Image} {report : RedirectReport}
    (hsize : image.pool.size ≤ Pool.capacity)
    (h : image.redirect rules = .ok (image', report)) :
    ∃ known, image.Applies image' report known := by
  rcases redirect_ok h hsize with ⟨-, rfl, rfl⟩ | ⟨known, hgrows, himage, hreport, hsettles⟩
  · -- Nothing is known without rules.
    have hnone (operand : UInt16 × CallKind) : Replacements.find? [] operand = none := rfl
    have happly : Replacements.apply [] = id := funext (Replacements.apply_of_none hnone)
    have hmethod : Replacements.applyMethod [] = id := by
      funext m
      simp [Replacements.applyMethod, happly]
    have hsites : image'.callSites.filterMap (Replacements.redirected? []) = [] := by
      refine List.filterMap_eq_nil_iff.2 ?_
      intro site _
      rw [Replacements.redirected?, hnone, Option.map_none]
    refine ⟨[], by simp [hmethod], .refl _, hsize, hsites.symm, (Nat.sub_self _).symm, ?_⟩
    intro site _ replacement hfind
    rw [hnone] at hfind
    cases hfind
  · refine ⟨known, himage, hgrows.extends_pool, hgrows.size_le, by rw [hreport], by rw [hreport], ?_⟩
    intro site hsite replacement hfind
    obtain ⟨source, hnames, hsettled⟩ := hsettles site hsite
    rw [hfind] at hsettled
    cases hrule : rules.lookup source with
    | none =>
      rw [hrule] at hsettled
      cases hsettled
    | some rule =>
      rw [hrule] at hsettled
      obtain ⟨target, hreplacement, htarget⟩ := hsettled
      obtain rfl := Option.some.inj hreplacement
      exact ⟨hnames, htarget⟩

namespace Image.Applies

variable {image image' : Image} {report : RedirectReport} {known : Replacements}

theorem methods_eq (h : image.Applies image' report known) :
    image'.methods = image.methods.map known.applyMethod :=
  congrArg Image.methods h.image_eq

theorem thisName_eq (h : image.Applies image' report known) :
    image'.thisName = image.thisName := by
  rw [h.image_eq]

theorem headerBytes_eq (h : image.Applies image' report known) :
    image'.headerBytes = image.headerBytes := by
  rw [h.image_eq]
  rfl

/-- The constants that were there stay in front of those that are reported. -/
theorem exists_added (h : image.Applies image' report known) :
    ∃ added : Array Constant, image'.pool.entries = image.pool.entries ++ added ∧
      added.size = report.poolGrowth := by
  obtain ⟨added, hadded⟩ := h.extends_pool.exists_added
  have hgrown : image'.pool.size = image.pool.size + added.size := by
    simp [Pool.size, hadded]
  have hgrowth := h.growth_eq
  exact ⟨added, hadded, by omega⟩

theorem size_eq (h : image.Applies image' report known) :
    image'.pool.size = image.pool.size + report.poolGrowth := by
  obtain ⟨added, hadded, hsize⟩ := h.exists_added
  simp [Pool.size, hadded, hsize]

theorem startOf_eq (code : Array Instruction) (position : Nat) :
    Code.startOf (code.map known.apply) position = Code.startOf code position := by
  simp [Code.startOf, List.map_take, Function.comp_def]

theorem shows_call (h : image.Applies image' report known) {w : PlacedSite}
    (hw : w ∈ known.placed image) : w.Shows image image' := by
  obtain ⟨m, i, hm, hi, hreport⟩ := Replacements.mem_placed.1 hw
  obtain ⟨kind, index, replacement, rfl, hfind, hsite⟩ := Replacements.report?_eq_some_iff.1 hreport
  have hcall : .invoke kind index ∈ m.code := Array.mem_of_getElem? hi
  obtain ⟨site, hmem, hoperand⟩ := exists_callSite (Array.mem_of_getElem? hm) hcall
  rw [← hoperand] at hfind
  obtain ⟨hnames, htarget⟩ := h.replaces site hmem replacement hfind
  rw [hoperand] at hfind hnames
  -- The other method has the other call in the same place.
  have hm' : image'.methods[w.method]? = some (known.applyMethod m) := by
    rw [h.methods_eq, Array.getElem?_map, hm, Option.map_some]
  have hi' : (known.applyMethod m).code[w.position]? =
      some (.invoke .static replacement.index) := by
    rw [Array.getElem?_map, hi, Option.map_some, Replacements.apply, hfind]
  have hthere := hasAt_encode hm hi
  have hthere' := hasAt_encode hm' hi'
  rw [codeStart_applied h.methods_eq, startOf_eq] at hthere'
  have hoffset : w.site.offset = Code.startOf m.code w.position := by rw [hsite]
  refine ⟨m, kind, index, replacement.index, hm, hi, by rw [hsite], hoffset, ?_, ?_, ?_, ?_⟩
  · rw [hsite]
    exact hnames
  · rw [hsite]
    exact htarget
  · rw [PlacedSite.start, hoffset]
    exact hthere
  · rw [PlacedSite.start, hoffset]
    exact hthere'

theorem footprint (h : image.Applies image' report known) :
    Footprint image.bytes image'.bytes report image image' (known.placed image) where
  original_eq := image.bytes_eq
  transformed_eq := by
    obtain ⟨added, hadded, hsize⟩ := h.exists_added
    have hpool : image'.pool.bytes =
        image.pool.bytes ++ added.toList.flatMap Constant.bytes := by
      rw [Pool.bytes, Pool.bytes, hadded, Array.toList_append, List.flatMap_append]
    refine ⟨added.toList, hsize, ?_⟩
    rw [image'.bytes_eq, h.headerBytes_eq, h.size_eq, hpool, List.append_assoc]
  header_length := rfl
  size_le := by
    have hle := h.size_le
    rw [h.size_eq] at hle
    exact hle
  tail_length := tailBytes_length h.thisName_eq h.methods_eq
  sites_eq := by rw [h.sites_eq, known.map_site_placed]
  ordered := known.placed_ordered image
  shows_call w hw := h.shows_call hw
  differs i hi := tailBytes_differs h.thisName_eq h.methods_eq hi

end Image.Applies

/-! ## Transformed bytes -/

/-- A redirection that reports nothing changes nothing, constants included. -/
theorem Image.eq_of_redirect_unreported {rules : RuleSet} {image image' : Image}
    {report : RedirectReport} (hsize : image.pool.size ≤ Pool.capacity)
    (h : image.redirect rules = .ok (image', report)) (hsites : report.sites = []) :
    image' = image := by
  rcases redirect_ok h hsize with ⟨-, rfl, -⟩ | ⟨known, hgrows, -, hreport, hsettles⟩
  · rfl
  have hunruled (site : CallSite) (hsite : site ∈ image.callSites) (s : Symbol)
      (hs : image.pool.Names site.operand s) : rules.lookup s = none := by
    obtain ⟨source, hnames, hsettled⟩ := hsettles site hsite
    obtain rfl := hnames.unique (hs.extends hgrows.extends_pool)
    cases hrule : rules.lookup source with
    | none => rfl
    | some rule =>
      -- A call with a rule has a replacement, so it is reported.
      rw [hrule] at hsettled
      obtain ⟨target, hfind, -⟩ := hsettled
      rw [hreport] at hsites
      have hunreported := List.filterMap_eq_nil_iff.1 hsites site hsite
      rw [Replacements.redirected?, hfind] at hunreported
      cases hunreported
  rcases redirect_unruled hunruled with hsame | ⟨-, _, _, e, -, hfails⟩
  · rw [h] at hsame
    exact congrArg Prod.fst (Except.ok.inj hsame)
  · rw [h] at hfails
    cases hfails

/-- Transformed bytes have the header of the original ones, a number of constants larger by the
growth that is reported, the bytes of the constants with those of the new ones behind them, and
then as many bytes as before. Of these only the three of each reported call differ. Bytes whose
report lists no call are the original ones, whatever the rules are. -/
theorem transform_footprint {rules : RuleSet} {bytes bytes' : List UInt8} {report : RedirectReport}
    (h : transform rules bytes = .ok (bytes', report)) :
    (∃ image image' placed, Image.decode bytes = .ok image ∧ Image.decode bytes' = .ok image' ∧
      Footprint bytes bytes' report image image' placed) ∧
    (report.sites = [] → bytes' = bytes) := by
  obtain ⟨image, image', hdecode, hredirect, hdecode'⟩ := transform_eq_ok h
  obtain ⟨-, hfits, rfl⟩ := Image.decode_eq_ok_iff.1 hdecode
  obtain ⟨-, -, rfl⟩ := Image.decode_eq_ok_iff.1 hdecode'
  constructor
  · obtain ⟨known, happlies⟩ := Image.redirect_applies hfits.pool_size hredirect
    exact ⟨image, image', known.placed image, hdecode, hdecode', happlies.footprint⟩
  · intro hsites
    rw [Image.eq_of_redirect_unreported hfits.pool_size hredirect hsites]

/-- Of an image that calls `s.a` both ways, two constants are added and the bytes of one call
differ. For the other call there is no rule. -/
theorem transform_footprint_chained :
    ∃ bytes' report image image' placed,
      transform .chained Image.calling.bytes = .ok (bytes', report) ∧ report.poolGrowth = 2 ∧
      report.callSites = 1 ∧ Footprint Image.calling.bytes bytes' report image image' placed := by
  have hdecode : Image.decode Image.calling.bytes = .ok .calling := by decide +kernel
  have hredirect : Image.calling.redirect .chained = .ok
      (⟨1, 0, ⟨#[.utf8 "s", .utf8 "a", .utf8 "()V", .method ⟨0, 1, 2⟩, .utf8 "b",
          .method ⟨0, 4, 2⟩]⟩, 0,
        #[⟨1, 1, 2, 0, #[.invoke .static 5, .new 0, .invoke .virtual 3, .ret], []⟩]⟩,
      ⟨"s", [⟨"a()V", 0, ⟨"s", "a", .void, .static⟩, ⟨"s", "b", .void, .static⟩⟩], 2⟩) := by
    decide +kernel
  have htransform : ∃ bytes' report, transform .chained Image.calling.bytes = .ok (bytes', report) ∧
      report.poolGrowth = 2 ∧ report.callSites = 1 := by
    rw [transform_of_decode hdecode, hredirect]
    exact ⟨_, _, rfl, rfl, rfl⟩
  obtain ⟨bytes', report, htransform, hgrowth, hcalls⟩ := htransform
  obtain ⟨image, image', placed, -, -, hfootprint⟩ := (transform_footprint htransform).1
  exact ⟨bytes', report, image, image', placed, htransform, hgrowth, hcalls, hfootprint⟩

end Interposition
