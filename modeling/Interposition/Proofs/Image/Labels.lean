import Interposition.Proofs.Image.Codec
import Interposition.Proofs.Image.Drafting
import Interposition.Proofs.Image.Offsets
import Mathlib.Algebra.Order.BigOperators.Group.List
import Mathlib.Algebra.Order.Group.Nat

/-!
# Interposition.Proofs.Image.Labels — where labels come to stand

A label of a draft is bound to the number of items emitted so far, which may be again and again,
and jumps to it may come before and after. What counts is the last time (`BoundAt`,
`MethodDraft.labels_after`). When the method is finished that number becomes a byte offset, in a
table laid out from the widths of the items (`MethodDraft.offsets_getElem?`). An item has the width
of the instruction it becomes, so the offset is that of the bytes of the code before that place
(`Marks`).

The main statement, `ModuleDraft.finish_resolves`, says this of every jump and every handler of a
method that is finished, and that a label that was never bound is a fault.
-/

namespace Interposition

namespace MethodDraft

variable {ops : List Operation} {label position : Nat}

/-! ## Binding -/

/-- A label is bound at some time after it was made. -/
def Binds (ops : List Operation) (label : Nat) : Prop :=
  ∃ before after, ops = before ++ .bind label :: after ∧
    label < before.countP Operation.makesLabel

/-- When a label is bound for the last time, it was made before, and so many instructions have
been emitted. -/
def BoundAt (ops : List Operation) (label position : Nat) : Prop :=
  ∃ before after, ops = before ++ .bind label :: after ∧ .bind label ∉ after ∧
    label < before.countP Operation.makesLabel ∧ before.countP Operation.emits = position

/-- Labels stay, so a label that was bound is there the last time that it is. -/
theorem binds_iff : Binds ops label ↔ ∃ position, BoundAt ops label position := by
  constructor
  · rintro ⟨before, after, hops, hmade⟩
    induction hlength : after.length using Nat.strong_induction_on generalizing before after with
    | _ length ih =>
      by_cases hagain : .bind label ∈ after
      · rcases List.append_of_mem hagain with ⟨between, later, rfl⟩
        refine ih later.length ?_ (before ++ .bind label :: between) later ?_ ?_ rfl
        · simp only [List.length_append, List.length_cons] at hlength
          omega
        · simp [hops]
        · rw [List.countP_append]
          omega
      · exact ⟨_, before, after, hops, hagain, hmade, rfl⟩
  · rintro ⟨position, before, after, hops, -, hmade, -⟩
    exact ⟨before, after, hops, hmade⟩

/-- What is done next makes no difference to a label, unless it binds it. -/
theorem boundAt_concat_of_ne {op : Operation} (h : op ≠ .bind label) :
    BoundAt (ops ++ [op]) label position ↔ BoundAt ops label position := by
  constructor
  · rintro ⟨before, after, hops, hlast, hmade, hposition⟩
    rcases List.eq_nil_or_concat after with rfl | ⟨after, last, rfl⟩
    · rcases List.append_inj' hops rfl with ⟨-, hsame⟩
      exact absurd (List.cons.inj hsame).1 h
    · have hcons : before ++ .bind label :: after.concat last =
          (before ++ .bind label :: after) ++ [last] := by simp
      rcases List.append_inj' (hops.trans hcons) rfl with ⟨rfl, -⟩
      refine ⟨before, after, rfl, ?_, hmade, hposition⟩
      intro hmem
      exact hlast (by simp [hmem])
  · rintro ⟨before, after, rfl, hlast, hmade, hposition⟩
    refine ⟨before, after ++ [op], by simp, ?_, hmade, hposition⟩
    simpa [hlast] using h.symm

/-- A label that is bound next is bound there, if it was made. -/
theorem boundAt_concat_bind :
    BoundAt (ops ++ [.bind label]) label position ↔
      label < ops.countP Operation.makesLabel ∧ ops.countP Operation.emits = position := by
  constructor
  · rintro ⟨before, after, hops, hlast, hmade, hposition⟩
    rcases List.eq_nil_or_concat after with rfl | ⟨after, last, rfl⟩
    · rcases List.append_inj' hops rfl with ⟨rfl, -⟩
      exact ⟨hmade, hposition⟩
    · have hcons : before ++ .bind label :: after.concat last =
          (before ++ .bind label :: after) ++ [last] := by simp
      rcases List.append_inj' (hops.trans hcons) rfl with ⟨-, hsame⟩
      obtain rfl := (List.cons.inj hsame).1
      exact absurd (by simp) hlast
  · rintro ⟨hmade, hposition⟩
    exact ⟨ops, [], rfl, by simp, hmade, hposition⟩

/-! ## A draft after its operations -/

/-- Nothing has been done with a draft. -/
structure Fresh (d : MethodDraft) : Prop where
  items : d.items = #[]
  labels : d.labels = #[]
  handlers : d.handlers = #[]

theorem fresh_method (d : ModuleDraft) (name descriptor : String) (flags : UInt16) :
    (d.method name descriptor flags).Fresh :=
  ⟨rfl, rfl, rfl⟩

variable {d : MethodDraft}

/-- The items are those of the operations that emit one, in order. -/
theorem items_after (hd : d.Fresh) (ops : List Operation) :
    List.Forall₂ (fun op item => ∃ e : MethodDraft, Operation.item? e op = some item)
      (ops.filter Operation.emits) (d.after ops).items.toList := by
  induction ops using List.reverseRecOn with
  | nil => simp [after, hd.items]
  | append_singleton ops op ih =>
    rw [after_concat]
    exact forall₂_perform_items ih fun item hitem => ⟨_, hitem⟩

theorem items_size_after (hd : d.Fresh) (ops : List Operation) :
    (d.after ops).items.size = ops.countP Operation.emits := by
  rw [← Array.length_toList, ← (items_after hd ops).length_eq, List.countP_eq_length_filter]

theorem handlers_after (hd : d.Fresh) (ops : List Operation) :
    (d.after ops).handlers.toList = ops.filterMap Operation.handler? := by
  induction ops using List.reverseRecOn with
  | nil => simp [after, hd.handlers]
  | append_singleton ops op ih =>
    rw [after_concat, perform_handlers, ih, List.filterMap_append]
    cases hhandler : op.handler? <;> simp [hhandler]

theorem labels_size_after (hd : d.Fresh) (ops : List Operation) :
    (d.after ops).labels.size = ops.countP Operation.makesLabel := by
  induction ops using List.reverseRecOn with
  | nil => simp [after, hd.labels]
  | append_singleton ops op ih =>
    rw [after_concat, perform_labels, List.countP_append, ← ih]
    cases op <;> simp [Operation.makesLabel]

/-- A label stands for the place where it was bound last. -/
theorem labels_after (hd : d.Fresh) (ops : List Operation) (label position : Nat) :
    (d.after ops).labels[label]?.join = some position ↔ BoundAt ops label position := by
  induction ops using List.reverseRecOn with
  | nil => simp [after, hd.labels, BoundAt]
  | append_singleton ops op ih =>
    rw [after_concat, perform_labels]
    cases op with
    | newLabel =>
      rw [boundAt_concat_of_ne (by simp), ← ih, Array.getElem?_push]
      split
      case isTrue hnew => simp [hnew]
      case isFalse => rfl
    | bind other =>
      dsimp only
      rw [Array.getElem?_setIfInBounds]
      by_cases hsame : other = label
      · subst hsame
        rw [boundAt_concat_bind, if_pos rfl, labels_size_after hd, items_size_after hd]
        split
        case isTrue hmade => simp [hmade]
        case isFalse hmade => simp [hmade]
      · rw [if_neg hsame, boundAt_concat_of_ne (by simpa using hsame), ih]
    | _ =>
      rw [boundAt_concat_of_ne (by simp)]
      exact ih

/-! ## Laying out items -/

/-- The table has the bytes of the items before each of them, and before the end. -/
theorem offsets_getElem? (d : MethodDraft) {position : Nat} (h : position ≤ d.items.size) :
    d.offsets[position]? = some ((d.items.toList.take position).map Item.width).sum := by
  have hlayout := Code.layOut_fold (d.items.toList.map Item.width) #[] 0
  rw [← Code.layOut] at hlayout
  have hend : (Code.layOut 0 (d.items.toList.map Item.width)).2 =
      (d.items.toList.map Item.width).sum := by
    rw [hlayout]
    exact Nat.zero_add _
  have hsize : (Code.layOut 0 (d.items.toList.map Item.width)).1.size = d.items.size := by
    rw [Code.layOut_size]
    simp
  rw [offsets, Array.getElem?_push, hsize, hend, Code.layOut_getElem?]
  split
  case isTrue hlast => rw [List.take_of_length_le (by simp [hlast])]
  case isFalse hbefore =>
    rw [if_pos (by simp; omega), Nat.zero_add, List.map_take]

/-- An item becomes an instruction of its width. -/
theorem width_of_resolveItem {starts : Array Nat} {item : Item} {i : Instruction}
    (h : d.resolveItem starts item = .ok i) : i.width = item.width := by
  cases item with
  | plain j =>
    rcases Except.ok.inj h with rfl
    rfl
  | jump label | jumpIfFalse label =>
    rcases map_eq_ok_iff.1 h with ⟨target, -, rfl⟩
    rfl

theorem resolve_eq_ok_iff {starts : Array Nat} {target : UInt32} :
    d.resolve starts label = .ok target ↔
      ∃ position, d.labels[label]?.join = some position ∧
        target = (starts[position]?.getD 0).toUInt32 := by
  unfold resolve
  split
  case h_1 position hposition => simp [hposition, eq_comm]
  case h_2 hnone => simp [hnone]

theorem resolve_eq_error_iff {starts : Array Nat} {error : AssemblyError} :
    d.resolve starts label = .error error ↔
      d.labels[label]?.join = none ∧ error = .unboundLabel d.label label := by
  unfold resolve
  split
  case h_1 position hposition => simp [hposition]
  case h_2 hnone => simp [hnone, eq_comm]

/-- An item that cannot be resolved is a jump. -/
theorem resolveItem_eq_error {starts : Array Nat} {item : Item} {error : AssemblyError}
    (h : d.resolveItem starts item = .error error) :
    ∃ label, (item = .jump label ∨ item = .jumpIfFalse label) ∧
      d.resolve starts label = .error error := by
  cases item with
  | plain i => cases h
  | jump label | jumpIfFalse label =>
    refine ⟨label, by simp, ?_⟩
    dsimp only [resolveItem] at h
    cases hresolve : d.resolve starts label with
    | error e =>
      rw [hresolve] at h
      rw [Except.error.inj h]
    | ok target =>
      rw [hresolve] at h
      cases h

/-! ## Assembling -/

/-- A method is assembled item by item and handler by handler. -/
theorem assemble_eq_ok {m : Method} (h : d.assemble = .ok m) :
    List.Forall₂ (fun item i => d.resolveItem d.offsets item = .ok i) d.items.toList
        m.code.toList ∧
      List.Forall₂ (fun labels handler => d.resolveHandler d.offsets labels = .ok handler)
        d.handlers.toList m.handlers ∧
      m.flags = d.flags ∧ m.name = d.name ∧ m.descriptor = d.descriptor := by
  rcases bind_eq_ok_iff.1 h with ⟨code, hcode, h⟩
  rcases bind_eq_ok_iff.1 h with ⟨handlers, hhandlers, h⟩
  obtain rfl := Except.ok.inj h
  refine ⟨mapM_eq_ok_iff.1 ?_, mapM_eq_ok_iff.1 hhandlers, rfl, rfl, rfl⟩
  rw [← Array.toList_mapM, hcode]
  rfl

/-- The code of a method has the widths of its items. -/
theorem widths_of_assemble {m : Method} (h : d.assemble = .ok m) :
    m.code.toList.map Instruction.width = d.items.toList.map Item.width := by
  have hsame {items : List Item} {is : List Instruction}
      (h : List.Forall₂ (fun item i => d.resolveItem d.offsets item = .ok i) items is) :
      is.map Instruction.width = items.map Item.width := by
    induction h with
    | nil => rfl
    | cons hfirst _ ih => rw [List.map_cons, List.map_cons, ih, width_of_resolveItem hfirst]
  exact hsame (assemble_eq_ok h).1

/-- A handler has the places of its three labels. -/
theorem resolveHandler_eq_ok {starts : Array Nat} {labels : HandlerLabels} {handler : Handler}
    (h : d.resolveHandler starts labels = .ok handler) :
    d.resolve starts labels.start = .ok handler.start ∧
      d.resolve starts labels.stop = .ok handler.stop ∧
      d.resolve starts labels.target = .ok handler.target := by
  rcases bind_eq_ok_iff.1 h with ⟨start, hstart, h⟩
  rcases bind_eq_ok_iff.1 h with ⟨stop, hstop, h⟩
  rcases bind_eq_ok_iff.1 h with ⟨target, htarget, h⟩
  obtain rfl := Except.ok.inj h
  exact ⟨hstart, hstop, htarget⟩

theorem resolveHandler_eq_error {starts : Array Nat} {labels : HandlerLabels}
    {error : AssemblyError} (h : d.resolveHandler starts labels = .error error) :
    ∃ label, (labels.start = label ∨ labels.stop = label ∨ labels.target = label) ∧
      d.resolve starts label = .error error := by
  unfold resolveHandler at h
  cases hstart : d.resolve starts labels.start with
  | error e =>
    rw [hstart] at h
    obtain rfl : e = error := Except.error.inj h
    exact ⟨_, Or.inl rfl, hstart⟩
  | ok start =>
    cases hstop : d.resolve starts labels.stop with
    | error e =>
      rw [hstart, hstop] at h
      obtain rfl : e = error := Except.error.inj h
      exact ⟨_, Or.inr (Or.inl rfl), hstop⟩
    | ok stop =>
      cases htarget : d.resolve starts labels.target with
      | error e =>
        rw [hstart, hstop, htarget] at h
        obtain rfl : e = error := Except.error.inj h
        exact ⟨_, Or.inr (Or.inr rfl), htarget⟩
      | ok target =>
        rw [hstart, hstop, htarget] at h
        cases h

/-! ## Places -/

/-- An offset is that of the place where a label is bound last: the bytes of the instructions
emitted before. It is where the next instruction of the code starts, or the end of the code if
there is no other. -/
def Marks (ops : List Operation) (code : Array Instruction) (label : Nat) (target : UInt32) :
    Prop :=
  ∃ position, BoundAt ops label position ∧ position ≤ code.size ∧
    target.toNat = ((code.toList.take position).flatMap Instruction.encode).length ∧
    if position < code.size then (Code.offsets code)[position]? = some target.toNat
    else target.toNat = Code.byteLength code

/-- A label that resolves does so to the place where it is bound last. -/
theorem marks_of_resolve (hd : d.Fresh) {m : Method} {target : UInt32}
    (hassemble : (d.after ops).assemble = .ok m)
    (hlength : Code.byteLength m.code < 4294967296)
    (h : (d.after ops).resolve (d.after ops).offsets label = .ok target) :
    Marks ops m.code label target := by
  rcases resolve_eq_ok_iff.1 h with ⟨position, hlabel, rfl⟩
  have hbound := (labels_after hd ops label position).1 hlabel
  have hwidths := widths_of_assemble hassemble
  have hsize : m.code.size = (d.after ops).items.size := by
    simpa using congrArg List.length hwidths
  have hposition : position ≤ m.code.size := by
    rcases hbound with ⟨before, after, rfl, -, -, rfl⟩
    rw [hsize, items_size_after hd, List.countP_append]
    omega
  have hstart : Code.startOf m.code position =
      ((d.after ops).items.toList.take position |>.map Item.width).sum := by
    rw [Code.startOf, List.map_take, hwidths, List.map_take]
  -- The bytes before a place are some of the bytes of the code, so their number fits.
  have hle : Code.startOf m.code position ≤ Code.byteLength m.code := by
    rw [Code.startOf, Code.byteLength_eq_sum, List.map_take]
    exact (List.take_sublist _ _).sum_le_sum (by simp)
  have htarget : (((d.after ops).offsets[position]?.getD 0).toUInt32).toNat =
      Code.startOf m.code position := by
    rw [offsets_getElem? _ (hsize ▸ hposition), Option.getD_some, ← hstart,
      toNat_toUInt32 (by omega)]
  refine ⟨position, hbound, hposition, ?_, ?_⟩
  · rw [htarget, Code.startOf, List.length_flatMap]
    simp [Instruction.encode_length]
  · rw [htarget]
    split
    case isTrue hlt => rw [Code.offsets_getElem?, if_pos hlt]
    case isFalse hend =>
      have hall : m.code.toList.length ≤ position := Nat.not_lt.1 hend
      rw [Code.startOf, Code.byteLength_eq_sum, List.take_of_length_le hall]

/-! ## Using labels -/

/-- A label is used by a jump or by a handler. -/
def Uses (ops : List Operation) (label : Nat) : Prop :=
  .jump label ∈ ops ∨ .jumpIfFalse label ∈ ops ∨
    ∃ labels, .handler labels ∈ ops ∧
      (labels.start = label ∨ labels.stop = label ∨ labels.target = label)

/-- An operation that jumps has become a jump to the place where its label is bound last. -/
def Carries (ops : List Operation) (code : Array Instruction) : Operation → Instruction → Prop
  | .jump label, i => ∃ target, i = .jump target ∧ Marks ops code label target
  | .jumpIfFalse label, i => ∃ target, i = .jumpIfFalse target ∧ Marks ops code label target
  | _, _ => True

/-- A handler has become one between the places where its labels are bound last. -/
structure Guards (ops : List Operation) (code : Array Instruction) (labels : HandlerLabels)
    (handler : Handler) : Prop where
  start : Marks ops code labels.start handler.start
  stop : Marks ops code labels.stop handler.stop
  target : Marks ops code labels.target handler.target

/-- The instructions of an assembled method are those that its operations emit, resolved. -/
theorem code_of_assemble (hd : d.Fresh) {m : Method} (h : (d.after ops).assemble = .ok m) :
    List.Forall₂ (fun op i => ∃ item, (∃ e : MethodDraft, Operation.item? e op = some item) ∧
      (d.after ops).resolveItem (d.after ops).offsets item = .ok i)
      (ops.filter Operation.emits) m.code.toList :=
  forall₂_comp (items_after hd ops) (assemble_eq_ok h).1

/-- The jumps of an assembled method go where their labels are bound last. -/
theorem code_carries (hd : d.Fresh) {m : Method} (h : (d.after ops).assemble = .ok m)
    (hlength : Code.byteLength m.code < 4294967296) :
    List.Forall₂ (Carries ops m.code) (ops.filter Operation.emits) m.code.toList := by
  refine (code_of_assemble hd h).imp ?_
  rintro op i ⟨item, ⟨e, hitem⟩, hresolve⟩
  cases op with
  | jump label | jumpIfFalse label =>
    obtain rfl := Option.some.inj hitem
    rcases map_eq_ok_iff.1 hresolve with ⟨target, htarget, rfl⟩
    exact ⟨target, rfl, marks_of_resolve hd h hlength htarget⟩
  | _ => trivial

theorem handlers_guard (hd : d.Fresh) {m : Method} (h : (d.after ops).assemble = .ok m)
    (hlength : Code.byteLength m.code < 4294967296) :
    List.Forall₂ (Guards ops m.code) (ops.filterMap Operation.handler?) m.handlers := by
  have hresolved := (assemble_eq_ok h).2.1
  rw [handlers_after hd] at hresolved
  refine hresolved.imp ?_
  intro labels handler hhandler
  rcases resolveHandler_eq_ok hhandler with ⟨hstart, hstop, htarget⟩
  exact ⟨marks_of_resolve hd h hlength hstart, marks_of_resolve hd h hlength hstop,
    marks_of_resolve hd h hlength htarget⟩

/-- In a method that can be assembled every label used is bound. -/
theorem binds_of_assemble (hd : d.Fresh) {m : Method} (h : (d.after ops).assemble = .ok m)
    (huses : Uses ops label) : Binds ops label := by
  have hbinds {target : UInt32}
      (hresolve : (d.after ops).resolve (d.after ops).offsets label = .ok target) :
      Binds ops label := by
    rcases resolve_eq_ok_iff.1 hresolve with ⟨position, hlabel, -⟩
    exact binds_iff.2 ⟨position, (labels_after hd ops label position).1 hlabel⟩
  rcases huses with hjump | hjump | ⟨labels, hhandler, huse⟩
  case' inl | inr.inl =>
    have hemitted : _ ∈ ops.filter Operation.emits := List.mem_filter.2 ⟨hjump, rfl⟩
    rcases exists_right_of_forall₂ (code_of_assemble hd h) hemitted with
      ⟨i, -, item, ⟨e, hitem⟩, hresolve⟩
    obtain rfl := Option.some.inj hitem
    rcases map_eq_ok_iff.1 hresolve with ⟨target, htarget, -⟩
    exact hbinds htarget
  case inr.inr =>
    have hadded : labels ∈ (d.after ops).handlers.toList := by
      rw [handlers_after hd]
      exact List.mem_filterMap.2 ⟨_, hhandler, rfl⟩
    rcases exists_right_of_forall₂ (assemble_eq_ok h).2.1 hadded with ⟨handler, -, hresolve⟩
    rcases resolveHandler_eq_ok hresolve with ⟨hstart, hstop, htarget⟩
    rcases huse with rfl | rfl | rfl
    · exact hbinds hstart
    · exact hbinds hstop
    · exact hbinds htarget

/-- Assembling fails at an item or at a handler. -/
theorem assemble_eq_error {error : AssemblyError} (h : d.assemble = .error error) :
    (∃ item ∈ d.items.toList, d.resolveItem d.offsets item = .error error) ∨
      ∃ labels ∈ d.handlers.toList, d.resolveHandler d.offsets labels = .error error := by
  unfold assemble at h
  simp only at h
  cases hcode : d.items.mapM (d.resolveItem d.offsets) with
  | error e =>
    rw [hcode] at h
    obtain rfl : e = error := Except.error.inj h
    refine Or.inl (exists_of_mapM_eq_error ?_)
    rw [← Array.toList_mapM, hcode]
    rfl
  | ok code =>
    rw [hcode] at h
    cases hhandlers : d.handlers.toList.mapM (d.resolveHandler d.offsets) with
    | error e =>
      rw [hhandlers] at h
      obtain rfl : e = error := Except.error.inj h
      exact Or.inr (exists_of_mapM_eq_error hhandlers)
    | ok handlers =>
      rw [hhandlers] at h
      cases h

/-- A method that cannot be assembled uses a label that is not bound. -/
theorem unbound_of_assemble (hd : d.Fresh) {error : AssemblyError}
    (h : (d.after ops).assemble = .error error) :
    ∃ label, Uses ops label ∧ ¬Binds ops label ∧ error = .unboundLabel d.label label := by
  have hunbound {label : Nat} (huses : Uses ops label)
      (hresolve : (d.after ops).resolve (d.after ops).offsets label = .error error) :
      ∃ label, Uses ops label ∧ ¬Binds ops label ∧ error = .unboundLabel d.label label := by
    rcases resolve_eq_error_iff.1 hresolve with ⟨hnone, rfl⟩
    refine ⟨label, huses, ?_, by rw [(d.after_header ops).label]⟩
    intro hbinds
    rcases binds_iff.1 hbinds with ⟨position, hbound⟩
    rw [(labels_after hd ops label position).2 hbound] at hnone
    cases hnone
  rcases assemble_eq_error h with ⟨item, hitem, hfails⟩ | ⟨labels, hlabels, hfails⟩
  · rcases exists_left_of_forall₂ (items_after hd ops) hitem with ⟨op, hop, e, hemitted⟩
    have hdone := List.mem_of_mem_filter hop
    rcases resolveItem_eq_error hfails with ⟨label, rfl | rfl, hresolve⟩
    · obtain rfl := Operation.eq_jump_of_item? hemitted
      exact hunbound (Or.inl hdone) hresolve
    · obtain rfl := Operation.eq_jumpIfFalse_of_item? hemitted
      exact hunbound (Or.inr (Or.inl hdone)) hresolve
  · rw [handlers_after hd] at hlabels
    rcases List.mem_filterMap.1 hlabels with ⟨op, hop, hhandler⟩
    obtain rfl := Operation.eq_handler_of_handler? hhandler
    rcases resolveHandler_eq_error hfails with ⟨label, huse, hresolve⟩
    exact hunbound (Or.inr (Or.inr ⟨labels, hop, huse⟩)) hresolve

/-- The jumps and the handlers of a method are where the labels say. -/
structure Resolved (ops : List Operation) (m : Method) : Prop where
  jumps : List.Forall₂ (Carries ops m.code) (ops.filter Operation.emits) m.code.toList
  handlers : List.Forall₂ (Guards ops m.code) (ops.filterMap Operation.handler?) m.handlers

end MethodDraft

namespace ModuleDraft

open MethodDraft

/-! ## A finished method -/

/-- A method is finished after any operations, and anything is done after that. If the module is
built, then the method is there, and each of its jumps and handlers goes where its labels were
bound last, as long as the bytes of the code can be counted. If a label that a jump or a handler
uses was never bound, then nothing is built: the fault is that of such a label, unless there was
one before. -/
theorem finish_resolves (d : ModuleDraft) (s : MethodScript) (more : List Operation)
    (later : List MethodScript) :
    let m := d.start s
    let built := ((m.finish.after more).module.after later).build
    (∀ image, built = .ok image →
      ∃ method, image.methods[m.module.methods.size]? = some method ∧
        (Code.byteLength method.code < 4294967296 → Resolved s.operations method)) ∧
    ∀ label, Uses s.operations label → ¬Binds s.operations label →
      ∃ error, built = .error error ∧
        (∀ earlier, m.module.fault = some earlier → error = earlier) ∧
        (m.module.fault = none →
          ∃ unbound, Uses s.operations unbound ∧ ¬Binds s.operations unbound ∧
            error = .unboundLabel (s.name ++ s.descriptor) unbound) := by
  intro m built
  have hfresh := fresh_method d s.name s.descriptor s.flags
  have hextends : ((m.finish.after more).module.after later).Extends m.finish.module :=
    (after_extends _ later).trans (m.finish.after_extends more)
  constructor
  · intro image hbuilt
    rcases build_eq_ok_iff.1 hbuilt with ⟨hnone, rfl⟩
    cases hassemble : m.assemble with
    | error error =>
      have hfault := hextends.fault_eq_none hnone
      rw [finish_of_error hassemble, fault_fail] at hfault
      cases hfault
    | ok method =>
      refine ⟨method, ?_, fun hlength => ⟨code_carries hfresh hassemble hlength,
        handlers_guard hfresh hassemble hlength⟩⟩
      rcases hextends.methods with ⟨others, hmethods⟩
      rw [finish_of_ok hassemble] at hmethods
      rw [← Array.getElem?_toList, ← hmethods]
      simp
  · intro label huses hunbound
    cases hassemble : m.assemble with
    | ok method => exact absurd (binds_of_assemble hfresh hassemble huses) hunbound
    | error error =>
      have hfault : m.finish.module.fault = some (m.module.fault.getD error) := by
        rw [finish_of_error hassemble, fault_fail]
      refine ⟨_, build_eq_error_iff.2 (hextends.fault _ hfault), ?_, ?_⟩
      · intro earlier hearlier
        rw [hearlier, Option.getD_some]
      · intro hnone
        rw [hnone, Option.getD_none]
        exact unbound_of_assemble hfresh hassemble

/-- A loop back to a label that was bound again, out of it to the end of the code. -/
def looping : MethodScript where
  name := "f"
  descriptor := "(Z)V"
  flags := Method.staticFlag
  operations := [.newLabel, .newLabel, .bind 0, .plain ⟨.load 0, by decide⟩, .jumpIfFalse 1,
    .bind 0, .int 5, .plain ⟨.pop, by decide⟩, .jump 0, .bind 1, .handler ⟨0, 1, 1⟩]

/-- A jump to a label that is nowhere. -/
def astray : MethodScript where
  name := "f"
  descriptor := "()V"
  flags := Method.staticFlag
  operations := [.newLabel, .jump 0]

/-- The loop as it is built. -/
def looped : Method where
  flags := Method.staticFlag
  name := 1
  descriptor := 2
  maxLocals := 1
  code := #[.load 0, .jumpIfFalse 17, .const 3, .pop, .jump 8]
  handlers := [⟨8, 17, 17⟩]

theorem finish_resolves_looping :
    (((named "m").start looping).finish.module.build =
        .ok ⟨1, 0, ⟨#[.utf8 "m", .utf8 "f", .utf8 "(Z)V", .int 5]⟩, 0, #[looped]⟩ ∧
      Resolved looping.operations looped) ∧
    (Uses astray.operations 0 ∧ ¬Binds astray.operations 0 ∧
      ((named "m").start astray).finish.module.build = .error (.unboundLabel "f()V" 0)) := by
  constructor
  · have hbuilt : ((named "m").start looping).finish.module.build =
        .ok ⟨1, 0, ⟨#[.utf8 "m", .utf8 "f", .utf8 "(Z)V", .int 5]⟩, 0, #[looped]⟩ := by
      decide +kernel
    refine ⟨hbuilt, ?_⟩
    have hfirst : ((named "m").start looping).module.methods.size = 0 := by decide +kernel
    rcases (finish_resolves (named "m") looping [] []).1 _ hbuilt with ⟨method, hmethod, hresolved⟩
    rw [hfirst] at hmethod
    obtain rfl : looped = method := Option.some.inj hmethod
    exact hresolved (by decide +kernel)
  · have huses : Uses astray.operations 0 := Or.inl (by simp [astray])
    have hunbound : ¬Binds astray.operations 0 := by
      rintro ⟨before, after, hops, -⟩
      have hmem : Operation.bind 0 ∈ astray.operations := by simp [hops]
      simp [astray] at hmem
    refine ⟨huses, hunbound, ?_⟩
    have hnone : ((named "m").start astray).module.fault = none := by decide +kernel
    rcases (finish_resolves (named "m") astray [] []).2 0 huses hunbound with
      ⟨error, hbuilt, -, hfirst⟩
    rcases hfirst hnone with ⟨unbound, hused, -, rfl⟩
    obtain rfl : unbound = 0 := by simpa [Uses, astray] using hused
    exact hbuilt

end ModuleDraft

end Interposition
