import Interposition.Image.Code
import Mathlib.Data.Nat.Init
import Mathlib.Data.Nat.Basic
import Mathlib.Order.Basic
import Mathlib.Algebra.GroupWithZero.Nat

/-!
# Interposition.Proofs.Image.Offsets — what the table of offsets depends on

The offsets of a code sequence are a function of the widths of its instructions alone, so code
that changes without changing a width keeps its table. A search in the table only ever answers
with a position that holds the offset looked for.

`startOf` says without a table where an instruction starts. The table holds just these offsets,
in increasing order, so the search finds every instruction and nothing else:
`position?_eq_some_iff`.
-/

namespace Interposition

/-- Every instruction takes room. -/
theorem Instruction.width_pos (i : Instruction) : 0 < i.width := by
  unfold width
  omega

/-- Both forms of a call have one width. -/
@[simp] theorem Instruction.width_invoke (kind : CallKind) (index : UInt16) :
    (invoke kind index).width = 3 := by
  cases kind <;> rfl

namespace Code

/-! ## Laying out -/

/-- Laying out goes on from what is laid out already. -/
theorem layOut_fold (widths : List Nat) (starts : Array Nat) (offset : Nat) :
    widths.foldl (fun (starts, offset) width => (starts.push offset, offset + width))
        (starts, offset) =
      (starts ++ (layOut offset widths).1, offset + widths.sum) := by
  induction widths generalizing starts offset with
  | nil => simp [layOut]
  | cons width rest ih =>
    have hfirst : (layOut offset (width :: rest)).1 =
        #[offset] ++ (layOut (offset + width) rest).1 := by
      simp [layOut, ih #[offset] (offset + width)]
    rw [List.foldl_cons, ih, hfirst, List.sum_cons]
    simp [Nat.add_assoc]

theorem layOut_cons (start width : Nat) (rest : List Nat) :
    (layOut start (width :: rest)).1 = #[start] ++ (layOut (start + width) rest).1 := by
  rw [layOut, List.foldl_cons, layOut_fold]
  rfl

theorem layOut_size (start : Nat) (widths : List Nat) :
    (layOut start widths).1.size = widths.length := by
  induction widths generalizing start with
  | nil => rfl
  | cons width rest ih =>
    rw [layOut_cons, Array.size_append, ih, List.length_cons, Nat.add_comm]
    rfl

/-- There is an offset for every position. -/
@[simp] theorem offsets_size (code : Array Instruction) : (offsets code).size = code.size := by
  simp [offsets, layOut_size]

/-- Code of the same widths has the same table. -/
theorem offsets_congr {code code' : Array Instruction}
    (h : code'.toList.map Instruction.width = code.toList.map Instruction.width) :
    offsets code' = offsets code := by
  simp only [offsets, h]

theorem byteLength_eq_sum (code : Array Instruction) :
    byteLength code = (code.toList.map Instruction.width).sum := by
  have h (is : List Instruction) (n : Nat) :
      is.foldl (fun length i => length + i.width) n = n + (is.map Instruction.width).sum := by
    induction is generalizing n with
    | nil => simp
    | cons i rest ih =>
      rw [List.foldl_cons, ih, List.map_cons, List.sum_cons, Nat.add_assoc]
  rw [byteLength, ← Array.foldl_toList, h, Nat.zero_add]

theorem byteLength_congr {code code' : Array Instruction}
    (h : code'.toList.map Instruction.width = code.toList.map Instruction.width) :
    byteLength code' = byteLength code := by
  rw [byteLength_eq_sum, byteLength_eq_sum, h]

/-! ## Searching -/

theorem getElem?_of_search {starts : Array Nat} {target low high position : Nat}
    (h : search starts target low high = some position) : starts[position]? = some target := by
  fun_induction search starts target low high <;> simp_all

/-- A position found holds the offset looked for. -/
theorem getElem?_of_position? {starts : Array Nat} {target position : Nat}
    (h : position? starts target = some position) : starts[position]? = some target :=
  getElem?_of_search h

/-- A position found is one of the table. -/
theorem lt_of_position? {starts : Array Nat} {target position : Nat}
    (h : position? starts target = some position) : position < starts.size := by
  have hfound := getElem?_of_position? h
  exact (Array.getElem?_eq_some_iff.1 hfound).1

/-! ## Where instructions start -/

/-- The byte offset of the instruction at a position: the bytes of all instructions before it. -/
def startOf (code : Array Instruction) (position : Nat) : Nat :=
  ((code.toList.take position).map Instruction.width).sum

theorem startOf_succ {code : Array Instruction} {position : Nat} (h : position < code.size) :
    startOf code (position + 1) = startOf code position + code[position].width := by
  have hlength : position < code.toList.length := h
  rw [startOf, startOf, List.take_succ_eq_append_getElem hlength]
  simp

/-- An instruction starts before those after it. -/
theorem startOf_lt {code : Array Instruction} {p q : Nat} (hpq : p < q) (hq : q ≤ code.size) :
    startOf code p < startOf code q := by
  induction q, hpq using Nat.le_induction with
  | base =>
    rw [startOf_succ hq]
    exact Nat.lt_add_of_pos_right (Instruction.width_pos _)
  | succ q hpq ih =>
    rw [startOf_succ hq]
    exact Nat.lt_of_lt_of_le (ih (Nat.le_of_succ_le hq)) (Nat.le_add_right _ _)

theorem startOf_lt_iff {code : Array Instruction} {p q : Nat} (hp : p ≤ code.size)
    (hq : q ≤ code.size) : startOf code p < startOf code q ↔ p < q := by
  constructor
  · intro hlt
    by_contra hnot
    rcases Nat.lt_or_eq_of_le (Nat.not_lt.1 hnot) with h | rfl
    · exact Nat.lt_asymm hlt (startOf_lt h hp)
    · exact Nat.lt_irrefl _ hlt
  · intro hlt
    exact startOf_lt hlt hq

/-- The place after the last instruction is the end of the bytes. -/
theorem startOf_size (code : Array Instruction) : startOf code code.size = byteLength code := by
  rw [startOf, byteLength_eq_sum, ← Array.length_toList, List.take_length]

theorem layOut_getElem? (start : Nat) (widths : List Nat) (position : Nat) :
    (layOut start widths).1[position]? =
      if position < widths.length then some (start + (widths.take position).sum) else none := by
  induction widths generalizing start position with
  | nil => simp [layOut]
  | cons width rest ih =>
    rw [layOut_cons]
    cases position with
    | zero => simp [Array.getElem?_append_left]
    | succ position =>
      have hlater : (#[start] ++ (layOut (start + width) rest).1)[position + 1]? =
          (layOut (start + width) rest).1[position]? := by
        rw [Array.getElem?_append_right (by simp)]
        simp
      rw [hlater, ih, List.take_succ_cons, List.sum_cons, Nat.add_assoc]
      simp

/-- The table holds where each instruction starts. -/
theorem offsets_getElem? (code : Array Instruction) (position : Nat) :
    (offsets code)[position]? = if position < code.size then some (startOf code position)
      else none := by
  rw [offsets, layOut_getElem?, startOf, List.map_take]
  simp

/-- The search finds what is there if the table increases. -/
theorem search_eq_some {starts : Array Nat} {target low high position : Nat}
    (hincreasing : ∀ p q a b : Nat, p < q → starts[p]? = some a → starts[q]? = some b → a < b)
    (hhigh : high ≤ starts.size) (hposition : starts[position]? = some target)
    (hlow : low ≤ position) (hlt : position < high) :
    search starts target low high = some position := by
  fun_induction search starts target low high with
  | case1 low high hrange middle hnone =>
    -- The middle of a range lies in the table.
    rw [Array.getElem?_eq_none_iff] at hnone
    omega
  | case2 low high hrange middle hfound =>
    have hsame : middle = position := by
      rcases Nat.lt_trichotomy middle position with h | h | h
      · exact absurd (hincreasing _ _ _ _ h hfound hposition) (lt_irrefl _)
      · exact h
      · exact absurd (hincreasing _ _ _ _ h hposition hfound) (lt_irrefl _)
    rw [hsame]
  | case3 low high hrange middle start hfound hne hless ih =>
    apply ih hhigh _ hlt
    by_contra hbefore
    have hle : position ≤ middle := by omega
    rcases Nat.lt_or_eq_of_le hle with h | h
    · exact absurd (hincreasing _ _ _ _ h hposition hfound) (by omega)
    · rw [h, hfound] at hposition
      exact hne (Option.some.inj hposition)
  | case4 low high hrange middle start hfound hne hmore ih =>
    apply ih (by omega) hlow
    by_contra hafter
    have hle : middle ≤ position := by omega
    rcases Nat.lt_or_eq_of_le hle with h | h
    · exact absurd (hincreasing _ _ _ _ h hfound hposition) (by omega)
    · rw [← h, hfound] at hposition
      exact hne (Option.some.inj hposition)
  | case5 low high hempty => omega

/-- A position is found exactly for the offset its instruction starts at. -/
theorem position?_eq_some_iff {code : Array Instruction} {target position : Nat} :
    position? (offsets code) target = some position ↔
      position < code.size ∧ startOf code position = target := by
  constructor
  · intro h
    have hfound := getElem?_of_position? h
    rw [offsets_getElem?] at hfound
    split at hfound
    case isTrue hlt => exact ⟨hlt, Option.some.inj hfound⟩
    case isFalse => cases hfound
  · rintro ⟨hlt, hstart⟩
    have hincreasing (p q a b : Nat) (hpq : p < q) (ha : (offsets code)[p]? = some a)
        (hb : (offsets code)[q]? = some b) : a < b := by
      have hq : q < code.size := by
        have := (Array.getElem?_eq_some_iff.1 hb).1
        rwa [offsets_size] at this
      rw [offsets_getElem?, if_pos (hpq.trans hq)] at ha
      rw [offsets_getElem?, if_pos hq] at hb
      rw [← Option.some.inj ha, ← Option.some.inj hb]
      exact startOf_lt hpq (Nat.le_of_lt hq)
    have hposition : (offsets code)[position]? = some target := by
      rw [offsets_getElem?, if_pos hlt, hstart]
    exact search_eq_some hincreasing le_rfl hposition (Nat.zero_le _) (by simpa using hlt)

end Code

end Interposition
