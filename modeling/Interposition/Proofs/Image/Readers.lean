import Interposition.Image.Decode
import Interposition.Proofs.Checks
import Mathlib.Algebra.Group.Nat.Defs

/-!
# Interposition.Proofs.Image.Readers — readers that read exactly what is written

A reader is `Exact` for a writer if it succeeds exactly on the inputs that start with something
the writer writes, and takes just that off the front. The property passes through sequences and
repetition, so the reader of a format is exact when its words are. One statement has both
directions of a round trip: what was written is read, and what is read was written.
-/

namespace Interposition

/-! ## Words -/

namespace Word

/-- Setting the low bits of a number that has none is adding them. -/
theorem mul_or {k n m : Nat} (i : Nat) (hm : m = 2 ^ i) (h : n < m) : k * m ||| n = k * m + n := by
  rw [hm] at h ⊢
  rw [← Nat.shiftLeft_eq, Nat.shiftLeft_add_eq_or_of_lt h]

theorem toNat_ofBytes16 (a b : UInt8) : (ofBytes16 a b).toNat = a.toNat * 256 + b.toNat := by
  have ha := a.toNat_lt
  have hb := b.toNat_lt
  have hsmall : a.toNat * 256 % 65536 = a.toNat * 256 := by omega
  have hor : a.toNat * 256 ||| b.toNat = a.toNat * 256 + b.toNat := mul_or 8 rfl hb
  simpa [ofBytes16, Nat.shiftLeft_eq, hsmall] using hor

theorem toNat_ofBytes32 (a b c d : UInt8) :
    (ofBytes32 a b c d).toNat =
      ((a.toNat * 256 + b.toNat) * 256 + c.toNat) * 256 + d.toNat := by
  have ha := a.toNat_lt
  have hb := b.toNat_lt
  have hc := c.toNat_lt
  have hd := d.toNat_lt
  have ha' : a.toNat * 16777216 % 4294967296 = a.toNat * 16777216 := Nat.mod_eq_of_lt (by omega)
  have hb' : b.toNat * 65536 % 4294967296 = b.toNat * 65536 := Nat.mod_eq_of_lt (by omega)
  have hc' : c.toNat * 256 % 4294967296 = c.toNat * 256 := Nat.mod_eq_of_lt (by omega)
  have hbytes : (ofBytes32 a b c d).toNat =
      a.toNat * 16777216 ||| b.toNat * 65536 ||| c.toNat * 256 ||| d.toNat := by
    simp [ofBytes32, Nat.shiftLeft_eq, ha', hb', hc']
  -- Each byte fills bits that those before it leave free.
  have hab : a.toNat * 16777216 ||| b.toNat * 65536 = (a.toNat * 256 + b.toNat) * 65536 := by
    rw [mul_or (m := 16777216) 24 rfl (by omega)]
    omega
  have habc : (a.toNat * 256 + b.toNat) * 65536 ||| c.toNat * 256 =
      ((a.toNat * 256 + b.toNat) * 256 + c.toNat) * 256 := by
    rw [mul_or (m := 65536) 16 rfl (by omega)]
    omega
  rw [hbytes, hab, habc, mul_or (m := 256) 8 rfl hd]

theorem toNat_ofHalves (upper lower : UInt32) :
    (ofHalves upper lower).toNat = upper.toNat * 4294967296 + lower.toNat := by
  have hupper := upper.toNat_lt
  have hlower := lower.toNat_lt
  have hsmall : upper.toNat * 4294967296 % 18446744073709551616 = upper.toNat * 4294967296 := by
    omega
  have hor : upper.toNat * 4294967296 ||| lower.toNat = upper.toNat * 4294967296 + lower.toNat :=
    mul_or 32 rfl hlower
  simpa [ofHalves, Nat.shiftLeft_eq, hsmall] using hor

theorem bytes16_ofBytes16 (a b : UInt8) : bytes16 (ofBytes16 a b) = [a, b] := by
  have h := toNat_ofBytes16 a b
  have ha := a.toNat_lt
  have hb := b.toNat_lt
  simp only [bytes16, List.cons.injEq, and_true, ← UInt8.toNat_inj]
  simp [h, Nat.shiftRight_eq_div_pow]
  omega

theorem ofBytes16_bytes16 (w : UInt16) : ofBytes16 (w >>> 8).toUInt8 w.toUInt8 = w := by
  have hw := w.toNat_lt
  rw [← UInt16.toNat_inj, toNat_ofBytes16]
  simp [Nat.shiftRight_eq_div_pow]
  omega

theorem bytes32_ofBytes32 (a b c d : UInt8) : bytes32 (ofBytes32 a b c d) = [a, b, c, d] := by
  have h := toNat_ofBytes32 a b c d
  have ha := a.toNat_lt
  have hb := b.toNat_lt
  have hc := c.toNat_lt
  have hd := d.toNat_lt
  simp only [bytes32, List.cons.injEq, and_true, ← UInt8.toNat_inj]
  simp [h, Nat.shiftRight_eq_div_pow]
  omega

theorem ofBytes32_bytes32 (w : UInt32) :
    ofBytes32 (w >>> 24).toUInt8 (w >>> 16).toUInt8 (w >>> 8).toUInt8 w.toUInt8 = w := by
  have hw := w.toNat_lt
  rw [← UInt32.toNat_inj, toNat_ofBytes32]
  simp [Nat.shiftRight_eq_div_pow]
  omega

theorem bytes64_ofHalves (upper lower : UInt32) :
    bytes64 (ofHalves upper lower) = bytes32 upper ++ bytes32 lower := by
  have h := toNat_ofHalves upper lower
  have hupper := upper.toNat_lt
  have hlower := lower.toNat_lt
  have hhigh : (ofHalves upper lower >>> 32).toUInt32 = upper := by
    rw [← UInt32.toNat_inj]
    simp [h, Nat.shiftRight_eq_div_pow]
    omega
  have hlow : (ofHalves upper lower).toUInt32 = lower := by
    rw [← UInt32.toNat_inj]
    simp [h]
  rw [bytes64, hhigh, hlow]

theorem ofHalves_halves (w : UInt64) : ofHalves (w >>> 32).toUInt32 w.toUInt32 = w := by
  have hw := w.toNat_lt
  rw [← UInt64.toNat_inj, toNat_ofHalves]
  simp [Nat.shiftRight_eq_div_pow]
  omega

end Word

/-! ## Cursors -/

namespace Cursor

/-- `c'` is where `c` is when some bytes have been taken. -/
def After (c : Cursor) (bytes : List UInt8) (c' : Cursor) : Prop :=
  c.rest = bytes ++ c'.rest ∧ c'.offset = c.offset + bytes.length

theorem after_nil {c c' : Cursor} : c.After [] c' ↔ c = c' := by
  rcases c with ⟨offset, rest⟩
  rcases c' with ⟨offset', rest'⟩
  simp [After, and_comm, eq_comm]

theorem after_append {c c' : Cursor} {first second : List UInt8} :
    c.After (first ++ second) c' ↔ ∃ mid, c.After first mid ∧ mid.After second c' := by
  constructor
  · rintro ⟨hrest, hoffset⟩
    refine ⟨⟨c.offset + first.length, second ++ c'.rest⟩, ⟨?_, rfl⟩, rfl, ?_⟩
    · rw [hrest, List.append_assoc]
    · rw [hoffset, List.length_append, Nat.add_assoc]
  · rintro ⟨mid, ⟨hrest, hoffset⟩, hrest', hoffset'⟩
    refine ⟨?_, ?_⟩
    · rw [hrest, hrest', List.append_assoc]
    · rw [hoffset', hoffset, List.length_append, Nat.add_assoc]

theorem after_cons {c c' : Cursor} {byte : UInt8} {bytes : List UInt8} :
    c.After (byte :: bytes) c' ↔ ∃ mid, c.After [byte] mid ∧ mid.After bytes c' := by
  rw [← List.singleton_append]
  exact after_append

end Cursor

/-! ## Readers -/

namespace Reader

variable {α β : Type}

/-- A reader that takes from the front of the input just what is written of a value that
fits. -/
def Exact (r : Reader α) (write : α → List UInt8) (fits : α → Prop) : Prop :=
  ∀ c c' a, r c = .ok (a, c') ↔ fits a ∧ c.After (write a) c'

theorem bind_eq_ok {x : Reader α} {next : α → Reader β} {c c' : Cursor} {b : β} :
    (x >>= next : Reader β) c = .ok (b, c') ↔
      ∃ a mid, x c = .ok (a, mid) ∧ next a mid = .ok (b, c') := by
  simp only [bind, StateT.bind]
  cases x c with
  | error e => simp [Except.bind]
  | ok found =>
    constructor
    · intro h
      exact ⟨found.1, found.2, rfl, h⟩
    · rintro ⟨a, mid, ⟨⟩, h⟩
      exact h

theorem bind_eq_of_ok {x : Reader α} {next : α → Reader β} {c mid : Cursor} {a : α}
    (h : x c = .ok (a, mid)) : (x >>= next : Reader β) c = next a mid := by
  simp only [bind, StateT.bind, h, Except.bind]

theorem bind_eq_error {x : Reader α} {next : α → Reader β} {c : Cursor} {e : DecodeError}
    (h : x c = .error e) : (x >>= next : Reader β) c = .error e := by
  simp only [bind, StateT.bind, h, Except.bind]

theorem pure_eq_ok {c c' : Cursor} {a b : α} :
    (pure a : Reader α) c = .ok (b, c') ↔ a = b ∧ c = c' := by
  change Except.ok (a, c) = Except.ok (b, c') ↔ _
  simp

theorem throw_ne_ok {e : DecodeError} {c c' : Cursor} {a : α} :
    (throw e : Reader α) c ≠ .ok (a, c') := by
  intro h
  cases h

theorem byte_eq_ok {c c' : Cursor} {b : UInt8} :
    byte c = .ok (b, c') ↔ c.After [b] c' := by
  rcases c with ⟨offset, rest⟩
  rcases c' with ⟨offset', rest'⟩
  cases rest with
  | nil => simp [byte, short, Cursor.After]
  | cons a rest => simp [byte, Cursor.After, and_assoc, and_comm, eq_comm]

theorem word16_eq_ok {c c' : Cursor} {w : UInt16} :
    word16 c = .ok (w, c') ↔ c.After (Word.bytes16 w) c' := by
  rcases c with ⟨offset, rest⟩
  rcases c' with ⟨offset', rest'⟩
  constructor
  · intro h
    unfold word16 at h
    split at h
    case h_1 a b rest hrest =>
      rcases Prod.mk.inj (Except.ok.inj h) with ⟨rfl, hc⟩
      rcases Cursor.mk.inj hc with ⟨rfl, rfl⟩
      rw [Word.bytes16_ofBytes16]
      exact ⟨hrest, rfl⟩
    case h_2 => cases h
  · rintro ⟨hrest, hoffset⟩
    simp only [Word.bytes16, List.cons_append, List.nil_append] at hrest
    subst hrest
    simp only [word16, Word.ofBytes16_bytes16]
    simpa [Word.bytes16] using hoffset.symm

theorem word32_eq_ok {c c' : Cursor} {w : UInt32} :
    word32 c = .ok (w, c') ↔ c.After (Word.bytes32 w) c' := by
  rcases c with ⟨offset, rest⟩
  rcases c' with ⟨offset', rest'⟩
  constructor
  · intro h
    unfold word32 at h
    split at h
    case h_1 a b d e rest hrest =>
      rcases Prod.mk.inj (Except.ok.inj h) with ⟨rfl, hc⟩
      rcases Cursor.mk.inj hc with ⟨rfl, rfl⟩
      rw [Word.bytes32_ofBytes32]
      exact ⟨hrest, rfl⟩
    case h_2 => cases h
  · rintro ⟨hrest, hoffset⟩
    simp only [Word.bytes32, List.cons_append, List.nil_append] at hrest
    subst hrest
    simp only [word32, Word.ofBytes32_bytes32]
    simpa [Word.bytes32] using hoffset.symm

theorem word64_eq_ok {c c' : Cursor} {w : UInt64} :
    word64 c = .ok (w, c') ↔ c.After (Word.bytes64 w) c' := by
  rcases c with ⟨offset, rest⟩
  rcases c' with ⟨offset', rest'⟩
  constructor
  · intro h
    unfold word64 at h
    split at h
    case h_1 a b d e a' b' d' e' rest hrest =>
      rcases Prod.mk.inj (Except.ok.inj h) with ⟨rfl, hc⟩
      rcases Cursor.mk.inj hc with ⟨rfl, rfl⟩
      rw [Word.bytes64_ofHalves, Word.bytes32_ofBytes32, Word.bytes32_ofBytes32]
      exact ⟨hrest, rfl⟩
    case h_2 => cases h
  · rintro ⟨hrest, hoffset⟩
    simp only [Word.bytes64, Word.bytes32, List.cons_append, List.nil_append] at hrest
    subst hrest
    simp only [word64, Word.ofBytes32_bytes32, Word.ofHalves_halves]
    simpa [Word.bytes64, Word.bytes32] using hoffset.symm

theorem take_eq_ok {size : Nat} {c c' : Cursor} {bytes : List UInt8} :
    take size c = .ok (bytes, c') ↔ bytes.length = size ∧ c.After bytes c' := by
  rcases c with ⟨offset, rest⟩
  rcases c' with ⟨offset', rest'⟩
  unfold take
  dsimp only
  constructor
  · intro h
    split at h
    case isTrue hsize =>
      rcases Prod.mk.inj (Except.ok.inj h) with ⟨rfl, hc⟩
      rcases Cursor.mk.inj hc with ⟨rfl, rfl⟩
      refine ⟨hsize, (List.take_append_drop size rest).symm, ?_⟩
      rw [hsize]
    case isFalse => cases h
  · rintro ⟨rfl, hrest, hoffset⟩
    obtain rfl : rest = bytes ++ rest' := hrest
    obtain rfl : offset' = offset + bytes.length := hoffset
    simp

/-- Items that are read exactly are read exactly one after the other. -/
theorem repeated_eq_ok {item : Nat → Reader α} {write : α → List UInt8} {fits : α → Prop}
    (hitem : ∀ index, (item index).Exact write fits) {done as : Array α} {count : Nat}
    {c c' : Cursor} :
    repeated item done count c = .ok (as, c') ↔
      ∃ more : List α, as = done ++ more.toArray ∧ more.length = count ∧ (∀ a ∈ more, fits a) ∧
        c.After (more.flatMap write) c' := by
  induction count generalizing done c with
  | zero =>
    simp only [repeated, pure_eq_ok, List.length_eq_zero_iff]
    constructor
    · rintro ⟨rfl, rfl⟩
      exact ⟨[], by simp, rfl, by simp, Cursor.after_nil.2 rfl⟩
    · rintro ⟨more, rfl, rfl, -, hafter⟩
      exact ⟨by simp, Cursor.after_nil.1 hafter⟩
  | succ count ih =>
    simp only [repeated, bind_eq_ok, hitem _ _ _ _, ih]
    constructor
    · rintro ⟨a, mid, ⟨hfits, hfirst⟩, more, rfl, rfl, hmore, hrest⟩
      refine ⟨a :: more, by simp, rfl, List.forall_mem_cons.2 ⟨hfits, hmore⟩, ?_⟩
      exact Cursor.after_append.2 ⟨mid, hfirst, hrest⟩
    · rintro ⟨more, rfl, hlength, hfits, hafter⟩
      cases more with
      | nil => cases hlength
      | cons a more =>
        rcases Cursor.after_append.1 hafter with ⟨mid, hfirst, hrest⟩
        rcases List.forall_mem_cons.1 hfits with ⟨ha, hmore⟩
        exact ⟨a, mid, ⟨ha, hfirst⟩, more, by simp, Nat.succ.inj hlength, hmore, hrest⟩

end Reader

end Interposition
