import Interposition.Proofs.Image.Codec

/-!
# Interposition.Proofs.Image.Extension — reading an input that goes on

A reader looks at the bytes it takes and at no others. What it answers on an input is therefore
what it answers when the input goes on, except that a lack of bytes shrinks by as many as are
there now (`Reader.Local`). Being local passes through sequences and repetition, so the reader of
images is local because those of words are. Decoding then says of an input what becomes of all
its extensions (`Image.decode_append`), and a part of an image that lacks its end is refused for
that and for nothing else.
-/

namespace Interposition

/-! ## Faults -/

/-- The fault is one that no further input mends: neither a lack of bytes nor an excess. -/
def DecodeError.isFinal : DecodeError → Bool
  | .truncated .. | .trailingBytes _ => false
  | _ => true

/-- Faults of code are found in bytes that are there. -/
theorem Code.Fault.isFinal_inMethod (method : Nat) (fault : Code.Fault) :
    (fault.inMethod method).isFinal = true := by
  cases fault <;> rfl

/-! ## Local readers -/

/-- The same place in an input that goes on. -/
def Cursor.extend (c : Cursor) (more : List UInt8) : Cursor :=
  ⟨c.offset, c.rest ++ more⟩

/-- The offset at which the input ends. -/
def Cursor.stop (c : Cursor) : Nat :=
  c.offset + c.rest.length

namespace Reader

/-- A reader whose answer on an input decides that on an input that goes on. -/
structure Local {α : Type} (r : Reader α) : Prop where
  /-- What was read is read again, and what is left goes on. -/
  ok {c c' : Cursor} {a : α} (h : r c = .ok (a, c')) :
    c'.stop = c.stop ∧ ∀ more, r (c.extend more) = .ok (a, c'.extend more)
  /-- What is missing is missing at the same place, less the bytes that are there now. -/
  truncated {c : Cursor} {offset needed : Nat} (h : r c = .error (.truncated offset needed)) :
    offset ≤ c.stop ∧ 1 ≤ needed ∧ ∀ more : List UInt8, more.length < needed →
      r (c.extend more) = .error (.truncated offset (needed - more.length))
  /-- Any other fault stays. Readers do not mind an excess. -/
  final {c : Cursor} {e : DecodeError} (h : r c = .error e)
    (he : ∀ offset needed, e ≠ .truncated offset needed) :
    e.isFinal = true ∧ ∀ more, r (c.extend more) = .error e

variable {α β : Type}

theorem local_pure (a : α) : (pure a : Reader α).Local where
  ok h := by
    obtain ⟨rfl, rfl⟩ := pure_eq_ok.1 h
    exact ⟨rfl, fun more => rfl⟩
  truncated h := by cases h
  final h := by cases h

theorem local_throw {e : DecodeError} (he : e.isFinal = true) : (throw e : Reader α).Local where
  ok h := absurd h throw_ne_ok
  truncated h := by
    obtain rfl := Except.error.inj h
    cases he
  final h _ := by
    obtain rfl := Except.error.inj h
    exact ⟨he, fun more => rfl⟩

/-- A sequence fails where its first part fails or where its second does after the first. -/
theorem bind_eq_error_iff {x : Reader α} {next : α → Reader β} {c : Cursor} {e : DecodeError} :
    (x >>= next : Reader β) c = .error e ↔
      x c = .error e ∨ ∃ a mid, x c = .ok (a, mid) ∧ next a mid = .error e := by
  cases hx : x c with
  | error e' => simp [bind_eq_error hx]
  | ok found =>
    rcases found with ⟨a, mid⟩
    rw [bind_eq_of_ok hx]
    constructor
    · intro h
      right
      exact ⟨a, mid, rfl, h⟩
    · rintro (⟨⟨⟩⟩ | ⟨a', mid', hfound, h⟩)
      obtain ⟨rfl, rfl⟩ := Prod.mk.inj (Except.ok.inj hfound)
      exact h

theorem Local.bind {x : Reader α} {next : α → Reader β} (hx : x.Local)
    (hnext : ∀ a, (next a).Local) : (x >>= next : Reader β).Local where
  ok {c c' b} h := by
    obtain ⟨a, mid, hfirst, hsecond⟩ := bind_eq_ok.1 h
    have hfirst' := hx.ok hfirst
    have hsecond' := (hnext a).ok hsecond
    constructor
    · exact hsecond'.1.trans hfirst'.1
    · intro more
      rw [bind_eq_of_ok (hfirst'.2 more)]
      exact hsecond'.2 more
  truncated {c offset needed} h := by
    rcases bind_eq_error_iff.1 h with hfirst | ⟨a, mid, hfirst, hsecond⟩
    · obtain ⟨hoffset, hneeded, hmore⟩ := hx.truncated hfirst
      refine ⟨hoffset, hneeded, ?_⟩
      intro more hlength
      exact bind_eq_error (hmore more hlength)
    · have hfirst' := hx.ok hfirst
      obtain ⟨hoffset, hneeded, hmore⟩ := (hnext a).truncated hsecond
      rw [hfirst'.1] at hoffset
      refine ⟨hoffset, hneeded, ?_⟩
      intro more hlength
      rw [bind_eq_of_ok (hfirst'.2 more)]
      exact hmore more hlength
  final {c e} h he := by
    rcases bind_eq_error_iff.1 h with hfirst | ⟨a, mid, hfirst, hsecond⟩
    · obtain ⟨hfinal, hmore⟩ := hx.final hfirst he
      refine ⟨hfinal, ?_⟩
      intro more
      exact bind_eq_error (hmore more)
    · have hfirst' := hx.ok hfirst
      obtain ⟨hfinal, hmore⟩ := (hnext a).final hsecond he
      refine ⟨hfinal, ?_⟩
      intro more
      rw [bind_eq_of_ok (hfirst'.2 more)]
      exact hmore more

/-- A check in front of a reader. -/
theorem local_guard {p : Prop} [Decidable p] {e : DecodeError} {next : PUnit → Reader α}
    (he : e.isFinal = true) (hnext : (next ⟨⟩).Local) :
    (if p then throw e >>= next else next ⟨⟩ : Reader α).Local := by
  by_cases hp : p
  · rw [if_pos hp]
    exact (local_throw he).bind fun _ => hnext
  · rw [if_neg hp]
    exact hnext

/-! ## Words -/

/-- A reader that takes `size` bytes whatever they are and whatever follows them, and that names
the shortage where there are fewer. -/
structure Takes (size : Nat) (r : Reader α) : Prop where
  ok (front : List UInt8) (hfront : front.length = size) :
    ∃ a, ∀ offset rest, r ⟨offset, front ++ rest⟩ = .ok (a, ⟨offset + size, rest⟩)
  short (c : Cursor) (hc : c.rest.length < size) : r c = Reader.short size c

/-- Such a reader answers by the number of bytes that are left alone. -/
theorem Takes.cases {size : Nat} {r : Reader α} (hr : r.Takes size) (c : Cursor) :
    (∃ a front rest, c.rest = front ++ rest ∧ front.length = size ∧
      ∀ offset rest, r ⟨offset, front ++ rest⟩ = .ok (a, ⟨offset + size, rest⟩)) ∨
    c.rest.length < size ∧ r c = .error (.truncated c.offset (size - c.rest.length)) := by
  by_cases hsize : size ≤ c.rest.length
  · left
    have hfront : (c.rest.take size).length = size := List.length_take_of_le hsize
    obtain ⟨a, ha⟩ := hr.ok _ hfront
    exact ⟨a, c.rest.take size, c.rest.drop size, (List.take_append_drop size _).symm, hfront, ha⟩
  · right
    have hlength : c.rest.length < size := by omega
    exact ⟨hlength, hr.short c hlength⟩

theorem Takes.isLocal {size : Nat} {r : Reader α} (hr : r.Takes size) : r.Local where
  ok {c c' a} h := by
    rcases c with ⟨offset, left⟩
    rcases hr.cases ⟨offset, left⟩ with ⟨a', front, rest, hleft, hfront, hread⟩ | ⟨-, hshort⟩
    · obtain rfl : left = front ++ rest := hleft
      rw [hread] at h
      obtain ⟨rfl, rfl⟩ := Prod.mk.inj (Except.ok.inj h)
      constructor
      · simp only [Cursor.stop, List.length_append]
        omega
      · intro more
        simp only [Cursor.extend, List.append_assoc]
        exact hread offset (rest ++ more)
    · rw [hshort] at h
      cases h
  truncated {c offset needed} h := by
    rcases hr.cases c with ⟨a, front, rest, hrest, -, hread⟩ | ⟨hlength, hshort⟩
    · rw [show c = ⟨c.offset, front ++ rest⟩ from hrest ▸ rfl, hread] at h
      cases h
    · rw [hshort] at h
      obtain ⟨rfl, rfl⟩ := DecodeError.truncated.inj (Except.error.inj h)
      refine ⟨Nat.le_add_right .., by omega, ?_⟩
      intro more hmore
      have hlacks : (c.extend more).rest.length < size := by
        simp only [Cursor.extend, List.length_append]
        omega
      rw [hr.short _ hlacks]
      simp only [Reader.short, Cursor.extend, List.length_append, Nat.sub_sub]
  final {c e} h he := by
    rcases hr.cases c with ⟨a, front, rest, hrest, -, hread⟩ | ⟨-, hshort⟩
    · rw [show c = ⟨c.offset, front ++ rest⟩ from hrest ▸ rfl, hread] at h
      cases h
    · rw [hshort] at h
      exact absurd (Except.error.inj h).symm (he _ _)

theorem takes_byte : byte.Takes 1 where
  ok front hfront := by
    obtain ⟨a, rfl⟩ := List.length_eq_one_iff.1 hfront
    exact ⟨a, fun offset rest => rfl⟩
  short c hc := by
    unfold byte
    split
    case h_1 a rest hrest =>
      simp only [hrest, List.length_cons] at hc
      omega
    case h_2 => rfl

theorem takes_word16 : word16.Takes 2 where
  ok front hfront := by
    obtain ⟨a, b, rfl⟩ := List.length_eq_two.1 hfront
    exact ⟨Word.ofBytes16 a b, fun offset rest => rfl⟩
  short c hc := by
    unfold word16
    split
    case h_1 a b rest hrest =>
      simp only [hrest, List.length_cons] at hc
      omega
    case h_2 => rfl

theorem takes_word32 : word32.Takes 4 where
  ok front hfront := by
    match front, hfront with
    | [a, b, d, e], _ => exact ⟨Word.ofBytes32 a b d e, fun offset rest => rfl⟩
  short c hc := by
    unfold word32
    split
    case h_1 a b d e rest hrest =>
      simp only [hrest, List.length_cons] at hc
      omega
    case h_2 => rfl

theorem takes_word64 : word64.Takes 8 where
  ok front hfront := by
    match front, hfront with
    | [a, b, d, e, a', b', d', e'], _ => exact ⟨_, fun offset rest => rfl⟩
  short c hc := by
    unfold word64
    split
    case h_1 a b d e a' b' d' e' rest hrest =>
      simp only [hrest, List.length_cons] at hc
      omega
    case h_2 => rfl

theorem takes_take (size : Nat) : (take size).Takes size where
  ok front hfront := by
    refine ⟨front, ?_⟩
    intro offset rest
    have hafter : Cursor.After ⟨offset, front ++ rest⟩ front ⟨offset + size, rest⟩ :=
      ⟨rfl, by rw [hfront]⟩
    exact take_eq_ok.2 ⟨hfront, hafter⟩
  short c hc := by
    have hfront : (c.rest.take size).length ≠ size := by
      rw [List.length_take]
      omega
    exact if_neg hfront

/-! ## Parts of an image -/

theorem local_repeated {item : Nat → Reader α} (hitem : ∀ index, (item index).Local)
    (done : Array α) (count : Nat) : (repeated item done count).Local := by
  induction count generalizing done with
  | zero => exact local_pure done
  | succ count ih => exact (hitem done.size).bind fun a => ih (done.push a)

end Reader

open Reader

theorem Member.local_read : Member.read.Local :=
  takes_word16.isLocal.bind fun owner => takes_word16.isLocal.bind fun name =>
    takes_word16.isLocal.bind fun descriptor => local_pure (Member.mk owner name descriptor)

theorem Handler.local_read : Handler.read.Local :=
  takes_word32.isLocal.bind fun start => takes_word32.isLocal.bind fun stop =>
    takes_word32.isLocal.bind fun target => local_pure (Handler.mk start stop target)

theorem Constant.local_read (index : Nat) : (Constant.read index).Local := by
  unfold Constant.read
  refine takes_byte.isLocal.bind fun tag => ?_
  split
  · refine takes_word16.isLocal.bind fun length => (takes_take _).isLocal.bind fun bytes => ?_
    cases Text.decode? bytes with
    | some text => exact local_pure _
    | none => exact local_throw rfl
  · exact takes_word64.isLocal.bind fun value => local_pure _
  · exact takes_word16.isLocal.bind fun text => local_pure _
  · exact Member.local_read.bind fun m => local_pure _
  · exact Member.local_read.bind fun m => local_pure _
  · exact local_throw rfl

/-- The code is decoded from bytes cut off before, so what follows them has no part in it. -/
theorem Method.local_read (index : Nat) : (Method.read index).Local := by
  unfold Method.read
  refine takes_word16.isLocal.bind fun flags => takes_word16.isLocal.bind fun name => ?_
  refine takes_word16.isLocal.bind fun descriptor => takes_word16.isLocal.bind fun maxLocals => ?_
  refine takes_word32.isLocal.bind fun length => (takes_take _).isLocal.bind fun bytes => ?_
  cases Code.decode bytes with
  | error fault => exact local_throw (fault.isFinal_inMethod index)
  | ok code =>
    refine takes_word16.isLocal.bind fun count => ?_
    exact (local_repeated (fun _ => Handler.local_read) #[] _).bind fun handlers => local_pure _

namespace Image

theorem local_readHeader : Image.readHeader.Local := by
  unfold readHeader
  refine takes_word32.isLocal.bind fun magic => local_guard rfl ?_
  refine takes_word16.isLocal.bind fun major => takes_word16.isLocal.bind fun minor => ?_
  exact local_guard rfl (local_pure (major, minor))

theorem local_read : Image.read.Local := by
  unfold read
  refine local_readHeader.bind fun version => takes_word16.isLocal.bind fun size => ?_
  refine (local_repeated Constant.local_read #[] _).bind fun constants => ?_
  refine takes_word16.isLocal.bind fun thisName => takes_word16.isLocal.bind fun count => ?_
  exact (local_repeated Method.local_read #[] _).bind fun methods => local_pure _

/-! ## Whole inputs -/

variable {b s : List UInt8} {image : Image} {c : Cursor} {e : DecodeError}

/-- What is left when an image was read decides whether the input is one. -/
theorem decode_of_read (h : Image.read ⟨0, b⟩ = .ok (image, c)) :
    decode b = if c.rest = [] then .ok image else .error (.trailingBytes c.rest.length) := by
  have hrun : Image.read.run ⟨0, b⟩ = .ok (image, c) := h
  rcases c with ⟨offset, rest⟩
  unfold decode
  rw [hrun]
  cases rest with
  | nil => rfl
  | cons byte rest => rfl

theorem decode_of_read_error (h : Image.read ⟨0, b⟩ = .error e) : decode b = .error e := by
  have hrun : Image.read.run ⟨0, b⟩ = .error e := h
  unfold decode
  rw [hrun]

/-- An input is an image, or an image with an excess behind it, or reading it fails. -/
theorem decode_cases (b : List UInt8) :
    (∃ image c, Image.read ⟨0, b⟩ = .ok (image, c) ∧ c.rest = [] ∧ decode b = .ok image) ∨
    (∃ image c, Image.read ⟨0, b⟩ = .ok (image, c) ∧
      decode b = .error (.trailingBytes c.rest.length)) ∨
    ∃ e, Image.read ⟨0, b⟩ = .error e ∧ decode b = .error e := by
  cases hread : Image.read ⟨0, b⟩ with
  | error e =>
    right; right
    exact ⟨e, rfl, decode_of_read_error hread⟩
  | ok found =>
    rcases found with ⟨image, c⟩
    have hdecode := decode_of_read hread
    by_cases hrest : c.rest = []
    · left
      rw [if_pos hrest] at hdecode
      exact ⟨image, c, rfl, hrest, hdecode⟩
    · right; left
      rw [if_neg hrest] at hdecode
      exact ⟨image, c, rfl, hdecode⟩

theorem read_of_decode (h : decode b = .ok image) :
    ∃ c, Image.read ⟨0, b⟩ = .ok (image, c) ∧ c.rest = [] := by
  rcases decode_cases b with
    ⟨image', c, hread, hrest, hdecode⟩ | ⟨image', c, -, hdecode⟩ | ⟨e, -, hdecode⟩
  · obtain rfl := Except.ok.inj (hdecode.symm.trans h)
    exact ⟨c, hread, hrest⟩
  · cases hdecode.symm.trans h
  · cases hdecode.symm.trans h

/-- An excess is what is left of the input after an image. -/
theorem read_of_decode_trailing {k : Nat} (h : decode b = .error (.trailingBytes k)) :
    ∃ image c, Image.read ⟨0, b⟩ = .ok (image, c) ∧ c.rest.length = k := by
  rcases decode_cases b with
    ⟨image', c, -, -, hdecode⟩ | ⟨image', c, hread, hdecode⟩ | ⟨e, hread, hdecode⟩
  · cases hdecode.symm.trans h
  · have hcount := Except.error.inj (hdecode.symm.trans h)
    exact ⟨image', c, hread, DecodeError.trailingBytes.inj hcount⟩
  · obtain rfl := Except.error.inj (hdecode.symm.trans h)
    have hfinal := (local_read.final hread nofun).1
    cases hfinal

/-- Every fault but an excess is one of reading. -/
theorem read_of_decode_error (h : decode b = .error e) (he : ∀ k, e ≠ .trailingBytes k) :
    Image.read ⟨0, b⟩ = .error e := by
  rcases decode_cases b with
    ⟨image', c, -, -, hdecode⟩ | ⟨image', c, -, hdecode⟩ | ⟨e', hread, hdecode⟩
  · cases hdecode.symm.trans h
  · exact absurd (Except.error.inj (hdecode.symm.trans h)).symm (he _)
  · obtain rfl := Except.error.inj (hdecode.symm.trans h)
    exact hread

/-- What goes on after an image is an excess. -/
theorem decode_append_of_read (h : Image.read ⟨0, b⟩ = .ok (image, c)) (hs : s ≠ []) :
    decode (b ++ s) = .error (.trailingBytes (c.rest.length + s.length)) := by
  have hmore : Image.read ⟨0, b ++ s⟩ = .ok (image, c.extend s) := (local_read.ok h).2 s
  have hrest : (c.extend s).rest ≠ [] := List.append_ne_nil_of_right_ne_nil c.rest hs
  rw [decode_of_read hmore, if_neg hrest]
  simp only [Cursor.extend, List.length_append]

theorem decode_append_of_truncated {offset needed : Nat}
    (h : decode b = .error (.truncated offset needed)) :
    offset ≤ b.length ∧ 1 ≤ needed ∧ (s.length < needed →
      decode (b ++ s) = .error (.truncated offset (needed - s.length))) := by
  have hread := read_of_decode_error h nofun
  obtain ⟨hoffset, hneeded, hmore⟩ := local_read.truncated hread
  have hstop : (⟨0, b⟩ : Cursor).stop = b.length := Nat.zero_add b.length
  refine ⟨by omega, hneeded, ?_⟩
  intro hlength
  exact decode_of_read_error (hmore s hlength)

theorem decode_append_of_final (h : decode b = .error e) (hexcess : ∀ k, e ≠ .trailingBytes k)
    (hlack : ∀ offset needed, e ≠ .truncated offset needed) : decode (b ++ s) = .error e := by
  have hread := read_of_decode_error h hexcess
  exact decode_of_read_error ((local_read.final hread hlack).2 s)

/-- A part of an image that lacks its end lacks bytes, and at most those. -/
theorem truncated_of_decode_append (h : decode (b ++ s) = .ok image) (hs : s ≠ []) :
    ∃ offset needed, decode b = .error (.truncated offset needed) ∧ needed ≤ s.length := by
  cases hread : Image.read ⟨0, b⟩ with
  | ok found =>
    rw [decode_append_of_read (c := found.2) hread hs] at h
    cases h
  | error e =>
    by_cases hlack : ∃ offset needed, e = .truncated offset needed
    · obtain ⟨offset, needed, rfl⟩ := hlack
      have hdecode := decode_of_read_error hread
      refine ⟨offset, needed, hdecode, ?_⟩
      by_contra hmany
      have hstill := (decode_append_of_truncated (s := s) hdecode).2.2 (by omega)
      rw [h] at hstill
      cases hstill
    · have hfault := (local_read.final hread fun offset needed he =>
        hlack ⟨offset, needed, he⟩).2 s
      have hstill : decode (b ++ s) = .error e := decode_of_read_error hfault
      rw [h] at hstill
      cases hstill

/-- An accepted input has no room for more. An input refused for what follows the image is
refused for that and for what follows it in turn. An input that lacks bytes lacks fewer when some
of them come, and one refused for another reason is refused for that reason however it goes on.
So a part of an image that lacks its end lacks bytes, and at most those that were cut off. -/
theorem decode_append (b s : List UInt8) (hs : s ≠ []) :
    (∀ image, decode b = .ok image → decode (b ++ s) = .error (.trailingBytes s.length)) ∧
    (∀ k, decode b = .error (.trailingBytes k) →
      decode (b ++ s) = .error (.trailingBytes (k + s.length))) ∧
    (∀ offset needed, decode b = .error (.truncated offset needed) →
      offset ≤ b.length ∧ 1 ≤ needed ∧
        (s.length < needed → decode (b ++ s) = .error (.truncated offset (needed - s.length)))) ∧
    (∀ e, decode b = .error e → (∀ k, e ≠ .trailingBytes k) →
      (∀ offset needed, e ≠ .truncated offset needed) → decode (b ++ s) = .error e) ∧
    (∀ image, decode (b ++ s) = .ok image →
      ∃ offset needed, decode b = .error (.truncated offset needed) ∧
        needed ≤ (b ++ s).length - b.length) := by
  refine ⟨?_, ?_, ?_, ?_, ?_⟩
  · intro image h
    obtain ⟨c, hread, hrest⟩ := read_of_decode h
    have hexcess := decode_append_of_read hread hs
    rw [hrest, List.length_nil, Nat.zero_add] at hexcess
    exact hexcess
  · intro k h
    obtain ⟨image, c, hread, rfl⟩ := read_of_decode_trailing h
    exact decode_append_of_read hread hs
  · intro offset needed h
    exact decode_append_of_truncated h
  · intro e h hexcess hlack
    exact decode_append_of_final h hexcess hlack
  · intro image h
    obtain ⟨offset, needed, hlack, hneeded⟩ := truncated_of_decode_append h hs
    refine ⟨offset, needed, hlack, ?_⟩
    rw [List.length_append]
    omega

/-- Half a magic word lacks the other half, and one byte more leaves one missing. -/
theorem decode_append_half_magic :
    ([0x4d] : List UInt8) ≠ [] ∧
      decode [0x52] = .error (.truncated 0 3) ∧
      decode [0x52, 0x4d] = .error (.truncated 0 2) := by
  have hsome : ([0x4d] : List UInt8) ≠ [] := by decide
  have hhalf : decode [0x52] = .error (.truncated 0 3) := by rfl
  have hmore := (decode_append [0x52] [0x4d] hsome).2.2.1 0 3 hhalf
  exact ⟨hsome, hhalf, hmore.2.2 (by decide)⟩

end Image

end Interposition
