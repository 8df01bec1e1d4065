import Interposition.Call.Signature
import Interposition.Proofs.Checks
import Mathlib.Data.List.TakeWhile

/-!
# Interposition.Proofs.Call.Descriptor — descriptors are an exact notation

A signature reads back from its descriptor exactly when no owner in it clashes with the
notation (`Signature.Readable`), and a text that reads as a signature is the descriptor of that
signature (`Signature.parse_eq_ok_iff`). The same holds of the types of fields. The main
statement, `descriptor_exact`, says so by the owners alone.
-/

namespace Interposition

/-! ## Delimiters -/

section Delimiter

variable {d : Char} {before rest cs : List Char}

theorem takeWhile_delimiter (h : d ∉ before) :
    (before ++ d :: rest).takeWhile (· ≠ d) = before := by
  have hall : ∀ c ∈ before, decide (c ≠ d) = true := by
    intro c hc
    exact decide_eq_true fun heq => h (heq ▸ hc)
  rw [List.takeWhile_append_of_pos hall]
  simp

theorem dropWhile_delimiter (h : d ∉ before) :
    (before ++ d :: rest).dropWhile (· ≠ d) = d :: rest := by
  have hall : ∀ c ∈ before, decide (c ≠ d) = true := by
    intro c hc
    exact decide_eq_true fun heq => h (heq ▸ hc)
  rw [List.dropWhile_append_of_pos hall]
  simp

/-- A text with a delimiter in it falls into what stands before the first one and what stands
after it. -/
theorem eq_of_dropWhile_delimiter {c : Char} (h : cs.dropWhile (· ≠ d) = c :: rest) :
    cs = cs.takeWhile (· ≠ d) ++ d :: rest ∧ d ∉ cs.takeWhile (· ≠ d) := by
  have hc : c = d := by
    have hhead := List.head?_dropWhile_not (fun x => decide (x ≠ d)) cs
    rw [h] at hhead
    simpa using hhead
  refine ⟨?_, ?_⟩
  · rw [← hc, ← h, hc, List.takeWhile_append_dropWhile]
  · intro hmem
    simpa using List.mem_takeWhile_imp hmem

end Delimiter

/-! ## Types -/

namespace ValueType

/-- An owner that a descriptor can hold: there is one, and it does not end early. -/
def Readable : ValueType → Prop
  | object owner => owner ≠ "" ∧ ';' ∉ owner.toList
  | _ => True

theorem read_chars {t : ValueType} (ht : t.Readable) (rest : List Char) :
    read (t.chars ++ rest) = .ok (some t, rest) := by
  cases t with
  | int => rfl
  | bool => rfl
  | str => rfl
  | object owner =>
    rcases ht with ⟨hnonempty, hclean⟩
    cases howner : owner.toList with
    | nil => exact absurd (String.toList_eq_nil_iff.1 howner) hnonempty
    | cons c cs =>
      have htext : (object owner).chars ++ rest = 'L' :: (c :: cs ++ ';' :: rest) := by
        simp [chars, howner]
      rw [howner] at hclean
      have howner' : String.ofList (c :: cs) = owner := by rw [← howner, String.ofList_toList]
      rw [htext]
      simp only [read, takeWhile_delimiter hclean, dropWhile_delimiter hclean, howner']

/-- What is read is written in front of what follows it. -/
theorem read_eq_ok {input rest : List Char} {t : Option ValueType}
    (h : read input = .ok (t, rest)) :
    input = resultChars t ++ rest ∧ ∀ s, t = some s → s.Readable := by
  unfold read at h
  split at h
  case h_6 cs =>
    split at h
    case h_1 c owner semicolon tail htake hdrop =>
      rcases Prod.mk.inj (Except.ok.inj h) with ⟨rfl, rfl⟩
      rcases eq_of_dropWhile_delimiter hdrop with ⟨hcs, hclean⟩
      rw [htake] at hcs hclean
      refine ⟨?_, ?_⟩
      · rw [hcs]
        simp [resultChars, chars]
      · rintro _ ⟨⟩
        refine ⟨?_, by simpa using hclean⟩
        simp [← String.toList_inj]
    case h_2 => cases h
  case h_1 => cases h
  case h_7 => cases h
  -- A letter by itself is a type, or nothing.
  all_goals
    rcases Prod.mk.inj (Except.ok.inj h) with ⟨rfl, rfl⟩
    exact ⟨rfl, by rintro s ⟨⟩ <;> trivial⟩

theorem chars_ne_nil (t : ValueType) : t.chars ≠ [] := by
  cases t with
  | object owner => simp [chars]
  | _ => simp [chars]

/-- A reader that starts at written types reads the first of them. -/
theorem read_flatMap {ts : List ValueType} {input : List Char} (hinput : input = ts.flatMap chars)
    (hts : ∀ t ∈ ts, t.Readable) (hnonempty : input ≠ []) :
    ∃ t rest, ts = t :: rest ∧ read input = .ok (some t, rest.flatMap chars) := by
  cases ts with
  | nil => exact absurd hinput hnonempty
  | cons t rest =>
    refine ⟨t, rest, rfl, ?_⟩
    rw [hinput, List.flatMap_cons]
    exact read_chars (hts t List.mem_cons_self) _

/-- The types read are those before and those written in the input. -/
theorem readAll_eq_ok_iff {done ts : List ValueType} {input : List Char} :
    readAll done input = .ok ts ↔
      ∃ more, ts = done.reverse ++ more ∧ input = more.flatMap chars ∧
        ∀ t ∈ more, t.Readable := by
  fun_induction readAll done input with
  | case1 done input hempty =>
    rcases List.isEmpty_iff.1 hempty with rfl
    constructor
    · rintro ⟨⟩
      exact ⟨[], by simp, rfl, by simp⟩
    · rintro ⟨more, rfl, hmore, -⟩
      cases more with
      | nil => simp
      | cons t rest => simp [chars_ne_nil] at hmore
  | case2 done input hnonempty fault hread =>
    constructor
    · rintro ⟨⟩
    · rintro ⟨more, -, hinput, hreadable⟩
      rcases read_flatMap hinput hreadable (by simpa using hnonempty) with
        ⟨t, rest, -, hread'⟩
      rw [hread] at hread'
      cases hread'
  | case3 done input hnonempty rest hread =>
    constructor
    · rintro ⟨⟩
    · rintro ⟨more, -, hinput, hreadable⟩
      rcases read_flatMap hinput hreadable (by simpa using hnonempty) with
        ⟨t, rest, -, hread'⟩
      rw [hread] at hread'
      cases hread'
  | case4 done input hnonempty t rest hread ih =>
    rcases read_eq_ok hread with ⟨hinput, hreadable⟩
    rw [ih]
    constructor
    · rintro ⟨more, rfl, rfl, hmore⟩
      refine ⟨t :: more, by simp, hinput, List.forall_mem_cons.2 ⟨hreadable t rfl, hmore⟩⟩
    · rintro ⟨more, rfl, hinput', hmore⟩
      rcases read_flatMap hinput' hmore (by simpa using hnonempty) with ⟨t', rest', rfl, hread'⟩
      rcases Prod.mk.inj (Except.ok.inj (hread.symm.trans hread')) with ⟨ht, rfl⟩
      rcases Option.some.inj ht with rfl
      exact ⟨rest', by simp, rfl, (List.forall_mem_cons.1 hmore).2⟩

theorem readLast_eq_ok_iff {input : List Char} {t : Option ValueType} :
    readLast input = .ok t ↔ input = resultChars t ∧ ∀ s, t = some s → s.Readable := by
  constructor
  · intro h
    unfold readLast at h
    split at h
    case h_1 => cases h
    case h_2 t' hread =>
      rcases Except.ok.inj h with rfl
      simpa using read_eq_ok hread
    case h_3 => cases h
  · rintro ⟨rfl, hreadable⟩
    cases t with
    | none => rfl
    | some t =>
      have hread := read_chars (hreadable t rfl) []
      rw [List.append_nil] at hread
      simp only [readLast, resultChars, hread]

/-- A text reads as a type of a field when it is the descriptor of a readable type. -/
theorem parse_eq_ok_iff {text : String} {t : ValueType} :
    parse text = .ok t ↔ text = t.descriptor ∧ t.Readable := by
  have hlast : parse text = .ok t ↔ readLast text.toList = .ok (some t) := by
    unfold parse
    cases readLast text.toList with
    | error fault => simp
    | ok found =>
      cases found with
      | none => simp
      | some s => simp
  rw [hlast, readLast_eq_ok_iff, descriptor, ← String.toList_inj, String.toList_ofList]
  simp [resultChars]

/-- Only the owner of an object can keep a type from being read. -/
theorem readable_iff {t : ValueType} :
    t.Readable ↔ ∀ owner, t = .object owner → owner ≠ "" ∧ ';' ∉ owner.toList := by
  cases t with
  | object owner =>
    constructor
    · rintro howner _ ⟨⟩
      exact howner
    · intro howner
      exact howner owner rfl
  | int | bool | str =>
    refine iff_of_true trivial ?_
    rintro owner ⟨⟩

/-- Only the owner of an object can hold a delimiter of the list of parameters. -/
theorem closing_mem_chars_iff {t : ValueType} :
    ')' ∈ t.chars ↔ ∃ owner, t = .object owner ∧ ')' ∈ owner.toList := by
  cases t with
  | object owner => simp [chars]
  | int | bool | str => simp [chars]

end ValueType

/-! ## Signatures -/

namespace Signature

/-- A signature that its descriptor stands for: its types are readable, and no parameter closes
the list of parameters. -/
structure Readable (s : Signature) : Prop where
  params : ∀ t ∈ s.params, t.Readable
  closed : ')' ∉ s.params.flatMap ValueType.chars
  result : ∀ t, s.result = some t → t.Readable

theorem read_eq_ok_iff {input : List Char} {s : Signature} :
    read input = .ok s ↔ input = s.chars ∧ s.Readable := by
  constructor
  · intro h
    unfold read at h
    split at h
    case h_1 rest =>
      split at h
      case h_1 => cases h
      case h_2 close tail hdrop =>
        rcases bind_eq_ok_iff.1 h with ⟨params, hparams, h⟩
        rcases bind_eq_ok_iff.1 h with ⟨result, hresult, h⟩
        rcases Except.ok.inj h with rfl
        rcases eq_of_dropWhile_delimiter hdrop with ⟨hrest, hclosed⟩
        rcases ValueType.readAll_eq_ok_iff.1 hparams with ⟨more, rfl, hmore, hreadable⟩
        rcases ValueType.readLast_eq_ok_iff.1 hresult with ⟨rfl, hresult'⟩
        rw [hmore] at hrest hclosed
        exact ⟨by rw [hrest]; simp [chars], by simpa using hreadable, by simpa using hclosed,
          hresult'⟩
    case h_2 => cases h
  · rintro ⟨rfl, hs⟩
    have hparams : ValueType.readAll [] (s.params.flatMap ValueType.chars) = .ok s.params :=
      ValueType.readAll_eq_ok_iff.2 ⟨s.params, rfl, rfl, hs.params⟩
    have hresult := ValueType.readLast_eq_ok_iff.2 ⟨rfl, hs.result⟩
    simp only [read, chars, List.cons_append, takeWhile_delimiter hs.closed,
      dropWhile_delimiter hs.closed, hparams, hresult]
    rfl

/-- A text reads as a signature when it is the descriptor of a readable signature. -/
theorem parse_eq_ok_iff {text : String} {s : Signature} :
    parse text = .ok s ↔ text = s.descriptor ∧ s.Readable := by
  rw [parse, mapError_eq_ok_iff, read_eq_ok_iff, descriptor, ← String.toList_inj,
    String.toList_ofList]

/-- A signature is readable by its owners alone. A result may close the list of parameters, which
has been closed before it. -/
theorem readable_iff {s : Signature} :
    s.Readable ↔
      (∀ owner, .object owner ∈ s.params →
        owner ≠ "" ∧ ';' ∉ owner.toList ∧ ')' ∉ owner.toList) ∧
      ∀ owner, s.result = some (.object owner) → owner ≠ "" ∧ ';' ∉ owner.toList := by
  constructor
  · intro hs
    constructor
    · intro owner howner
      rcases hs.params _ howner with ⟨hnonempty, hclean⟩
      refine ⟨hnonempty, hclean, ?_⟩
      intro hclosing
      apply hs.closed
      exact List.mem_flatMap.2 ⟨_, howner, ValueType.closing_mem_chars_iff.2 ⟨owner, rfl, hclosing⟩⟩
    · intro owner howner
      exact hs.result _ howner
  · rintro ⟨hparams, hresult⟩
    refine ⟨?_, ?_, ?_⟩
    · intro t ht
      refine ValueType.readable_iff.2 ?_
      rintro owner rfl
      exact ⟨(hparams owner ht).1, (hparams owner ht).2.1⟩
    · intro hclosing
      rcases List.mem_flatMap.1 hclosing with ⟨t, ht, hchar⟩
      rcases ValueType.closing_mem_chars_iff.1 hchar with ⟨owner, rfl, howner⟩
      exact (hparams owner ht).2.2 howner
    · intro t ht
      refine ValueType.readable_iff.2 ?_
      rintro owner rfl
      exact hresult owner ht

/-- A receiver in front is readable if its owner neither ends early nor closes the list. -/
theorem Readable.withReceiver {s : Signature} (hs : s.Readable) {owner : String}
    (hnonempty : owner ≠ "") (hclean : ';' ∉ owner.toList) (hclosed : ')' ∉ owner.toList) :
    (s.withReceiver owner).Readable := by
  refine ⟨?_, ?_, hs.result⟩
  · exact List.forall_mem_cons.2 ⟨⟨hnonempty, hclean⟩, hs.params⟩
  · have hparams := hs.closed
    simp only [Signature.withReceiver, List.flatMap_cons, ValueType.chars, List.mem_append]
    simp [hclosed, hparams]

/-- A descriptor with a receiver in front reads only if the owner fits there, be it that it does
not end early. -/
theorem owner_of_parse_withReceiver {s t : Signature} {owner : String}
    (hclean : ';' ∉ owner.toList) (h : parse (s.withReceiver owner).descriptor = .ok t) :
    owner ≠ "" ∧ ')' ∉ owner.toList := by
  rcases parse_eq_ok_iff.1 h with ⟨hdescriptor, ht⟩
  have hchars : (s.withReceiver owner).chars = t.chars := by
    have hlists := congrArg String.toList hdescriptor
    simpa only [descriptor, String.toList_ofList] using hlists
  cases hparams : t.params with
  | nil => simp [chars, withReceiver, ValueType.chars, hparams] at hchars
  | cons first rest =>
    -- What is read first starts as the receiver does, so it is an object, and of the same owner.
    cases first with
    | int => simp [chars, withReceiver, ValueType.chars, hparams] at hchars
    | bool => simp [chars, withReceiver, ValueType.chars, hparams] at hchars
    | str => simp [chars, withReceiver, ValueType.chars, hparams] at hchars
    | object found =>
      have hfound : (ValueType.object found).Readable := by
        apply ht.params
        simp [hparams]
      have hclosed := ht.closed
      simp only [chars, withReceiver, hparams, List.flatMap_cons, ValueType.chars] at hchars hclosed
      have howner : owner.toList = found.toList := by
        have hrest := congrArg (List.drop 2) hchars
        simp only [List.cons_append, List.append_assoc, List.drop_succ_cons, List.drop_zero,
          List.nil_append] at hrest
        rw [← takeWhile_delimiter hclean, hrest, takeWhile_delimiter hfound.2]
      have hsame : owner = found := String.toList_inj.1 howner
      rw [hsame]
      refine ⟨hfound.1, ?_⟩
      intro hmem
      apply hclosed
      simp [hmem]

end Signature

/-- Descriptors are an exact notation, of signatures and of the types of fields.

* A text that reads as a signature, or as a type, is the descriptor of what it reads as.
* A signature reads back from its descriptor exactly if no owner among its parameters is empty or
  has a `;` or a `)` in it, and the owner of its result is not empty and has no `;` in it.
* A type reads back from its descriptor exactly if it is no object whose owner is empty or has a
  `;` in it. -/
theorem descriptor_exact :
    (∀ (text : String) (s : Signature), Signature.parse text = .ok s → s.descriptor = text) ∧
    (∀ s : Signature, Signature.parse s.descriptor = .ok s ↔
      (∀ owner, .object owner ∈ s.params →
        owner ≠ "" ∧ ';' ∉ owner.toList ∧ ')' ∉ owner.toList) ∧
      ∀ owner, s.result = some (.object owner) → owner ≠ "" ∧ ';' ∉ owner.toList) ∧
    (∀ (text : String) (t : ValueType), ValueType.parse text = .ok t → t.descriptor = text) ∧
    ∀ t : ValueType, ValueType.parse t.descriptor = .ok t ↔
      ¬∃ owner, t = .object owner ∧ (owner = "" ∨ ';' ∈ owner.toList) := by
  refine ⟨?_, ?_, ?_, ?_⟩
  · intro text s h
    exact (Signature.parse_eq_ok_iff.1 h).1.symm
  · intro s
    rw [Signature.parse_eq_ok_iff, and_iff_right rfl, Signature.readable_iff]
  · intro text t h
    exact (ValueType.parse_eq_ok_iff.1 h).1.symm
  · intro t
    rw [ValueType.parse_eq_ok_iff, and_iff_right rfl, ValueType.readable_iff]
    push Not
    rfl

/-- A delimiter of the parameters may stand in the owner of a result. -/
example : Signature.parse "()La)b;" = .ok ⟨[], some (.object "a)b")⟩ := by decide +kernel

end Interposition
