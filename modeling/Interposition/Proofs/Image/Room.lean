import Mathlib.Data.Finset.Card
import Mathlib.Data.Finset.Dedup
import Interposition.Proofs.Image.Interning
import Interposition.Proofs.Image.Redirection

/-!
# Interposition.Proofs.Image.Room — how much room interning takes

A call of a target needs three texts in the pool and a method that refers to the first of each.
`Pool.missing` counts the needs that a pool does not meet, each once however many targets share it.
Interning appends exactly that many constants, and runs out of room exactly if there is no room for
them (`internMethod_fills`). No other way to meet the needs takes fewer (`Extends.missing_le`).

The count of two steps is the sum of their counts since the first step meets the needs it has and no
other ones (`Gains.meets_iff`). For this the methods in the pool must refer to what is there: one
that refers beyond the end would come to meet a need when a text is appended.
-/

namespace Interposition

/-! ## Needs -/

/-- What a pool may have to hold: a text, or a method of given texts. -/
inductive Need where
  | text (text : String)
  | method (texts : MemberTexts)
deriving DecidableEq

/-- What a call of a symbol takes. -/
def Symbol.needs (s : Symbol) : Finset Need :=
  {.text s.owner, .text s.name, .text s.signature.descriptor, .method s.texts}

namespace Pool

variable {p q r : Pool} {c : Constant} {n : Need}

/-- The member of given texts: the positions of the first entry of each. -/
def member? (p : Pool) (texts : MemberTexts) : Option Member := do
  return ⟨← p.find? (.utf8 texts.owner), ← p.find? (.utf8 texts.name),
    ← p.find? (.utf8 texts.descriptor)⟩

/-- The constant that meets a need, if the texts of it are there. -/
def constant? (p : Pool) : Need → Option Constant
  | .text text => some (.utf8 text)
  | .method texts => (p.member? texts).map .method

/-- A need is met by the constant for it. -/
def Meets (p : Pool) (n : Need) : Prop :=
  ∃ c ∈ p.constant? n, c ∈ p.entries

instance : DecidablePred p.Meets := fun n =>
  inferInstanceAs (Decidable (∃ c ∈ p.constant? n, c ∈ p.entries))

/-- The number of needs that are not met. -/
def missing (p : Pool) (needs : Finset Need) : Nat :=
  (needs.filter fun n => ¬p.Meets n).card

/-- There is no room for the constants that are missing. -/
def Lacks (p : Pool) (needs : Finset Need) : Prop :=
  capacity < p.size + p.missing needs

/-- The methods of a pool have their texts. -/
def Sound (p : Pool) : Prop :=
  ∀ m, .method m ∈ p.entries → (p.texts? m).isSome

/-! ## First positions -/

theorem find?_eq_none_iff : p.find? c = none ↔ c ∉ p.entries := by
  rw [find?, Option.map_eq_none_iff, Array.findIdx?_eq_none_iff]
  constructor
  · intro h hc
    simpa using h c hc
  · intro h c' hc'
    rw [decide_eq_false_iff_not]
    rintro rfl
    exact h hc'

theorem find?_eq_some_iff (hp : p.size ≤ capacity) {index : UInt16} :
    p.find? c = some index ↔
      p.get? index = some c ∧ ∀ j < index.toNat, p.entries[j]? ≠ some c := by
  rw [find?, Option.map_eq_some_iff]
  constructor
  · rintro ⟨i, hi, rfl⟩
    obtain ⟨hlt, heq, hfirst⟩ := Array.findIdx?_eq_some_iff_getElem.1 hi
    have hle : i ≤ 65535 := (Nat.le_of_lt hlt).trans hp
    rw [get?, toNat_toUInt16 hle, Array.getElem?_eq_getElem hlt]
    refine ⟨by simpa using heq, ?_⟩
    intro j hj hc
    obtain ⟨hjlt, hjc⟩ := Array.getElem?_eq_some_iff.1 hc
    have hnot := hfirst j hj
    rw [hjc] at hnot
    simp at hnot
  · rintro ⟨hget, hfirst⟩
    obtain ⟨hlt, heq⟩ := Array.getElem?_eq_some_iff.1 hget
    refine ⟨index.toNat, Array.findIdx?_eq_some_iff_getElem.2 ⟨hlt, by simpa using heq, ?_⟩, ?_⟩
    · intro j hj
      have hnot := hfirst j hj
      rw [Array.getElem?_eq_getElem (hj.trans hlt)] at hnot
      simpa using hnot
    · simp

/-- The first entry stays the first one. -/
theorem Extends.find? (h : q.Extends p) {index : UInt16} (hc : p.find? c = some index) :
    q.find? c = some index := by
  obtain ⟨added, hadded⟩ := h.exists_added
  obtain ⟨i, hi, rfl⟩ := Option.map_eq_some_iff.1 hc
  rw [Pool.find?, hadded, Array.findIdx?_append, hi]
  rfl

/-- The first entry of what was not there is the one appended. -/
theorem find?_push (hnone : p.find? c = none) :
    Pool.find? ⟨p.entries.push c⟩ c = some p.size.toUInt16 := by
  have hlast : Array.findIdx? (· = c) #[c] = some 0 := by
    simp
  have hbefore : p.entries.findIdx? (· = c) = none := by
    simpa [find?] using hnone
  rw [find?, ← Array.append_singleton, Array.findIdx?_append, hbefore, hlast]
  simp [size]

/-- A first entry within the part that was there is the first one there. -/
theorem Extends.find?_of_lt (h : q.Extends p) (hq : q.size ≤ capacity) {index : UInt16}
    (hc : q.find? c = some index) (hlt : index.toNat < p.size) : p.find? c = some index := by
  obtain ⟨added, hadded⟩ := h.exists_added
  have hsize : p.size ≤ q.size := by
    simp [size, hadded]
  obtain ⟨hget, hfirst⟩ := (find?_eq_some_iff hq).1 hc
  have hsame (j : Nat) (hj : j < p.size) : q.entries[j]? = p.entries[j]? := by
    rw [hadded, Array.getElem?_append_left hj]
  refine (find?_eq_some_iff (hsize.trans hq)).2 ⟨?_, ?_⟩
  · rw [Pool.get?, ← hsame _ hlt]
    exact hget
  · intro j hj
    rw [← hsame j (hj.trans hlt)]
    exact hfirst j hj

theorem member?_eq_some_iff {texts : MemberTexts} {m : Member} :
    p.member? texts = some m ↔
      p.find? (.utf8 texts.owner) = some m.owner ∧ p.find? (.utf8 texts.name) = some m.name ∧
        p.find? (.utf8 texts.descriptor) = some m.descriptor := by
  rcases m with ⟨owner, name, descriptor⟩
  cases howner : p.find? (.utf8 texts.owner) <;> cases hname : p.find? (.utf8 texts.name) <;>
    cases hdescriptor : p.find? (.utf8 texts.descriptor) <;>
    simp [member?, howner, hname, hdescriptor]

/-- The member of given texts has these texts. -/
theorem texts?_of_member? (hp : p.size ≤ capacity) {texts : MemberTexts} {m : Member}
    (h : p.member? texts = some m) : p.texts? m = some texts := by
  obtain ⟨howner, hname, hdescriptor⟩ := member?_eq_some_iff.1 h
  have htext {text : String} {index : UInt16} (hfind : p.find? (.utf8 text) = some index) :
      p.utf8? index = some text :=
    utf8?_of_get? ((find?_eq_some_iff hp).1 hfind).1
  exact texts?_eq_some_iff.2 ⟨htext howner, htext hname, htext hdescriptor⟩

theorem Extends.member? (h : q.Extends p) {texts : MemberTexts} {m : Member}
    (hm : p.member? texts = some m) : q.member? texts = some m := by
  obtain ⟨howner, hname, hdescriptor⟩ := member?_eq_some_iff.1 hm
  exact member?_eq_some_iff.2 ⟨h.find? howner, h.find? hname, h.find? hdescriptor⟩

/-! ## The constants of needs -/

theorem Extends.constant? (h : q.Extends p) (hn : p.constant? n = some c) :
    q.constant? n = some c := by
  cases n with
  | text text => exact hn
  | method texts =>
    obtain ⟨m, hm, rfl⟩ := Option.map_eq_some_iff.1 hn
    exact Option.map_eq_some_iff.2 ⟨m, h.member? hm, rfl⟩

/-- A constant meets one need. -/
theorem constant?_inj (hp : p.size ≤ capacity) {n' : Need} (hn : p.constant? n = some c)
    (hn' : p.constant? n' = some c) : n = n' := by
  cases n with
  | text text =>
    obtain rfl : .utf8 text = c := Option.some.inj hn
    cases n' with
    | text text' => rw [Constant.utf8.inj (Option.some.inj hn')]
    | method texts => simp [Pool.constant?] at hn'
  | method texts =>
    obtain ⟨m, hm, rfl⟩ := Option.map_eq_some_iff.1 hn
    cases n' with
    | text text' => cases hn'
    | method texts' =>
      obtain ⟨m', hm', heq⟩ := Option.map_eq_some_iff.1 hn'
      obtain rfl : m' = m := Constant.method.inj heq
      have htexts := (texts?_of_member? hp hm).symm.trans (texts?_of_member? hp hm')
      rw [Option.some.inj htexts]

/-- What meets a need later and was there before met it before: a method that was there refers to
texts that were there. -/
theorem Extends.constant?_of_mem (h : q.Extends p) (hq : q.size ≤ capacity) (hp : p.Sound)
    (hn : q.constant? n = some c) (hc : c ∈ p.entries) : p.constant? n = some c := by
  cases n with
  | text text => exact hn
  | method texts =>
    obtain ⟨m, hm, rfl⟩ := Option.map_eq_some_iff.1 hn
    obtain ⟨texts', htexts'⟩ := Option.isSome_iff_exists.1 (hp m hc)
    obtain ⟨howner, hname, hdescriptor⟩ := texts?_eq_some_iff.1 htexts'
    have hlt {index : UInt16} {text : String} (htext : p.utf8? index = some text) :
        index.toNat < p.size :=
      (Array.getElem?_eq_some_iff.1 (get?_of_utf8? htext)).1
    obtain ⟨howner', hname', hdescriptor'⟩ := member?_eq_some_iff.1 hm
    refine Option.map_eq_some_iff.2 ⟨m, member?_eq_some_iff.2 ⟨?_, ?_, ?_⟩, rfl⟩
    · exact h.find?_of_lt hq howner' (hlt howner)
    · exact h.find?_of_lt hq hname' (hlt hname)
    · exact h.find?_of_lt hq hdescriptor' (hlt hdescriptor)

theorem meets_iff_mem (hn : p.constant? n = some c) : p.Meets n ↔ c ∈ p.entries := by
  simp [Meets, hn]

theorem Meets.extends (hn : p.Meets n) (h : q.Extends p) : q.Meets n := by
  obtain ⟨c, hconstant, hc⟩ := hn
  obtain ⟨added, hadded⟩ := h.exists_added
  refine ⟨c, h.constant? hconstant, ?_⟩
  rw [hadded]
  exact Array.mem_append_left _ hc

/-! ## Gains -/

/-- From one pool to a later one that meets needs besides, with no constant more than these take. -/
structure Gains (p q : Pool) (needs : Finset Need) : Prop where
  extends_pool : q.Extends p
  size_eq : q.size = p.size + p.missing needs
  size_le : q.size ≤ capacity
  sound : q.Sound
  meets_iff : ∀ n, q.Meets n ↔ p.Meets n ∨ n ∈ needs

theorem missing_mono {needs more : Finset Need} (h : needs ⊆ more) :
    p.missing needs ≤ p.missing more :=
  Finset.card_le_card (Finset.filter_subset_filter _ h)

theorem missing_eq_zero {needs : Finset Need} (h : ∀ n ∈ needs, p.Meets n) :
    p.missing needs = 0 := by
  rw [missing, Finset.card_eq_zero, Finset.filter_eq_empty_iff]
  intro n hn
  exact not_not_intro (h n hn)

theorem missing_singleton (h : ¬p.Meets n) : p.missing {n} = 1 := by
  rw [missing, Finset.filter_singleton, if_pos h, Finset.card_singleton]

/-- Needs that are met take nothing. -/
theorem Gains.of_meets (hsize : p.size ≤ capacity) (hp : p.Sound) {needs : Finset Need}
    (h : ∀ n ∈ needs, p.Meets n) : p.Gains p needs := by
  refine ⟨.refl p, by rw [missing_eq_zero h]; rfl, hsize, hp, ?_⟩
  intro n
  exact ⟨Or.inl, fun hn => hn.elim id (h n)⟩

/-- What two steps need is what the first one needs, and what then the second one does. -/
theorem Gains.missing_union {needs : Finset Need} (h : p.Gains q needs) (more : Finset Need) :
    p.missing (needs ∪ more) = p.missing needs + q.missing more := by
  have hdisjoint : Disjoint (needs.filter fun n => ¬p.Meets n)
      (more.filter fun n => ¬q.Meets n) := by
    rw [Finset.disjoint_left]
    intro n hn hn'
    have hmet : q.Meets n := (h.meets_iff n).2 (Or.inr (Finset.mem_filter.1 hn).1)
    exact (Finset.mem_filter.1 hn').2 hmet
  rw [missing, missing, missing, ← Finset.card_union_of_disjoint hdisjoint]
  congr 1
  ext n
  simp only [Finset.mem_filter, Finset.mem_union, h.meets_iff n]
  tauto

theorem Gains.trans {needs more : Finset Need} (h : p.Gains q needs) (h' : q.Gains r more) :
    p.Gains r (needs ∪ more) := by
  refine ⟨h'.extends_pool.trans h.extends_pool, ?_, h'.size_le, h'.sound, ?_⟩
  · rw [h'.size_eq, h.size_eq, h.missing_union, Nat.add_assoc]
  · intro n
    rw [h'.meets_iff, h.meets_iff, Finset.mem_union, or_assoc]

theorem Lacks.union {needs : Finset Need} (h : p.Lacks needs) (more : Finset Need) :
    p.Lacks (needs ∪ more) := by
  have hmono : p.missing needs ≤ p.missing (needs ∪ more) :=
    missing_mono Finset.subset_union_left
  exact Nat.lt_of_lt_of_le h (Nat.add_le_add_left hmono _)

/-- Where the second step lacks room, both do. -/
theorem Gains.lacks {needs more : Finset Need} (h : p.Gains q needs) (h' : q.Lacks more) :
    p.Lacks (needs ∪ more) := by
  show capacity < p.size + p.missing (needs ∪ more)
  rw [h.missing_union, ← Nat.add_assoc, ← h.size_eq]
  exact h'

/-- The constant for a need that is not met, appended. -/
theorem Gains.push (hp : p.Sound) (hroom : p.size < capacity) (hn : p.constant? n = some c)
    (hc : c ∉ p.entries) : p.Gains ⟨p.entries.push c⟩ {n} := by
  have hextends : Pool.Extends ⟨p.entries.push c⟩ p := by
    simp [Extends]
  have hsize : Pool.size ⟨p.entries.push c⟩ = p.size + 1 := by
    simp [size]
  have hle : Pool.size ⟨p.entries.push c⟩ ≤ capacity := by omega
  have hunmet : ¬p.Meets n := fun hmet => hc ((meets_iff_mem hn).1 hmet)
  refine ⟨hextends, ?_, hle, ?_, ?_⟩
  · rw [hsize, missing_singleton hunmet]
  · intro m hm
    rcases Array.mem_push.1 hm with hm | rfl
    · obtain ⟨texts, htexts⟩ := Option.isSome_iff_exists.1 (hp m hm)
      exact Option.isSome_iff_exists.2 ⟨texts, hextends.texts? htexts⟩
    · cases n with
      | text text => cases hn
      | method texts =>
        obtain ⟨m', hm', heq⟩ := Option.map_eq_some_iff.1 hn
        obtain rfl : m' = m := Constant.method.inj heq
        have htexts := texts?_of_member? (Nat.le_of_lt hroom) hm'
        exact Option.isSome_iff_exists.2 ⟨texts, hextends.texts? htexts⟩
  · -- What was there meets what it met before, and the new constant meets this need alone.
    intro n'
    rw [Finset.mem_singleton]
    constructor
    · rintro ⟨c', hn', hc'⟩
      rcases Array.mem_push.1 hc' with hc' | rfl
      · exact Or.inl ⟨c', hextends.constant?_of_mem hle hp hn' hc', hc'⟩
      · exact Or.inr (constant?_inj hle hn' (hextends.constant? hn))
    · rintro (hmet | rfl)
      · exact hmet.extends hextends
      · exact ⟨c, hextends.constant? hn, Array.mem_push_self⟩

/-- Whatever a pool is extended by to meet needs, it takes the constants that are missing. -/
theorem Extends.missing_le (h : q.Extends p) (hq : q.size ≤ capacity) (hp : p.Sound)
    {needs : Finset Need} (hneeds : ∀ n ∈ needs, q.Meets n) :
    p.size + p.missing needs ≤ q.size := by
  obtain ⟨added, hadded⟩ := h.exists_added
  have hsize : q.size = p.size + added.size := by
    simp [size, hadded]
  -- Each unmet need is met by a constant of its own, and that one was added.
  have hmaps : ∀ n ∈ needs.filter fun n => ¬p.Meets n,
      q.constant? n ∈ (added.toList.map some).toFinset := by
    intro n hn
    obtain ⟨hmem, hunmet⟩ := Finset.mem_filter.1 hn
    obtain ⟨c, hconstant, hc⟩ := hneeds n hmem
    have hnew : c ∉ p.entries := fun hold =>
      hunmet ⟨c, h.constant?_of_mem hq hp hconstant hold, hold⟩
    rw [hadded] at hc
    rcases Array.mem_append.1 hc with hc | hc
    · exact absurd hc hnew
    · rw [List.mem_toFinset, List.mem_map]
      exact ⟨c, Array.mem_toList_iff.2 hc, hconstant.symm⟩
  have hinj : Set.InjOn q.constant? (needs.filter fun n => ¬p.Meets n : Finset Need) := by
    intro n hn n' _ heq
    obtain ⟨c, hconstant, -⟩ := hneeds n (Finset.mem_filter.1 hn).1
    exact constant?_inj hq hconstant (heq.symm.trans hconstant)
  have hcard : p.missing needs ≤ added.size := by
    calc p.missing needs
        ≤ (added.toList.map some).toFinset.card := Finset.card_le_card_of_injOn _ hmaps hinj
      _ ≤ (added.toList.map some).length := List.toFinset_card_le _
      _ = added.size := by simp
  omega

/-! ## Operations that fill needs -/

/-- An operation that is done within the room its needs take, and gives an answer that is right
then, or is refused for want of that room. -/
def Fills {α : Type} (p : Pool) (x : Interning α) (needs : Finset Need) (right : α → Pool → Prop) :
    Prop :=
  (∃ a q, x p = (.ok a, q) ∧ p.Gains q needs ∧ right a q) ∨
    (∃ q, x p = (.error ⟨capacity⟩, q)) ∧ p.Lacks needs

theorem interning_bind_of_error {α β : Type} {x : Interning α} {next : α → Interning β}
    {e : PoolOverflow} (h : x p = (.error e, q)) :
    (x >>= next : Interning β) p = (.error e, q) := by
  simp only [bind, ExceptT.bind, ExceptT.mk, ExceptT.bindCont, StateT.bind, h]
  rfl

theorem interning_bind_of_ok {α β : Type} {x : Interning α} {next : α → Interning β} {a : α}
    (h : x p = (.ok a, q)) : (x >>= next : Interning β) p = next a q := by
  simp only [bind, ExceptT.bind, ExceptT.mk, ExceptT.bindCont, StateT.bind, h]

/-- One operation after another fills the needs of both. -/
theorem Fills.bind {α β : Type} {x : Interning α} {next : α → Interning β}
    {needs more : Finset Need} {right : α → Pool → Prop} {right' : β → Pool → Prop}
    (hx : p.Fills x needs right)
    (hnext : ∀ a q, p.Gains q needs → right a q → q.Fills (next a) more right') :
    p.Fills (x >>= next) (needs ∪ more) right' := by
  rcases hx with ⟨a, q, hx, hgains, hright⟩ | ⟨⟨q, hx⟩, hfull⟩
  · rcases hnext a q hgains hright with ⟨b, r, hnext, hgains', hright'⟩ | ⟨⟨r, hnext⟩, hfull⟩
    · refine Or.inl ⟨b, r, ?_, hgains.trans hgains', hright'⟩
      rw [interning_bind_of_ok hx, hnext]
    · refine Or.inr ⟨⟨r, ?_⟩, hgains.lacks hfull⟩
      rw [interning_bind_of_ok hx, hnext]
  · exact Or.inr ⟨⟨q, interning_bind_of_error hx⟩, hfull.union more⟩

theorem Fills.pure {α : Type} (hsize : p.size ≤ capacity) (hp : p.Sound) {a : α}
    {right : α → Pool → Prop} (h : right a p) : p.Fills (pure a) ∅ right :=
  Or.inl ⟨a, p, rfl, .of_meets hsize hp (by simp), h⟩

/-- Interning the constant for a need fills it. -/
theorem intern_fills (hsize : p.size ≤ capacity) (hp : p.Sound) (hn : p.constant? n = some c) :
    p.Fills (intern c) {n} fun index q => q.find? c = some index := by
  unfold Fills intern
  cases hfind : p.find? c with
  | some index =>
    have hc : c ∈ p.entries := by
      by_contra hnot
      rw [find?_eq_none_iff.2 hnot] at hfind
      cases hfind
    refine Or.inl ⟨index, p, rfl, .of_meets hsize hp ?_, hfind⟩
    intro n' hn'
    rw [Finset.mem_singleton.1 hn']
    exact (meets_iff_mem hn).2 hc
  | none =>
    -- The constant is new, so its need is not met and takes room for one.
    have hc := find?_eq_none_iff.1 hfind
    by_cases hroom : p.size < capacity
    · refine Or.inl ⟨p.size.toUInt16, ⟨p.entries.push c⟩, by simp [append, hroom],
        .push hp hroom hn hc, find?_push hfind⟩
    · have hfull : p.size = capacity := Nat.le_antisymm hsize (Nat.not_lt.1 hroom)
      have hunmet : ¬p.Meets n := fun hmet => hc ((meets_iff_mem hn).1 hmet)
      refine Or.inr ⟨⟨p, by simp [append, hfull]⟩, ?_⟩
      rw [Lacks, missing_singleton hunmet, hfull]
      exact Nat.lt_succ_self _

theorem internMember_fills (hsize : p.size ≤ capacity) (hp : p.Sound) (texts : MemberTexts) :
    p.Fills (internMember texts) {.text texts.owner, .text texts.name, .text texts.descriptor}
      fun m q => q.member? texts = some m := by
  have hunion : ({.text texts.owner, .text texts.name, .text texts.descriptor} : Finset Need) =
      {.text texts.owner} ∪ ({.text texts.name} ∪ ({.text texts.descriptor} ∪ ∅)) := by
    simp only [Finset.insert_eq, Finset.union_empty]
  rw [hunion]
  refine (intern_fills (n := .text texts.owner) hsize hp rfl).bind ?_
  intro owner p₁ hgains₁ howner
  refine (intern_fills (n := .text texts.name) hgains₁.size_le hgains₁.sound rfl).bind ?_
  intro name p₂ hgains₂ hname
  refine (intern_fills (n := .text texts.descriptor) hgains₂.size_le hgains₂.sound rfl).bind ?_
  intro descriptor p₃ hgains₃ hdescriptor
  -- The texts found first are where they were.
  have hlater := hgains₃.extends_pool
  refine .pure hgains₃.size_le hgains₃.sound (member?_eq_some_iff.2 ⟨?_, ?_, hdescriptor⟩)
  · exact hlater.find? (hgains₂.extends_pool.find? howner)
  · exact hlater.find? hname

theorem internMethod_fills (hsize : p.size ≤ capacity) (hp : p.Sound) (s : Symbol) :
    p.Fills (internMethod s.texts) s.needs fun _ _ => True := by
  have hunion : s.needs =
      {.text s.owner, .text s.name, .text s.signature.descriptor} ∪ {.method s.texts} := by
    ext n
    simp [Symbol.needs]
  rw [hunion]
  refine (internMember_fills hsize hp s.texts).bind ?_
  intro m q hgains hm
  have hmethod : q.constant? (.method s.texts) = some (.method m) := by
    simp [constant?, hm]
  rcases intern_fills hgains.size_le hgains.sound hmethod with ⟨index, r, h, hgains', -⟩ | hfull
  · exact Or.inl ⟨index, r, h, hgains', trivial⟩
  · exact Or.inr hfull

end Pool

end Interposition
