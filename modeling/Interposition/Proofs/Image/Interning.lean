import Interposition.Image.Intern
import Interposition.Proofs.Checks
import Mathlib.Data.Nat.Basic
import Mathlib.Order.Basic

/-!
# Interposition.Proofs.Image.Interning — what interning adds and keeps

A pool that grows keeps its entries where they are (`Pool.Extends`), so whatever was read in it
reads the same later. An operation that interns answers with a position that holds what was
asked for, and adds nothing but that and the texts it is made of (`internEntry_ok`).
-/

namespace Interposition

/-- A number of 16 bits is a position of that number. -/
theorem toNat_toUInt16 {n : Nat} (h : n ≤ 65535) : n.toUInt16.toNat = n := by
  simp only [Nat.toUInt16_eq, UInt16.toNat_ofNat']
  omega

def MemberTexts.toList (texts : MemberTexts) : List String :=
  [texts.owner, texts.name, texts.descriptor]

namespace Pool

/-! ## Growing -/

/-- `more` has the entries of `p` first, each where it was. -/
def Extends (more p : Pool) : Prop :=
  p.entries.toList <+: more.entries.toList

theorem Extends.refl (p : Pool) : p.Extends p :=
  List.prefix_refl _

theorem Extends.trans {p q r : Pool} (hrq : r.Extends q) (hqp : q.Extends p) : r.Extends p :=
  List.IsPrefix.trans hqp hrq

/-- What was added to a pool that was extended. -/
theorem Extends.exists_added {p q : Pool} (h : q.Extends p) :
    ∃ added : Array Constant, q.entries = p.entries ++ added := by
  rcases h with ⟨added, hadded⟩
  refine ⟨added.toArray, ?_⟩
  rw [← Array.toList_inj, Array.toList_append, ← hadded]

theorem Extends.get? {p q : Pool} (h : q.Extends p) {index : UInt16} {c : Constant}
    (hc : p.get? index = some c) : q.get? index = some c := by
  rcases h.exists_added with ⟨added, hadded⟩
  rcases Array.getElem?_eq_some_iff.1 hc with ⟨hlt, heq⟩
  rw [Pool.get?, hadded, Array.getElem?_append_left hlt, Array.getElem?_eq_getElem hlt, heq]

theorem get?_of_utf8? {p : Pool} {index : UInt16} {text : String}
    (h : p.utf8? index = some text) : p.get? index = some (.utf8 text) := by
  unfold utf8? at h
  split at h
  case h_1 s hs =>
    rcases Option.some.inj h with rfl
    exact hs
  case h_2 => cases h

theorem utf8?_of_get? {p : Pool} {index : UInt16} {text : String}
    (h : p.get? index = some (.utf8 text)) : p.utf8? index = some text := by
  rw [utf8?, h]

theorem Extends.utf8? {p q : Pool} (h : q.Extends p) {index : UInt16} {text : String}
    (htext : p.utf8? index = some text) : q.utf8? index = some text :=
  utf8?_of_get? (h.get? (get?_of_utf8? htext))

/-- A member has texts when each of its positions does. -/
theorem texts?_eq_some_iff {p : Pool} {m : Member} {texts : MemberTexts} :
    p.texts? m = some texts ↔
      p.utf8? m.owner = some texts.owner ∧ p.utf8? m.name = some texts.name ∧
        p.utf8? m.descriptor = some texts.descriptor := by
  rcases texts with ⟨owner, name, descriptor⟩
  cases howner : p.utf8? m.owner <;> cases hname : p.utf8? m.name <;>
    cases hdescriptor : p.utf8? m.descriptor <;>
    simp [texts?, howner, hname, hdescriptor]

theorem Extends.texts? {p q : Pool} (h : q.Extends p) {m : Member} {texts : MemberTexts}
    (htexts : p.texts? m = some texts) : q.texts? m = some texts := by
  rcases texts?_eq_some_iff.1 htexts with ⟨howner, hname, hdescriptor⟩
  exact texts?_eq_some_iff.2 ⟨h.utf8? howner, h.utf8? hname, h.utf8? hdescriptor⟩

theorem method?_eq_some_iff {p : Pool} {index : UInt16} {texts : MemberTexts} :
    p.method? index = some texts ↔
      ∃ m, p.get? index = some (.method m) ∧ p.texts? m = some texts := by
  unfold method?
  split
  case h_1 m hm => simp [hm]
  case h_2 hnot =>
    constructor
    · rintro ⟨⟩
    · rintro ⟨m, hm, -⟩
      exact absurd hm (hnot m)

theorem str?_eq_some_iff {p : Pool} {index : UInt16} {text : String} :
    p.str? index = some text ↔ ∃ i, p.get? index = some (.str i) ∧ p.utf8? i = some text := by
  unfold str?
  split
  case h_1 i hi => simp [hi]
  case h_2 hnot =>
    constructor
    · rintro ⟨⟩
    · rintro ⟨i, hi, -⟩
      exact absurd hi (hnot i)

theorem Extends.str? {p q : Pool} (h : q.Extends p) {index : UInt16} {text : String}
    (htext : p.str? index = some text) : q.str? index = some text := by
  rcases str?_eq_some_iff.1 htext with ⟨i, hget, htext⟩
  exact str?_eq_some_iff.2 ⟨i, h.get? hget, h.utf8? htext⟩

theorem Extends.method? {p q : Pool} (h : q.Extends p) {index : UInt16} {texts : MemberTexts}
    (hm : p.method? index = some texts) : q.method? index = some texts := by
  rcases method?_eq_some_iff.1 hm with ⟨m, hget, htexts⟩
  exact method?_eq_some_iff.2 ⟨m, h.get? hget, h.texts? htexts⟩

theorem field?_eq_some_iff {p : Pool} {index : UInt16} {texts : MemberTexts} :
    p.field? index = some texts ↔
      ∃ m, p.get? index = some (.field m) ∧ p.texts? m = some texts := by
  unfold field?
  split
  case h_1 m hm => simp [hm]
  case h_2 hnot =>
    constructor
    · rintro ⟨⟩
    · rintro ⟨m, hm, -⟩
      exact absurd hm (hnot m)

theorem Extends.field? {p q : Pool} (h : q.Extends p) {index : UInt16} {texts : MemberTexts}
    (hm : p.field? index = some texts) : q.field? index = some texts := by
  rcases field?_eq_some_iff.1 hm with ⟨m, hget, htexts⟩
  exact field?_eq_some_iff.2 ⟨m, h.get? hget, h.texts? htexts⟩

/-! ## Reading alike -/

/-- What an operand is read as is the same in two pools. -/
structure ReadsAlike (p q : Pool) (index : UInt16) : Prop where
  get?_eq : q.get? index = p.get? index
  method?_eq : q.method? index = p.method? index
  field?_eq : q.field? index = p.field? index

theorem ReadsAlike.symm {p q : Pool} {index : UInt16} (h : p.ReadsAlike q index) :
    q.ReadsAlike p index :=
  ⟨h.get?_eq.symm, h.method?_eq.symm, h.field?_eq.symm⟩

theorem utf8?_congr {p q : Pool} {index : UInt16} (h : q.get? index = p.get? index) :
    q.utf8? index = p.utf8? index := by
  rw [utf8?, utf8?, h]

theorem texts?_congr {p q : Pool} {m : Member} (howner : q.get? m.owner = p.get? m.owner)
    (hname : q.get? m.name = p.get? m.name)
    (hdescriptor : q.get? m.descriptor = p.get? m.descriptor) : q.texts? m = p.texts? m := by
  rw [texts?, texts?, utf8?_congr howner, utf8?_congr hname, utf8?_congr hdescriptor]

/-- Two pools that hold the same at a position, and the same texts of a member there, read it
alike. -/
theorem readsAlike_of_get? {p q : Pool} {index : UInt16} (hget : q.get? index = p.get? index)
    (htexts : ∀ m, p.get? index = some (.method m) ∨ p.get? index = some (.field m) →
      q.texts? m = p.texts? m) : p.ReadsAlike q index := by
  refine ⟨hget, ?_, ?_⟩
  · rw [method?, method?, hget]
    split
    case h_1 m hm => exact htexts m (Or.inl hm)
    case h_2 => rfl
  · rw [field?, field?, hget]
    split
    case h_1 m hm => exact htexts m (Or.inr hm)
    case h_2 => rfl

/-- There is a constant at a position, and the texts of a member there. -/
structure Provides (p : Pool) (index : UInt16) : Prop where
  constant : (p.get? index).isSome
  texts : ∀ m, p.get? index = some (.method m) ∨ p.get? index = some (.field m) →
    (p.texts? m).isSome

theorem Provides.lt {p : Pool} {index : UInt16} (h : p.Provides index) :
    index.toNat < p.size := by
  rcases Option.isSome_iff_exists.1 h.constant with ⟨c, hc⟩
  exact (Array.getElem?_eq_some_iff.1 hc).1

/-- What a pool provides is read alike when the pool has grown. -/
theorem Extends.readsAlike {p q : Pool} (h : q.Extends p) {index : UInt16}
    (hindex : p.Provides index) : p.ReadsAlike q index := by
  rcases Option.isSome_iff_exists.1 hindex.constant with ⟨c, hc⟩
  apply readsAlike_of_get?
  · rw [hc, h.get? hc]
  · intro m hm
    rcases Option.isSome_iff_exists.1 (hindex.texts m hm) with ⟨texts, htexts⟩
    rw [htexts, h.texts? htexts]

/-! ## One constant -/

/-- What an operation that interns leaves behind: the pool extended within its capacity by
constants of a kind. -/
structure Grows (p q : Pool) (added : Constant → Prop) : Prop where
  extends_pool : q.Extends p
  size_le : q.size ≤ capacity
  of_mem : ∀ c ∈ q.entries, c ∈ p.entries ∨ added c

theorem Grows.refl {p : Pool} (hp : p.size ≤ capacity) (added : Constant → Prop) :
    p.Grows p added :=
  ⟨.refl p, hp, fun _ hc => Or.inl hc⟩

theorem Grows.trans {p q r : Pool} {added added' more : Constant → Prop} (hpq : p.Grows q added)
    (hqr : q.Grows r added') (hadded : ∀ c, added c → more c) (hadded' : ∀ c, added' c → more c) :
    p.Grows r more := by
  refine ⟨hqr.extends_pool.trans hpq.extends_pool, hqr.size_le, ?_⟩
  intro c hc
  rcases hqr.of_mem c hc with hc | hc
  · exact (hpq.of_mem c hc).imp_right (hadded c)
  · exact Or.inr (hadded' c hc)

theorem Grows.mono {p q : Pool} {added more : Constant → Prop} (hpq : p.Grows q added)
    (hadded : ∀ c, added c → more c) : p.Grows q more :=
  ⟨hpq.extends_pool, hpq.size_le, fun c hc => (hpq.of_mem c hc).imp_right (hadded c)⟩

/-- An operation answers after another one that answered. -/
theorem interning_bind_eq_ok {α β : Type} {x : Interning α} {next : α → Interning β}
    {p q : Pool} {b : β} :
    (x >>= next : Interning β) p = (.ok b, q) ↔
      ∃ a mid, x p = (.ok a, mid) ∧ next a mid = (.ok b, q) := by
  simp only [bind, ExceptT.bind, ExceptT.mk, ExceptT.bindCont, StateT.bind]
  cases hx : x p with
  | mk answer mid =>
    cases answer with
    | error e =>
      constructor
      · rintro ⟨⟩
      · rintro ⟨a, mid', ⟨⟩, -⟩
    | ok a =>
      constructor
      · intro hnext
        exact ⟨a, mid, rfl, hnext⟩
      · rintro ⟨a', mid', ⟨⟩, hnext⟩
        exact hnext

theorem interning_pure_eq_ok {α : Type} {p q : Pool} {a b : α} :
    (pure a : Interning α) p = (.ok b, q) ↔ a = b ∧ p = q := by
  constructor
  · rintro ⟨⟩
    exact ⟨rfl, rfl⟩
  · rintro ⟨rfl, rfl⟩
    rfl

/-- An interned constant is where it is said to be. -/
theorem intern_ok {c : Constant} {p q : Pool} {index : UInt16}
    (h : intern c p = (.ok index, q)) (hp : p.size ≤ capacity) :
    p.Grows q (· = c) ∧ q.get? index = some c := by
  unfold intern at h
  split at h
  case h_1 found hfound =>
    rcases Prod.mk.inj h with ⟨hindex, rfl⟩
    rcases Except.ok.inj hindex with rfl
    refine ⟨.refl hp _, ?_⟩
    rcases Option.map_eq_some_iff.1 hfound with ⟨i, hi, rfl⟩
    rcases Array.findIdx?_eq_some_iff_getElem.1 hi with ⟨hlt, heq, -⟩
    have hlt' : i < p.size := hlt
    have hle : i ≤ 65535 := (Nat.le_of_lt hlt').trans hp
    rw [get?, toNat_toUInt16 hle, Array.getElem?_eq_getElem hlt]
    simpa using heq
  case h_2 =>
    unfold append at h
    split at h
    case isTrue hroom =>
      rcases Prod.mk.inj h with ⟨hindex, rfl⟩
      rcases Except.ok.inj hindex with rfl
      refine ⟨⟨?_, ?_, ?_⟩, ?_⟩
      · simp [Extends]
      · simpa [size] using Nat.succ_le_of_lt hroom
      · simp
      · rw [get?, toNat_toUInt16 (Nat.le_of_lt hroom), size, Array.getElem?_push_size]
    case isFalse => cases h

/-! ## Members -/

/-- The texts of a member are interned one after the other. -/
theorem internMember_ok {texts : MemberTexts} {p q : Pool} {m : Member}
    (h : internMember texts p = (.ok m, q)) (hp : p.size ≤ capacity) :
    p.Grows q (fun c => ∃ text ∈ texts.toList, c = .utf8 text) ∧ q.texts? m = some texts := by
  rcases interning_bind_eq_ok.1 h with ⟨owner, p₁, howner, h⟩
  rcases interning_bind_eq_ok.1 h with ⟨name, p₂, hname, h⟩
  rcases interning_bind_eq_ok.1 h with ⟨descriptor, p₃, hdescriptor, h⟩
  rcases interning_pure_eq_ok.1 h with ⟨rfl, rfl⟩
  rcases intern_ok howner hp with ⟨hgrows₁, hget₁⟩
  rcases intern_ok hname hgrows₁.size_le with ⟨hgrows₂, hget₂⟩
  rcases intern_ok hdescriptor hgrows₂.size_le with ⟨hgrows₃, hget₃⟩
  constructor
  · have hgrows : p.Grows p₂ (fun c => ∃ text ∈ texts.toList, c = .utf8 text) :=
      hgrows₁.trans hgrows₂ (fun c hc => ⟨texts.owner, by simp [MemberTexts.toList], hc⟩)
        (fun c hc => ⟨texts.name, by simp [MemberTexts.toList], hc⟩)
    exact hgrows.trans hgrows₃ (fun c hc => hc)
      (fun c hc => ⟨texts.descriptor, by simp [MemberTexts.toList], hc⟩)
  · have hlater := hgrows₃.extends_pool
    exact texts?_eq_some_iff.2 ⟨
      hlater.utf8? (hgrows₂.extends_pool.utf8? (utf8?_of_get? hget₁)),
      hlater.utf8? (utf8?_of_get? hget₂), utf8?_of_get? hget₃⟩

/-- An entry made of a member is where it is said to be, and what was added for it is the entry
and the texts of the member. -/
theorem internEntry_ok {make : Member → Constant} {texts : MemberTexts} {p q : Pool}
    {index : UInt16}
    (h : (do intern (make (← internMember texts)) : Interning UInt16) p = (.ok index, q))
    (hp : p.size ≤ capacity) :
    ∃ m, p.Grows q (fun c => (∃ text ∈ texts.toList, c = .utf8 text) ∨ c = make m) ∧
      q.get? index = some (make m) ∧ q.texts? m = some texts := by
  rcases interning_bind_eq_ok.1 h with ⟨m, mid, hmember, h⟩
  rcases internMember_ok hmember hp with ⟨hgrows, htexts⟩
  rcases intern_ok h hgrows.size_le with ⟨hgrows', hget⟩
  exact ⟨m, hgrows.trans hgrows' (fun c hc => Or.inl hc) (fun c hc => Or.inr hc), hget,
    hgrows'.extends_pool.texts? htexts⟩

/-- A method is where it is said to be, and what was added for it is the method and texts. -/
theorem internMethod_ok {texts : MemberTexts} {p q : Pool} {index : UInt16}
    (h : internMethod texts p = (.ok index, q)) (hp : p.size ≤ capacity) :
    p.Grows q (fun c => (∃ text, c = .utf8 text) ∨
        ∃ m, c = .method m ∧ q.texts? m = some texts) ∧
      q.method? index = some texts := by
  rcases internEntry_ok h hp with ⟨m, hgrows, hget, htexts⟩
  refine ⟨⟨hgrows.extends_pool, hgrows.size_le, ?_⟩, method?_eq_some_iff.2 ⟨m, hget, htexts⟩⟩
  intro c hc
  refine (hgrows.of_mem c hc).imp_right ?_
  rintro (⟨text, -, rfl⟩ | rfl)
  · exact Or.inl ⟨text, rfl⟩
  · exact Or.inr ⟨m, rfl, htexts⟩

end Pool

end Interposition
