import Interposition.Proofs.Image.Room

/-!
# Interposition.Proofs.Image.Demand — what interning leaves behind, done or refused

A demand takes an entry, and first the texts that the entry refers to. `Demand.missing` lists the
constants of a demand that a pool lacks, in the order they are appended. Interning appends the
whole list, or as much of it as there is room for if that is less (`Pool.Appends`), and the laws of
interning are read off the list (`Demand.intern_lawful`).

Nothing is asked of what is in the pool: it may hold an entry twice, and entries that refer to one of
another kind or to none. What refers to a text refers to the first entry of that text.
-/

namespace Interposition

/-! ## Demands -/

/-- What a pool is asked for. -/
inductive Demand where
  | utf8 (text : String)
  | int (value : Int64)
  | str (text : String)
  | method (texts : MemberTexts)
  | field (texts : MemberTexts)
deriving DecidableEq

namespace Demand

def intern : Demand → Interning UInt16
  | utf8 text => Pool.internUtf8 text
  | int value => Pool.internInt value
  | str text => Pool.internStr text
  | method texts => Pool.internMethod texts
  | field texts => Pool.internField texts

/-- A position of a pool reads as what was asked for. -/
def ReadAt (p : Pool) (index : UInt16) : Demand → Prop
  | utf8 text => p.utf8? index = some text
  | int value => p.get? index = some (.int value)
  | str text => p.str? index = some text
  | method texts => p.method? index = some texts
  | field texts => p.field? index = some texts

/-- The texts that the entry of a demand refers to. -/
def texts : Demand → List String
  | utf8 _ | int _ => []
  | str text => [text]
  | method texts | field texts => texts.toList

/-- The entry of a demand. It refers to the first position of each of its texts, so there is one if
the pool has these. -/
def entry? (p : Pool) : Demand → Option Constant
  | utf8 text => some (.utf8 text)
  | int value => some (.int value)
  | str text => (p.find? (.utf8 text)).map .str
  | method texts => (p.member? texts).map .method
  | field texts => (p.member? texts).map .field

end Demand

namespace Pool

variable {p q : Pool} {c : Constant}

/-! ## Appended constants -/

def adding (p : Pool) (added : List Constant) : Pool :=
  ⟨p.entries ++ added.toArray⟩

@[simp]
theorem adding_nil (p : Pool) : p.adding [] = p := by
  simp [adding]

theorem adding_adding (p : Pool) (first more : List Constant) :
    (p.adding first).adding more = p.adding (first ++ more) := by
  simp [adding]

@[simp]
theorem size_adding (p : Pool) (added : List Constant) :
    (p.adding added).size = p.size + added.length := by
  simp [adding, size]

theorem extends_adding (p : Pool) (added : List Constant) : (p.adding added).Extends p := by
  simp [Extends, adding]

/-- The constants of a list that a pool lacks, each of them once. -/
def fresh (p : Pool) : List Constant → List Constant
  | [] => []
  | c :: rest => if c ∈ p.entries then p.fresh rest else c :: (p.adding [c]).fresh rest

theorem fresh_singleton_of_mem (hc : c ∈ p.entries) : p.fresh [c] = [] := by
  simp [fresh, hc]

theorem fresh_singleton_of_not_mem (hc : c ∉ p.entries) : p.fresh [c] = [c] := by
  simp [fresh, hc]

theorem fresh_cons (p : Pool) (c : Constant) (rest : List Constant) :
    p.fresh (c :: rest) = p.fresh [c] ++ (p.adding (p.fresh [c])).fresh rest := by
  by_cases hc : c ∈ p.entries
  · rw [fresh_singleton_of_mem hc, adding_nil, List.nil_append, fresh, if_pos hc]
  · rw [fresh_singleton_of_not_mem hc, fresh, if_neg hc, List.singleton_append]

/-- No constant of a list is in the pool or twice in the list. -/
def Novel (p : Pool) (added : List Constant) : Prop :=
  added.Nodup ∧ ∀ c ∈ added, c ∉ p.entries

theorem Novel.append {first more : List Constant} (hfirst : p.Novel first)
    (hmore : (p.adding first).Novel more) : p.Novel (first ++ more) := by
  have hnot : ∀ c ∈ more, c ∉ p.entries ∧ c ∉ first := by
    intro c hc
    have hnot : c ∉ p.entries ++ first.toArray := hmore.2 c hc
    simpa using hnot
  constructor
  · refine List.nodup_append.2 ⟨hfirst.1, hmore.1, ?_⟩
    rintro c hc c' hc' rfl
    exact (hnot c hc').2 hc
  · intro c hc
    rcases List.mem_append.1 hc with hc | hc
    · exact hfirst.2 c hc
    · exact (hnot c hc).1

theorem Novel.take {added : List Constant} (h : p.Novel added) (room : Nat) :
    p.Novel (added.take room) :=
  ⟨h.1.sublist (List.take_sublist room added), fun c hc => h.2 c (List.mem_of_mem_take hc)⟩

theorem fresh_novel (p : Pool) (wanted : List Constant) : p.Novel (p.fresh wanted) := by
  induction wanted generalizing p with
  | nil => exact ⟨List.nodup_nil, by simp [fresh]⟩
  | cons c rest ih =>
    have hc : p.Novel (p.fresh [c]) := by
      by_cases hc : c ∈ p.entries
      · rw [fresh_singleton_of_mem hc]
        exact ⟨List.nodup_nil, by simp⟩
      · rw [fresh_singleton_of_not_mem hc]
        exact ⟨List.nodup_singleton c, by simpa using hc⟩
    rw [fresh_cons]
    exact hc.append (ih _)

/-! ## Operations that append -/

/-- An operation that appends a list of constants and gives an answer that is right then, or
appends as many of them as there is room for and is refused. -/
structure Appends {α : Type} (p : Pool) (x : Interning α) (list : List Constant)
    (right : α → Pool → Prop) : Prop where
  done : p.size + list.length ≤ capacity →
    ∃ a, x p = (.ok a, p.adding list) ∧ right a (p.adding list)
  refused : capacity < p.size + list.length →
    x p = (.error ⟨capacity⟩, p.adding (list.take (capacity - p.size)))

theorem Appends.pure {α : Type} (hp : p.size ≤ capacity) {a : α} {right : α → Pool → Prop}
    (h : right a p) : p.Appends (pure a) [] right := by
  constructor
  · intro _
    rw [adding_nil]
    exact ⟨a, rfl, h⟩
  · intro hfull
    exact absurd hfull (Nat.not_lt.2 hp)

/-- One operation after another appends the lists of both. -/
theorem Appends.bind {α β : Type} {x : Interning α} {next : α → Interning β}
    {first more : List Constant} {right : α → Pool → Prop} {right' : β → Pool → Prop}
    (hx : p.Appends x first right)
    (hnext : ∀ a, (p.adding first).size ≤ capacity → right a (p.adding first) →
      (p.adding first).Appends (next a) more right') :
    p.Appends (x >>= next) (first ++ more) right' := by
  have hlength : (first ++ more).length = first.length + more.length := List.length_append
  have hsize : (p.adding first).size = p.size + first.length := size_adding p first
  constructor
  · intro hroom
    obtain ⟨a, hx, ha⟩ := hx.done (by omega)
    obtain ⟨b, hb, hright⟩ := (hnext a (by omega) ha).done (by omega)
    rw [adding_adding] at hb hright
    exact ⟨b, by rw [interning_bind_of_ok hx, hb], hright⟩
  · intro hfull
    rw [List.take_append]
    by_cases hroom : p.size + first.length ≤ capacity
    · -- The first list fits, and the room that it leaves goes to the second one.
      obtain ⟨a, hx, ha⟩ := hx.done hroom
      have hwhole : first.take (capacity - p.size) = first := List.take_of_length_le (by omega)
      have hleft : capacity - p.size - first.length = capacity - (p.adding first).size := by omega
      rw [interning_bind_of_ok hx, (hnext a (by omega) ha).refused (by omega), adding_adding,
        hwhole, hleft]
    · have hnone : capacity - p.size - first.length = 0 := by omega
      rw [interning_bind_of_error (hx.refused (by omega)), hnone, List.take_zero, List.append_nil]

theorem intern_of_find? {index : UInt16} (h : p.find? c = some index) :
    Pool.intern c p = (.ok index, p) := by
  rw [Pool.intern, h]

/-- Interning a constant appends it if it is not there, and the answer is its first position. -/
theorem intern_appends (hp : p.size ≤ capacity) (c : Constant) :
    p.Appends (Pool.intern c) (p.fresh [c]) fun index q => q.find? c = some index := by
  by_cases hc : c ∈ p.entries
  · have hfound : p.find? c ≠ none := fun hnone => find?_eq_none_iff.1 hnone hc
    obtain ⟨index, hindex⟩ := Option.ne_none_iff_exists'.1 hfound
    rw [fresh_singleton_of_mem hc]
    constructor
    · intro _
      rw [adding_nil]
      exact ⟨index, intern_of_find? hindex, hindex⟩
    · intro hfull
      exact absurd hfull (Nat.not_lt.2 hp)
  · have hnone : p.find? c = none := find?_eq_none_iff.2 hc
    have hpush : p.adding [c] = ⟨p.entries.push c⟩ := by
      simp [adding]
    rw [fresh_singleton_of_not_mem hc]
    constructor
    · intro hroom
      have hlt : p.size < capacity := hroom
      rw [hpush]
      refine ⟨p.size.toUInt16, ?_, find?_push hnone⟩
      rw [Pool.intern, hnone]
      simp [append, hlt]
    · intro hfull
      have hsize : p.size = capacity := Nat.le_antisymm hp (Nat.le_of_lt_succ hfull)
      rw [Pool.intern, hnone]
      simp [append, hsize]

/-- What is interned first of a list is appended first. -/
theorem intern_bind_appends {α : Type} {next : UInt16 → Interning α} {rest : List Constant}
    {right : α → Pool → Prop} (hp : p.size ≤ capacity)
    (hnext : ∀ index, (p.adding (p.fresh [c])).size ≤ capacity →
      (p.adding (p.fresh [c])).find? c = some index →
      (p.adding (p.fresh [c])).Appends (next index) ((p.adding (p.fresh [c])).fresh rest) right) :
    p.Appends (Pool.intern c >>= next) (p.fresh (c :: rest)) right := by
  rw [fresh_cons]
  exact (intern_appends hp c).bind hnext

/-- The texts of a member are appended in their order. -/
theorem internMember_appends (hp : p.size ≤ capacity) (texts : MemberTexts) :
    p.Appends (internMember texts) (p.fresh (texts.toList.map .utf8))
      fun m q => q.member? texts = some m := by
  show p.Appends (internMember texts)
    (p.fresh [.utf8 texts.owner, .utf8 texts.name, .utf8 texts.descriptor]) _
  refine intern_bind_appends hp ?_
  intro owner hsize₁ howner
  refine intern_bind_appends hsize₁ ?_
  intro name hsize₂ hname
  refine intern_bind_appends hsize₂ ?_
  intro descriptor hsize₃ hdescriptor
  -- The texts found first are where they were.
  refine .pure hsize₃ (member?_eq_some_iff.2 ⟨?_, ?_, hdescriptor⟩)
  · exact (extends_adding _ _).find? ((extends_adding _ _).find? howner)
  · exact (extends_adding _ _).find? hname

theorem internMember_of_member? {texts : MemberTexts} {m : Member} (h : p.member? texts = some m) :
    internMember texts p = (.ok m, p) := by
  obtain ⟨howner, hname, hdescriptor⟩ := member?_eq_some_iff.1 h
  unfold internMember internUtf8
  rw [interning_bind_of_ok (intern_of_find? howner), interning_bind_of_ok (intern_of_find? hname),
    interning_bind_of_ok (intern_of_find? hdescriptor)]
  rfl

end Pool

/-! ## Laws of interning -/

namespace Demand

open Pool (capacity)

variable {p q : Pool} {index : UInt16}

/-- The constants of a demand that a pool lacks: texts, and the entry that refers to them. If the
texts alone do not fit in the pool, the list is too long whatever stands behind them. -/
def missing (p : Pool) (d : Demand) : List Constant :=
  p.fresh (d.texts.map .utf8) ++
    (p.adding (p.fresh (d.texts.map .utf8))).fresh
      (d.entry? (p.adding (p.fresh (d.texts.map .utf8)))).toList

/-- The first position of the entry of a demand. -/
def FirstAt (p : Pool) (index : UInt16) (d : Demand) : Prop :=
  ∃ c, d.entry? p = some c ∧ p.find? c = some index

/-- The entry of a demand does not change when the pool grows. -/
theorem entry?_of_extends (h : q.Extends p) {d : Demand} {c : Constant} (hc : d.entry? p = some c) :
    d.entry? q = some c := by
  cases d with
  | utf8 _ | int _ => exact hc
  | str text =>
    obtain ⟨i, hi, rfl⟩ := Option.map_eq_some_iff.1 hc
    exact Option.map_eq_some_iff.2 ⟨i, h.find? hi, rfl⟩
  | method texts | field texts =>
    obtain ⟨m, hm, rfl⟩ := Option.map_eq_some_iff.1 hc
    exact Option.map_eq_some_iff.2 ⟨m, h.member? hm, rfl⟩

theorem FirstAt.readAt (hq : q.size ≤ capacity) {d : Demand} (h : d.FirstAt q index) :
    d.ReadAt q index := by
  obtain ⟨c, hentry, hfind⟩ := h
  have hget : q.get? index = some c := ((Pool.find?_eq_some_iff hq).1 hfind).1
  cases d with
  | utf8 text =>
    obtain rfl := Option.some.inj hentry
    exact Pool.utf8?_of_get? hget
  | int value =>
    obtain rfl := Option.some.inj hentry
    exact hget
  | str text =>
    obtain ⟨i, hi, rfl⟩ := Option.map_eq_some_iff.1 hentry
    have htext : q.utf8? i = some text :=
      Pool.utf8?_of_get? ((Pool.find?_eq_some_iff hq).1 hi).1
    exact Pool.str?_eq_some_iff.2 ⟨i, hget, htext⟩
  | method texts =>
    obtain ⟨m, hm, rfl⟩ := Option.map_eq_some_iff.1 hentry
    exact Pool.method?_eq_some_iff.2 ⟨m, hget, Pool.texts?_of_member? hq hm⟩
  | field texts =>
    obtain ⟨m, hm, rfl⟩ := Option.map_eq_some_iff.1 hentry
    exact Pool.field?_eq_some_iff.2 ⟨m, hget, Pool.texts?_of_member? hq hm⟩

/-- A demand that is met already adds nothing. -/
theorem FirstAt.intern_eq {d : Demand} (h : d.FirstAt q index) :
    d.intern q = (.ok index, q) := by
  obtain ⟨c, hentry, hfind⟩ := h
  cases d with
  | utf8 _ | int _ =>
    obtain rfl := Option.some.inj hentry
    exact Pool.intern_of_find? hfind
  | str text =>
    obtain ⟨i, hi, rfl⟩ := Option.map_eq_some_iff.1 hentry
    exact (Pool.interning_bind_of_ok (Pool.intern_of_find? hi)).trans (Pool.intern_of_find? hfind)
  | method texts | field texts =>
    obtain ⟨m, hm, rfl⟩ := Option.map_eq_some_iff.1 hentry
    exact (Pool.interning_bind_of_ok (Pool.internMember_of_member? hm)).trans
      (Pool.intern_of_find? hfind)

/-- An entry is interned after the texts that it refers to. -/
theorem appends_of_texts {α : Type} {d : Demand} {x : Interning α} (make : α → Constant)
    {right : α → Pool → Prop} (hx : p.Appends x (p.fresh (d.texts.map .utf8)) right)
    (hentry : ∀ a q, right a q → d.entry? q = some (make a)) :
    p.Appends (x >>= fun a => Pool.intern (make a)) (d.missing p)
      fun index q => d.FirstAt q index := by
  refine hx.bind ?_
  intro a hsize ha
  have hmake := hentry a _ ha
  rw [hmake]
  constructor
  · intro hroom
    obtain ⟨index, hintern, hfind⟩ := (Pool.intern_appends hsize (make a)).done hroom
    exact ⟨index, hintern, make a, entry?_of_extends (Pool.extends_adding _ _) hmake, hfind⟩
  · exact (Pool.intern_appends hsize (make a)).refused

/-- Interning appends what is missing, and answers with the first position of the entry. -/
theorem intern_appends (hp : p.size ≤ capacity) (d : Demand) :
    p.Appends d.intern (d.missing p) fun index q => d.FirstAt q index := by
  cases d with
  | utf8 text =>
    have htexts : p.Appends (pure ()) (p.fresh []) fun _ _ => True := .pure hp trivial
    exact appends_of_texts (d := .utf8 text) (fun _ => .utf8 text) htexts fun _ _ _ => rfl
  | int value =>
    have htexts : p.Appends (pure ()) (p.fresh []) fun _ _ => True := .pure hp trivial
    exact appends_of_texts (d := .int value) (fun _ => .int value) htexts fun _ _ _ => rfl
  | str text =>
    refine appends_of_texts (d := .str text) .str (Pool.intern_appends hp (.utf8 text)) ?_
    intro i q hi
    exact Option.map_eq_some_iff.2 ⟨i, hi, rfl⟩
  | method texts =>
    refine appends_of_texts (d := .method texts) .method (Pool.internMember_appends hp texts) ?_
    intro m q hm
    exact Option.map_eq_some_iff.2 ⟨m, hm, rfl⟩
  | field texts =>
    refine appends_of_texts (d := .field texts) .field (Pool.internMember_appends hp texts) ?_
    intro m q hm
    exact Option.map_eq_some_iff.2 ⟨m, hm, rfl⟩

theorem missing_novel (p : Pool) (d : Demand) : p.Novel (d.missing p) :=
  (Pool.fresh_novel p _).append (Pool.fresh_novel _ _)

/-- A demand leaves behind what was missing, as far as there was room for it. -/
theorem intern_snd (hp : p.size ≤ capacity) (d : Demand) :
    (d.intern p).2 = p.adding ((d.missing p).take (capacity - p.size)) := by
  have happends := intern_appends hp d
  by_cases hroom : p.size + (d.missing p).length ≤ capacity
  · obtain ⟨index, hintern, -⟩ := happends.done hroom
    have hwhole : (d.missing p).take (capacity - p.size) = d.missing p :=
      List.take_of_length_le (by omega)
    rw [hintern, hwhole]
  · rw [happends.refused (Nat.not_le.1 hroom)]

theorem size_intern (hp : p.size ≤ capacity) (d : Demand) :
    (d.intern p).2.size = min (p.size + (d.missing p).length) capacity := by
  rw [intern_snd hp, Pool.size_adding, List.length_take]
  omega

/-- What a demand answers, and what it leaves behind. -/
structure Lawful (p : Pool) (d : Demand) (answer : Except PoolOverflow UInt16) (q : Pool) :
    Prop where
  /-- The old pool is the start of the new one, and no appended entry equals an earlier one. -/
  appended : ∃ added, q.entries = p.entries ++ added.toArray ∧ added.Nodup ∧
    (∀ c ∈ added, c ∉ p.entries) ∧ added <+: d.missing p
  size_le : q.size ≤ capacity
  /-- The position reads as what was asked for, and asking again gives it and adds nothing. -/
  done : ∀ index, answer = .ok index → d.ReadAt q index ∧ d.intern q = (.ok index, q)
  /-- The pool is full, and what was missing did not fit in the room that was left. -/
  refused : ∀ e, answer = .error e →
    e.size = capacity ∧ q.size = capacity ∧ capacity < p.size + (d.missing p).length

/-- Whatever a pool within its capacity holds, a demand obeys the laws of interning. -/
theorem intern_lawful (hp : p.size ≤ capacity) (d : Demand) :
    d.Lawful p (d.intern p).1 (d.intern p).2 := by
  have happends := intern_appends hp d
  have hnovel := (missing_novel p d).take (capacity - p.size)
  have hsize := size_intern hp d
  have hle : (d.intern p).2.size ≤ capacity := by omega
  refine ⟨⟨_, by rw [intern_snd hp]; rfl, hnovel.1, hnovel.2, List.take_prefix _ _⟩, hle, ?_, ?_⟩
  · intro index hindex
    by_cases hroom : p.size + (d.missing p).length ≤ capacity
    · obtain ⟨index', hintern, hfirst⟩ := happends.done hroom
      rw [hintern] at hindex hle ⊢
      obtain rfl := Except.ok.inj hindex
      exact ⟨hfirst.readAt hle, hfirst.intern_eq⟩
    · rw [happends.refused (Nat.not_le.1 hroom)] at hindex
      cases hindex
  · intro e he
    by_cases hroom : p.size + (d.missing p).length ≤ capacity
    · obtain ⟨index, hintern, -⟩ := happends.done hroom
      rw [hintern] at he
      cases he
    · have hfull : capacity < p.size + (d.missing p).length := Nat.not_le.1 hroom
      rw [happends.refused hfull] at he
      obtain rfl := Except.error.inj he
      exact ⟨rfl, by omega, hfull⟩

/-- A pool that holds a text twice and a literal without one. -/
theorem intern_lawful_dangling :
    Lawful ⟨#[.utf8 "f", .utf8 "f", .str 9]⟩ (.method ⟨"A", "f", "()V"⟩) (.ok 5)
      ⟨#[.utf8 "f", .utf8 "f", .str 9, .utf8 "A", .utf8 "()V", .method ⟨3, 0, 4⟩]⟩ := by
  have hsize : Pool.size ⟨#[.utf8 "f", .utf8 "f", .str 9]⟩ ≤ capacity := by decide
  have hintern : intern (.method ⟨"A", "f", "()V"⟩) ⟨#[.utf8 "f", .utf8 "f", .str 9]⟩ = (.ok 5,
      ⟨#[.utf8 "f", .utf8 "f", .str 9, .utf8 "A", .utf8 "()V", .method ⟨3, 0, 4⟩]⟩) := by
    change @Eq (Except PoolOverflow UInt16 × Pool) _ _
    decide +kernel
  have hlawful := intern_lawful hsize (.method ⟨"A", "f", "()V"⟩)
  rw [hintern] at hlawful
  exact hlawful

/-! ## One demand after another -/

/-- A pool after demands, some of which may have been refused. -/
def afterAll (p : Pool) (demands : List Demand) : Pool :=
  demands.foldl (fun q d => (d.intern q).2) p

/-- However many demands there are, entries stay where they are, none is added twice, and the pool
stays within its capacity. -/
theorem afterAll_adding (hp : p.size ≤ capacity) (demands : List Demand) :
    ∃ added, afterAll p demands = p.adding added ∧ p.Novel added ∧
      (p.adding added).size ≤ capacity := by
  induction demands generalizing p with
  | nil => exact ⟨[], (Pool.adding_nil p).symm, ⟨List.nodup_nil, by simp⟩, by simpa using hp⟩
  | cons d rest ih =>
    have hfirst := (missing_novel p d).take (capacity - p.size)
    have hsize := size_intern hp d
    rw [intern_snd hp] at hsize
    have hroom : (p.adding ((d.missing p).take (capacity - p.size))).size ≤ capacity := by omega
    obtain ⟨more, hmore, hnovel, hle⟩ := ih hroom
    refine ⟨_, ?_, hfirst.append hnovel, ?_⟩
    · rw [← Pool.adding_adding, ← hmore, ← intern_snd hp]
      rfl
    · rw [← Pool.adding_adding]
      exact hle

end Demand

end Interposition
