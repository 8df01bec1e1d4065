import Interposition.Proofs.Linking.Mediation

/-!
# Interposition.Proofs.Linking.Coherence — what a stack answers depends on the name alone

A space is a cache. `Loader.answer` says what a stack answers from its resources, the names its
layers take and their rules, without any space. A stack whose spaces hold only such answers is
coherent. It answers so itself, whatever has been loaded before (`Coherent.resolveAt`), and all
that becomes of it is coherent again (`Evolves.coherent`).
-/

namespace Interposition

/-! ## Spaces -/

/-- What is found under a name is related to it. -/
def Space.Holds (s : Space) (P : String → Module → Prop) : Prop :=
  ∀ name m, s.find? name = some m → P name m

theorem Space.holds_empty (P : String → Module → Prop) : Space.empty.Holds P := by
  intro name m hfind
  cases hfind

/-- A module that is put in front is found under its own name and under no other. -/
theorem Space.Holds.cons {s s' : Space} {m : Module} {P : String → Module → Prop} (hs : s.Holds P)
    (hm : P m.name m) (hmodules : s'.modules = m :: s.modules) : s'.Holds P := by
  intro name m' hfind
  rw [find?, hmodules, List.find?_cons] at hfind
  by_cases hname : m.name = name
  · obtain rfl : m = m' := by simpa [hname] using hfind
    rwa [← hname]
  · exact hs name m' (by simpa [hname, find?] using hfind)

theorem Module.name_of_define {name : String} {bytes : List UInt8} {derived : Bool}
    {level : Option Nat} {m : Module} (h : Module.define name bytes derived level = .ok m) :
    m.name = name := by
  rcases define_eq_ok h with ⟨image, -, -, rfl⟩
  rfl

/-- A name that is free is defined as its bytes say. -/
theorem Space.define_of_free {s : Space} {name : String} {bytes : List UInt8} {derived : Bool}
    {level : Option Nat} (h : s.contains name = false) :
    s.define name bytes derived level =
      (Module.define name bytes derived level).map fun m => (m, ⟨m :: s.modules⟩) := by
  unfold define
  cases hdefine : Module.define name bytes derived level with
  | error e => rfl
  | ok m =>
    have hfree : s.contains m.name = false := by rwa [Module.name_of_define hdefine]
    simp [insert, hfree, bind, Except.bind, Except.map, pure, Except.pure]

/-! ## Answers -/

/-- What is kept in memory is there or is not. -/
theorem Resources.readModule_memory {files : List (String × List UInt8)} {name : String}
    {bytes : List UInt8} :
    (memory files).readModule name = .ok bytes ↔
      files.lookup (resourcePath name) = some bytes := by
  cases hfiles : files.lookup (resourcePath name) with
  | none => simp [readModule, read, hfiles]
  | some found => simp [readModule, read, hfiles]

/-- What a layer makes of the bytes of a module it has not defined yet. -/
def Layer.answer (l : Layer) (level : Nat) (name : String) (bytes : List UInt8) :
    Except Error Module := do
  let (encoded, _) ← transform l.registry.rules bytes
  Module.define name encoded true (some level)

namespace Loader

/-- What a stack answers for a name that no loader has defined yet. -/
def answer : Loader → String → Except Error Module
  | bundle b, name => do Module.define name (← b.resources.readModule name) false (some 0)
  | layer l below, name =>
    if l.selects name then do
      l.answer (below.level + 1) name (← below.resources.readModule name)
    else below.answer name

/-- What the loader at a level of a stack answers so. -/
def answerAt (level : Nat) : Loader → String → Except Error Module
  | bundle b, name => (bundle b).answer name
  | layer l below, name =>
    if below.level < level then (layer l below).answer name else below.answerAt level name

/-- Every module that a loader of the stack has defined for itself is the answer for its name. -/
def Coherent : Loader → Prop
  | bundle b => b.space.Holds fun name m => (bundle b).answer name = .ok m
  | layer l below => below.Coherent ∧ l.space.Holds fun name m =>
      l.selects name = true → (layer l below).answer name = .ok m

/-- The stack as it is before anything is loaded. -/
def fresh : Loader → Loader
  | bundle b => bundle (.of b.resources)
  | layer l below => layer ⟨l.selects, ⟨l.registry.rules, false⟩, .empty, .zero⟩ below.fresh

@[simp] theorem level_fresh (l : Loader) : l.fresh.level = l.level := by
  induction l with
  | bundle b => rfl
  | layer l below ih => exact congrArg (· + 1) ih

@[simp] theorem resources_fresh (l : Loader) : l.fresh.resources = l.resources := by
  induction l with
  | bundle b => rfl
  | layer l below ih => exact ih

/-- Answers do not depend on what has been loaded. -/
@[simp] theorem answer_fresh (l : Loader) (name : String) :
    l.fresh.answer name = l.answer name := by
  induction l with
  | bundle b => rfl
  | layer l below ih => simp only [fresh, answer, Layer.answer, level_fresh, resources_fresh, ih]

@[simp] theorem answerAt_fresh (level : Nat) (l : Loader) (name : String) :
    l.fresh.answerAt level name = l.answerAt level name := by
  induction l with
  | bundle b => rfl
  | layer l below ih =>
    have htop := answer_fresh (layer l below) name
    simp only [fresh] at htop
    simp only [fresh, answerAt, level_fresh, ih, htop]

theorem answerAt_level (l : Loader) (name : String) :
    l.answerAt l.level name = l.answer name := by
  cases l with
  | bundle b => rfl
  | layer l below =>
    rw [answerAt, if_pos]
    exact Nat.lt_succ_self _

/-- A bundle that has defined nothing is coherent. -/
theorem coherent_bundle (r : Resources) : (bundle (.of r)).Coherent :=
  Space.holds_empty _

/-- A layer that has defined nothing makes a coherent stack of one. -/
theorem coherent_layer {l : Layer} {below : Loader} (hbelow : below.Coherent)
    (hspace : l.space = .empty) : (layer l below).Coherent := by
  refine ⟨hbelow, ?_⟩
  rw [hspace]
  exact Space.holds_empty _

theorem Coherent.find? {l : Loader} {name : String} {m : Module} (hl : l.Coherent)
    (h : l.find? name = some m) : l.answer name = .ok m := by
  induction l with
  | bundle b => exact hl name m h
  | layer l below ih =>
    rw [Loader.find?] at h
    by_cases hselects : l.selects name = true
    · rw [if_pos hselects] at h
      exact hl.2 name m h hselects
    · rw [if_neg hselects] at h
      rw [answer, if_neg hselects]
      exact ih hl.1 h

/-! ## Loading -/

end Loader

/-- A bundle answers with the module it has or defines, and adds at most that. -/
theorem Bundle.load_coherent {b : Bundle} (hb : (Loader.bundle b).Coherent) (name : String) :
    (b.load name).1 = (Loader.bundle b).answer name ∧
      (b.load name).2.resources = b.resources ∧ (Loader.bundle (b.load name).2).Coherent := by
  unfold Bundle.load
  cases hfind : b.space.find? name with
  | some m => exact ⟨(hb name m hfind).symm, rfl, hb⟩
  | none =>
    have hfree : b.space.contains name = false := by simp [Space.contains, hfind]
    simp only [Loader.answer]
    cases hread : b.resources.readModule name with
    | error e => exact ⟨rfl, rfl, hb⟩
    | ok bytes =>
      simp only [bind, Except.bind, Space.define_of_free hfree]
      cases hdefine : Module.define name bytes false (some 0) with
      | error e => exact ⟨rfl, rfl, hb⟩
      | ok m =>
        have hanswer : (Loader.bundle b).answer m.name = .ok m := by
          rw [Module.name_of_define hdefine]
          simp [Loader.answer, hread, hdefine, bind, Except.bind]
        have hnew : Space.Holds ⟨m :: b.space.modules⟩ fun name m =>
            (Loader.bundle b).answer name = .ok m := hb.cons hanswer rfl
        exact ⟨rfl, rfl, hnew⟩

/-- What a layer answers with is at its level, and its image is the redirected one. -/
theorem Layer.answer_eq_ok {l : Layer} {level : Nat} {name : String} {bytes : List UInt8}
    {m : Module} (h : l.answer level name bytes = .ok m) :
    m.name = name ∧ m.level = some level ∧ ∃ original report, Image.decode bytes = .ok original ∧
      original.redirect l.registry.rules = .ok (m.image, report) := by
  rcases bind_eq_ok_iff.1 h with ⟨⟨encoded, report⟩, htransform, hdefine⟩
  rcases Module.image_of_transform htransform hdefine with
    ⟨hname, hlevel, original, hdecode, hredirect⟩
  exact ⟨hname, hlevel, original, report, hdecode, hredirect⟩

/-- A layer answers for a free name with what its rules make of the bytes, and adds at most
that. -/
theorem Layer.define_answer {l : Layer} {name : String} (level : Nat) (bytes : List UInt8)
    (hfree : l.space.contains name = false) :
    (l.define level name bytes).1 = l.answer level name bytes ∧
      ((l.define level name bytes).2.space = l.space ∨
        ∃ m, l.answer level name bytes = .ok m ∧ m.name = name ∧
          (l.define level name bytes).2.space.modules = m :: l.space.modules) := by
  unfold Layer.define Layer.answer transform
  cases hredirect : redirectBytes l.registry.rules bytes with
  | error e => exact ⟨rfl, Or.inl rfl⟩
  | ok redirected =>
    rcases redirected with ⟨image, report⟩
    simp only [bind, Except.bind]
    cases hencode : image.encode.mapError Error.encode with
    | error e => exact ⟨rfl, Or.inl rfl⟩
    | ok encoded =>
      simp only [Space.define_of_free hfree, pure, Except.pure]
      cases hdefine : Module.define name encoded true (some level) with
      | error e => exact ⟨rfl, Or.inl rfl⟩
      | ok m => exact ⟨rfl, Or.inr ⟨m, rfl, Module.name_of_define hdefine, rfl⟩⟩

namespace Loader

/-- Another state of the same stack: coherent, with the resources, names and rules it had. -/
structure Keeps (l k : Loader) : Prop where
  coherent : k.Coherent
  fresh_eq : k.fresh = l.fresh

theorem Keeps.trans {l k j : Loader} (hlk : l.Keeps k) (hkj : k.Keeps j) : l.Keeps j :=
  ⟨hkj.coherent, hkj.fresh_eq.trans hlk.fresh_eq⟩

theorem Keeps.answer_eq {l k : Loader} (h : l.Keeps k) (name : String) :
    k.answer name = l.answer name := by
  rw [← k.answer_fresh, h.fresh_eq, l.answer_fresh]

theorem Keeps.answerAt_eq {l k : Loader} (h : l.Keeps k) (level : Nat) (name : String) :
    k.answerAt level name = l.answerAt level name := by
  rw [← k.answerAt_fresh, h.fresh_eq, l.answerAt_fresh]

/-- A layer keeps what it was when it stays as it is or defines the answer for a free name, and
the stack below keeps what it was. -/
theorem Keeps.layer {l k : Layer} {below under : Loader}
    (hl : (Loader.layer l below).Coherent) (hbelow : below.Keeps under)
    (hselects : k.selects = l.selects) (hrules : k.registry.rules = l.registry.rules)
    (hspace : k.space = l.space ∨ ∃ m, (Loader.layer l below).answer m.name = .ok m ∧
      k.space.modules = m :: l.space.modules) :
    (Loader.layer l below).Keeps (Loader.layer k under) := by
  have hfresh : (Loader.layer k under).fresh = (Loader.layer l below).fresh := by
    simp only [fresh, hselects, hrules, hbelow.fresh_eq]
  have hanswer (name : String) :
      (Loader.layer k under).answer name = (Loader.layer l below).answer name := by
    rw [← answer_fresh, hfresh, answer_fresh]
  refine ⟨⟨hbelow.coherent, ?_⟩, hfresh⟩
  simp only [hselects, hanswer]
  rcases hspace with hspace | ⟨m, hm, hmodules⟩
  · rw [hspace]
    exact hl.2
  · exact hl.2.cons (fun _ => hm) hmodules

/-- Loading keeps a stack, and answers for a name that has not been defined. -/
theorem Coherent.load {l : Loader} (hl : l.Coherent) (name : String) :
    l.Keeps (l.load name).2 ∧ (l.find? name = none → (l.load name).1 = l.answer name) := by
  induction l with
  | bundle b =>
    rcases b.load_coherent hl name with ⟨hanswer, hresources, hcoherent⟩
    refine ⟨⟨hcoherent, ?_⟩, fun _ => hanswer⟩
    exact congrArg (fun r => bundle (.of r)) hresources
  | layer l below ih =>
    have hbelow : below.Keeps below := ⟨hl.1, rfl⟩
    have hstays : (layer l below).Keeps (.layer l.freeze below) :=
      .layer hl hbelow rfl rfl (Or.inl rfl)
    rw [Loader.load, Loader.find?, answer]
    dsimp only
    by_cases hselects : l.selects name = true
    · have hselects' : l.freeze.selects name = true := hselects
      simp only [hselects', hselects, if_true]
      by_cases hcontains : l.freeze.space.contains name = true
      · rw [if_pos hcontains]
        refine ⟨hstays, fun hnone => ?_⟩
        have hsome : (l.space.find? name).isSome = true := hcontains
        rw [hnone] at hsome
        cases hsome
      · have hfree : l.freeze.space.contains name = false := by simpa using hcontains
        rw [if_neg hcontains]
        cases hread : below.resources.readModule name with
        | error e => exact ⟨hstays, fun _ => rfl⟩
        | ok bytes =>
          rcases l.freeze.define_eq (below.level + 1) name bytes with ⟨htakes, hregistry⟩
          rcases Layer.define_answer (below.level + 1) bytes hfree with ⟨hanswer, hspace⟩
          refine ⟨.layer hl hbelow htakes (by rw [hregistry]; rfl) ?_,
            fun _ => hanswer⟩
          refine hspace.imp_right ?_
          rintro ⟨m, hm, hname, hmodules⟩
          refine ⟨m, ?_, hmodules⟩
          rw [hname, answer, if_pos hselects, hread]
          exact hm
    · have hselects' : ¬ l.freeze.selects name = true := hselects
      rcases ih hl.1 with ⟨hkeeps, hanswer⟩
      simp only [hselects', hselects, if_false, Bool.false_eq_true]
      exact ⟨.layer hl hkeeps rfl rfl (Or.inl rfl), hanswer⟩

theorem Coherent.resolve {l : Loader} (hl : l.Coherent) (name : String) :
    l.Keeps (l.resolve name).2 ∧ (l.resolve name).1 = l.answer name := by
  unfold Loader.resolve
  cases hfind : l.find? name with
  | some m => exact ⟨⟨hl, rfl⟩, (hl.find? hfind).symm⟩
  | none =>
    rcases hl.load name with ⟨hkeeps, hanswer⟩
    exact ⟨hkeeps, hanswer hfind⟩

/-- What the loader at a level keeps, the stack keeps. -/
theorem Coherent.within {α : Type} {act : Loader → α × Loader} {l : Loader} (hl : l.Coherent)
    (hact : ∀ k : Loader, k.Coherent → k.Keeps (act k).2) (level : Nat) :
    l.Keeps (l.within level act).2 := by
  induction l with
  | bundle b => exact hact _ hl
  | layer l below ih =>
    rw [Loader.within]
    split
    · exact hact _ hl
    · exact .layer hl (ih hl.1) rfl rfl (Or.inl rfl)

/-- A coherent stack answers by the name alone, at each of its levels. -/
theorem Coherent.resolveAt {l : Loader} (hl : l.Coherent) (level : Nat) (name : String) :
    l.Keeps (l.resolveAt level name).2 ∧ (l.resolveAt level name).1 = l.answerAt level name := by
  refine ⟨hl.within (fun k hk => (hk.resolve name).1) level, ?_⟩
  unfold Loader.resolveAt
  induction l with
  | bundle b => exact (hl.resolve name).2
  | layer l below ih =>
    rw [Loader.within, answerAt]
    split
    · exact (hl.resolve name).2
    · exact ih hl.1

/-- All that becomes of a coherent stack is coherent and answers alike. -/
theorem Evolves.keeps {l k : Loader} (h : l.Evolves k) (hl : l.Coherent) : l.Keeps k := by
  induction h with
  | refl => exact ⟨hl, rfl⟩
  | load _ level name ih =>
    exact ih.trans (ih.coherent.within (fun k hk => (hk.load name).1) level)
  | resolve _ level name ih => exact ih.trans (ih.coherent.resolveAt level name).1

/-- What holds of all modules that bytes define holds of all modules of what becomes of a
stack. -/
theorem Evolves.all {P : Module → Prop} (hP : Module.OfDefine P) {l k : Loader}
    (h : l.Evolves k) (hl : l.All P) : k.All P := by
  induction h with
  | refl => exact hl
  | load _ level name ih =>
    have hact (here : Loader) (hhere : here.All P) :
        (here.load name).2.All P ∧ True := ⟨(load_all hP hhere).1, trivial⟩
    exact (within_all (Q := fun _ => True) hact ih).1
  | resolve _ level name ih => exact (resolveAt_all hP level name ih).1

end Loader

end Interposition
