import Interposition.Linking.Loader
import Interposition.Proofs.Checks

/-!
# Interposition.Proofs.Linking.Defined — what holds of all modules a loader defines

`Module.define` is the only way into a space. What holds of every module it gives holds of every
module that a stack of loaders ever has or answers with (`Loader.resolveAt_all`).
-/

namespace Interposition

/-- A property of every module that bytes define. -/
def Module.OfDefine (P : Module → Prop) : Prop :=
  ∀ name bytes derived level m, Module.define name bytes derived level = .ok m → P m

/-- What bytes define is their image, accepted under the name. -/
theorem Module.define_eq_ok {name : String} {bytes : List UInt8} {derived : Bool}
    {level : Option Nat} {m : Module} (h : Module.define name bytes derived level = .ok m) :
    ∃ image, Image.decode bytes = .ok image ∧ image.verifyNamed name = .ok () ∧
      m = ⟨name, bytes, image, image.methods.map fun method => Code.offsets method.code, derived,
        level⟩ := by
  rcases bind_eq_ok_iff.1 h with ⟨image, hdecode, h⟩
  rcases check_bind_eq_ok_iff.1 h with ⟨hverify, hm⟩
  exact ⟨image, mapError_eq_ok_iff.1 hdecode, mapError_eq_ok_iff.1 hverify,
    (Except.ok.inj hm).symm⟩

/-- Defining adds one module in front, which bytes define. -/
theorem Space.define_eq_ok {s s' : Space} {name : String} {bytes : List UInt8} {derived : Bool}
    {level : Option Nat} {m : Module} (h : s.define name bytes derived level = .ok (m, s')) :
    Module.define name bytes derived level = .ok m ∧ s.contains m.name = false ∧
      s'.modules = m :: s.modules := by
  rcases bind_eq_ok_iff.1 h with ⟨m', hdefine, hinsert⟩
  rcases bind_eq_ok_iff.1 hinsert with ⟨space, hspace, hpair⟩
  rcases Prod.mk.inj (Except.ok.inj hpair) with ⟨rfl, rfl⟩
  unfold Space.insert at hspace
  split at hspace
  case isTrue => cases hspace
  case isFalse hnew =>
    rcases Except.ok.inj hspace with rfl
    exact ⟨hdefine, by simpa using hnew, rfl⟩

theorem Space.mem_of_find? {s : Space} {name : String} {m : Module}
    (h : s.find? name = some m) : m ∈ s.modules :=
  List.mem_of_find?_eq_some h

/-! ## One loader -/

variable {P : Module → Prop}

theorem Bundle.load_all (hP : Module.OfDefine P) {b : Bundle} {name : String}
    (hb : ∀ m ∈ b.space.modules, P m) :
    (∀ m ∈ (b.load name).2.space.modules, P m) ∧ ∀ m, (b.load name).1 = .ok m → P m := by
  unfold Bundle.load
  split
  case h_1 m hfind =>
    refine ⟨hb, ?_⟩
    rintro m' ⟨⟩
    exact hb m (Space.mem_of_find? hfind)
  case h_2 =>
    split
    case h_1 e he => exact ⟨hb, by simp⟩
    case h_2 m space hdefine =>
      rcases bind_eq_ok_iff.1 hdefine with ⟨bytes, -, hspace⟩
      rcases Space.define_eq_ok hspace with ⟨hm, -, hmodules⟩
      have hnew : P m := hP _ _ _ _ _ hm
      refine ⟨?_, by rintro m' ⟨⟩; exact hnew⟩
      simp only [hmodules, List.forall_mem_cons]
      exact ⟨hnew, hb⟩

/-- A layer that defines a module leaves all but its space and its tally as they are. -/
theorem Layer.define_eq (l : Layer) (level : Nat) (name : String) (bytes : List UInt8) :
    (l.define level name bytes).2.selects = l.selects ∧
      (l.define level name bytes).2.registry = l.registry := by
  unfold Layer.define
  split
  · exact ⟨rfl, rfl⟩
  · dsimp only
    split <;> exact ⟨rfl, rfl⟩

/-- A layer defines the transformed bytes, marked as derived and at its own level, or nothing. -/
theorem Layer.define_cases (l : Layer) (level : Nat) (name : String) (bytes : List UInt8) :
    ((∃ e, (l.define level name bytes).1 = .error e) ∧
        (l.define level name bytes).2.space = l.space) ∨
      ∃ encoded report m, transform l.registry.rules bytes = .ok (encoded, report) ∧
        Module.define name encoded true (some level) = .ok m ∧
        (l.define level name bytes).1 = .ok m ∧
        (l.define level name bytes).2.space.modules = m :: l.space.modules := by
  unfold Layer.define
  split
  case h_1 e he => exact Or.inl ⟨⟨e, rfl⟩, rfl⟩
  case h_2 image report hredirect =>
    dsimp only
    split
    case h_1 e he => exact Or.inl ⟨⟨e, rfl⟩, rfl⟩
    case h_2 m space hdefine =>
      rcases bind_eq_ok_iff.1 hdefine with ⟨encoded, hencode, hspace⟩
      rcases Space.define_eq_ok hspace with ⟨hm, -, hmodules⟩
      have htransform : transform l.registry.rules bytes = .ok (encoded, report) := by
        refine bind_eq_ok_iff.2 ⟨(image, report), hredirect, ?_⟩
        exact bind_eq_ok_iff.2 ⟨encoded, hencode, rfl⟩
      exact Or.inr ⟨encoded, report, m, htransform, hm, rfl, hmodules⟩

theorem Layer.define_all (hP : Module.OfDefine P) {l : Layer} (level : Nat) (name : String)
    (bytes : List UInt8) (hl : ∀ m ∈ l.space.modules, P m) :
    (∀ m ∈ (l.define level name bytes).2.space.modules, P m) ∧
      ∀ m, (l.define level name bytes).1 = .ok m → P m := by
  rcases l.define_cases level name bytes with
    ⟨⟨e, he⟩, hspace⟩ | ⟨encoded, report, m, -, hm, hanswer, hmodules⟩
  · rw [hspace, he]
    exact ⟨hl, by simp⟩
  · have hnew : P m := hP _ _ _ _ _ hm
    rw [hmodules, hanswer]
    exact ⟨List.forall_mem_cons.2 ⟨hnew, hl⟩, by rintro m' ⟨⟩; exact hnew⟩

/-! ## Stacks -/

namespace Loader

/-- All modules of all spaces of a stack have a property. -/
def All (P : Module → Prop) : Loader → Prop
  | bundle b => ∀ m ∈ b.space.modules, P m
  | layer l below => (∀ m ∈ l.space.modules, P m) ∧ below.All P

theorem All.find? {l : Loader} {name : String} {m : Module} (hl : l.All P)
    (h : l.find? name = some m) : P m := by
  induction l with
  | bundle b => exact hl m (Space.mem_of_find? h)
  | layer l below ih =>
    rw [Loader.find?] at h
    split at h
    · exact hl.1 m (Space.mem_of_find? h)
    · exact ih hl.2 h

theorem load_all (hP : Module.OfDefine P) {l : Loader} {name : String} (hl : l.All P) :
    (l.load name).2.All P ∧ ∀ m, (l.load name).1 = .ok m → P m := by
  induction l with
  | bundle b => exact Bundle.load_all hP hl
  | layer l below ih =>
    rw [load]
    dsimp only
    split
    · split
      · exact ⟨hl, by simp⟩
      · split
        · exact ⟨hl, by simp⟩
        case h_2 bytes hbytes =>
          rcases Layer.define_all (l := l.freeze) hP (below.level + 1) name bytes hl.1 with
            ⟨hspace, hanswer⟩
          exact ⟨⟨hspace, hl.2⟩, hanswer⟩
    · rcases ih hl.2 with ⟨hbelow, hanswer⟩
      exact ⟨⟨hl.1, hbelow⟩, hanswer⟩

theorem resolve_all (hP : Module.OfDefine P) {l : Loader} {name : String} (hl : l.All P) :
    (l.resolve name).2.All P ∧ ∀ m, (l.resolve name).1 = .ok m → P m := by
  rw [resolve]
  split
  case h_1 m hfind =>
    refine ⟨hl, ?_⟩
    rintro m' ⟨⟩
    exact hl.find? hfind
  case h_2 => exact load_all hP hl

/-- What a loader at some level does to its modules is all that changes. -/
theorem within_all {α : Type} {Q : α → Prop} {act : Loader → α × Loader} {level : Nat}
    {l : Loader} (hact : ∀ l : Loader, l.All P → (act l).2.All P ∧ Q (act l).1)
    (hl : l.All P) : (l.within level act).2.All P ∧ Q (l.within level act).1 := by
  induction l with
  | bundle b => exact hact _ hl
  | layer l below ih =>
    rw [within]
    split
    · exact hact _ hl
    · rcases ih hl.2 with ⟨hbelow, hanswer⟩
      exact ⟨⟨hl.1, hbelow⟩, hanswer⟩

/-- Resolving at a level keeps what holds of all modules, and it holds of the answer. -/
theorem resolveAt_all (hP : Module.OfDefine P) {l : Loader} (level : Nat) (name : String)
    (hl : l.All P) :
    (l.resolveAt level name).2.All P ∧ ∀ m, (l.resolveAt level name).1 = .ok m → P m := by
  have hact (here : Loader) (h : here.All P) :
      (here.resolve name).2.All P ∧ ∀ m, (here.resolve name).1 = .ok m → P m :=
    resolve_all hP h
  exact within_all (Q := fun answer : Except Error Module => ∀ m, answer = .ok m → P m)
    hact hl

end Loader

end Interposition
