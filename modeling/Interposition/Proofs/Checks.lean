import Interposition.Image.Encode
import Mathlib.Data.List.Forall2

/-!
# Interposition.Proofs.Checks — what a passed check says

A check is a computation that may end in a fault. These lemmas take a check that passed apart
into the checks it is made of.
-/

namespace Interposition

variable {ε φ α β : Type}

/-- A sequence of two checks passes when both do. -/
theorem bind_eq_ok_iff {x : Except ε α} {next : α → Except ε β} {b : β} :
    x >>= next = .ok b ↔ ∃ a, x = .ok a ∧ next a = .ok b := by
  cases x with
  | error e => simp [bind, Except.bind]
  | ok a => simp [bind, Except.bind]

/-- A check that answers nothing passes, and then the next one does. -/
theorem check_bind_eq_ok_iff {x : Except ε Unit} {next : Unit → Except ε β} {b : β} :
    x >>= next = .ok b ↔ x = .ok () ∧ next () = .ok b := by
  rw [bind_eq_ok_iff]
  constructor
  · rintro ⟨⟨⟩, hx, hnext⟩
    exact ⟨hx, hnext⟩
  · rintro ⟨hx, hnext⟩
    exact ⟨(), hx, hnext⟩

theorem map_eq_ok_iff {x : Except ε α} {f : α → β} {b : β} :
    x.map f = .ok b ↔ ∃ a, x = .ok a ∧ f a = b := by
  cases x with
  | error e => simp [Except.map]
  | ok a => simp [Except.map]

@[simp] theorem mapError_ok {a : α} {f : ε → φ} :
    (Except.ok a : Except ε α).mapError f = .ok a := rfl

@[simp] theorem mapError_error {e : ε} {f : ε → φ} :
    (Except.error e : Except ε α).mapError f = .error (f e) := rfl

/-- Renaming faults changes nothing about what passes. -/
@[simp] theorem mapError_eq_ok_iff {x : Except ε α} {f : ε → φ} {a : α} :
    x.mapError f = .ok a ↔ x = .ok a := by
  cases x with
  | error e => simp
  | ok b => simp

theorem toOption_eq_some_iff {x : Except ε α} {a : α} : x.toOption = some a ↔ x = .ok a := by
  cases x with
  | error e => simp [Except.toOption]
  | ok b => simp [Except.toOption]

/-- A list passes when each of its elements does, with its index. -/
theorem checkEach_eq_ok_iff {check : Nat → α → Except ε Unit} {start : Nat} {as : List α} :
    checkEach check start as = .ok () ↔
      ∀ i a, as[i]? = some a → check (start + i) a = .ok () := by
  induction as generalizing start with
  | nil => simp [checkEach]
  | cons a rest ih =>
    rw [checkEach]
    cases hfirst : check start a with
    | error e =>
      simp only [reduceCtorEq, false_iff]
      intro hall
      have h := hall 0 a rfl
      rw [Nat.add_zero, hfirst] at h
      cases h
    | ok u =>
      rw [ih]
      constructor
      · intro hall i b hb
        cases i with
        | zero =>
          obtain rfl : a = b := by simpa using hb
          exact hfirst
        | succ i =>
          have h := hall i b hb
          rwa [Nat.add_assoc, Nat.add_comm 1 i] at h
      · intro hall i b hb
        have h := hall (i + 1) b hb
        rwa [← Nat.add_assoc, Nat.add_right_comm] at h

/-- A list fails where the first of its elements does, with the fault of that element. -/
theorem checkEach_eq_error_iff {check : Nat → α → Except ε Unit} {start : Nat} {as : List α}
    {e : ε} :
    checkEach check start as = .error e ↔
      ∃ i a, as[i]? = some a ∧ check (start + i) a = .error e ∧
        ∀ j < i, ∀ b, as[j]? = some b → check (start + j) b = .ok () := by
  induction as generalizing start with
  | nil => simp [checkEach]
  | cons a rest ih =>
    rw [checkEach]
    cases hfirst : check start a with
    | error e' =>
      constructor
      · intro h
        have he : e' = e := Except.error.inj h
        refine ⟨0, a, rfl, ?_, ?_⟩
        · rw [Nat.add_zero, hfirst, he]
        · intro j hj
          exact absurd hj (Nat.not_lt_zero j)
      · rintro ⟨i, b, hb, hfails, hbefore⟩
        cases i with
        | zero =>
          obtain rfl : a = b := by simpa using hb
          rw [Nat.add_zero, hfirst] at hfails
          exact hfails
        | succ i =>
          -- The first element would have passed.
          have hpassed := hbefore 0 (Nat.succ_pos i) a rfl
          rw [Nat.add_zero, hfirst] at hpassed
          cases hpassed
    | ok u =>
      have hshift (i : Nat) : start + 1 + i = start + (i + 1) := by omega
      simp only [ih, hshift]
      constructor
      · rintro ⟨i, b, hb, hfails, hbefore⟩
        refine ⟨i + 1, b, hb, hfails, ?_⟩
        intro j hj c hc
        cases j with
        | zero =>
          obtain rfl : a = c := by simpa using hc
          exact hfirst
        | succ j => exact hbefore j (Nat.lt_of_succ_lt_succ hj) c hc
      · rintro ⟨i, b, hb, hfails, hbefore⟩
        cases i with
        | zero =>
          obtain rfl : a = b := by simpa using hb
          rw [Nat.add_zero, hfirst] at hfails
          cases hfails
        | succ i =>
          refine ⟨i, b, hb, hfails, ?_⟩
          intro j hj c hc
          exact hbefore (j + 1) (Nat.succ_lt_succ hj) c hc

/-- Mapping a list passes when each of its elements does. -/
theorem mapM_eq_ok_iff {f : α → Except ε β} {as : List α} {bs : List β} :
    as.mapM f = .ok bs ↔ List.Forall₂ (fun a b => f a = .ok b) as bs := by
  induction as generalizing bs with
  | nil => simp [pure, Except.pure, eq_comm]
  | cons a rest ih =>
    simp only [List.mapM_cons, bind_eq_ok_iff, ih, List.forall₂_cons_left_iff]
    constructor
    · rintro ⟨b, hb, later, hlater, hbs⟩
      exact ⟨b, later, hb, hlater, (Except.ok.inj hbs).symm⟩
    · rintro ⟨b, later, hb, hlater, rfl⟩
      exact ⟨b, hb, later, hlater, rfl⟩

/-- Mapping a list fails with the fault of one of its elements. -/
theorem exists_of_mapM_eq_error {f : α → Except ε β} {as : List α} {e : ε}
    (h : as.mapM f = .error e) : ∃ a ∈ as, f a = .error e := by
  induction as with
  | nil => cases h
  | cons a rest ih =>
    rw [List.mapM_cons] at h
    cases hfirst : f a with
    | error e' =>
      rw [hfirst] at h
      obtain rfl : e' = e := Except.error.inj h
      exact ⟨a, List.mem_cons_self, hfirst⟩
    | ok b =>
      cases hrest : rest.mapM f with
      | error e' =>
        rw [hfirst, hrest] at h
        obtain rfl : e' = e := Except.error.inj h
        rcases ih hrest with ⟨a', ha', hfails⟩
        exact ⟨a', List.mem_cons_of_mem a ha', hfails⟩
      | ok bs =>
        rw [hfirst, hrest] at h
        cases h

/-! ## Two computations -/

/-- Two computations are alike if they end in the same fault, or with results that are related. -/
inductive Alike {ε α β : Type} (R : α → β → Prop) : Except ε α → Except ε β → Prop
  | error (e : ε) : Alike R (.error e) (.error e)
  | ok {a : α} {b : β} (h : R a b) : Alike R (.ok a) (.ok b)

namespace Alike

variable {γ δ : Type} {R : α → β → Prop} {S : γ → δ → Prop}

/-- Computations that are alike are equal if related results are. -/
theorem eq {T : α → α → Prop} {x y : Except ε α} (h : Alike T x y) (hT : ∀ a b, T a b → a = b) :
    x = y := by
  cases h with
  | error e => rfl
  | ok hab => rw [hT _ _ hab]

/-- A computation is like itself if its result is related to itself. -/
theorem refl {T : α → α → Prop} {x : Except ε α} (h : ∀ a, x = .ok a → T a a) : Alike T x x := by
  cases x with
  | error e => exact .error e
  | ok a => exact .ok (h a rfl)

variable {x : Except ε α} {y : Except ε β} {next : α → Except ε γ} {next' : β → Except ε δ}

/-- What goes on alike from related results is alike. -/
theorem bind_of_eq (h : Alike R x y)
    (hnext : ∀ a b, x = .ok a → R a b → Alike S (next a) (next' b)) :
    Alike S (x >>= next) (y >>= next') := by
  cases h with
  | error e => exact .error e
  | ok hR => exact hnext _ _ rfl hR

theorem bind (h : Alike R x y) (hnext : ∀ a b, R a b → Alike S (next a) (next' b)) :
    Alike S (x >>= next) (y >>= next') :=
  h.bind_of_eq fun a b _ hR => hnext a b hR

end Alike

end Interposition
