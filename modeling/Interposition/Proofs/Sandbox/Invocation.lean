import Interposition.Proofs.Machine.Soundness
import Interposition.Sandbox.Entry

/-!
# Interposition.Proofs.Sandbox.Invocation — what an invocation calls

An invocation resolves the module of its entry point, finds a method there and calls it on a machine
that has executed nothing yet. If there is no such method, nothing is called
(`Sandbox.invoke_of_error`); otherwise the invocation is that call (`Sandbox.invoke_of_ok`).
-/

namespace Interposition

/-- An entry point finds a static method of its name and descriptor, with a parameter for each
argument. -/
theorem EntryPoint.found {entry : EntryPoint} {m : Module} {args : List Value} {index : Nat}
    (h : entry.find m args = .ok index) :
    m.image.findMethod? entry.method entry.descriptor = some index ∧
      m.image.methods[index]?.any Method.isStatic = true ∧
      ∃ signature, Signature.parse entry.descriptor = .ok signature ∧
        signature.arity = args.length := by
  unfold find at h
  split at h
  case h_2 => cases h
  case h_1 index' hfind =>
    dsimp only at h
    split at h
    case isFalse => cases h
    case isTrue hstatic =>
      rcases bind_eq_ok_iff.1 h with ⟨signature, hparse, h⟩
      split at h
      case isTrue => cases h
      case isFalse harity =>
        split at h
        case h_1 => cases h
        case h_2 =>
          obtain rfl : index' = index := Except.ok.inj h
          exact ⟨hfind, hstatic, signature, mapError_eq_ok_iff.1 hparse, Decidable.not_not.1 harity⟩

/-- The method that an entry point finds has slots for as many arguments as are given. -/
theorem EntryPoint.find_eq_ok {entry : EntryPoint} {m : Module} {args : List Value} {index : Nat}
    (h : entry.find m args = .ok index) :
    ∃ method signature, m.image.methods[index]? = some method ∧
      m.image.methodDescriptor? method = some entry.descriptor ∧
      Signature.parse entry.descriptor = .ok signature ∧
      args.length = Routine.argumentSlots method signature := by
  rcases found h with ⟨hfind, hstatic, signature, hparse, harity⟩
  have hfound : (m.image.findMethod? entry.method entry.descriptor).filter (fun index =>
      m.image.methods[index]?.any fun method => method.isStatic == true) = some index := by
    refine Option.filter_eq_some_iff.2 ⟨hfind, ?_⟩
    simpa using hstatic
  rcases Image.of_findMethod?_filter hfound with ⟨method, hmethod, hdescriptor, hkind⟩
  refine ⟨method, signature, hmethod, hdescriptor, hparse, ?_⟩
  rw [Routine.argumentSlots, hkind, ← harity]
  rfl

namespace Sandbox

/-- An entry point is resolved as its module is. -/
theorem resolveEntry_eq (s : Sandbox) (entry : EntryPoint) :
    (s.resolveEntry entry).2 = (s.loader.resolve entry.module).2 ∧
      ∀ m, (s.resolveEntry entry).1 = .ok m → (s.loader.resolve entry.module).1 = .ok m := by
  unfold resolveEntry
  split
  case h_1 name loader hresolve => simp [hresolve]
  case h_2 => exact ⟨rfl, fun m h => h⟩

/-- The module and the method that an invocation calls. -/
def called (s : Sandbox) (entry : EntryPoint) (args : List Value) : Except Error (Module × Nat) :=
  (s.resolveEntry entry).1 >>= fun module => (module, ·) <$> entry.find module args

/-- The machine that an invocation starts. -/
def machine (s : Sandbox) (entry : EntryPoint) : Machine :=
  ⟨0, some (s.resolveEntry entry).2, s.world⟩

variable {s : Sandbox} {entry : EntryPoint} {args : List Value}

theorem called_eq_ok_iff {module : Module} {index : Nat} :
    s.called entry args = .ok (module, index) ↔
      (s.resolveEntry entry).1 = .ok module ∧ entry.find module args = .ok index := by
  rw [called, bind_eq_ok_iff]
  constructor
  · rintro ⟨module', hmodule, hfind⟩
    rcases map_eq_ok_iff.1 hfind with ⟨index', hindex, heq⟩
    rcases Prod.mk.inj heq with ⟨rfl, rfl⟩
    exact ⟨hmodule, hindex⟩
  · rintro ⟨hmodule, hindex⟩
    exact ⟨module, hmodule, map_eq_ok_iff.2 ⟨index, hindex, rfl⟩⟩

theorem invoke_of_error {e : Error} (h : s.called entry args = .error e) :
    s.invoke entry args = (.error (.error e), { s with loader := (s.resolveEntry entry).2 }) := by
  unfold called at h
  unfold invoke
  dsimp only
  rw [h]

theorem invoke_of_ok {module : Module} {index : Nat}
    (h : s.called entry args = .ok (module, index)) :
    s.invoke entry args =
      (((s.machine entry).call s.env module index args).2.outcome entry.text,
        { s with
          loader := ((s.machine entry).call s.env module index args).1.loader.getD
            (s.resolveEntry entry).2
          world := ((s.machine entry).call s.env module index args).1.world }) := by
  unfold called at h
  unfold invoke
  dsimp only
  rw [h]
  rfl

end Sandbox

end Interposition
