import Interposition.Proofs.Linking.Defined

/-!
# Interposition.Proofs.Linking.Requests — what a layer leaves to the loader below

A loader is asked to load a name, to resolve it, for the module it has found for it already, and for
the bytes of a resource. A layer passes on what it is asked about names that it does not take, and
all resources. The answers to that, and what becomes of the loader below, are as if the loader below
had been asked these things alone (`Loader.exchanges_passed`): nothing that the layer is asked about
its own names is seen there, whether it succeeds or fails.
-/

namespace Interposition

/-! ## Requests -/

/-- What a loader is asked. -/
inductive Request where
  | load (name : String)
  | resolve (name : String)
  /-- For the module that is there already. -/
  | find (name : String)
  | resource (path : String)

inductive Response where
  | module (answer : Except Error Module)
  | found (module? : Option Module)
  | bytes (answer : Except Error (Option (List UInt8)))

namespace Loader

def respond (l : Loader) : Request → Response × Loader
  | .load name => ((l.load name).1 |> .module, (l.load name).2)
  | .resolve name => ((l.resolve name).1 |> .module, (l.resolve name).2)
  | .find name => (.found (l.find? name), l)
  | .resource path => (.bytes (l.resources.read path), l)

/-- The loader that requests leave behind. -/
def served (l : Loader) (requests : List Request) : Loader :=
  requests.foldl (fun l request => (l.respond request).2) l

/-- Requests with the responses they get, in order. -/
def exchanges (l : Loader) : List Request → List (Request × Response)
  | [] => []
  | request :: rest => (request, (l.respond request).1) :: (l.respond request).2.exchanges rest

/-- What a layer is on top of. -/
def below? : Loader → Option Loader
  | bundle _ => none
  | layer _ below => some below

end Loader

/-- A request that a layer leaves to the loader below: for a name that it does not take, or for a
resource. -/
def Layer.passes (l : Layer) : Request → Bool
  | .load name | .resolve name | .find name => !l.selects name
  | .resource _ => true

theorem Layer.passes_congr {l l' : Layer} (h : l'.selects = l.selects) : l'.passes = l.passes := by
  funext request
  cases request <;> simp only [passes, h]

/-! ## One request -/

namespace Loader

variable {l : Layer} {below : Loader}

theorem load_of_not_selects {name : String} (h : l.selects name = false) :
    (layer l below).load name = ((below.load name).1, layer l.freeze (below.load name).2) := by
  have hfreeze : l.freeze.selects name = false := h
  simp only [load, hfreeze, Bool.false_eq_true, if_false]

theorem load_of_selects {name : String} (h : l.selects name = true) :
    (layer l below).load name =
      if l.space.contains name then (.error (.defineConflict name), layer l.freeze below)
      else
        match below.resources.readModule name with
        | .error e => (.error e, layer l.freeze below)
        | .ok bytes =>
          ((l.freeze.define (below.level + 1) name bytes).1,
            layer (l.freeze.define (below.level + 1) name bytes).2 below) := by
  have hfreeze : l.freeze.selects name = true := h
  simp only [load, hfreeze, if_true]
  rfl

/-- Whatever comes of it, the loader below stays as it is. -/
theorem below_of_selects {name : String} (h : l.selects name = true) :
    ∃ l', ((layer l below).load name).2 = layer l' below ∧ l'.selects = l.selects := by
  rw [load_of_selects h]
  split
  · exact ⟨l.freeze, rfl, rfl⟩
  · split
    case h_1 => exact ⟨l.freeze, rfl, rfl⟩
    case h_2 bytes hbytes =>
      exact ⟨_, rfl, (l.freeze.define_eq (below.level + 1) name bytes).1⟩

/-- A request that is passed on is answered by the loader below. -/
theorem respond_of_passes (below : Loader) {request : Request} (h : l.passes request = true) :
    ((layer l below).respond request).1 = (below.respond request).1 ∧
      ∃ l', ((layer l below).respond request).2 = layer l' (below.respond request).2 ∧
        l'.selects = l.selects := by
  cases request with
  | load name =>
    have hselects : l.selects name = false := by simpa [Layer.passes] using h
    simp only [respond, load_of_not_selects hselects, true_and]
    exact ⟨l.freeze, rfl, rfl⟩
  | resolve name =>
    have hselects : l.selects name = false := by simpa [Layer.passes] using h
    have hfind : (layer l below).find? name = below.find? name := by simp [find?, hselects]
    simp only [respond, resolve, hfind]
    split
    · exact ⟨rfl, l, rfl, rfl⟩
    · simp only [load_of_not_selects hselects, true_and]
      exact ⟨l.freeze, rfl, rfl⟩
  | find name =>
    have hselects : l.selects name = false := by simpa [Layer.passes] using h
    simp only [respond, find?, hselects, Bool.false_eq_true, if_false, true_and]
    exact ⟨l, rfl, rfl⟩
  | resource path => exact ⟨rfl, l, rfl, rfl⟩

/-- Any other request leaves the loader below as it is. -/
theorem respond_of_not_passes (below : Loader) {request : Request} (h : l.passes request = false) :
    ∃ l', ((layer l below).respond request).2 = layer l' below ∧ l'.selects = l.selects := by
  cases request with
  | load name => exact below_of_selects (by simpa [Layer.passes] using h)
  | resolve name =>
    simp only [respond, resolve]
    split
    · exact ⟨l, rfl, rfl⟩
    · exact below_of_selects (by simpa [Layer.passes] using h)
  | find name => exact ⟨l, rfl, rfl⟩
  | resource path => cases h

/-! ## All requests -/

/-- What a layer passes on is answered, and changes the loader below, as if that loader had been
asked nothing else. The loader below may be any, such as a bundle that has defined no module. -/
theorem exchanges_passed (l : Layer) (below : Loader) (requests : List Request) :
    ((layer l below).exchanges requests).filter (fun e => l.passes e.1) =
        below.exchanges (requests.filter l.passes) ∧
      ((layer l below).served requests).below? =
        some (below.served (requests.filter l.passes)) := by
  induction requests generalizing l below with
  | nil => exact ⟨rfl, rfl⟩
  | cons request rest ih =>
    cases hpasses : l.passes request with
    | true =>
      rcases respond_of_passes below hpasses with ⟨hanswer, l', hlater, hselects⟩
      have hsame := Layer.passes_congr hselects
      rcases ih l' (below.respond request).2 with ⟨hexchanges, hserved⟩
      rw [hsame] at hexchanges hserved
      constructor
      · rw [exchanges, hlater, hanswer, List.filter_cons, if_pos hpasses, hexchanges,
          List.filter_cons_of_pos hpasses, exchanges]
      · simpa only [served, List.foldl_cons, hlater, List.filter_cons_of_pos hpasses] using hserved
    | false =>
      -- Below, nothing has happened.
      rcases respond_of_not_passes below hpasses with ⟨l', hlater, hselects⟩
      have hsame := Layer.passes_congr hselects
      have hnot : ¬l.passes request = true := by simp [hpasses]
      rcases ih l' below with ⟨hexchanges, hserved⟩
      rw [hsame] at hexchanges hserved
      constructor
      · rw [exchanges, hlater, List.filter_cons, if_neg hnot, hexchanges,
          List.filter_cons_of_neg hnot]
      · simpa only [served, List.foldl_cons, hlater, List.filter_cons_of_neg hnot] using hserved

end Loader

end Interposition
