import Interposition.Proofs.Call.Lifecycle
import Interposition.Proofs.Linking.Growth
import Interposition.Proofs.Sandbox.Mediation

/-!
# Interposition.Proofs.Sandbox.History — a layer on a bundle after any use

A layer on a bundle of files is put to uses: it is asked for modules and resources, programs are run
through it, and its registry is asked to take further rules. The layer then has nothing but what its
rules make of the files, and the bundle nothing but the files as they are (`Loader.upheld`).

The step is one use of a stack that is `Proper`: coherent, with tidy shelves, and empty while its
rules can change. The first load fixes the rules (`Loader.load_ownRegistry`), so nothing was made by
other rules before and nothing will be later.
-/

namespace Interposition

/-! ## Uses -/

/-- What is done with a stack of loaders. -/
inductive Use where
  | request (request : Request)
  /-- A program is run from an entry point. -/
  | run (env : Environment) (world : World) (entry : EntryPoint) (args : List Value)
  /-- The registry of the topmost layer is asked something. -/
  | registry (operation : Registry.Operation)

/-- A use that loads or resolves. A run resolves the module of its entry point first. -/
def Use.loads : Use → Bool
  | request (.load _) | request (.resolve _) | run .. => true
  | request (.find _) | request (.resource _) | registry _ => false

namespace Loader

/-- A stack after its topmost registry was asked something. -/
def administer : Loader → Registry.Operation → Loader
  | bundle b, _ => bundle b
  | layer l below, operation =>
    layer { l with registry := (l.registry.perform operation).2 } below

def use (l : Loader) : Use → Loader
  | .request request => (l.respond request).2
  | .run env world entry args => (Sandbox.invoke ⟨env, l, world⟩ entry args).2.loader
  | .registry operation => l.administer operation

/-- The stack that uses leave behind. -/
def after (l : Loader) (uses : List Use) : Loader :=
  uses.foldl use l

/-- The registry of the topmost loader, if that is a layer. -/
def ownRegistry : Loader → Option Registry
  | bundle _ => none
  | layer l _ => some l.registry

/-- A new layer on a new bundle of files. -/
def interposed (files : List (String × List UInt8)) (selects : String → Bool)
    (registry : Registry) : Loader :=
  layer ⟨selects, registry, .empty, .zero⟩ (bundle (.of (.memory files)))

@[simp] theorem after_nil (l : Loader) : l.after [] = l := rfl

@[simp] theorem after_cons (l : Loader) (use : Use) (rest : List Use) :
    l.after (use :: rest) = (l.use use).after rest := rfl

@[simp] theorem after_append (l : Loader) (earlier later : List Use) :
    l.after (earlier ++ later) = (l.after earlier).after later :=
  List.foldl_append

/-! ## Growth -/

theorem shelves_administer (l : Loader) (operation : Registry.Operation) :
    (l.administer operation).shelves = l.shelves := by
  cases l with
  | bundle b => rfl
  | layer l below => rfl

theorem use_grows (l : Loader) (use : Use) : Grows l.shelves (l.use use).shelves := by
  cases use with
  | request request =>
    cases request with
    | load name => exact (l.loads name).grows
    | resolve name => exact (l.resolve_loads name).grows
    | find name | resource path => exact .refl
  | run env world entry args =>
    exact (Sandbox.invoke_evolves ⟨env, l, world⟩ entry args).grows
  | registry operation =>
    rw [Loader.use, shelves_administer]
    exact .refl

/-- Whatever is done with a stack, its spaces only grow. -/
theorem after_grows (l : Loader) (uses : List Use) : Grows l.shelves (l.after uses).shelves := by
  induction uses generalizing l with
  | nil => exact .refl
  | cons use rest ih => exact (l.use_grows use).trans (ih (l.use use))

/-! ## Fixed rules -/

/-- The rules of the topmost layer are fixed. -/
def Frozen (l : Loader) : Prop :=
  ∀ r, l.ownRegistry = some r → r.frozen = true

theorem Frozen.map_freeze {l : Loader} (h : l.Frozen) :
    l.ownRegistry.map .freeze = l.ownRegistry := by
  cases hr : l.ownRegistry with
  | none => rfl
  | some r => exact congrArg some (Registry.freeze_of_frozen (h r hr))

/-- Loading fixes the rules, whatever comes of it. -/
theorem load_ownRegistry (l : Loader) (name : String) :
    (l.load name).2.ownRegistry = l.ownRegistry.map .freeze := by
  cases l with
  | bundle b => rfl
  | layer l below =>
    cases hselects : l.selects name with
    | false =>
      rw [load_of_not_selects hselects]
      rfl
    | true =>
      rw [load_of_selects hselects]
      split
      · rfl
      · split
        · rfl
        · exact congrArg some (l.freeze.define_eq _ name _).2

theorem frozen_of_ownRegistry {l k : Loader} (h : k.ownRegistry = l.ownRegistry.map .freeze) :
    k.Frozen := by
  intro r hr
  rw [h] at hr
  rcases Option.map_eq_some_iff.1 hr with ⟨r', -, rfl⟩
  rfl

theorem within_ownRegistry {act : Loader → Except Error Module × Loader} {l : Loader} (level : Nat)
    (hact : (act l).2.ownRegistry = l.ownRegistry) :
    (l.within level act).2.ownRegistry = l.ownRegistry := by
  cases l with
  | bundle b => exact hact
  | layer l below =>
    rw [within]
    split
    · exact hact
    · rfl

/-- Fixed rules stay what they are in all that becomes of a stack. -/
theorem Evolves.ownRegistry_eq {l k : Loader} (h : l.Evolves k) (hl : l.Frozen) :
    k.ownRegistry = l.ownRegistry := by
  have hload {j : Loader} (hj : j.ownRegistry = l.ownRegistry) (name : String) :
      (j.load name).2.ownRegistry = j.ownRegistry := by
    rw [load_ownRegistry, hj, hl.map_freeze]
  induction h with
  | refl => rfl
  | load _ level name ih => exact (within_ownRegistry level (hload ih name)).trans ih
  | resolve _ level name ih =>
    refine (within_ownRegistry level ?_).trans ih
    unfold Loader.resolve
    split
    · rfl
    · exact hload ih name

theorem Frozen.evolves {l k : Loader} (h : l.Frozen) (hk : l.Evolves k) : k.Frozen := by
  intro r hr
  rw [hk.ownRegistry_eq h] at hr
  exact h r hr

theorem administer_of_frozen {l : Loader} (h : l.Frozen) (operation : Registry.Operation) :
    l.administer operation = l := by
  cases l with
  | bundle b => rfl
  | layer l below => rw [administer, (Registry.perform_frozen (h _ rfl) operation).1]

/-- With fixed rules every use is a matter of loading and resolving. -/
theorem Frozen.use_evolves {l : Loader} (h : l.Frozen) (use : Use) : l.Evolves (l.use use) := by
  cases use with
  | request request =>
    cases request with
    | load name => exact l.load_evolves name
    | resolve name => exact l.resolve_evolves name
    | find name | resource path => exact .refl
  | run env world entry args => exact Sandbox.invoke_evolves ⟨env, l, world⟩ entry args
  | registry operation =>
    rw [Loader.use, administer_of_frozen h]
    exact .refl

theorem Frozen.after_evolves {l : Loader} (h : l.Frozen) (uses : List Use) :
    l.Evolves (l.after uses) := by
  induction uses generalizing l with
  | nil => exact .refl
  | cons use rest ih =>
    have hevolves := h.use_evolves use
    exact hevolves.trans (ih (h.evolves hevolves))

/-! ## Proper stacks -/

/-- A layer on a bundle of files that holds only what it answers, each thing once, and nothing as
long as its rules can change. -/
structure Proper (files : List (String × List UInt8)) (selects : String → Bool) (k : Loader) :
    Prop where
  shape : ∃ l b, k = layer l (bundle b) ∧ l.selects = selects ∧ b.resources = .memory files
  coherent : k.Coherent
  tidy : ∀ s ∈ k.shelves, s.Tidy
  bare : k.Frozen ∨ ∀ s ∈ k.shelves, s.space = .empty

theorem coherent_of_bare {l : Loader} (h : ∀ s ∈ l.shelves, s.space = .empty) : l.Coherent := by
  induction l with
  | bundle b =>
    have hspace : b.space = .empty := (List.forall_mem_cons.1 h).1
    rw [Coherent, hspace]
    exact Space.holds_empty _
  | layer l below ih =>
    rcases List.forall_mem_cons.1 h with ⟨hspace, hbelow⟩
    exact coherent_layer (ih hbelow) hspace

theorem find?_of_bare {l : Loader} (h : ∀ s ∈ l.shelves, s.space = .empty) (name : String) :
    l.find? name = none := by
  rw [find?_eq, Option.bind_eq_none_iff]
  intro s hs
  rw [h s (List.mem_of_find?_eq_some hs)]
  rfl

variable {files : List (String × List UInt8)} {selects : String → Bool} {k : Loader}

theorem proper_interposed (registry : Registry) :
    (interposed files selects registry).Proper files selects := by
  have hbare : ∀ s ∈ (interposed files selects registry).shelves, s.space = .empty := by
    simp [interposed, shelves, Bundle.of]
  refine ⟨⟨_, _, rfl, rfl, rfl⟩, coherent_of_bare hbare, ?_, Or.inr hbare⟩
  rintro ⟨takes, space⟩ hs
  obtain rfl : space = .empty := hbare _ hs
  exact .empty

/-- What keeps a stack and fixes its rules keeps it proper. -/
theorem Proper.keeps (hk : k.Proper files selects) {j : Loader} (hkeeps : k.Keeps j)
    (hgrows : Grows k.shelves j.shelves) (hfrozen : j.Frozen) : j.Proper files selects := by
  refine ⟨?_, hkeeps.coherent, hgrows.tidy hk.tidy, Or.inl hfrozen⟩
  rcases hk.shape with ⟨l, b, rfl, hselects, hresources⟩
  -- What a stack is before anything is loaded says how many loaders it has, and of which kinds.
  have hfresh := hkeeps.fresh_eq
  cases j with
  | bundle b' => cases hfresh
  | layer l' below' =>
    cases below' with
    | layer _ _ => simp [fresh] at hfresh
    | bundle b' =>
      simp only [fresh, layer.injEq, Layer.mk.injEq, bundle.injEq, Bundle.of, Bundle.mk.injEq]
        at hfresh
      exact ⟨l', b', rfl, hfresh.1.1.trans hselects, hfresh.2.1.trans hresources⟩

theorem Proper.evolves (hk : k.Proper files selects) (hfrozen : k.Frozen) {j : Loader}
    (h : k.Evolves j) : j.Proper files selects :=
  hk.keeps (h.keeps hk.coherent) h.grows (hfrozen.evolves h)

/-- Resolving fixes the rules of a proper stack: if it has a module already, they are fixed. -/
theorem Proper.resolve_ownRegistry (hk : k.Proper files selects) (name : String) :
    (k.resolve name).2.ownRegistry = k.ownRegistry.map .freeze := by
  unfold Loader.resolve
  split
  case h_1 m hfind =>
    rcases hk.bare with hfrozen | hbare
    · exact hfrozen.map_freeze.symm
    · rw [find?_of_bare hbare] at hfind
      cases hfind
  case h_2 => exact k.load_ownRegistry name

theorem Proper.resolve (hk : k.Proper files selects) (name : String) :
    (k.resolve name).2.Proper files selects :=
  hk.keeps (hk.coherent.resolve name).1 (k.resolve_loads name).grows
    (frozen_of_ownRegistry (hk.resolve_ownRegistry name))

theorem Proper.administer (hk : k.Proper files selects) (operation : Registry.Operation) :
    (k.administer operation).Proper files selects := by
  rcases hk.bare with hfrozen | hbare
  · rwa [administer_of_frozen hfrozen]
  · rw [← k.shelves_administer operation] at hbare
    refine ⟨?_, coherent_of_bare hbare, ?_, Or.inr hbare⟩
    · rcases hk.shape with ⟨l, b, rfl, hselects, hresources⟩
      exact ⟨_, b, rfl, hselects, hresources⟩
    · rw [k.shelves_administer operation]
      exact hk.tidy

/-- One use keeps a stack proper, and fixes its rules if it loads. -/
theorem Proper.use (hk : k.Proper files selects) (use : Use) :
    (k.use use).Proper files selects ∧
      (use.loads = true → (k.use use).ownRegistry = k.ownRegistry.map .freeze) := by
  cases use with
  | request request =>
    cases request with
    | load name =>
      have hregistry := k.load_ownRegistry name
      exact ⟨hk.keeps (hk.coherent.load name).1 (k.loads name).grows
        (frozen_of_ownRegistry hregistry), fun _ => hregistry⟩
    | resolve name => exact ⟨hk.resolve name, fun _ => hk.resolve_ownRegistry name⟩
    | find name | resource path => exact ⟨hk, by simp [Use.loads]⟩
  | run env world entry args =>
    have hevolves := Sandbox.resolve_evolves_invoke ⟨env, k, world⟩ entry args
    have hregistry := hk.resolve_ownRegistry entry.module
    have hfrozen : (k.resolve entry.module).2.Frozen := frozen_of_ownRegistry hregistry
    exact ⟨(hk.resolve entry.module).evolves hfrozen hevolves,
      fun _ => (hevolves.ownRegistry_eq hfrozen).trans hregistry⟩
  | registry operation => exact ⟨hk.administer operation, by simp [Use.loads]⟩

theorem Proper.after (hk : k.Proper files selects) (uses : List Use) :
    (k.after uses).Proper files selects := by
  induction uses generalizing k with
  | nil => exact hk
  | cons use rest ih => exact ih (hk.use use).1

/-- The rules are fixed by the first use that loads, and no later use changes them. -/
theorem Proper.after_ownRegistry (hk : k.Proper files selects) {use : Use} (h : use.loads = true)
    (earlier later : List Use) :
    (k.after (earlier ++ use :: later)).ownRegistry =
      (k.after earlier).ownRegistry.map .freeze := by
  have hregistry := ((hk.after earlier).use use).2 h
  have hfrozen : ((k.after earlier).use use).Frozen := frozen_of_ownRegistry hregistry
  rw [after_append, after_cons, (hfrozen.after_evolves later).ownRegistry_eq hfrozen, hregistry]

end Loader

/-! ## What the spaces hold -/

/-- A module that a layer defines: its bytes are what rules make of those in the files. -/
structure Module.MadeBy (files : List (String × List UInt8)) (selects : String → Bool)
    (rules : RuleSet) (m : Module) : Prop where
  selected : selects m.name = true
  derived : m.derived = true
  level : m.level = some 1
  transformed : ∃ bytes report, files.lookup (resourcePath m.name) = some bytes ∧
    transform rules bytes = .ok (m.bytes, report)
  decoded : Image.decode m.bytes = .ok m.image
  verified : m.image.verifyNamed m.name = .ok ()

/-- A module that a bundle defines: its bytes are those in the files. -/
structure Module.TakenFrom (files : List (String × List UInt8)) (m : Module) : Prop where
  original : m.derived = false
  level : m.level = some 0
  verbatim : files.lookup (resourcePath m.name) = some m.bytes
  decoded : Image.decode m.bytes = .ok m.image
  verified : m.image.verifyNamed m.name = .ok ()

namespace Loader

variable {files : List (String × List UInt8)} {selects : String → Bool} {l : Layer} {b : Bundle}

theorem Proper.parts (hk : (layer l (bundle b)).Proper files selects) :
    l.selects = selects ∧ b.resources = .memory files := by
  rcases hk.shape with ⟨l', b', hsame, hselects, hresources⟩
  cases hsame
  exact ⟨hselects, hresources⟩

theorem Proper.made (hk : (layer l (bundle b)).Proper files selects) {m : Module}
    (hm : m ∈ l.space.modules) : m.MadeBy files selects l.registry.rules := by
  rcases hk.parts with ⟨rfl, hresources⟩
  have htidy : Shelf.Tidy ⟨l.selects, l.space⟩ := hk.tidy _ (by simp [shelves])
  have hselects : l.selects m.name = true := htidy.taken m hm
  -- The module is found under its name, so it is what the layer answers for it.
  have hanswer := hk.coherent.2 m.name m (htidy.find? hm) hselects
  rw [answer, if_pos hselects] at hanswer
  rcases bind_eq_ok_iff.1 hanswer with ⟨bytes, hread, hanswer⟩
  rcases bind_eq_ok_iff.1 hanswer with ⟨⟨encoded, report⟩, htransform, hdefine⟩
  rcases Module.define_eq_ok hdefine with ⟨image, hdecode, hverify, hmodule⟩
  rw [Loader.resources, hresources, Resources.readModule_memory] at hread
  rw [hmodule] at hselects hread ⊢
  exact ⟨hselects, rfl, rfl, ⟨bytes, report, hread, htransform⟩, hdecode, hverify⟩

theorem Proper.taken (hk : (layer l (bundle b)).Proper files selects) {m : Module}
    (hm : m ∈ b.space.modules) : m.TakenFrom files := by
  have htidy : Shelf.Tidy ⟨fun _ => true, b.space⟩ := hk.tidy _ (by simp [shelves])
  have hanswer := hk.coherent.1 m.name m (htidy.find? hm)
  rcases bind_eq_ok_iff.1 hanswer with ⟨bytes, hread, hdefine⟩
  rcases Module.define_eq_ok hdefine with ⟨image, hdecode, hverify, hmodule⟩
  rw [hk.parts.2, Resources.readModule_memory] at hread
  rw [hmodule] at hread ⊢
  exact ⟨rfl, rfl, hread, hdecode, hverify⟩

/-- What is so of a layer on a bundle of files that has been put to uses. -/
structure Upheld (files : List (String × List UInt8)) (selects : String → Bool) (start : Loader)
    (uses : List Use) (k : Loader) (l : Layer) (b : Bundle) : Prop where
  shape : k = layer l (bundle b)
  made : ∀ m ∈ l.space.modules, m.MadeBy files selects l.registry.rules
  taken : ∀ m ∈ b.space.modules, m.TakenFrom files
  /-- Each space has one module for a name. -/
  distinct : (l.space.modules.map Module.name).Nodup ∧ (b.space.modules.map Module.name).Nodup
  /-- The rules are those that there were before any use that loaded, so before the first. -/
  frozen : ∀ earlier use later, uses = earlier ++ use :: later → use.loads = true →
    some l.registry = (start.after earlier).ownRegistry.map .freeze
  /-- What was found under a name is still found, in each of the spaces and in the stack. -/
  kept : ∀ earlier later, uses = earlier ++ later →
    Stays (start.after earlier).shelves k.shelves ∧
      ∀ name m, (start.after earlier).find? name = some m → k.find? name = some m
  /-- What is answered is found from then on. -/
  answered : ∀ name m,
    ((k.load name).1 = .ok m → (k.load name).2.find? name = some m) ∧
      ((k.resolve name).1 = .ok m → (k.resolve name).2.find? name = some m)
  /-- Loading a name again is refused exactly if the layer takes the name and has defined it. -/
  refused : ∀ name other, (k.load name).1 = .error (.defineConflict other) ↔
    other = name ∧ selects name = true ∧ (l.space.find? name).isSome = true
  /-- Resolving it again is not. -/
  resolved : ∀ name m, k.find? name = some m → k.resolve name = (.ok m, k)
  /-- To look once more after a refused load would make no difference. -/
  again : ∀ name, k.resolveTwice name = k.resolve name
  /-- Nothing comes of what fails. -/
  untouched : ∀ name e,
    ((k.load name).1 = .error e → (k.load name).2.shelves = k.shelves) ∧
      ((k.resolve name).1 = .error e → (k.resolve name).2.shelves = k.shelves)

/-- A new layer on a new bundle of files, whatever names it takes and whatever registry it has, is
put to any uses. Then all modules of the layer are made by one set of rules, which was fixed by the
first use that loaded, and all modules of the bundle are those in the files. A module that was found
stays, a name that the layer has defined is not defined again, and nothing comes of what fails. -/
theorem upheld (files : List (String × List UInt8)) (selects : String → Bool)
    (registry : Registry) (uses : List Use) :
    ∃ l b, Upheld files selects (interposed files selects registry) uses
      ((interposed files selects registry).after uses) l b := by
  have hstart : (interposed files selects registry).Proper files selects :=
    proper_interposed registry
  generalize interposed files selects registry = start at hstart
  have hproper := hstart.after uses
  rcases hproper.shape with ⟨l, b, hshape, rfl, -⟩
  rw [hshape] at hproper
  refine ⟨l, b, hshape, fun m => hproper.made, fun m => hproper.taken, ?distinct, ?frozen, ?kept,
    ?answered, ?refused, ?resolved, resolveTwice_eq _, ?untouched⟩
  case distinct =>
    have hlayer : Shelf.Tidy ⟨l.selects, l.space⟩ := hproper.tidy _ (by simp [shelves])
    have hbundle : Shelf.Tidy ⟨fun _ => true, b.space⟩ := hproper.tidy _ (by simp [shelves])
    exact ⟨hlayer.distinct, hbundle.distinct⟩
  case frozen =>
    rintro earlier use later rfl hloads
    rw [← hstart.after_ownRegistry hloads earlier later, hshape]
    rfl
  case kept =>
    rintro earlier later rfl
    have hgrows : Grows (start.after earlier).shelves (start.after (earlier ++ later)).shelves := by
      rw [after_append]
      exact after_grows _ later
    exact ⟨hgrows.stays, fun name m hfind => find?_of_grows hgrows hfind⟩
  case answered =>
    intro name m
    exact ⟨((start.after uses).loads name).find?, ((start.after uses).resolve_loads name).find?⟩
  case refused =>
    intro name other
    rw [load_eq_conflict_iff, hshape, refuses, refuses]
    simp [Space.contains]
  case resolved =>
    intro name m hfind
    rw [resolve, hfind]
  case untouched =>
    intro name e
    exact ⟨((start.after uses).loads name).shelves_eq,
      ((start.after uses).resolve_loads name).shelves_eq⟩

end Loader

end Interposition
