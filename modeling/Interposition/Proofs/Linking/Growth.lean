import Interposition.Proofs.Linking.Coherence
import Interposition.Proofs.Linking.Requests
import Mathlib.Data.List.Nodup
import Mathlib.Logic.Relation

/-!
# Interposition.Proofs.Linking.Growth — what loading adds to a stack

Loading either leaves the spaces of a stack as they are or puts one module into one of them, in a
loader that is responsible for the name and under a name that was free there (`Loader.loads`). So
spaces only grow: what is found stays found (`Grows.stays`), a space has one module for each name,
and a layer only those it takes (`Grows.tidy`). A load that fails leaves no trace in any space, and
is refused as a second definition only where the module is found (`Loader.load_eq_conflict_iff`).
-/

namespace Interposition

/-! ## Shelves -/

/-- A space with the names that it is for. -/
structure Shelf where
  takes : String → Bool
  space : Space

namespace Shelf

/-- One module for each name, and only for names that the shelf takes. -/
structure Tidy (s : Shelf) : Prop where
  distinct : (s.space.modules.map Module.name).Nodup
  taken : ∀ m ∈ s.space.modules, s.takes m.name = true

theorem Tidy.empty {takes : String → Bool} : Tidy ⟨takes, .empty⟩ :=
  ⟨List.nodup_nil, by simp [Space.empty]⟩

/-- Each module of a tidy shelf is the one found under its name. -/
theorem Tidy.find? {s : Shelf} (hs : s.Tidy) {m : Module} (hm : m ∈ s.space.modules) :
    s.space.find? m.name = some m := by
  have hsome : (s.space.find? m.name).isSome = true := by
    refine List.find?_isSome.2 ⟨m, hm, by simp⟩
  rcases Option.isSome_iff_exists.1 hsome with ⟨m', hfind⟩
  have hname : m'.name = m.name := by simpa using List.find?_some hfind
  rw [hfind, List.inj_on_of_nodup_map hs.distinct (Space.mem_of_find? hfind) hm hname]

end Shelf

/-- A shelf gets a module in front, under a name that it takes and that was free on it. -/
inductive Gains (m : Module) : List Shelf → List Shelf → Prop
  | here {s : Shelf} {space : Space} (rest : List Shelf) (htakes : s.takes m.name = true)
      (hfree : s.space.contains m.name = false) (hmodules : space.modules = m :: s.space.modules) :
      Gains m (s :: rest) (⟨s.takes, space⟩ :: rest)
  | there (s : Shelf) {rest rest' : List Shelf} (h : Gains m rest rest') :
      Gains m (s :: rest) (s :: rest')

/-- Shelves get modules, one after the other. -/
def Grows : List Shelf → List Shelf → Prop :=
  Relation.ReflTransGen fun before after => ∃ m, Gains m before after

/-- On each shelf, what is found stays found. -/
def Stays : List Shelf → List Shelf → Prop :=
  List.Forall₂ fun s s' => s'.takes = s.takes ∧
    ∀ name m, s.space.find? name = some m → s'.space.find? name = some m

theorem Stays.refl (shelves : List Shelf) : Stays shelves shelves :=
  List.forall₂_same.2 fun _ _ => ⟨rfl, fun _ _ h => h⟩

theorem Stays.trans {before mid after : List Shelf} (h : Stays before mid)
    (h' : Stays mid after) : Stays before after := by
  induction h generalizing after with
  | nil => exact h'
  | cons hshelf _ ih =>
    cases h' with
    | cons hshelf' hrest' =>
      refine .cons ⟨hshelf'.1.trans hshelf.1, ?_⟩ (ih hrest')
      intro name m hfind
      exact hshelf'.2 name m (hshelf.2 name m hfind)

namespace Gains

variable {m : Module} {before after : List Shelf}

theorem stays (h : Gains m before after) : Stays before after := by
  induction h with
  | @here s space rest htakes hfree hmodules =>
    refine .cons ⟨rfl, ?_⟩ (Stays.refl rest)
    intro name m' hfind
    -- The new module hides no other, since its name was free.
    have hne : m.name ≠ name := by
      rintro rfl
      simp [Space.contains, hfind] at hfree
    rw [Space.find?, hmodules, List.find?_cons_of_neg (by simpa using hne)]
    exact hfind
  | there s _ ih => exact .cons ⟨rfl, fun _ _ h => h⟩ ih

theorem tidy (h : Gains m before after) (hbefore : ∀ s ∈ before, s.Tidy) :
    ∀ s ∈ after, s.Tidy := by
  induction h with
  | @here s space rest htakes hfree hmodules =>
    rcases List.forall_mem_cons.1 hbefore with ⟨hs, hrest⟩
    refine List.forall_mem_cons.2 ⟨⟨?_, ?_⟩, hrest⟩
    · rw [hmodules, List.map_cons, List.nodup_cons]
      refine ⟨?_, hs.distinct⟩
      intro hmem
      rcases List.mem_map.1 hmem with ⟨m', hm', hname⟩
      rw [← hname] at hfree
      simp [Space.contains, hs.find? hm'] at hfree
    · rw [hmodules]
      exact List.forall_mem_cons.2 ⟨htakes, hs.taken⟩
  | there s _ ih =>
    rcases List.forall_mem_cons.1 hbefore with ⟨hs, hrest⟩
    exact List.forall_mem_cons.2 ⟨hs, ih hrest⟩

/-- The module that is put in front is the only one that is new. -/
theorem exists_mem_iff (h : Gains m before after) (m' : Module) :
    (∃ s ∈ after, m' ∈ s.space.modules) ↔ (∃ s ∈ before, m' ∈ s.space.modules) ∨ m' = m := by
  induction h with
  | @here s space rest htakes hfree hmodules =>
    rw [List.exists_mem_cons_iff, List.exists_mem_cons_iff, hmodules, List.mem_cons, or_assoc,
      or_comm]
  | there s _ ih => rw [List.exists_mem_cons_iff, List.exists_mem_cons_iff, ih, or_assoc]

end Gains

namespace Grows

variable {before after : List Shelf}

theorem stays (h : Grows before after) : Stays before after := by
  induction h with
  | refl => exact .refl before
  | tail _ hgains ih =>
    rcases hgains with ⟨m, hgains⟩
    exact ih.trans hgains.stays

theorem tidy (h : Grows before after) (hbefore : ∀ s ∈ before, s.Tidy) :
    ∀ s ∈ after, s.Tidy := by
  induction h with
  | refl => exact hbefore
  | tail _ hgains ih =>
    rcases hgains with ⟨m, hgains⟩
    exact hgains.tidy ih

theorem there (s : Shelf) (h : Grows before after) : Grows (s :: before) (s :: after) := by
  induction h with
  | refl => exact .refl
  | tail _ hgains ih =>
    rcases hgains with ⟨m, hgains⟩
    exact ih.tail ⟨m, hgains.there s⟩

end Grows

/-! ## Faults that are no conflicts -/

theorem Module.define_ne_conflict (name : String) (bytes : List UInt8) (derived : Bool)
    (level : Option Nat) (other : String) :
    define name bytes derived level ≠ .error (.defineConflict other) := by
  unfold define
  cases Image.decode bytes with
  | error e => simp [bind, Except.bind]
  | ok image =>
    cases hverify : image.verifyNamed name with
    | error e => simp [hverify, bind, Except.bind]
    | ok u => simp [hverify, bind, Except.bind, pure, Except.pure]

theorem Resources.readModule_ne_conflict (r : Resources) (name other : String) :
    r.readModule name ≠ .error (.defineConflict other) := by
  unfold readModule
  split
  case h_1 e hread =>
    rintro ⟨⟩
    unfold read at hread
    split at hread
    · cases hread
    · split at hread
      · rename_i tree root _
        cases hfile : tree.read (Path.join root (resourcePath name)) with
        | error fault => simp [hfile] at hread
        | ok bytes => simp [hfile] at hread
      · cases hread
  case h_2 => simp
  case h_3 => simp

theorem transform_ne_conflict (rules : RuleSet) (bytes : List UInt8) (other : String) :
    transform rules bytes ≠ .error (.defineConflict other) := by
  cases hdecode : Image.decode bytes with
  | error e => simp [transform, redirectBytes, hdecode, bind, Except.bind]
  | ok image =>
    rw [transform_of_decode hdecode]
    split
    · simp
    · split
      · simp
      · simp

/-! ## Loading -/

namespace Loader

/-- The spaces of a stack, from the top, with the names they are for. -/
def shelves : Loader → List Shelf
  | bundle b => [⟨fun _ => true, b.space⟩]
  | layer l below => ⟨l.selects, l.space⟩ :: below.shelves

/-- A module is in one of the spaces. -/
def Has (l : Loader) (m : Module) : Prop :=
  ∃ s ∈ l.shelves, m ∈ s.space.modules

/-- The module found under a name is on the first shelf that takes it. -/
theorem find?_eq (l : Loader) (name : String) :
    l.find? name = (l.shelves.find? (·.takes name)).bind (·.space.find? name) := by
  induction l with
  | bundle b => rfl
  | layer l below ih =>
    rw [find?, shelves, List.find?_cons]
    by_cases hselects : l.selects name = true
    · simp [hselects]
    · simp [hselects, ih]

/-- What comes of asking for a name: the spaces stay as they are, or get the module they were asked
for. -/
inductive Loads (l : Loader) (name : String) : Except Error Module → Loader → Prop
  | fails (e : Error) {k : Loader} (hshelves : k.shelves = l.shelves) :
      Loads l name (.error e) k
  | found (m : Module) {k : Loader} (hfind : l.find? name = some m)
      (hshelves : k.shelves = l.shelves) : Loads l name (.ok m) k
  | gains (m : Module) {k : Loader} (hnone : l.find? name = none) (hfound : k.find? name = some m)
      (hgains : Gains m l.shelves k.shelves) : Loads l name (.ok m) k

end Loader

/-- The module in front is found under its name. -/
theorem Space.find?_of_cons {s s' : Space} {m : Module} (h : s'.modules = m :: s.modules) :
    s'.find? m.name = some m := by
  rw [find?, h, List.find?_cons_of_pos (by simp)]

theorem Bundle.loads (b : Bundle) (name : String) :
    (Loader.bundle b).Loads name (b.load name).1 (.bundle (b.load name).2) := by
  unfold Bundle.load
  cases hfind : b.space.find? name with
  | some m => exact .found m hfind rfl
  | none =>
    cases hdefine : b.resources.readModule name >>= fun bytes =>
        b.space.define name bytes false (some 0) with
    | error e => exact .fails e rfl
    | ok defined =>
      rcases defined with ⟨m, space⟩
      rcases bind_eq_ok_iff.1 hdefine with ⟨bytes, -, hdefine⟩
      rcases Space.define_eq_ok hdefine with ⟨hm, hfree, hmodules⟩
      obtain rfl : m.name = name := Module.name_of_define hm
      exact .gains m hfind (Space.find?_of_cons hmodules) (.here [] rfl hfree hmodules)

namespace Loader

theorem loads (l : Loader) (name : String) : l.Loads name (l.load name).1 (l.load name).2 := by
  induction l with
  | bundle b => exact b.loads name
  | layer l below ih =>
    cases hselects : l.selects name with
    | false =>
      rw [load_of_not_selects hselects]
      have hfind (k : Loader) (l' : Layer) (h : l'.selects = l.selects) :
          (layer l' k).find? name = k.find? name := by
        simp [find?, h, hselects]
      generalize below.load name = loaded at ih
      rcases loaded with ⟨answer, k⟩
      cases ih with
      | fails e hshelves => exact .fails e (congrArg (List.cons _) hshelves)
      | found m hm hshelves =>
        exact .found m ((hfind below l rfl).trans hm) (congrArg (List.cons _) hshelves)
      | gains m hnone hfound hgains =>
        exact .gains m ((hfind below l rfl).trans hnone) ((hfind k l.freeze rfl).trans hfound)
          (hgains.there _)
    | true =>
      have hfind : (layer l below).find? name = l.space.find? name := by simp [find?, hselects]
      rw [load_of_selects hselects]
      split
      case isTrue => exact .fails _ rfl
      case isFalse hnew =>
        have hfree : l.space.contains name = false := by simpa using hnew
        have hnone : l.space.find? name = none := by simpa [Space.contains] using hfree
        split
        case h_1 e _ => exact .fails e rfl
        case h_2 bytes _ =>
          rcases l.freeze.define_eq (below.level + 1) name bytes with ⟨htakes, -⟩
          rcases l.freeze.define_cases (below.level + 1) name bytes with
            ⟨⟨e, he⟩, hspace⟩ | ⟨encoded, report, m, -, hm, hanswer, hmodules⟩
          · rw [he]
            refine .fails e ?_
            simp only [shelves, htakes, hspace]
            rfl
          · rw [hanswer]
            obtain rfl : m.name = name := Module.name_of_define hm
            have htakes' : (l.freeze.define (below.level + 1) m.name bytes).2.selects = l.selects :=
              htakes
            refine .gains m (hfind.trans hnone) ?_ ?_
            · rw [find?, htakes', if_pos hselects]
              exact Space.find?_of_cons hmodules
            · simp only [shelves, htakes']
              exact .here _ hselects hfree hmodules

theorem resolve_loads (l : Loader) (name : String) :
    l.Loads name (l.resolve name).1 (l.resolve name).2 := by
  unfold resolve
  split
  case h_1 m hfind => exact .found m hfind rfl
  case h_2 => exact l.loads name

namespace Loads

variable {l k : Loader} {name : String} {answer : Except Error Module}

theorem grows (h : l.Loads name answer k) : Grows l.shelves k.shelves := by
  cases h with
  | fails e hshelves | found m _ hshelves => rw [hshelves]; exact .refl
  | gains m _ _ hgains => exact .single ⟨m, hgains⟩

/-- What is answered is found from then on. -/
theorem find? (h : l.Loads name answer k) {m : Module} (hanswer : answer = .ok m) :
    k.find? name = some m := by
  cases h with
  | fails e _ => cases hanswer
  | found _ hfind hshelves =>
    rcases Except.ok.inj hanswer with rfl
    rwa [find?_eq, hshelves, ← find?_eq]
  | gains _ _ hfound _ =>
    rcases Except.ok.inj hanswer with rfl
    exact hfound

/-- Nothing comes of what fails. -/
theorem shelves_eq (h : l.Loads name answer k) {e : Error} (hanswer : answer = .error e) :
    k.shelves = l.shelves := by
  cases h with
  | fails _ hshelves => exact hshelves
  | found | gains => cases hanswer

end Loads

/-- What is found under a name has it. -/
theorem name_of_find? {l : Loader} {name : String} {m : Module} (h : l.find? name = some m) :
    m.name = name := by
  rw [find?_eq] at h
  rcases Option.bind_eq_some_iff.1 h with ⟨shelf, -, hfind⟩
  simpa using List.find?_some hfind

theorem name_of_resolve {l : Loader} {name : String} {m : Module}
    (h : (l.resolve name).1 = .ok m) : m.name = name :=
  name_of_find? ((l.resolve_loads name).find? h)

theorem name_of_resolveAt {level : Nat} {l : Loader} {name : String} {m : Module}
    (h : (l.resolveAt level name).1 = .ok m) : m.name = name := by
  induction l with
  | bundle b => exact name_of_resolve h
  | layer l below ih =>
    rw [resolveAt, within] at h
    split at h
    · exact name_of_resolve h
    · exact ih h

/-! ## Refusals -/

/-- Whether loading a name would define it twice: the layer that takes it has defined it. -/
def refuses : Loader → String → Bool
  | bundle _, _ => false
  | layer l below, name => if l.selects name then l.space.contains name else below.refuses name

theorem find?_of_refuses {l : Loader} {name : String} (h : l.refuses name = true) :
    (l.find? name).isSome = true := by
  induction l with
  | bundle b => cases h
  | layer l below ih =>
    rw [refuses] at h
    rw [find?]
    by_cases hselects : l.selects name = true
    · rw [if_pos hselects] at h ⊢
      exact h
    · rw [if_neg hselects] at h ⊢
      exact ih h

end Loader

theorem Bundle.load_ne_conflict (b : Bundle) (name other : String) :
    (b.load name).1 ≠ .error (.defineConflict other) := by
  unfold load
  cases hfind : b.space.find? name with
  | some m => simp
  | none =>
    have hfree : b.space.contains name = false := by simp [Space.contains, hfind]
    simp only [Space.define_of_free hfree]
    cases hread : b.resources.readModule name with
    | error e =>
      rintro ⟨⟩
      exact b.resources.readModule_ne_conflict name other hread
    | ok bytes =>
      simp only [bind, Except.bind]
      cases hdefine : Module.define name bytes false (some 0) with
      | error e =>
        rintro ⟨⟩
        exact Module.define_ne_conflict _ _ _ _ _ hdefine
      | ok m => simp [Except.map]

theorem Layer.answer_ne_conflict (l : Layer) (level : Nat) (name : String) (bytes : List UInt8)
    (other : String) : l.answer level name bytes ≠ .error (.defineConflict other) := by
  unfold answer
  cases htransform : transform l.registry.rules bytes with
  | error e =>
    rintro ⟨⟩
    exact transform_ne_conflict _ _ _ htransform
  | ok transformed => exact Module.define_ne_conflict _ _ _ _ _

namespace Loader

/-- Loading is refused as a second definition of the name, and of no other, exactly if it would
be one. -/
theorem load_eq_conflict_iff {l : Loader} {name other : String} :
    (l.load name).1 = .error (.defineConflict other) ↔ other = name ∧ l.refuses name = true := by
  induction l with
  | bundle b =>
    have hne : ((bundle b).load name).1 ≠ .error (.defineConflict other) :=
      b.load_ne_conflict name other
    simpa [refuses] using hne
  | layer l below ih =>
    rw [refuses]
    cases hselects : l.selects name with
    | false =>
      rw [load_of_not_selects hselects, ih]
      rfl
    | true =>
      rw [load_of_selects hselects, if_pos rfl]
      cases hcontains : l.space.contains name with
      | true => simp [eq_comm]
      | false =>
        cases hread : below.resources.readModule name with
        | error e =>
          have hne : e ≠ .defineConflict other := by
            rintro rfl
            exact below.resources.readModule_ne_conflict name other hread
          simpa using hne
        | ok bytes =>
          have hne := l.freeze.answer_ne_conflict (below.level + 1) name bytes other
          rw [← (Layer.define_answer (l := l.freeze) (below.level + 1) bytes hcontains).1] at hne
          simpa using hne

/-- Resolving that looks for the module once more if the load is refused as a second definition. -/
def resolveTwice (l : Loader) (name : String) : Except Error Module × Loader :=
  match l.find? name with
  | some m => (.ok m, l)
  | none =>
    match l.load name with
    | (.error (.defineConflict other), k) =>
      match k.find? name with
      | some m => (.ok m, k)
      | none => (.error (.defineConflict other), k)
    | answer => answer

/-- There is no need to look twice: what is refused as a second definition was found before. -/
theorem resolveTwice_eq (l : Loader) (name : String) : l.resolveTwice name = l.resolve name := by
  unfold resolveTwice resolve
  cases hfind : l.find? name with
  | some m => rfl
  | none =>
    dsimp only
    split
    case h_2 => rfl
    case h_1 other k hload =>
      have hconflict : (l.load name).1 = .error (.defineConflict other) := by rw [hload]
      have hsome := find?_of_refuses (load_eq_conflict_iff.1 hconflict).2
      rw [hfind] at hsome
      cases hsome

/-! ## Evolution -/

theorem within_grows {act : Loader → Except Error Module × Loader}
    (hact : ∀ k : Loader, Grows k.shelves (act k).2.shelves) (level : Nat) (l : Loader) :
    Grows l.shelves (l.within level act).2.shelves := by
  induction l with
  | bundle b => exact hact _
  | layer l below ih =>
    rw [within]
    split
    · exact hact _
    · exact ih.there _

/-- Whatever is loaded, the spaces only grow. -/
theorem Evolves.grows {l k : Loader} (h : l.Evolves k) : Grows l.shelves k.shelves := by
  induction h with
  | refl => exact .refl
  | load _ level name ih =>
    exact ih.trans (within_grows (fun k => (k.loads name).grows) level _)
  | resolve _ level name ih =>
    exact ih.trans (within_grows (fun k => (k.resolve_loads name).grows) level _)

/-- What is found stays found while the spaces grow. -/
theorem find?_of_grows {l k : Loader} (h : Grows l.shelves k.shelves) {name : String} {m : Module}
    (hfind : l.find? name = some m) : k.find? name = some m := by
  rw [find?_eq] at hfind ⊢
  have hstays := h.stays
  generalize l.shelves = before at hfind hstays
  generalize k.shelves = after at hstays
  induction hstays with
  | nil => exact hfind
  | @cons s s' _ _ hshelf _ ih =>
    -- The first shelf that takes the name is at the same place before and after.
    rw [List.find?_cons] at hfind ⊢
    rw [hshelf.1]
    cases htakes : s.takes name with
    | true =>
      rw [htakes] at hfind
      exact hshelf.2 name m hfind
    | false =>
      rw [htakes] at hfind
      exact ih hfind

end Loader

end Interposition
