import Interposition.Proofs.Image.Interning
import Interposition.Proofs.Image.Labels
import Mathlib.Data.List.Infix

/-!
# Interposition.Proofs.Image.Meaning — what was emitted is what is built

The position of a constant is put into an instruction while the pool is still growing, and the
pool is shared by all methods of a module. It only ever grows at its end, so an instruction that
says what its operation was given (`Operation.Means`) goes on to say it. Where interning fails the
position is 0, which may mean something else, but the fault stays until the module is built.

So the invariant is about a draft without a fault: `ModuleDraft.Tells` of a module,
`MethodDraft.Tells` of a method that is being drafted. One operation keeps it
(`MethodDraft.Tells.perform`), hence all operations of all methods do (`ModuleDraft.Tells.after`),
and what it says of the module that is built is the main statement, `ModuleDraft.build_means`.
-/

namespace Interposition

namespace MethodDraft

/-! ## Instructions -/

namespace Operation

/-- The texts that an operation was given. -/
def texts : Operation → List String
  | str text | new text => [text]
  | getStatic field => field.toList
  | invoke _ method => method.toList
  | _ => []

/-- An instruction says, read with a pool, what an operation was given. -/
def Means (pool : Pool) : Operation → Instruction → Prop
  | plain given, i => i = given
  | int value, i => ∃ index, i = .const index ∧ pool.get? index = some (.int value)
  | str text, i => ∃ index, i = .const index ∧ pool.str? index = some text
  | getStatic field, i => ∃ index, i = .getStatic index ∧ pool.field? index = some field
  | new typeName, i => ∃ index, i = .new index ∧ pool.utf8? index = some typeName
  | invoke kind method, i => ∃ index, i = .invoke kind index ∧ pool.method? index = some method
  | jump _, i => ∃ target, i = .jump target
  | jumpIfFalse _, i => ∃ target, i = .jumpIfFalse target
  | _, _ => False

variable {op : Operation} {p q : Pool} {i : Instruction}

/-- An instruction says the same when the pool has grown. -/
theorem Means.extends (h : op.Means p i) (hq : q.Extends p) : op.Means q i := by
  cases op with
  | int value =>
    rcases h with ⟨index, rfl, hget⟩
    exact ⟨index, rfl, hq.get? hget⟩
  | str text =>
    rcases h with ⟨index, rfl, hstr⟩
    exact ⟨index, rfl, hq.str? hstr⟩
  | getStatic field =>
    rcases h with ⟨index, rfl, hfield⟩
    exact ⟨index, rfl, hq.field? hfield⟩
  | new typeName =>
    rcases h with ⟨index, rfl, htext⟩
    exact ⟨index, rfl, hq.utf8? htext⟩
  | invoke kind method =>
    rcases h with ⟨index, rfl, hmethod⟩
    exact ⟨index, rfl, hq.method? hmethod⟩
  | _ => exact h

/-- An instruction that says something refers to a constant that is there. -/
theorem Means.refersBelow (h : op.Means p i) : i.RefersBelow p.size := by
  have hlt {index : UInt16} {c : Constant} (hget : p.get? index = some c) :
      index.toNat < p.size :=
    (Array.getElem?_eq_some_iff.1 hget).1
  cases op with
  | plain given =>
    rcases h with rfl
    intro index hindex
    rw [given.2.1] at hindex
    cases hindex
  | int value =>
    rcases h with ⟨index, rfl, hget⟩
    rintro _ ⟨⟩
    exact hlt hget
  | str text =>
    rcases h with ⟨index, rfl, hstr⟩
    rintro _ ⟨⟩
    rcases Pool.str?_eq_some_iff.1 hstr with ⟨j, hget, -⟩
    exact hlt hget
  | getStatic field =>
    rcases h with ⟨index, rfl, hfield⟩
    rintro _ ⟨⟩
    rcases Pool.field?_eq_some_iff.1 hfield with ⟨m, hget, -⟩
    exact hlt hget
  | new typeName =>
    rcases h with ⟨index, rfl, htext⟩
    rintro _ ⟨⟩
    exact hlt (Pool.get?_of_utf8? htext)
  | invoke kind method =>
    rcases h with ⟨index, rfl, hmethod⟩
    rintro _ ⟨⟩
    rcases Pool.method?_eq_some_iff.1 hmethod with ⟨m, hget, -⟩
    exact hlt hget
  | jump label | jumpIfFalse label =>
    rcases h with ⟨target, rfl⟩
    rintro _ ⟨⟩
  | _ => exact h.elim

/-- A constant that is a text is one of those given. -/
def Given (texts : List String) (c : Constant) : Prop :=
  ∀ text, c = .utf8 text → text ∈ texts

/-- What an operation interns says what it was given, and adds no other text. -/
theorem interned_ok {operation : Interning UInt16} {make : UInt16 → Instruction} {index : UInt16}
    (hop : op.interned? = some (operation, make)) (h : operation p = (.ok index, q))
    (hp : p.size ≤ Pool.capacity) :
    p.Grows q (Given op.texts) ∧ op.Means q (make index) := by
  cases op with
  | int value =>
    obtain ⟨rfl, rfl⟩ := Prod.mk.inj (Option.some.inj hop)
    rcases Pool.intern_ok h hp with ⟨hgrows, hget⟩
    refine ⟨hgrows.mono ?_, index, rfl, hget⟩
    rintro c rfl text ⟨⟩
  | str text =>
    obtain ⟨rfl, rfl⟩ := Prod.mk.inj (Option.some.inj hop)
    rcases Pool.interning_bind_eq_ok.1 h with ⟨i, mid, htext, h⟩
    rcases Pool.intern_ok htext hp with ⟨hgrows, hget⟩
    rcases Pool.intern_ok h hgrows.size_le with ⟨hgrows', hget'⟩
    refine ⟨hgrows.trans hgrows' ?_ ?_, index, rfl, ?_⟩
    · rintro c rfl _ ⟨⟩
      exact List.mem_singleton_self text
    · rintro c rfl _ ⟨⟩
    · exact Pool.str?_eq_some_iff.2
        ⟨i, hget', hgrows'.extends_pool.utf8? (Pool.utf8?_of_get? hget)⟩
  | getStatic field =>
    obtain ⟨rfl, rfl⟩ := Prod.mk.inj (Option.some.inj hop)
    rcases Pool.internEntry_ok h hp with ⟨m, hgrows, hget, htexts⟩
    refine ⟨hgrows.mono ?_, index, rfl, Pool.field?_eq_some_iff.2 ⟨m, hget, htexts⟩⟩
    rintro c (⟨text, htext, rfl⟩ | rfl) _ ⟨⟩
    exact htext
  | new typeName =>
    obtain ⟨rfl, rfl⟩ := Prod.mk.inj (Option.some.inj hop)
    rcases Pool.intern_ok h hp with ⟨hgrows, hget⟩
    refine ⟨hgrows.mono ?_, index, rfl, Pool.utf8?_of_get? hget⟩
    rintro c rfl _ ⟨⟩
    exact List.mem_singleton_self typeName
  | invoke kind method =>
    obtain ⟨rfl, rfl⟩ := Prod.mk.inj (Option.some.inj hop)
    rcases Pool.internEntry_ok h hp with ⟨m, hgrows, hget, htexts⟩
    refine ⟨hgrows.mono ?_, index, rfl, Pool.method?_eq_some_iff.2 ⟨m, hget, htexts⟩⟩
    rintro c (⟨text, htext, rfl⟩ | rfl) _ ⟨⟩
    exact htext
  | _ => cases hop

end Operation

open Operation (Given)

/-! ## Items -/

/-- Whatever instruction an item becomes says what an operation was given. -/
def Says (pool : Pool) (op : Operation) (item : Item) : Prop :=
  ∀ (d : MethodDraft) (starts : Array Nat) (i : Instruction),
    d.resolveItem starts item = .ok i → op.Means pool i

theorem Says.extends {p q : Pool} {op : Operation} {item : Item} (h : Says p op item)
    (hq : q.Extends p) : Says q op item :=
  fun d starts i hresolve => (h d starts i hresolve).extends hq

theorem finish_pool (d : MethodDraft) : d.finish.module.pool = d.module.pool := by
  unfold finish
  split <;> rfl

/-- An operation that meets no fault adds to the pool what it was given, and emits an item that
says that. -/
theorem perform_says {d : MethodDraft} {op : Operation} (hfault : (d.perform op).module.fault = none)
    (hsize : d.module.pool.size ≤ Pool.capacity) :
    d.module.pool.Grows (d.perform op).module.pool (Given op.texts) ∧
      ∀ item, op.item? d = some item → Says (d.perform op).module.pool op item := by
  rw [perform_module] at hfault ⊢
  cases hop : op.interned? with
  | some interned =>
    rcases interned with ⟨operation, make⟩
    rw [hop] at hfault
    rcases ModuleDraft.intern_of_fault_eq_none hfault with ⟨pool, hpool, hmodule⟩
    rcases Operation.interned_ok hop hpool hsize with ⟨hgrows, hmeans⟩
    dsimp only
    rw [hmodule]
    refine ⟨hgrows, ?_⟩
    intro item hitem
    have hplain : item = .plain (make (d.module.intern operation).1) := by
      cases op <;> simp_all [Operation.item?, Operation.interned?]
    subst hplain
    rintro e starts i ⟨⟩
    exact hmeans
  | none =>
    have hpool : (if op = .finish then d.finish.module else d.module).pool = d.module.pool := by
      split
      · exact d.finish_pool
      · rfl
    dsimp only
    rw [hpool]
    refine ⟨.refl hsize _, ?_⟩
    intro item hitem e starts i hresolve
    cases op with
    | plain given =>
      obtain rfl := Option.some.inj hitem
      exact (Except.ok.inj hresolve).symm
    | jump label | jumpIfFalse label =>
      obtain rfl := Option.some.inj hitem
      rcases map_eq_ok_iff.1 hresolve with ⟨target, -, rfl⟩
      exact ⟨target, rfl⟩
    | newLabel | bind | handler | setLocals | finish => cases hitem
    | _ => cases hop

end MethodDraft

open MethodDraft

/-! ## Methods -/

namespace MethodScript

/-- The texts that a method was given. -/
def texts (s : MethodScript) : List String :=
  s.name :: s.descriptor :: s.operations.flatMap Operation.texts

/-- The method as it is each time that it is finished. -/
def finished (s : MethodScript) : List MethodScript :=
  (s.operations.inits.filter (·.getLast? = some .finish)).map fun operations =>
    { s with operations }

theorem finished_concat (s : MethodScript) (ops : List Operation) (op : Operation) :
    ({ s with operations := ops ++ [op] } : MethodScript).finished =
      ({ s with operations := ops } : MethodScript).finished ++
        if op = .finish then [{ s with operations := ops ++ [op] }] else [] := by
  simp only [finished, List.inits_append]
  split <;> simp_all

/-- A method says, read with a pool, what its script says. -/
structure Realizes (pool : Pool) (s : MethodScript) (m : Method) : Prop where
  flags : m.flags = s.flags
  name : pool.utf8? m.name = some s.name
  descriptor : pool.utf8? m.descriptor = some s.descriptor
  code : List.Forall₂ (Operation.Means pool) (s.operations.filter Operation.emits) m.code.toList

theorem Realizes.extends {p q : Pool} {s : MethodScript} {m : Method} (h : s.Realizes p m)
    (hq : q.Extends p) : s.Realizes q m :=
  ⟨h.flags, hq.utf8? h.name, hq.utf8? h.descriptor, h.code.imp fun _ _ hi => hi.extends hq⟩

end MethodScript

/-! ## Drafts -/

/-- What a module without a fault says: its name, in a pool that has no texts but those given, and
the methods finished so far. -/
structure ModuleDraft.Tells (d : ModuleDraft) (name : String) (texts : List String)
    (finished : List MethodScript) : Prop where
  size_le : d.pool.size ≤ Pool.capacity
  named : d.pool.utf8? 0 = some name
  given : ∀ c ∈ d.pool.entries, Operation.Given texts c
  methods : List.Forall₂ (MethodScript.Realizes d.pool) finished d.methods.toList

/-- What the draft of a method says besides. -/
structure MethodDraft.Tells (d : MethodDraft) (s : MethodScript) (name : String)
    (texts : List String) (finished : List MethodScript) : Prop where
  module : d.module.Tells name texts finished
  flags : d.flags = s.flags
  name : d.module.pool.utf8? d.name = some s.name
  descriptor : d.module.pool.utf8? d.descriptor = some s.descriptor
  items : List.Forall₂ (Says d.module.pool) (s.operations.filter Operation.emits) d.items.toList

variable {name : String} {texts more : List String} {finished : List MethodScript}

/-- A module with no other methods says the same after its pool has grown. -/
theorem ModuleDraft.Tells.grows {d e : ModuleDraft} (h : d.Tells name texts finished)
    (hmethods : e.methods = d.methods) (hpool : d.pool.Grows e.pool (Operation.Given more)) :
    e.Tells name (texts ++ more) finished where
  size_le := hpool.size_le
  named := hpool.extends_pool.utf8? h.named
  given c hc text htext := by
    rcases hpool.of_mem c hc with hold | hnew
    · exact List.mem_append_left _ (h.given c hold text htext)
    · exact List.mem_append_right _ (hnew text htext)
  methods := by
    rw [hmethods]
    exact h.methods.imp fun _ _ hm => hm.extends hpool.extends_pool

namespace MethodDraft.Tells

variable {d : MethodDraft} {s : MethodScript}

/-- An assembled method says what was emitted. -/
theorem realizes (h : d.Tells s name texts finished) {m : Method} (hm : d.assemble = .ok m) :
    s.Realizes d.module.pool m := by
  rcases assemble_eq_ok hm with ⟨hcode, -, hflags, hname, hdescriptor⟩
  refine ⟨hflags.trans h.flags, hname ▸ h.name, hdescriptor ▸ h.descriptor, ?_⟩
  refine (forall₂_comp h.items hcode).imp ?_
  rintro op i ⟨item, hsays, hresolve⟩
  exact hsays d _ i hresolve

/-- The step: an operation that meets no fault. -/
theorem perform {op : Operation} (h : d.Tells s name texts finished)
    (hfault : (d.perform op).module.fault = none) :
    (d.perform op).Tells { s with operations := s.operations ++ [op] } name (texts ++ op.texts)
      (finished ++ if op = .finish then [{ s with operations := s.operations ++ [op] }] else []) := by
  rcases perform_says hfault h.module.size_le with ⟨hgrows, hsays⟩
  have hheader := d.perform_header op
  have hextends := hgrows.extends_pool
  refine ⟨?_, hheader.flags.trans h.flags, ?_, ?_, ?_⟩
  · by_cases hop : op = .finish
    · subst hop
      rw [if_pos rfl]
      cases hassemble : d.assemble with
      | error error =>
        rw [MethodDraft.perform, finish_of_error hassemble, ModuleDraft.fault_fail] at hfault
        cases hfault
      | ok m =>
        have hrealizes := h.realizes hassemble
        have hemitted : (s.operations ++ [Operation.finish]).filter Operation.emits =
            s.operations.filter Operation.emits := by
          rw [List.filter_append]
          exact List.append_nil _
        have hmethod : ({ s with operations := s.operations ++ [.finish] } : MethodScript).Realizes
            d.module.pool m :=
          ⟨hrealizes.flags, hrealizes.name, hrealizes.descriptor, hemitted ▸ hrealizes.code⟩
        rw [MethodDraft.perform, finish_of_ok hassemble]
        refine ⟨h.module.size_le, h.module.named, ?_, ?_⟩
        · simpa [Operation.texts] using h.module.given
        · rw [Array.toList_push]
          exact List.rel_append h.module.methods (.cons hmethod .nil)
    · rw [if_neg hop, List.append_nil]
      exact h.module.grows (perform_methods hop) hgrows
  · rw [hheader.name]
    exact hextends.utf8? h.name
  · rw [hheader.descriptor]
    exact hextends.utf8? h.descriptor
  · exact forall₂_perform_items (h.items.imp fun _ _ hi => hi.extends hextends) hsays

/-- The run: operations that meet no fault, on a draft with which nothing was done. -/
theorem after {ops : List Operation}
    (h : d.Tells { s with operations := [] } name texts finished)
    (hfault : (d.after ops).module.fault = none) :
    (d.after ops).Tells { s with operations := ops } name (texts ++ ops.flatMap Operation.texts)
      (finished ++ ({ s with operations := ops } : MethodScript).finished) := by
  induction ops using List.reverseRecOn with
  | nil => simpa [MethodDraft.after, MethodScript.finished] using h
  | append_singleton ops op ih =>
    rw [after_concat] at hfault ⊢
    have hbefore := ((d.after ops).perform_extends op).fault_eq_none hfault
    have hstep := (ih hbefore).perform hfault
    rw [MethodScript.finished_concat, List.flatMap_append, List.flatMap_singleton,
      ← List.append_assoc, ← List.append_assoc]
    exact hstep

end MethodDraft.Tells

namespace ModuleDraft

/-- A module with a name says that. -/
theorem tells_named (name : String) : (named name).Tells name [name] [] where
  size_le := by simp [named, Pool.size, Pool.capacity]
  named := rfl
  given := by
    rintro c hc text rfl
    simpa [named] using hc
  methods := .nil

namespace Tells

variable {d : ModuleDraft}

/-- A text that is interned without a fault is where it is said to be. -/
theorem internUtf8 (h : d.Tells name texts finished) {text : String}
    (hfault : (d.intern (Pool.internUtf8 text)).2.fault = none) :
    (d.intern (Pool.internUtf8 text)).2.pool.Extends d.pool ∧
      (d.intern (Pool.internUtf8 text)).2.pool.utf8? (d.intern (Pool.internUtf8 text)).1 =
        some text ∧
      (d.intern (Pool.internUtf8 text)).2.Tells name (texts ++ [text]) finished := by
  rcases intern_of_fault_eq_none hfault with ⟨pool, hpool, hmodule⟩
  rcases Pool.intern_ok hpool h.size_le with ⟨hgrows, hget⟩
  rw [hmodule]
  refine ⟨hgrows.extends_pool, Pool.utf8?_of_get? hget, h.grows rfl (hgrows.mono ?_)⟩
  rintro c rfl _ ⟨⟩
  exact List.mem_singleton_self text

/-- The draft of a method, before anything is done with it. -/
theorem method (h : d.Tells name texts finished) {s : MethodScript}
    (hfault : (d.method s.name s.descriptor s.flags).module.fault = none) :
    (d.method s.name s.descriptor s.flags).Tells { s with operations := [] } name
      (texts ++ [s.name] ++ [s.descriptor]) finished := by
  rcases d.method_eq s.name s.descriptor s.flags with ⟨read, hread, hname, hdescriptor, hmodule⟩
  rw [hmodule] at hfault
  have hsecond := (intern_extends _ _).fault_eq_none hfault
  have hfirst := (intern_extends _ _).fault_eq_none hsecond
  obtain rfl : read = d := by
    rcases hread with hread | ⟨error, rfl⟩
    · exact hread
    · rw [fault_fail] at hfirst
      cases hfirst
  rcases h.internUtf8 hsecond with ⟨-, htext, hinterned⟩
  rcases hinterned.internUtf8 hfault with ⟨hextends, htext', hinterned'⟩
  refine ⟨?_, rfl, ?_, ?_, .nil⟩
  · rw [hmodule]
    exact hinterned'
  · rw [hmodule, hname]
    exact hextends.utf8? htext
  · rw [hmodule, hdescriptor]
    exact htext'

/-- The step: a method and what is done with it. -/
theorem start (h : d.Tells name texts finished) {s : MethodScript}
    (hfault : (d.start s).module.fault = none) :
    (d.start s).module.Tells name (texts ++ s.texts) (finished ++ s.finished) := by
  have hmethod := h.method ((MethodDraft.after_extends _ _).fault_eq_none hfault)
  have htells := (hmethod.after hfault).module
  simp only [List.append_assoc, List.cons_append, List.nil_append] at htells
  exact htells

/-- The run: methods without a fault. -/
theorem after {scripts : List MethodScript} (h : d.Tells name texts finished)
    (hfault : (d.after scripts).fault = none) :
    (d.after scripts).Tells name (texts ++ scripts.flatMap MethodScript.texts)
      (finished ++ scripts.flatMap MethodScript.finished) := by
  induction scripts generalizing d texts finished with
  | nil => simpa [ModuleDraft.after] using h
  | cons s rest ih =>
    have hfirst := (ModuleDraft.after_extends (d.start s).module rest).fault_eq_none hfault
    rw [List.flatMap_cons, List.flatMap_cons, ← List.append_assoc, ← List.append_assoc]
    exact ih (h.start hfirst) hfault

end Tells

/-! ## Images -/

/-- In the image that is built of any methods, with anything done with their drafts, each method
says what was emitted until it was finished, and the name of the image is that of the module. The
image can be encoded, and read back as it is, when the texts and the tables of the methods are
small enough for their fields. -/
theorem build_means (name : String) (scripts : List MethodScript) {image : Image}
    (h : ((named name).after scripts).build = .ok image) :
    image.name? = some name ∧
      List.Forall₂ (MethodScript.Realizes image.pool) (scripts.flatMap MethodScript.finished)
        image.methods.toList ∧
      ((∀ text ∈ name :: scripts.flatMap MethodScript.texts, text.utf8ByteSize ≤ 65535) →
        image.methods.size ≤ 65535 →
        (∀ m ∈ image.methods, m.handlers.length ≤ 65535 ∧ Code.byteLength m.code < 4294967296) →
        ∃ bytes, image.encode = .ok bytes ∧ Image.decode bytes = .ok image) := by
  rcases build_eq_ok_iff.1 h with ⟨hfault, rfl⟩
  have htells := (tells_named name).after hfault
  refine ⟨htells.named, htells.methods, ?_⟩
  intro htexts hsize hmethods
  have hencodable : Image.Encodable ⟨Image.majorVersion, Image.minorVersion,
      ((named name).after scripts).pool, 0, ((named name).after scripts).methods⟩ := by
    refine ⟨⟨htells.size_le, ?_, hsize, ?_⟩, ?_, ?_⟩
    · intro c hc
      cases c with
      | utf8 text => exact htexts text (htells.given _ hc text rfl)
      | _ => trivial
    · intro m hm
      rcases hmethods m hm with ⟨hhandlers, hcode⟩
      exact ⟨Nat.le_of_lt_succ hcode, hhandlers⟩
    · exact (Array.getElem?_eq_some_iff.1 (Pool.get?_of_utf8? htells.named)).1
    · intro m hm i hi
      rcases exists_left_of_forall₂ htells.methods (Array.mem_toList_iff.2 hm) with
        ⟨s, -, hrealizes⟩
      rcases exists_left_of_forall₂ hrealizes.code (Array.mem_toList_iff.2 hi) with ⟨op, -, hmeans⟩
      exact hmeans.refersBelow
  have hencode := Image.encode_eq_ok_iff.2 ⟨hencodable, rfl⟩
  exact ⟨_, hencode, Image.decode_of_encode hencode rfl⟩

/-- Two methods with constants in common, the second of them finished twice. -/
def sharing : List MethodScript :=
  [{ name := "f"
     descriptor := "()V"
     flags := Method.staticFlag
     operations := [.int 5, .str "f", .plain ⟨.dup, by decide⟩, .finish] },
   { name := "g"
     descriptor := "()V"
     flags := Method.staticFlag
     operations := [.getStatic ⟨"m", "x", "J"⟩, .new "f", .finish, .invoke .static ⟨"m", "f", "()V"⟩,
       .int 5, .finish] }]

/-- The image of the two methods. -/
def shared : Image where
  major := Image.majorVersion
  minor := Image.minorVersion
  pool := ⟨#[.utf8 "m", .utf8 "f", .utf8 "()V", .int 5, .str 1, .utf8 "g", .utf8 "x", .utf8 "J",
    .field ⟨0, 6, 7⟩, .method ⟨0, 1, 2⟩]⟩
  thisName := 0
  methods := #[⟨1, 1, 2, 0, #[.const 3, .const 4, .dup], []⟩,
    ⟨1, 5, 2, 0, #[.getStatic 8, .new 1], []⟩,
    ⟨1, 5, 2, 0, #[.getStatic 8, .new 1, .invoke .static 9, .const 3], []⟩]

theorem build_means_shared :
    ((named "m").after sharing).build = .ok shared ∧ shared.name? = some "m" ∧
      List.Forall₂ (MethodScript.Realizes shared.pool) (sharing.flatMap MethodScript.finished)
        shared.methods.toList ∧
      ∃ bytes, shared.encode = .ok bytes ∧ Image.decode bytes = .ok shared := by
  have hbuilt : ((named "m").after sharing).build = .ok shared := by decide +kernel
  rcases build_means "m" sharing hbuilt with ⟨hname, hmethods, hencodes⟩
  exact ⟨hbuilt, hname, hmethods,
    hencodes (by decide +kernel) (by decide +kernel) (by decide +kernel)⟩

end ModuleDraft

end Interposition
