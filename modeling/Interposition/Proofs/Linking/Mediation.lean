import Interposition.Proofs.Image.Codec
import Interposition.Proofs.Image.Redirection
import Interposition.Proofs.Linking.Defined

/-!
# Interposition.Proofs.Linking.Mediation — layers that let no call of a symbol through

A layer that takes all names answers with modules it has redirected itself. If its rules take a
symbol away, and no rule brings a symbol of that owner and name back, no image it defines names
the symbol in a call, be the call ever reached or not (`Image.redirect_avoids`). That is so for
all the modules the layer has, and stays so whatever is loaded or resolved at whatever level of
the stack (`Loader.Evolves.mediates`).
-/

namespace Interposition

/-- Rules take a static call away: it is the source of one, and its owner and name are not those
of the target of any. -/
structure RuleSet.Withholds (rules : RuleSet) (source : Symbol) : Prop where
  static : source.kind = .static
  ruled : ∃ rule ∈ rules.rules, rule.source = source
  untargeted : ∀ rule ∈ rules.rules,
    ¬(rule.target.owner = source.owner ∧ rule.target.name = source.name)

/-! ## Images -/

/-- No call instruction of an image names a symbol. -/
def Image.Avoids (source : Symbol) (image : Image) : Prop :=
  ∀ m ∈ image.methods, ∀ kind index, .invoke kind index ∈ m.code →
    ¬image.pool.Names (index, kind) source

theorem Pool.Names.owner_name {p : Pool} {operand : UInt16 × CallKind} {s : Symbol}
    {m : MemberTexts} (h : p.Names operand s) (hm : p.method? operand.1 = some m) :
    m.owner = s.owner ∧ m.name = s.name := by
  rcases h with ⟨m', hm', hs⟩
  rcases Option.some.inj (hm'.symm.trans hm) with rfl
  rcases map_eq_ok_iff.1 hs with ⟨signature, -, rfl⟩
  exact ⟨rfl, rfl⟩

/-- A redirected image names no symbol that the rules take away. -/
theorem Image.redirect_avoids {rules : RuleSet} {source : Symbol} {image image' : Image}
    {report : RedirectReport} (hrules : rules.Withholds source)
    (hsize : image.pool.size ≤ Pool.capacity)
    (h : image.redirect rules = .ok (image', report)) : image'.Avoids source := by
  rcases hrules.ruled with ⟨rule, hrule, rfl⟩
  rcases redirect_ok h hsize with ⟨hempty, -, -⟩ | ⟨known, -, himage, -, hsettles⟩
  · have hnone : rules.lookup rule.source = none := RuleSet.lookup_eq_none hempty
    rw [RuleSet.lookup_source hrule] at hnone
    cases hnone
  · intro m' hm' kind index hcall hnames
    rw [himage] at hm'
    rcases Array.mem_map.1 hm' with ⟨m, hm, rfl⟩
    rcases Array.mem_map.1 hcall with ⟨i, hi, happly⟩
    have hbecomes := becomes_of_settles hsettles hm hi
    rw [happly] at hbecomes
    -- The symbol has a rule, so it could only be called as the target of another.
    rcases hbecomes.calls_target hnames (RuleSet.lookup_source hrule) with
      ⟨-, other, hother, htarget⟩
    exact hrules.untargeted other hother (hnames.owner_name htarget)

/-! ## Layers -/

/-- A module defined at a level, without a call of a symbol. -/
structure Module.Mediated (level : Nat) (source : Symbol) (m : Module) : Prop where
  level_eq : m.level = some level
  avoids : m.image.Avoids source

/-- A layer that takes all names and whose rules take a symbol away. Its modules, which are at a
level, have no call of it. -/
structure Layer.Mediates (level : Nat) (source : Symbol) (l : Layer) : Prop where
  selects : ∀ name, l.selects name = true
  withholds : l.registry.rules.Withholds source
  modules : ∀ m ∈ l.space.modules, m.Mediated level source

/-- Bytes are redirected as the image they decode to, and the version stays the one there is. -/
theorem redirectBytes_eq_ok {rules : RuleSet} {bytes : List UInt8} {image : Image}
    {report : RedirectReport} (h : redirectBytes rules bytes = .ok (image, report)) :
    image.major = Image.majorVersion ∧ ∃ original, Image.decode bytes = .ok original ∧
      original.redirect rules = .ok (image, report) := by
  rcases bind_eq_ok_iff.1 h with ⟨original, hdecode, hredirect⟩
  rw [mapError_eq_ok_iff] at hdecode hredirect
  rcases Image.decode_eq_ok_iff.1 hdecode with ⟨hmajor, hfits, -⟩
  refine ⟨?_, original, hdecode, hredirect⟩
  rcases Image.redirect_ok hredirect hfits.pool_size with ⟨-, rfl, -⟩ | ⟨known, -, himage, -⟩
  · exact hmajor
  · rw [himage]
    exact hmajor

/-- Transformed bytes decode to the redirected image. -/
theorem transform_eq_ok {rules : RuleSet} {bytes encoded : List UInt8} {report : RedirectReport}
    (h : transform rules bytes = .ok (encoded, report)) :
    ∃ original image, Image.decode bytes = .ok original ∧
      original.redirect rules = .ok (image, report) ∧ Image.decode encoded = .ok image := by
  rcases bind_eq_ok_iff.1 h with ⟨⟨image, _⟩, hredirect, h⟩
  rcases bind_eq_ok_iff.1 h with ⟨_, hencode, hpair⟩
  rcases Prod.mk.inj (Except.ok.inj hpair) with ⟨rfl, rfl⟩
  rcases redirectBytes_eq_ok hredirect with ⟨hmajor, original, hdecode, hredirect'⟩
  exact ⟨original, image, hdecode, hredirect',
    Image.decode_of_encode (mapError_eq_ok_iff.1 hencode) hmajor⟩

/-- What becomes of bytes that decode: their image is redirected, and the result is encoded. -/
theorem transform_of_decode {rules : RuleSet} {bytes : List UInt8} {image : Image}
    (hdecode : Image.decode bytes = .ok image) :
    transform rules bytes =
      match image.redirect rules with
      | .error e => .error (.redirect e)
      | .ok (image', report) =>
        match image'.encode with
        | .error e => .error (.encode e)
        | .ok encoded => .ok (encoded, report) := by
  simp only [transform, redirectBytes, hdecode, mapError_ok, bind, Except.bind]
  cases image.redirect rules with
  | error e => rfl
  | ok result =>
    rcases result with ⟨image', report⟩
    simp only [mapError_ok]
    cases image'.encode with
    | error e => rfl
    | ok encoded => rfl

theorem transform_of_redirect {rules : RuleSet} {bytes encoded : List UInt8}
    {original image : Image} {report : RedirectReport} (hdecode : Image.decode bytes = .ok original)
    (hredirect : original.redirect rules = .ok (image, report))
    (hencode : image.encode = .ok encoded) :
    transform rules bytes = .ok (encoded, report) := by
  rw [transform_of_decode hdecode, hredirect]
  dsimp only
  rw [hencode]

/-- What transformed bytes define has the redirected image. -/
theorem Module.image_of_transform {rules : RuleSet} {bytes encoded : List UInt8}
    {report : RedirectReport} {name : String} {derived : Bool} {level : Option Nat} {m : Module}
    (htransform : transform rules bytes = .ok (encoded, report))
    (hdefine : Module.define name encoded derived level = .ok m) :
    m.name = name ∧ m.level = level ∧ ∃ original, Image.decode bytes = .ok original ∧
      original.redirect rules = .ok (m.image, report) := by
  rcases transform_eq_ok htransform with ⟨original, image, hdecode, hredirect, hencoded⟩
  rcases Module.define_eq_ok hdefine with ⟨image', hencoded', -, rfl⟩
  rcases Except.ok.inj (hencoded.symm.trans hencoded') with rfl
  exact ⟨rfl, rfl, original, hdecode, hredirect⟩

theorem Layer.Mediates.define {level : Nat} {source : Symbol} {l : Layer}
    (hl : l.Mediates level source) (name : String) (bytes : List UInt8) :
    (l.define level name bytes).2.Mediates level source ∧
      ∀ m, (l.define level name bytes).1 = .ok m → m.Mediated level source := by
  rcases l.define_eq level name bytes with ⟨hselects, hregistry⟩
  rcases l.define_cases level name bytes with
    ⟨⟨e, he⟩, hspace⟩ | ⟨encoded, report, m, htransform, hm, hanswer, hmodules⟩
  · refine ⟨⟨?_, ?_, ?_⟩, by simp [he]⟩
    · rw [hselects]
      exact hl.selects
    · rw [hregistry]
      exact hl.withholds
    · rw [hspace]
      exact hl.modules
  · rcases Module.image_of_transform htransform hm with
      ⟨-, hlevel, original, hdecode, hredirect⟩
    have hsize := (Image.decode_eq_ok_iff.1 hdecode).2.1.pool_size
    have hnew : m.Mediated level source :=
      ⟨hlevel, Image.redirect_avoids hl.withholds hsize hredirect⟩
    refine ⟨⟨?_, ?_, ?_⟩, ?_⟩
    · rw [hselects]
      exact hl.selects
    · rw [hregistry]
      exact hl.withholds
    · rw [hmodules]
      exact List.forall_mem_cons.2 ⟨hnew, hl.modules⟩
    · rw [hanswer]
      rintro m' ⟨⟩
      exact hnew

/-! ## Stacks -/

namespace Loader

/-! ### Levels -/

theorem load_level (l : Loader) (name : String) : (l.load name).2.level = l.level := by
  induction l with
  | bundle b => rfl
  | layer l below ih =>
    rw [load]
    dsimp only
    split
    · split
      · rfl
      · split <;> rfl
    · exact congrArg (· + 1) ih

theorem resolve_level (l : Loader) (name : String) : (l.resolve name).2.level = l.level := by
  unfold resolve
  split
  · rfl
  · exact load_level l name

theorem within_level {α : Type} {act : Loader → α × Loader}
    (hact : ∀ l, (act l).2.level = l.level) (level : Nat) (l : Loader) :
    (l.within level act).2.level = l.level := by
  induction l with
  | bundle b => exact hact _
  | layer l below ih =>
    rw [within]
    split
    · exact hact _
    · exact congrArg (· + 1) ih

/-- A level that is too high is that of the topmost loader. -/
theorem within_of_le {α : Type} (act : Loader → α × Loader) {level : Nat} {l : Loader}
    (h : l.level ≤ level) : l.within level act = act l := by
  cases l with
  | bundle b => rfl
  | layer l below =>
    have hlt : below.level < level := h
    rw [within, if_pos hlt]

/-- At its own level a stack acts itself. -/
theorem within_self {α : Type} (act : Loader → α × Loader) (l : Loader) :
    l.within l.level act = act l :=
  within_of_le act (Nat.le_refl _)

/-! ### Evolution -/

/-- What becomes of a stack when modules are loaded and resolved, each at some level of it. -/
inductive Evolves (l : Loader) : Loader → Prop
  | refl : l.Evolves l
  | load {k : Loader} (h : l.Evolves k) (level : Nat) (name : String) :
      l.Evolves (k.within level (·.load name)).2
  | resolve {k : Loader} (h : l.Evolves k) (level : Nat) (name : String) :
      l.Evolves (k.resolveAt level name).2

theorem Evolves.trans {l k j : Loader} (h : l.Evolves k) (h' : k.Evolves j) : l.Evolves j := by
  induction h' with
  | refl => exact h
  | load _ level name ih => exact ih.load level name
  | resolve _ level name ih => exact ih.resolve level name

theorem load_evolves (l : Loader) (name : String) : l.Evolves (l.load name).2 := by
  have hself : l.Evolves (l.within l.level (·.load name)).2 := .load .refl _ name
  rwa [within_self] at hself

theorem resolve_evolves (l : Loader) (name : String) : l.Evolves (l.resolve name).2 := by
  have hself : l.Evolves (l.within l.level (·.resolve name)).2 := .resolve .refl _ name
  rwa [within_self] at hself

/-- What becomes of the stack below a layer becomes of it there. -/
theorem Evolves.layer {below under : Loader} (h : below.Evolves under) (l : Layer) :
    (Loader.layer l below).Evolves (.layer l under) := by
  have hwithin (k : Loader) (level : Nat) (act : Loader → Except Error Module × Loader) :
      ((Loader.layer l k).within (min level k.level) act).2 =
        .layer l (k.within level act).2 := by
    rw [within, if_neg (Nat.not_lt.2 (Nat.min_le_right ..))]
    rcases Nat.le_total level k.level with hle | hle
    · rw [Nat.min_eq_left hle]
    · rw [Nat.min_eq_right hle, within_of_le act hle, within_of_le act (Nat.le_refl _)]
  induction h with
  | refl => exact .refl
  | load _ level name ih =>
    rw [← hwithin]
    exact ih.load _ name
  | @resolve k _ level name ih =>
    rw [resolveAt, ← hwithin]
    exact ih.resolve _ name

/-! ### Mediation -/

/-- The topmost loader is a layer at a level that mediates a symbol there. -/
def Mediates (level : Nat) (source : Symbol) : Loader → Prop
  | bundle _ => False
  | layer l below => below.level + 1 = level ∧ l.Mediates level source

variable {level : Nat} {source : Symbol} {l : Loader}

theorem Mediates.level_eq (hl : l.Mediates level source) : l.level = level := by
  cases l with
  | bundle b => exact hl.elim
  | layer l below => exact hl.1

/-- Loading a module keeps a mediating layer so, and the module is mediated. -/
theorem Mediates.load (hl : l.Mediates level source) (name : String) :
    (l.load name).2.Mediates level source ∧
      ∀ m, (l.load name).1 = .ok m → m.Mediated level source := by
  cases l with
  | bundle b => exact hl.elim
  | layer l below =>
    rcases hl with ⟨rfl, hlayer⟩
    have hfrozen : l.freeze.Mediates (below.level + 1) source :=
      ⟨hlayer.selects, hlayer.withholds, hlayer.modules⟩
    rw [Loader.load]
    simp only [hfrozen.selects name, if_true]
    split
    · exact ⟨⟨rfl, hfrozen⟩, by simp⟩
    · split
      case h_1 => exact ⟨⟨rfl, hfrozen⟩, by simp⟩
      case h_2 bytes hbytes =>
        rcases hfrozen.define name bytes with ⟨hdefined, hanswer⟩
        exact ⟨⟨rfl, hdefined⟩, hanswer⟩

theorem Mediates.resolve (hl : l.Mediates level source) (name : String) :
    (l.resolve name).2.Mediates level source ∧
      ∀ m, (l.resolve name).1 = .ok m → m.Mediated level source := by
  unfold Loader.resolve
  split
  case h_1 m hfind =>
    refine ⟨hl, ?_⟩
    rintro m' ⟨⟩
    -- The name is one the layer takes, so the module is one of its own.
    cases l with
    | bundle b => exact hl.elim
    | layer l below =>
      rw [find?, if_pos (hl.2.selects name)] at hfind
      exact hl.2.modules m (Space.mem_of_find? hfind)
  case h_2 => exact hl.load name

/-- What happens at a level below does not change what a layer mediates. -/
theorem Mediates.within {α : Type} {act : Loader → α × Loader} (hl : l.Mediates level source)
    (hlevel : ∀ k, (act k).2.level = k.level)
    (hact : ∀ k : Loader, k.Mediates level source → (act k).2.Mediates level source)
    (here : Nat) : (l.within here act).2.Mediates level source := by
  cases l with
  | bundle b => exact hl.elim
  | layer l below =>
    rw [Loader.within]
    split
    · exact hact _ hl
    · refine ⟨?_, hl.2⟩
      rw [within_level hlevel]
      exact hl.1

theorem Evolves.mediates {k : Loader} (h : l.Evolves k) (hl : l.Mediates level source) :
    k.Mediates level source := by
  induction h with
  | refl => exact hl
  | load _ here name ih =>
    exact ih.within (fun k => k.load_level name) (fun k hk => (hk.load name).1) here
  | resolve _ here name ih =>
    exact ih.within (fun k => k.resolve_level name) (fun k hk => (hk.resolve name).1) here

/-- A module of a mediating layer is answered with modules of it. -/
theorem Mediates.resolveAt (hl : l.Mediates level source) (name : String) :
    (l.resolveAt level name).2.Mediates level source ∧
      ∀ m, (l.resolveAt level name).1 = .ok m → m.Mediated level source := by
  rw [← hl.level_eq, Loader.resolveAt, within_self, hl.level_eq]
  exact hl.resolve name

end Loader

end Interposition
