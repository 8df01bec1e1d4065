import Interposition.Image.Redirect
import Interposition.Proofs.Call.Registration
import Interposition.Proofs.Image.Interning
import Interposition.Proofs.Image.Offsets

/-!
# Interposition.Proofs.Image.Redirection — what redirecting does to an image

Calls are resolved against a pool that grows, each operand once for the whole image.
`Pool.Settles` says what an operand becomes without either: it is a statement about the
constants the operand names, and it stays true when the pool grows. `resolveAll_ok` is the
invariant of the pass. The check of a rule at a call passes for every rule that is found there
(`RuleSet.check_of_lookup`), so no pass ends with an illegal rule (`redirect_ne_illegalRule`). From
the invariant follow, site by site, what the redirected image holds (`redirect_ok`) and what the
report lists.
-/

namespace Interposition

/-- Owner, name and descriptor of a symbol. -/
def Symbol.texts (s : Symbol) : MemberTexts :=
  ⟨s.owner, s.name, s.signature.descriptor⟩

/-! ## Operands -/

/-- The symbol that a call operand names in a pool. -/
def Pool.Names (p : Pool) (operand : UInt16 × CallKind) (s : Symbol) : Prop :=
  ∃ m, p.method? operand.1 = some m ∧
    Symbol.ofDescriptor operand.2 m.owner m.name m.descriptor = .ok s

theorem Pool.Names.unique {p : Pool} {operand : UInt16 × CallKind} {s t : Symbol}
    (hs : p.Names operand s) (ht : p.Names operand t) : s = t := by
  rcases hs with ⟨m, hm, hs⟩
  rcases ht with ⟨m', hm', ht⟩
  rcases Option.some.inj (hm.symm.trans hm') with rfl
  exact Except.ok.inj (hs.symm.trans ht)

theorem Pool.Names.extends {p q : Pool} {operand : UInt16 × CallKind} {s : Symbol}
    (h : p.Names operand s) (hq : q.Extends p) : q.Names operand s := by
  rcases h with ⟨m, hm, hs⟩
  exact ⟨m, hq.method? hm, hs⟩

theorem Pool.symbol_eq_ok_iff {p : Pool} {site : CallSite} {s : Symbol} :
    p.symbol site = .ok s ↔ p.Names site.operand s := by
  unfold Pool.symbol Names
  cases p.method? site.index with
  | none => simp
  | some m => simp

/-- What a call operand becomes: nothing else if no rule has its symbol for a source, and else
the position of a constant that names the target of that rule. -/
def Pool.Settles (rules : RuleSet) (p : Pool) (operand : UInt16 × CallKind)
    (replacement : Option Replacement) : Prop :=
  ∃ source, p.Names operand source ∧
    match rules.lookup source with
    | none => replacement = none
    | some rule => ∃ index, replacement = some ⟨index, source, rule.target⟩ ∧
        p.method? index = some rule.target.texts

theorem Pool.Settles.extends {rules : RuleSet} {p q : Pool} {operand : UInt16 × CallKind}
    {replacement : Option Replacement} (h : p.Settles rules operand replacement)
    (hq : q.Extends p) : q.Settles rules operand replacement := by
  rcases h with ⟨source, hnames, h⟩
  refine ⟨source, hnames.extends hq, ?_⟩
  split at h
  case h_1 => exact h
  case h_2 rule hrule =>
    rcases h with ⟨index, hreplacement, hmethod⟩
    exact ⟨index, hreplacement, hq.method? hmethod⟩

/-! ## The check of a rule -/

theorem Rule.check_eq_ok_iff {site target : Symbol} :
    check site target = .ok () ↔
      target.kind = .static ∧ target.signature = site.staticSignature := by
  unfold check Symbol.isStatic
  by_cases hkind : target.kind = .static
  · by_cases hsignature : target.signature = site.staticSignature
    · simp [hkind, hsignature]
    · simp [hkind, hsignature]
  · simp [hkind]

/-- A rule passes at every call it is found for: it is found by its source, and its own target is
static and takes what the source takes. -/
theorem RuleSet.check_of_lookup {rules : RuleSet} {site : Symbol} {rule : Rule}
    (h : rules.lookup site = some rule) : Rule.check site rule.target = .ok () := by
  obtain rfl : rule.source = site := (lookup_eq_some h).2
  exact Rule.check_eq_ok_iff.2 ⟨rule.target_static, rule.target_signature⟩

/-- What resolving a call that names a symbol comes to. Of the check of its rule nothing is left. -/
theorem Pool.resolve_eq {rules : RuleSet} {p : Pool} {site : CallSite} {source : Symbol}
    (h : p.symbol site = .ok source) :
    p.resolve rules site =
      match rules.lookup source with
      | none => .ok (none, p)
      | some rule =>
        match internMethod rule.target.texts p with
        | (.ok index, q) => .ok (some ⟨index, source, rule.target⟩, q)
        | (.error overflow, _) => .error (.poolOverflow overflow) := by
  unfold resolve
  rw [h]
  cases hrule : rules.lookup source with
  | none => simp [hrule, bind, Except.bind, pure, Except.pure]
  | some rule =>
    have hcheck := RuleSet.check_of_lookup hrule
    simp only [hrule, hcheck, mapError_ok, bind, Except.bind]
    rfl

/-- Resolving a call never ends with an illegal rule. -/
theorem Pool.resolve_ne_illegalRule {rules : RuleSet} {p : Pool} {site : CallSite}
    {reason : RuleError} : p.resolve rules site ≠ .error (.illegalRule reason) := by
  cases hsymbol : p.symbol site with
  | error e =>
    have hfails : p.resolve rules site = .error e := by simp [resolve, hsymbol, bind, Except.bind]
    rw [hfails]
    rintro ⟨⟩
    unfold symbol at hsymbol
    split at hsymbol
    case h_1 => cases hsymbol
    case h_2 m hm =>
      cases hread : Symbol.ofDescriptor site.kind m.owner m.name m.descriptor <;>
        simp [hread] at hsymbol
  | ok source =>
    rw [resolve_eq hsymbol]
    split
    case h_1 => rintro ⟨⟩
    case h_2 rule hrule =>
      split
      · rintro ⟨⟩
      · rintro ⟨⟩

/-- Nor does resolving many. -/
theorem Pool.resolveAll_ne_illegalRule {rules : RuleSet} {p : Pool} {known : Replacements}
    {sites : List CallSite} {reason : RuleError} :
    p.resolveAll rules known sites ≠ .error (.illegalRule reason) := by
  induction sites generalizing p known with
  | nil => rintro ⟨⟩
  | cons site rest ih =>
    rw [resolveAll]
    split
    case h_1 => exact ih
    case h_2 =>
      cases hresolve : p.resolve rules site with
      | error e =>
        intro h
        obtain rfl : e = .illegalRule reason := Except.error.inj h
        exact resolve_ne_illegalRule hresolve
      | ok resolved => exact ih

/-- No redirection ends with an illegal rule, whatever the image. -/
theorem Image.redirect_ne_illegalRule {rules : RuleSet} {image : Image} {reason : RuleError} :
    image.redirect rules ≠ .error (.illegalRule reason) := by
  intro h
  unfold redirect at h
  dsimp only at h
  split at h
  case isTrue => cases h
  case isFalse =>
    cases hall : image.pool.resolveAll rules [] image.callSites with
    | error e =>
      rw [hall] at h
      obtain rfl : e = .illegalRule reason := Except.error.inj h
      exact Pool.resolveAll_ne_illegalRule hall
    | ok resolved =>
      rw [hall] at h
      cases h

/-! ## The pass -/

/-- What a pass adds to a pool: texts, and targets of rules whose sources some call names. -/
def Pool.AddedFor (rules : RuleSet) (q : Pool) (c : Constant) : Prop :=
  (∃ text, c = .utf8 text) ∨
    ∃ rule ∈ rules.rules, (∃ operand, q.Names operand rule.source) ∧
      ∃ m, c = .method m ∧ q.texts? m = some rule.target.texts

theorem Pool.AddedFor.extends {rules : RuleSet} {p q : Pool} {c : Constant}
    (h : p.AddedFor rules c) (hq : q.Extends p) : q.AddedFor rules c := by
  refine h.imp_right ?_
  rintro ⟨rule, hrule, ⟨operand, hnames⟩, m, hm, htexts⟩
  exact ⟨rule, hrule, ⟨operand, hnames.extends hq⟩, m, hm, hq.texts? htexts⟩

/-- One operand is settled. -/
theorem Pool.resolve_ok {rules : RuleSet} {p q : Pool} {site : CallSite}
    {replacement : Option Replacement} (h : p.resolve rules site = .ok (replacement, q))
    (hp : p.size ≤ capacity) :
    p.Grows q (q.AddedFor rules) ∧ q.Settles rules site.operand replacement := by
  rcases bind_eq_ok_iff.1 h with ⟨source, hsource, -⟩
  have hnames := Pool.symbol_eq_ok_iff.1 hsource
  rw [resolve_eq hsource] at h
  split at h
  case h_1 hnone =>
    rcases Prod.mk.inj (Except.ok.inj h) with ⟨rfl, rfl⟩
    exact ⟨.refl hp _, source, hnames, by rw [hnone]⟩
  case h_2 rule hrule =>
    split at h
    case h_1 index q' hintern =>
      rcases Prod.mk.inj (Except.ok.inj h) with ⟨rfl, rfl⟩
      rcases internMethod_ok hintern hp with ⟨hgrows, hmethod⟩
      rcases RuleSet.lookup_eq_some hrule with ⟨hmem, hsource'⟩
      have hnames' := hnames.extends hgrows.extends_pool
      refine ⟨⟨hgrows.extends_pool, hgrows.size_le, ?_⟩, source, hnames', ?_⟩
      · intro c hc
        refine (hgrows.of_mem c hc).imp_right fun hadded => hadded.imp_right ?_
        rintro ⟨m, hm, htexts⟩
        exact ⟨rule, hmem, ⟨_, by rwa [hsource']⟩, m, hm, htexts⟩
      · rw [hrule]
        exact ⟨index, rfl, hmethod⟩
    case h_2 => cases h

/-- All operands met so far are settled. -/
def Replacements.Settled (rules : RuleSet) (p : Pool) (known : Replacements) : Prop :=
  ∀ operand replacement, known.lookup operand = some replacement →
    p.Settles rules operand replacement

/-- The invariant of the pass, and that it meets every call: the pool only grows, and at the
end the operand of every call is settled. -/
theorem Pool.resolveAll_ok {rules : RuleSet} {p q : Pool} {known known' : Replacements}
    {sites : List CallSite} (h : p.resolveAll rules known sites = .ok (q, known'))
    (hp : p.size ≤ capacity) (hknown : known.Settled rules p) :
    p.Grows q (q.AddedFor rules) ∧ known'.Settled rules q ∧
      (∀ operand, (known.lookup operand).isSome → (known'.lookup operand).isSome) ∧
      ∀ site ∈ sites, (known'.lookup site.operand).isSome := by
  induction sites generalizing p known with
  | nil =>
    rcases Prod.mk.inj (Except.ok.inj h) with ⟨rfl, rfl⟩
    exact ⟨.refl hp _, hknown, fun _ h => h, by simp⟩
  | cons site rest ih =>
    rw [resolveAll] at h
    split at h
    case h_1 replacement hlookup =>
      -- An operand met before: the pool stays as it is.
      rcases ih h hp hknown with ⟨hgrows, hsettled, hkeeps, hrest⟩
      refine ⟨hgrows, hsettled, hkeeps, List.forall_mem_cons.2 ⟨?_, hrest⟩⟩
      exact hkeeps _ (by simp [hlookup])
    case h_2 hnew =>
      split at h
      case h_1 => cases h
      case h_2 replacement mid hresolve =>
        -- A new operand: what is known by now is settled in the larger pool too.
        rcases Pool.resolve_ok hresolve hp with ⟨hgrows, hsettles⟩
        have hmid : Replacements.Settled rules mid ((site.operand, replacement) :: known) := by
          intro operand found hfound
          rw [List.lookup_cons] at hfound
          split at hfound
          case h_1 heq =>
            rcases Option.some.inj hfound with rfl
            rwa [eq_of_beq heq]
          case h_2 => exact (hknown operand found hfound).extends hgrows.extends_pool
        rcases ih h hgrows.size_le hmid with ⟨hgrows', hsettled, hkeeps, hrest⟩
        refine ⟨?_, hsettled, ?_, List.forall_mem_cons.2 ⟨?_, hrest⟩⟩
        · exact hgrows.trans hgrows' (fun c hc => hc.extends hgrows'.extends_pool)
            (fun c hc => hc)
        · intro operand hsome
          refine hkeeps operand ?_
          rw [List.lookup_cons]
          split
          · rfl
          · exact hsome
        · exact hkeeps _ (by simp)

/-! ## Images -/

theorem Instruction.callSite?_eq_some_iff {label : String} {i : Instruction} {offset : Nat}
    {site : CallSite} :
    i.callSite? label offset = some site ↔
      i = .invoke site.kind site.index ∧ site.method = label ∧ site.offset = offset := by
  rcases site with ⟨method, offset', kind, index⟩
  unfold callSite?
  split
  case h_1 kind' index' => simp [and_comm, and_assoc, and_left_comm, eq_comm]
  case h_2 hnot =>
    simp only [reduceCtorEq, false_iff]
    rintro ⟨rfl, -⟩
    exact hnot _ _ rfl

/-- The calls of an image are its call instructions, each at its offset. -/
theorem Image.mem_callSites {image : Image} {site : CallSite} :
    site ∈ image.callSites ↔ ∃ m ∈ image.methods,
      (.invoke site.kind site.index, site.offset) ∈
        m.code.toList.zip (Code.offsets m.code).toList ∧ site.method = image.methodLabel m := by
  simp only [callSites, Method.callSites, List.mem_flatMap, List.mem_filterMap, Prod.exists,
    Instruction.callSite?_eq_some_iff, Array.mem_toList_iff]
  constructor
  · rintro ⟨m, hm, i, offset, hmem, rfl, hmethod, rfl⟩
    exact ⟨m, hm, hmem, hmethod⟩
  · rintro ⟨m, hm, hmem, hmethod⟩
    exact ⟨m, hm, _, _, hmem, rfl, hmethod, rfl⟩

/-- Every call instruction is a call of its image. -/
theorem Image.exists_callSite {image : Image} {m : Method} {kind : CallKind} {index : UInt16}
    (hm : m ∈ image.methods) (hi : .invoke kind index ∈ m.code) :
    ∃ site ∈ image.callSites, site.operand = (index, kind) := by
  rcases Array.mem_iff_getElem.1 hi with ⟨position, hlt, hcode⟩
  have hoffset : position < (Code.offsets m.code).size := by rwa [Code.offsets_size]
  refine ⟨⟨image.methodLabel m, (Code.offsets m.code)[position], kind, index⟩, ?_, rfl⟩
  refine mem_callSites.2 ⟨m, hm, ?_, rfl⟩
  refine List.mem_iff_getElem.2 ⟨position, by simpa using hlt, ?_⟩
  simp [hcode]

/-- The outcome of a redirection. Without rules nothing happens; else what every call of the
image becomes is settled in the pool of the result. -/
theorem Image.redirect_ok {rules : RuleSet} {image image' : Image} {report : RedirectReport}
    (h : image.redirect rules = .ok (image', report)) (hsize : image.pool.size ≤ Pool.capacity) :
    (rules.isEmpty = true ∧ image' = image ∧ report = ⟨image.name?.getD "", [], 0⟩) ∨
      ∃ known : Replacements,
        image.pool.Grows image'.pool (image'.pool.AddedFor rules) ∧
        image' = { image with
          pool := image'.pool
          methods := image.methods.map fun m => { m with code := m.code.map known.apply } } ∧
        report = ⟨image.name?.getD "", image.callSites.filterMap known.redirected?,
          image'.pool.size - image.pool.size⟩ ∧
        ∀ site ∈ image.callSites,
          image'.pool.Settles rules site.operand (known.find? site.operand) := by
  unfold redirect at h
  by_cases hempty : rules.isEmpty = true
  · simp only [hempty, if_true] at h
    rcases Prod.mk.inj (Except.ok.inj h) with ⟨rfl, rfl⟩
    exact Or.inl ⟨hempty, rfl, rfl⟩
  · simp only [hempty] at h
    rcases bind_eq_ok_iff.1 h with ⟨⟨pool, known⟩, hresolve, h⟩
    rcases Prod.mk.inj (Except.ok.inj h) with ⟨rfl, rfl⟩
    have hstart : Replacements.Settled rules image.pool [] := by
      intro operand replacement hlookup
      cases hlookup
    rcases Pool.resolveAll_ok hresolve hsize hstart with ⟨hgrows, hsettled, -, hmet⟩
    refine Or.inr ⟨known, hgrows, rfl, rfl, ?_⟩
    intro site hsite
    rcases Option.isSome_iff_exists.1 (hmet site hsite) with ⟨replacement, hlookup⟩
    have hfind : known.find? site.operand = replacement := by simp [Replacements.find?, hlookup]
    rw [hfind]
    exact hsettled _ _ hlookup

/-! ## Instructions -/

/-- What rules make of an instruction whose constants are read in a pool. -/
inductive Instruction.Becomes (rules : RuleSet) (p : Pool) : Instruction → Instruction → Prop
  /-- No rule has the symbol that is called for a source. -/
  | stays {i : Instruction} (h : ∀ kind index, i = .invoke kind index →
      ∃ source, p.Names (index, kind) source ∧ rules.lookup source = none) : Becomes rules p i i
  /-- The call becomes a static call of the target of its rule. -/
  | turns {kind : CallKind} {index target : UInt16} {source : Symbol} {rule : Rule}
      (hnames : p.Names (index, kind) source) (hrule : rules.lookup source = some rule)
      (htarget : p.method? target = some rule.target.texts) :
      Becomes rules p (.invoke kind index) (.invoke .static target)

/-- A call whose symbol has a rule does not stay. -/
theorem Instruction.Becomes.of_ruled {rules : RuleSet} {p : Pool} {kind : CallKind}
    {index : UInt16} {i' : Instruction} {source : Symbol} {rule : Rule}
    (h : (Instruction.invoke kind index).Becomes rules p i') (hnames : p.Names (index, kind) source)
    (hrule : rules.lookup source = some rule) :
    ∃ target, i' = .invoke .static target ∧ p.method? target = some rule.target.texts := by
  cases h with
  | stays hunruled =>
    rcases hunruled kind index rfl with ⟨other, hother, hnone⟩
    rcases hother.unique hnames with rfl
    rw [hrule] at hnone
    cases hnone
  | turns hother hlookup htarget =>
    rcases hother.unique hnames with rfl
    obtain rfl : rule = _ := Option.some.inj (hrule.symm.trans hlookup)
    exact ⟨_, rfl, htarget⟩

/-- Where a source is called after all, it is as the target of a rule. -/
theorem Instruction.Becomes.calls_target {rules : RuleSet} {p : Pool} {i : Instruction}
    {kind : CallKind} {index : UInt16} {source : Symbol} {rule : Rule}
    (h : i.Becomes rules p (.invoke kind index)) (hnames : p.Names (index, kind) source)
    (hrule : rules.lookup source = some rule) :
    kind = .static ∧ ∃ other ∈ rules.rules, p.method? index = some other.target.texts := by
  cases h with
  | stays hunruled =>
    rcases (stays hunruled).of_ruled hnames hrule with ⟨target, hcall, htarget⟩
    obtain ⟨rfl, rfl⟩ : kind = .static ∧ index = target := Instruction.invoke.inj hcall
    exact ⟨rfl, rule, (RuleSet.lookup_eq_some hrule).1, htarget⟩
  | turns _ hother htarget => exact ⟨rfl, _, (RuleSet.lookup_eq_some hother).1, htarget⟩

theorem Replacements.apply_eq_self {known : Replacements} {i : Instruction}
    (h : ∀ kind index, i ≠ .invoke kind index) : known.apply i = i := by
  unfold Replacements.apply
  split
  case h_1 kind index => exact absurd rfl (h kind index)
  case h_2 => rfl

/-- Where the operand of a call is settled, putting its replacement in place does what the rules
say. -/
theorem Replacements.apply_becomes {rules : RuleSet} {p : Pool} {known : Replacements}
    {i : Instruction} (h : ∀ kind index, i = .invoke kind index →
      p.Settles rules (index, kind) (known.find? (index, kind))) :
    i.Becomes rules p (known.apply i) := by
  by_cases hcall : ∃ kind index, i = .invoke kind index
  · rcases hcall with ⟨kind, index, rfl⟩
    rcases h kind index rfl with ⟨source, hnames, hsettles⟩
    split at hsettles
    case h_1 hnone =>
      simp only [Replacements.apply, hsettles]
      refine .stays ?_
      rintro _ _ ⟨⟩
      exact ⟨source, hnames, hnone⟩
    case h_2 rule hrule =>
      rcases hsettles with ⟨target, hfind, hmethod⟩
      simp only [Replacements.apply, hfind]
      exact .turns hnames hrule hmethod
  · have hnot : ∀ kind index, i ≠ .invoke kind index := fun kind index heq =>
      hcall ⟨kind, index, heq⟩
    rw [apply_eq_self hnot]
    exact .stays fun kind index heq => absurd heq (hnot kind index)

/-- Where all calls of an image are settled, every instruction becomes what the rules say. -/
theorem Image.becomes_of_settles {rules : RuleSet} {image : Image} {p : Pool}
    {known : Replacements}
    (h : ∀ site ∈ image.callSites, p.Settles rules site.operand (known.find? site.operand))
    {m : Method} (hm : m ∈ image.methods) {i : Instruction} (hi : i ∈ m.code) :
    i.Becomes rules p (known.apply i) := by
  refine Replacements.apply_becomes ?_
  rintro kind index rfl
  rcases exists_callSite hm hi with ⟨site, hsite, hoperand⟩
  rw [← hoperand]
  exact h site hsite

@[simp] theorem Replacements.apply_width (known : Replacements) (i : Instruction) :
    (known.apply i).width = i.width := by
  unfold Replacements.apply
  split
  · split
    · simp
    · rfl
  · rfl

/-- Putting replacements in place moves no instruction. -/
theorem Replacements.offsets_map_apply (known : Replacements) (code : Array Instruction) :
    Code.offsets (code.map known.apply) = Code.offsets code := by
  refine Code.offsets_congr ?_
  simp [Function.comp_def]

/-! ## The original image -/

namespace Image

/-- The symbol that a call instruction names in an image. -/
def named? (image : Image) : Instruction → Option Symbol
  | .invoke kind index =>
    (image.pool.method? index).bind fun m =>
      (Symbol.ofDescriptor kind m.owner m.name m.descriptor).toOption
  | _ => none

/-- The symbol that an instruction of an image calls and the target of the rule for it, if it is
the source of one. -/
def redirection? (rules : RuleSet) (image : Image) (i : Instruction) : Option (Symbol × Symbol) :=
  (image.named? i).bind fun source =>
    (rules.lookup source).map fun rule => (source, rule.target)

/-- The calls of an image that are sources of rules, in method and code order. -/
def redirections (rules : RuleSet) (image : Image) : List RedirectedSite :=
  image.methods.toList.flatMap fun m =>
    (m.code.toList.zip (Code.offsets m.code).toList).filterMap fun (i, offset) =>
      (image.redirection? rules i).map fun (source, target) =>
        ⟨image.methodLabel m, offset, source, target⟩

theorem named?_eq_some_iff {image : Image} {kind : CallKind} {index : UInt16} {s : Symbol} :
    image.named? (.invoke kind index) = some s ↔ image.pool.Names (index, kind) s := by
  simp only [named?, Pool.Names, Option.bind_eq_some_iff]
  refine exists_congr fun m => and_congr_right fun _ => ?_
  cases Symbol.ofDescriptor kind m.owner m.name m.descriptor with
  | error e => simp [Except.toOption]
  | ok t => simp [Except.toOption]

theorem redirection?_of_isEmpty {rules : RuleSet} {image : Image} {i : Instruction}
    (h : rules.isEmpty = true) : image.redirection? rules i = none := by
  simp [redirection?, RuleSet.lookup_eq_none h]

/-- What is known makes of an instruction what the image itself says: put in place, and in the
report of a call. -/
def Agrees (rules : RuleSet) (image : Image) (p : Pool) (known : Replacements) (i : Instruction) :
    Prop :=
  match image.redirection? rules i with
  | none => known.apply i = i ∧
      ∀ label offset, (i.callSite? label offset).bind known.redirected? = none
  | some (source, target) => ∃ index, known.apply i = .invoke .static index ∧
      p.method? index = some target.texts ∧
      ∀ label offset, (i.callSite? label offset).bind known.redirected? =
        some ⟨label, offset, source, target⟩

end Image

/-! ## Redirected images -/

/-- A method with its calls redirected: every call of a source has become a static call whose
constant names the target, and all else is as it was. -/
structure Method.Redirected (rules : RuleSet) (image image' : Image) (m m' : Method) : Prop where
  flags_eq : m'.flags = m.flags
  name_eq : m'.name = m.name
  descriptor_eq : m'.descriptor = m.descriptor
  maxLocals_eq : m'.maxLocals = m.maxLocals
  handlers_eq : m'.handlers = m.handlers
  code_size : m'.code.size = m.code.size
  offsets_eq : Code.offsets m'.code = Code.offsets m.code
  instruction : ∀ (position : Nat) (i : Instruction), m.code[position]? = some i →
    ∃ i', m'.code[position]? = some i' ∧
      match image.redirection? rules i with
      | none => i' = i
      | some (_, target) => ∃ index, i' = .invoke .static index ∧
          image'.pool.method? index = some target.texts

/-- An image with its calls redirected, and the report of that. All is said in terms of the
constants of the original image. -/
structure Image.Redirected (rules : RuleSet) (image image' : Image) (report : RedirectReport) :
    Prop where
  major_eq : image'.major = image.major
  minor_eq : image'.minor = image.minor
  thisName_eq : image'.thisName = image.thisName
  pool_grows : ∃ added : Array Constant, image'.pool.entries = image.pool.entries ++ added ∧
    report.poolGrowth = added.size
  methods_size : image'.methods.size = image.methods.size
  method : ∀ (k : Nat) (m : Method), image.methods[k]? = some m →
    ∃ m', image'.methods[k]? = some m' ∧ m.Redirected rules image image' m'
  sites_eq : report.sites = image.redirections rules

/-- Calls of `s.a` go to `s.b`, and calls of `s.b` to `s.c`. -/
def RuleSet.chained : RuleSet :=
  .ofList [.redirect ⟨"s", "a", .void, .static⟩ "s" "b",
    .redirect ⟨"s", "b", .void, .static⟩ "s" "c"]

/-- An image that calls `s.a`, both ways. -/
def Image.calling : Image where
  major := 1
  minor := 0
  pool := ⟨#[.utf8 "s", .utf8 "a", .utf8 "()V", .method ⟨0, 1, 2⟩]⟩
  thisName := 0
  methods := #[⟨1, 1, 2, 0, #[.invoke .static 3, .new 0, .invoke .virtual 3, .ret], []⟩]

end Interposition
