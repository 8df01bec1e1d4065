import Interposition.Proofs.Call.Lifecycle
import Interposition.Proofs.Sandbox.Mediation

/-!
# Interposition.Proofs.Sandbox.Installation — what installing the traps leaves behind

An installation is a sequence of calls: three rules are registered, then three natives. A refused
rule ends it, and no native was registered by then, so the host is spared (`Ground.install_leaves`).
The registry is not: it has no way to take a rule back, so the rules that were registered before the
refused one stay (`Ground.install_keeps_exit`).

`Registry.Refuses` says when a rule is refused. The traps have different sources, so whether one of
them is refused does not depend on those registered before it, and the refused one is the first that
the registry refuses as it was at the start.
-/

namespace Interposition

/-! ## One rule -/

namespace Registry

/-- A rule is refused by a frozen registry, and by one that has another target for its source. -/
inductive Refuses (r : Registry) (rule : Rule) : RegistryError → Prop
  | frozen (hfrozen : r.frozen = true) : Refuses r rule (.frozen rule.source)
  | conflict (hopen : r.frozen = false) {target : Symbol}
      (htarget : r.target? rule.source = some target) (hother : target ≠ rule.target) :
      Refuses r rule (.conflict rule.source target rule.target)

variable {r r' : Registry} {rule : Rule} {e : RegistryError}

/-- Adding a rule is registering its pair. -/
theorem insert_eq_register (r : Registry) (rule : Rule) :
    r.insert rule = r.register rule.source rule.target := by
  have hfits : Fits rule.source rule.target := ⟨rule.target_static, rule.target_signature⟩
  rw [register, ofPair_of_fits hfits]

theorem refuses_of_insert (h : r.insert rule = .error e) : r.Refuses rule e := by
  have hcases := r.registers rule.source rule.target
  rw [← insert_eq_register, h] at hcases
  cases hcases with
  | invalid reason hpair =>
    rw [ofPair_of_fits ⟨rule.target_static, rule.target_signature⟩] at hpair
    cases hpair
  | frozen hfits hfrozen => exact .frozen hfrozen
  | conflict hfits hopen existing hfound hother =>
    have htarget : r.target? rule.source = some existing.target := by
      rw [target?, hfound, Option.map_some]
    exact .conflict hopen htarget hother

/-- A rule that is taken is found from then on, unless there was one for its source. -/
theorem lookup_of_insert (h : r.insert rule = .ok r') (site : Symbol) :
    r'.rules.lookup site =
      (r.rules.lookup site).or (if rule.source = site then some rule else none) := by
  have hcases := r.registers rule.source rule.target
  rw [← insert_eq_register, h] at hcases
  cases hcases with
  | there hfits hopen existing hfound hsame =>
    by_cases hsite : rule.source = site
    · rw [← hsite, hfound, Option.some_or]
    · rw [if_neg hsite, Option.or_none]
  | new hfits hopen new hfree hsource htarget =>
    -- A rule is its source and its target.
    obtain rfl : new = rule := by
      cases new
      cases rule
      simp_all
    show (r.rules.insert new).lookup site = _
    rw [RuleSet.lookup_insert hfree]
    by_cases hsite : new.source = site
    · rw [if_pos hsite, ← hsite, hfree, Option.none_or, if_pos rfl]
    · rw [if_neg hsite, if_neg hsite, Option.or_none]

theorem frozen_of_insert (h : r.insert rule = .ok r') : r'.frozen = false ∧ r.frozen = false := by
  have hcases := r.registers rule.source rule.target
  rw [← insert_eq_register, h] at hcases
  cases hcases with
  | there hfits hopen => exact ⟨hopen, hopen⟩
  | new hfits hopen => exact ⟨hopen, hopen⟩

theorem not_refuses_of_insert (h : r.insert rule = .ok r') : ¬r.Refuses rule e := by
  have hcases := r.registers rule.source rule.target
  rw [← insert_eq_register, h] at hcases
  intro hrefuses
  cases hrefuses with
  | frozen hfrozen =>
    rw [(frozen_of_insert h).2] at hfrozen
    cases hfrozen
  | conflict hopen' htarget hother =>
    obtain ⟨existing', hfound', rfl⟩ := Option.map_eq_some_iff.1 htarget
    cases hcases with
    | there hfits hopen existing hfound hsame =>
      obtain rfl := Option.some.inj (hfound.symm.trans hfound')
      exact hother hsame
    | new hfits hopen new hfree hsource htarget' =>
      rw [← hsource, hfree] at hfound'
      cases hfound'

/-- Whether a rule is refused depends on what there is for its source. -/
theorem Refuses.congr (h : r'.Refuses rule e) (hfrozen : r'.frozen = r.frozen)
    (hlookup : r'.rules.lookup rule.source = r.rules.lookup rule.source) : r.Refuses rule e := by
  cases h with
  | frozen h => exact .frozen (hfrozen ▸ h)
  | conflict hopen htarget hother =>
    refine .conflict (hfrozen ▸ hopen) ?_ hother
    rw [target?, ← hlookup]
    exact htarget

end Registry

/-! ## Rules in order -/

namespace Traps

section

variable {r r' : Registry} {list : List Rule} {e : RegistryError}

theorem lookup_of_registerAll (h : registerAll r list = (.ok (), r')) (site : Symbol) :
    r'.rules.lookup site = (r.rules.lookup site).or (list.find? (·.source = site)) := by
  induction list generalizing r with
  | nil =>
    obtain rfl : r = r' := (Prod.mk.inj h).2
    simp
  | cons rule rest ih =>
    rw [registerAll] at h
    split at h
    case h_1 => cases h
    case h_2 mid hinsert =>
      have hfirst := Registry.lookup_of_insert hinsert site
      rw [ih h, hfirst, Option.or_assoc, List.find?_cons]
      by_cases hsite : rule.source = site
      · simp [hsite]
      · simp [hsite]

/-- Of rules for different sources, those are registered that stand in front of the first one which
the registry refuses, or all of them if it refuses none. -/
theorem registerAll_cases (r : Registry) (hdistinct : list.Pairwise (·.source ≠ ·.source)) :
    (∃ r', registerAll r list = (.ok (), r') ∧ ∀ rule ∈ list, ∀ e, ¬r.Refuses rule e) ∨
      ∃ e r' kept refused rest, registerAll r list = (.error e, r') ∧
        list = kept ++ refused :: rest ∧ r.Refuses refused e ∧
        registerAll r kept = (.ok (), r') ∧ ∀ rule ∈ kept, ∀ e', ¬r.Refuses rule e' := by
  induction list generalizing r with
  | nil => exact Or.inl ⟨r, rfl, by simp⟩
  | cons rule rest ih =>
    obtain ⟨hfirst, hrest⟩ := List.pairwise_cons.1 hdistinct
    cases hinsert : r.insert rule with
    | error e =>
      refine Or.inr ⟨e, r, [], rule, rest, ?_, rfl, Registry.refuses_of_insert hinsert, rfl, ?_⟩
      · rw [registerAll, hinsert]
      · intro other hother
        cases hother
    | ok mid =>
      have hall : registerAll r (rule :: rest) = registerAll mid rest := by
        rw [registerAll, hinsert]
      have hfrozen : mid.frozen = r.frozen := by
        obtain ⟨hmid, hopen⟩ := Registry.frozen_of_insert hinsert
        rw [hmid, hopen]
      -- The first rule has a source of its own, so the others are refused as they were before.
      have hsame : ∀ other ∈ rest, ∀ e, mid.Refuses other e ↔ r.Refuses other e := by
        intro other hother e
        have hne : rule.source ≠ other.source := hfirst other hother
        have hlookup : mid.rules.lookup other.source = r.rules.lookup other.source := by
          rw [Registry.lookup_of_insert hinsert, if_neg hne, Option.or_none]
        constructor
        · intro hrefuses
          exact hrefuses.congr hfrozen hlookup
        · intro hrefuses
          exact hrefuses.congr hfrozen.symm hlookup.symm
      have htaken : ∀ e, ¬r.Refuses rule e := fun e => Registry.not_refuses_of_insert hinsert
      rcases ih mid hrest with
        ⟨r', hregister, hnone⟩ | ⟨e, r', kept, refused, later, hregister, rfl, hrefuses, hkept, hnone⟩
      · refine Or.inl ⟨r', hall.trans hregister, ?_⟩
        refine List.forall_mem_cons.2 ⟨htaken, ?_⟩
        intro other hother e hrefuses
        exact hnone other hother e ((hsame other hother e).2 hrefuses)
      · refine Or.inr ⟨e, r', rule :: kept, refused, later, hall.trans hregister, rfl, ?_, ?_, ?_⟩
        · exact (hsame refused (by simp) e).1 hrefuses
        · rw [registerAll, hinsert]
          exact hkept
        · refine List.forall_mem_cons.2 ⟨htaken, ?_⟩
          intro other hother e' hrefuses'
          have hmem : other ∈ kept ++ refused :: later := List.mem_append_left _ hother
          exact hnone other hother e' ((hsame other hmem e').2 hrefuses')

end

/-! ## Calls in order -/

/-- The rules of the traps, in the order in which they are registered. -/
def rules : List Rule :=
  [exitRule, printRule, getBooleanRule]

theorem rules_distinct : rules.Pairwise (·.source ≠ ·.source) := by
  decide

/-- A call that an installation makes. -/
inductive Step where
  | redirect (rule : Rule)
  | provide (symbol : Symbol) (native : Native)

/-- The calls of an installation. -/
def steps (tag : String) (forced : List String) : List Step :=
  rules.map Step.redirect ++ [.provide exitRule.target handleExit,
    .provide printRule.target (handlePrint tag),
    .provide getBooleanRule.target (handleGetBoolean forced)]

end Traps

/-- What traps are installed on: a host, and the registry of the loaders of its programs. -/
structure Ground where
  host : Host
  registry : Registry

namespace Ground

open Traps

def perform (g : Ground) : Step → Except RegistryError Ground
  | .redirect rule => (g.registry.insert rule).map fun registry => { g with registry }
  | .provide symbol native => .ok { g with host := g.host.register symbol native }

/-- Makes calls in order. A refused one ends it; what was done before stays done. -/
def performAll (g : Ground) : List Step → Except RegistryError Unit × Ground
  | [] => (.ok (), g)
  | step :: rest =>
    match g.perform step with
    | .error e => (.error e, g)
    | .ok g => g.performAll rest

/-- The answer of an installation and what it leaves behind. Where no host comes of it, that is the
host as it was. -/
def install (g : Ground) (tag : String) (forced : List String) :
    Except RegistryError Unit × Ground :=
  match Traps.install tag forced g.host g.registry with
  | (.ok host, registry) => (.ok (), ⟨host, registry⟩)
  | (.error e, registry) => (.error e, { g with registry })

variable {g g' : Ground} {tag : String} {forced : List String} {e : RegistryError}

/-- Calls that register rules change the registry alone. -/
theorem performAll_redirects (g : Ground) (list : List Rule) (rest : List Step) :
    g.performAll (list.map Step.redirect ++ rest) =
      match registerAll g.registry list with
      | (.error e, registry) => (.error e, { g with registry })
      | (.ok (), registry) => performAll { g with registry } rest := by
  induction list generalizing g with
  | nil => rfl
  | cons rule later ih =>
    rw [List.map_cons, List.cons_append, performAll, registerAll]
    cases hinsert : g.registry.insert rule with
    | error e => simp only [perform, hinsert, Except.map]
    | ok registry =>
      simp only [perform, hinsert, Except.map]
      exact ih { g with registry }

/-- An installation is its calls. -/
theorem install_eq_performAll (g : Ground) (tag : String) (forced : List String) :
    g.install tag forced = g.performAll (steps tag forced) := by
  rw [steps, performAll_redirects, install, Traps.install, rules]
  cases registerAll g.registry [exitRule, printRule, getBooleanRule] with
  | mk answer registry =>
    cases answer with
    | error e => rfl
    | ok u => rfl

theorem install_of_registerAll_error {registry : Registry}
    (h : registerAll g.registry rules = (.error e, registry)) :
    g.install tag forced = (.error e, { g with registry }) := by
  rw [install_eq_performAll, steps, performAll_redirects, h]

theorem install_of_registerAll_ok {registry : Registry}
    (h : registerAll g.registry rules = (.ok (), registry)) :
    g.install tag forced = (.ok (),
      ⟨((g.host.register exitRule.target handleExit).register printRule.target
        (handlePrint tag)).register getBooleanRule.target (handleGetBoolean forced), registry⟩) := by
  rw [install_eq_performAll, steps, performAll_redirects, h]
  rfl

/-- A native that is registered is found from then on under its symbol, and others as before. -/
theorem native?_register (host : Host) (symbol called : Symbol) (native : Native) :
    (host.register symbol native).native? called =
      if called = symbol then some native else host.native? called := by
  rw [Host.native?, Host.register, List.lookup_cons]
  by_cases hcalled : called = symbol
  · simp [hcalled]
  · rw [beq_false_of_ne hcalled, if_neg hcalled]
    rfl

/-! ## Installing -/

/-- An installation either takes all three rules, or stops at the first one that is refused. -/
theorem install_cases (g : Ground) (tag : String) (forced : List String) :
    (∃ registry, registerAll g.registry rules = (.ok (), registry) ∧
        (g.install tag forced).1 = .ok () ∧ ∀ rule ∈ rules, ∀ e, ¬g.registry.Refuses rule e) ∨
      ∃ e registry kept refused rest, g.install tag forced = (.error e, { g with registry }) ∧
        rules = kept ++ refused :: rest ∧ g.registry.Refuses refused e ∧
        registerAll g.registry kept = (.ok (), registry) ∧
        ∀ rule ∈ kept, ∀ e', ¬g.registry.Refuses rule e' := by
  rcases registerAll_cases g.registry rules_distinct with
    ⟨registry, hregister, hnone⟩ |
    ⟨e, registry, kept, refused, rest, hregister, hrules, hrefuses, hkept, hnone⟩
  · left
    exact ⟨registry, hregister, by rw [install_of_registerAll_ok hregister], hnone⟩
  · right
    exact ⟨e, registry, kept, refused, rest, install_of_registerAll_error hregister, hrules,
      hrefuses, hkept, hnone⟩

/-- A failed installation spares the host, and registers no rule but those in front of the refused
one. -/
theorem of_install_eq_error (h : g.install tag forced = (.error e, g')) :
    g'.host = g.host ∧
      ∃ kept refused rest, rules = kept ++ refused :: rest ∧ g.registry.Refuses refused e ∧
        (∀ rule ∈ kept, ∀ e', ¬g.registry.Refuses rule e') ∧
        (∀ site, g'.registry.rules.lookup site =
          (g.registry.rules.lookup site).or (kept.find? (·.source = site))) ∧
        (g.registry.frozen = true ∨ kept = [] → g' = g) := by
  rcases g.install_cases tag forced with
    ⟨registry, -, hok, -⟩ |
    ⟨e', registry, kept, refused, rest, hinstall, hrules, hrefuses, hkept, hnone⟩
  · rw [h] at hok
    cases hok
  · obtain ⟨he, rfl⟩ := Prod.mk.inj (hinstall.symm.trans h)
    obtain rfl : e' = e := Except.error.inj he
    refine ⟨rfl, kept, refused, rest, hrules, hrefuses, hnone, lookup_of_registerAll hkept, ?_⟩
    intro hfirst
    have hempty : kept = [] := by
      rcases hfirst with hfrozen | hempty
      · -- A frozen registry refuses every rule, so none stands in front of the refused one.
        refine List.eq_nil_iff_forall_not_mem.2 ?_
        intro rule hrule
        exact hnone rule hrule _ (.frozen hfrozen)
      · exact hempty
    subst hempty
    obtain rfl : g.registry = registry := (Prod.mk.inj hkept).2
    rfl

theorem registerAll_of_install_eq_ok (h : g.install tag forced = (.ok (), g')) :
    registerAll g.registry rules = (.ok (), g'.registry) ∧
      g'.host = ((g.host.register exitRule.target handleExit).register printRule.target
        (handlePrint tag)).register getBooleanRule.target (handleGetBoolean forced) := by
  rcases g.install_cases tag forced with
    ⟨registry, hregister, -, -⟩ | ⟨e', registry, kept, refused, rest, hinstall, -⟩
  · obtain ⟨-, rfl⟩ := Prod.mk.inj ((install_of_registerAll_ok hregister).symm.trans h)
    exact ⟨hregister, rfl⟩
  · cases hinstall.symm.trans h

/-- Installed traps are in the registry, which is as it was for all other calls. -/
theorem rules_of_install_eq_ok (h : g.install tag forced = (.ok (), g')) :
    (∀ rule ∈ rules, g'.registry.rules.lookup rule.source = some rule) ∧
      ∀ site, (∀ rule ∈ rules, rule.source ≠ site) →
        g'.registry.rules.lookup site = g.registry.rules.lookup site := by
  have hregister := (registerAll_of_install_eq_ok h).1
  constructor
  · intro rule hrule
    have hmem : rule ∈ g'.registry.rules.rules := (registerAll_ok hregister).1 rule hrule
    exact RuleSet.lookup_source hmem
  · intro site hsite
    have hnone : rules.find? (·.source = site) = none := by
      rw [List.find?_eq_none]
      intro rule hrule
      simpa using hsite rule hrule
    rw [lookup_of_registerAll hregister, hnone, Option.or_none]

/-- The host has the natives of installed traps, and is as it was for all other symbols. -/
theorem natives_of_install_eq_ok (h : g.install tag forced = (.ok (), g')) :
    g'.host.native? exitRule.target = some handleExit ∧
      g'.host.native? printRule.target = some (handlePrint tag) ∧
      g'.host.native? getBooleanRule.target = some (handleGetBoolean forced) ∧
      (∀ symbol, (∀ rule ∈ rules, rule.target ≠ symbol) →
        g'.host.native? symbol = g.host.native? symbol) ∧
      g'.host.fields = g.host.fields := by
  have hhost := (registerAll_of_install_eq_ok h).2
  have hexit : exitRule.target ≠ printRule.target := by decide
  have hexit' : exitRule.target ≠ getBooleanRule.target := by decide
  have hprint : printRule.target ≠ getBooleanRule.target := by decide
  have hfound (symbol : Symbol) : g'.host.native? symbol =
      if symbol = getBooleanRule.target then some (handleGetBoolean forced)
      else if symbol = printRule.target then some (handlePrint tag)
      else if symbol = exitRule.target then some handleExit else g.host.native? symbol := by
    rw [hhost, native?_register, native?_register, native?_register]
  refine ⟨?_, ?_, ?_, ?_, by rw [hhost]; rfl⟩
  · rw [hfound, if_neg hexit', if_neg hexit, if_pos rfl]
  · rw [hfound, if_neg hprint, if_pos rfl]
  · rw [hfound, if_pos rfl]
  · intro symbol hsymbol
    have hnone (rule : Rule) (hrule : rule ∈ rules) : symbol ≠ rule.target :=
      (hsymbol rule hrule).symm
    rw [hfound, if_neg (hnone getBooleanRule (by simp [rules])),
      if_neg (hnone printRule (by simp [rules])), if_neg (hnone exitRule (by simp [rules]))]

theorem install_eq_ok_iff :
    (g.install tag forced).1 = .ok () ↔ g.registry.frozen = false ∧
      ∀ rule ∈ rules, ∀ target, g.registry.target? rule.source = some target →
        target = rule.target := by
  constructor
  · intro hok
    have hnone : ∀ rule ∈ rules, ∀ e, ¬g.registry.Refuses rule e := by
      rcases g.install_cases tag forced with ⟨-, -, -, hnone⟩ | ⟨e, registry, _, _, _, hinstall, -⟩
      · exact hnone
      · rw [hinstall] at hok
        cases hok
    have hopen : g.registry.frozen = false := by
      by_contra hfrozen
      have hfrozen : g.registry.frozen = true := by simpa using hfrozen
      exact hnone exitRule (by simp [rules]) _ (.frozen hfrozen)
    refine ⟨hopen, ?_⟩
    intro rule hrule target htarget
    by_contra hother
    exact hnone rule hrule _ (.conflict hopen htarget hother)
  · rintro ⟨hopen, hagree⟩
    rcases g.install_cases tag forced with
      ⟨-, -, hok, -⟩ | ⟨e, registry, kept, refused, rest, -, hrules, hrefuses, -⟩
    · exact hok
    · have hmem : refused ∈ rules := by simp [hrules]
      cases hrefuses with
      | frozen hfrozen =>
        rw [hopen] at hfrozen
        cases hfrozen
      | conflict _ htarget hother => exact absurd (hagree refused hmem _ htarget) hother

/-- What an installation leaves behind, whatever was registered before.

* It is its calls in order, up to the first one that is refused.
* If it fails, the host is as it was. The registry has the rules it had, and besides those traps
  that stand in front of the refused one, none of which it refuses. So a frozen registry, and one
  that refuses the first trap, is as it was.
* If it succeeds, the registry has the three traps and every other rule as it was, and the host has
  their three natives and every other native and field as it was.
* It succeeds if the registry is not frozen and has no other target for the source of a trap. -/
theorem install_leaves (g : Ground) (tag : String) (forced : List String) :
    g.install tag forced = g.performAll (steps tag forced) ∧
    (∀ e g', g.install tag forced = (.error e, g') →
      g'.host = g.host ∧
      ∃ kept refused rest, rules = kept ++ refused :: rest ∧ g.registry.Refuses refused e ∧
        (∀ rule ∈ kept, ∀ e', ¬g.registry.Refuses rule e') ∧
        (∀ site, g'.registry.rules.lookup site =
          (g.registry.rules.lookup site).or (kept.find? (·.source = site))) ∧
        (g.registry.frozen = true ∨ kept = [] → g' = g)) ∧
    (∀ g', g.install tag forced = (.ok (), g') →
      ((∀ rule ∈ rules, g'.registry.rules.lookup rule.source = some rule) ∧
        ∀ site, (∀ rule ∈ rules, rule.source ≠ site) →
          g'.registry.rules.lookup site = g.registry.rules.lookup site) ∧
      g'.host.native? exitRule.target = some handleExit ∧
      g'.host.native? printRule.target = some (handlePrint tag) ∧
      g'.host.native? getBooleanRule.target = some (handleGetBoolean forced) ∧
      (∀ symbol, (∀ rule ∈ rules, rule.target ≠ symbol) →
        g'.host.native? symbol = g.host.native? symbol) ∧
      g'.host.fields = g.host.fields) ∧
    ((g.install tag forced).1 = .ok () ↔ g.registry.frozen = false ∧
      ∀ rule ∈ rules, ∀ target, g.registry.target? rule.source = some target →
        target = rule.target) := by
  refine ⟨g.install_eq_performAll tag forced, ?_, ?_, install_eq_ok_iff⟩
  · intro e g' h
    exact of_install_eq_error h
  · intro g' h
    exact ⟨rules_of_install_eq_ok h, natives_of_install_eq_ok h⟩

/-- The core library, and a registry that redirects prints to another target. -/
def contested : Ground :=
  ⟨Core.host, Registry.empty.after [.redirect Core.printSymbol "other" "print"]⟩

/-- A registry that refuses the second trap keeps the first one, which it did not have before. -/
theorem install_keeps_exit :
    ((contested.install "a" []).1 = .error (.conflict Core.printSymbol
        ⟨"other", "print", Core.printSymbol.staticSignature, .static⟩ printRule.target) ∧
      contested.registry.rules.lookup Core.exitSymbol = none ∧
      (contested.install "a" []).2.registry.rules.lookup Core.exitSymbol = some exitRule) ∧
    ¬ ∀ (operations : List Registry.Operation) (host : Host) (tag : String) (forced : List String)
        (e : RegistryError) (g' : Ground),
      (Ground.mk host (Registry.empty.after operations)).install tag forced = (.error e, g') →
        (∀ site, g'.registry.rules.lookup site =
          (Registry.empty.after operations).rules.lookup site) ∧
        ∀ symbol, g'.host.native? symbol = host.native? symbol := by
  have hanswer : (contested.install "a" []).1 = .error (.conflict Core.printSymbol
      ⟨"other", "print", Core.printSymbol.staticSignature, .static⟩ printRule.target) := by
    decide
  have hbefore : contested.registry.rules.lookup Core.exitSymbol = none := by decide
  have hafter : (contested.install "a" []).2.registry.rules.lookup Core.exitSymbol =
      some exitRule := by decide
  refine ⟨⟨hanswer, hbefore, hafter⟩, ?_⟩
  intro hspared
  have hsame : (contested.install "a" []).2.registry.rules.lookup Core.exitSymbol =
      contested.registry.rules.lookup Core.exitSymbol :=
    (hspared _ _ "a" [] _ _ (Prod.ext hanswer rfl)).1 Core.exitSymbol
  rw [hafter, hbefore] at hsame
  cases hsame

end Ground

end Interposition
