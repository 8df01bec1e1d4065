import Interposition.Proofs.Image.Room
import Interposition.Proofs.Linking.Retention
import Mathlib.Data.Finset.Union

/-!
# Interposition.Proofs.Linking.Fitting — when there is room for a redirection

A verified image whose calls all name methods leaves a redirection nothing to refuse but the room.
What the redirection needs can be read off the image before it starts (`Image.needs`), and it comes
through exactly if the constants missing for it fit (`Image.redirect_fits`), however the targets
share their texts, and in whatever order the calls are met.
-/

namespace Interposition

variable {rules : RuleSet}

/-- What redirecting calls of a symbol needs: nothing without a rule, else what its target takes. -/
def RuleSet.needs (rules : RuleSet) (source : Symbol) : Finset Need :=
  match rules.lookup source with
  | none => ∅
  | some rule => rule.target.needs

namespace Pool

variable {p : Pool}

/-! ## The pass -/

/-- One call is settled within the room that its target needs, or there is none. -/
theorem resolve_fits (rules : RuleSet) {site : CallSite} {source : Symbol}
    (hsize : p.size ≤ capacity) (hp : p.Sound) (hnames : p.Names site.operand source) :
    (∃ replacement q, p.resolve rules site = .ok (replacement, q) ∧
        p.Gains q (rules.needs source)) ∨
      p.resolve rules site = .error (.poolOverflow ⟨capacity⟩) ∧ p.Lacks (rules.needs source) := by
  have hresolve := @resolve_eq rules p site source (symbol_eq_ok_iff.2 hnames)
  unfold RuleSet.needs
  cases hlookup : rules.lookup source with
  | none =>
    rw [hlookup] at hresolve
    exact Or.inl ⟨none, p, hresolve, .of_meets hsize hp (by simp)⟩
  | some rule =>
    rw [hlookup] at hresolve
    rcases internMethod_fills hsize hp rule.target with
      ⟨index, q, hintern, hgains, -⟩ | ⟨⟨q, hintern⟩, hfull⟩
    · simp only [hintern] at hresolve
      exact Or.inl ⟨some ⟨index, source, rule.target⟩, q, hresolve, hgains⟩
    · simp only [hintern] at hresolve
      exact Or.inr ⟨hresolve, hfull⟩

/-- All calls are settled within the room that their targets need, or there is none. What a call
needs is given beforehand, and what was met before is there. -/
theorem resolveAll_fits {known : Replacements} {sites : List CallSite}
    {needs : UInt16 × CallKind → Finset Need} (hsize : p.size ≤ capacity) (hp : p.Sound)
    (hsites : ∀ site ∈ sites, ∃ source, p.Names site.operand source ∧
      needs site.operand = rules.needs source)
    (hknown : ∀ operand, (known.lookup operand).isSome → ∀ n ∈ needs operand, p.Meets n) :
    (∃ q known', p.resolveAll rules known sites = .ok (q, known') ∧
        p.Gains q (sites.toFinset.biUnion fun site => needs site.operand)) ∨
      p.resolveAll rules known sites = .error (.poolOverflow ⟨capacity⟩) ∧
        p.Lacks (sites.toFinset.biUnion fun site => needs site.operand) := by
  induction sites generalizing p known with
  | nil => exact Or.inl ⟨p, known, rfl, .of_meets hsize hp (by simp)⟩
  | cons site rest ih =>
    obtain ⟨⟨source, hnames, hsource⟩, hrest⟩ := List.forall_mem_cons.1 hsites
    rw [List.toFinset_cons, Finset.biUnion_insert, resolveAll]
    cases hmet : known.lookup site.operand with
    | some replacement =>
      -- An operand met before takes no room, as what it needs is there.
      have hgains : p.Gains p (needs site.operand) :=
        .of_meets hsize hp (hknown site.operand (by rw [hmet]; rfl))
      rcases ih hsize hp hrest hknown with ⟨q, known', hall, hgains'⟩ | ⟨hfails, hfull⟩
      · exact Or.inl ⟨q, known', hall, hgains.trans hgains'⟩
      · exact Or.inr ⟨hfails, hgains.lacks hfull⟩
    | none =>
      rw [hsource]
      rcases resolve_fits rules hsize hp hnames with
        ⟨replacement, mid, hresolve, hgains⟩ | ⟨hresolve, hfull⟩
      · rw [hresolve]
        have hsites' : ∀ other ∈ rest, ∃ source, mid.Names other.operand source ∧
            needs other.operand = rules.needs source := by
          intro other hother
          obtain ⟨source', hnames', hneeds⟩ := hrest other hother
          exact ⟨source', hnames'.extends hgains.extends_pool, hneeds⟩
        -- What the new operand needs is there by now, and stays.
        have hknown' : ∀ operand,
            (List.lookup operand ((site.operand, replacement) :: known)).isSome →
              ∀ n ∈ needs operand, mid.Meets n := by
          intro operand hsome n hn
          rw [List.lookup_cons] at hsome
          split at hsome
          case h_1 heq =>
            rw [eq_of_beq heq, hsource] at hn
            exact (hgains.meets_iff n).2 (Or.inr hn)
          case h_2 => exact (hknown operand hsome n hn).extends hgains.extends_pool
        rcases ih hgains.size_le hgains.sound hsites' hknown' with
          ⟨q, known', hall, hgains'⟩ | ⟨hfails, hfull⟩
        · exact Or.inl ⟨q, known', hall, hgains.trans hgains'⟩
        · exact Or.inr ⟨hfails, hgains.lacks hfull⟩
      · rw [hresolve]
        exact Or.inr ⟨rfl, hfull.union _⟩

end Pool

namespace Image

variable {image : Image}

/-! ## Images -/

/-- What redirecting a call of an image needs. -/
def callNeeds (rules : RuleSet) (image : Image) (operand : UInt16 × CallKind) : Finset Need :=
  match image.redirection? rules (.invoke operand.2 operand.1) with
  | none => ∅
  | some (_, target) => target.needs

/-- What redirecting an image needs: what the targets of its redirected calls take. -/
def needs (rules : RuleSet) (image : Image) : Finset Need :=
  image.callSites.toFinset.biUnion fun site => image.callNeeds rules site.operand

theorem callNeeds_eq {operand : UInt16 × CallKind} {source : Symbol}
    (h : image.pool.Names operand source) : image.callNeeds rules operand = rules.needs source := by
  have hnamed : image.named? (.invoke operand.2 operand.1) = some source :=
    named?_eq_some_iff.2 h
  unfold callNeeds RuleSet.needs redirection?
  rw [hnamed]
  cases hlookup : rules.lookup source with
  | none => simp [hlookup]
  | some rule => simp [hlookup]

theorem needs_of_isEmpty (h : rules.isEmpty = true) : image.needs rules = ∅ := by
  ext n
  simp [needs, callNeeds, redirection?_of_isEmpty h]

theorem WellFormed.sound (h : image.WellFormed) : image.pool.Sound := by
  intro m hm
  obtain ⟨texts, signature, htexts, -⟩ := h.admitted _ hm
  exact Option.isSome_iff_exists.2 ⟨texts, htexts⟩

/-- In a well-formed image a call names something if its operand is a method. -/
theorem WellFormed.exists_names (h : image.WellFormed) {site : CallSite}
    (hmethod : (image.pool.method? site.index).isSome) :
    ∃ source, image.pool.Names site.operand source := by
  obtain ⟨texts, htexts⟩ := Option.isSome_iff_exists.1 hmethod
  obtain ⟨signature, hparse⟩ := h.parse_of_method? htexts
  exact ⟨_, texts, htexts, map_eq_ok_iff.2 ⟨signature, hparse, rfl⟩⟩

/-- A redirection of a verified image whose calls all name methods comes through and adds what it
needs, or ends for want of room for it. -/
theorem redirect_cases (hsize : image.pool.size ≤ Pool.capacity) (hverify : image.verify = .ok ())
    (hcalls : image.CallsMethods) :
    (∃ image' report, image.redirect rules = .ok (image', report) ∧
        report.poolGrowth = image'.pool.size - image.pool.size ∧
        image.pool.Gains image'.pool (image.needs rules)) ∨
      image.redirect rules = .error (.poolOverflow ⟨Pool.capacity⟩) ∧
        image.pool.Lacks (image.needs rules) := by
  have hwell := verify_eq_ok_iff.1 hverify
  by_cases hempty : rules.isEmpty = true
  · have hgains : image.pool.Gains image.pool (image.needs rules) :=
      .of_meets hsize hwell.sound (by simp [needs_of_isEmpty hempty])
    refine Or.inl ⟨image, ⟨image.name?.getD "", [], 0⟩, ?_, (Nat.sub_self _).symm, hgains⟩
    simp [redirect, hempty, pure, Except.pure]
  · have hsites : ∀ site ∈ image.callSites, ∃ source, image.pool.Names site.operand source ∧
        image.callNeeds rules site.operand = rules.needs source := by
      intro site hsite
      obtain ⟨source, hnames⟩ := hwell.exists_names (hcalls site hsite)
      exact ⟨source, hnames, callNeeds_eq hnames⟩
    have hstart : ∀ operand, (List.lookup operand ([] : Replacements)).isSome →
        ∀ n ∈ image.callNeeds rules operand, image.pool.Meets n := by
      intro operand hsome
      cases hsome
    rcases Pool.resolveAll_fits hsize hwell.sound hsites hstart with
      ⟨q, known, hall, hgains⟩ | ⟨hfails, hlacks⟩
    · refine Or.inl ⟨{ image with
          pool := q
          methods := image.methods.map fun m => { m with code := m.code.map known.apply } },
        ⟨image.name?.getD "", image.callSites.filterMap known.redirected?,
          q.size - image.pool.size⟩, ?_, rfl, hgains⟩
      simp [redirect, hempty, hall, bind, Except.bind, pure, Except.pure]
    · refine Or.inr ⟨?_, hlacks⟩
      simp [redirect, hempty, hfails, bind, Except.bind]

/-- When a redirection of a verified image whose calls all name methods has room. It comes through
if the constants that are missing for the targets fit in the pool, and adds just these. It is
refused for want of room if they do not fit, and for nothing else: not for an operand, not for a
descriptor, and not for a rule that does not pass its check. No pool that holds the constants of the
image, each where it is, and those for the targets takes less room. -/
theorem redirect_fits {rules : RuleSet} {image : Image} (hsize : image.pool.size ≤ Pool.capacity)
    (hverify : image.verify = .ok ()) (hcalls : image.CallsMethods) :
    (image.pool.size + image.pool.missing (image.needs rules) ≤ Pool.capacity →
      ∃ image' report, image.redirect rules = .ok (image', report) ∧
        report.poolGrowth = image.pool.missing (image.needs rules) ∧
        image'.pool.Extends image.pool ∧ ∀ n ∈ image.needs rules, image'.pool.Meets n) ∧
    (Pool.capacity < image.pool.size + image.pool.missing (image.needs rules) →
      image.redirect rules = .error (.poolOverflow ⟨Pool.capacity⟩)) ∧
    (∀ site, image.redirect rules ≠ .error (.badOperand site)) ∧
    (∀ index error, image.redirect rules ≠ .error (.badDescriptor index error)) ∧
    (∀ reason, image.redirect rules ≠ .error (.illegalRule reason)) ∧
    ∀ q : Pool, q.Extends image.pool → q.size ≤ Pool.capacity →
      (∀ n ∈ image.needs rules, q.Meets n) →
      image.pool.size + image.pool.missing (image.needs rules) ≤ q.size := by
  have hminimal : ∀ q : Pool, q.Extends image.pool → q.size ≤ Pool.capacity →
      (∀ n ∈ image.needs rules, q.Meets n) →
      image.pool.size + image.pool.missing (image.needs rules) ≤ q.size :=
    fun q hq hqsize hneeds => hq.missing_le hqsize (verify_eq_ok_iff.1 hverify).sound hneeds
  -- The check of a rule passes in every redirection, of a verified image or not.
  have hlegal : ∀ reason, image.redirect rules ≠ .error (.illegalRule reason) :=
    fun reason => redirect_ne_illegalRule
  rcases @redirect_cases rules image hsize hverify hcalls with
    ⟨image', report, hredirect, hgrowth, hgains⟩ | ⟨hredirect, hlacks⟩
  · have hroom : image.pool.size + image.pool.missing (image.needs rules) ≤ Pool.capacity :=
      hgains.size_eq.symm.trans_le hgains.size_le
    have hmissing : report.poolGrowth = image.pool.missing (image.needs rules) := by
      rw [hgrowth, hgains.size_eq, Nat.add_sub_cancel_left]
    have hmeets : ∀ n ∈ image.needs rules, image'.pool.Meets n :=
      fun n hn => (hgains.meets_iff n).2 (Or.inr hn)
    refine ⟨fun _ => ⟨image', report, hredirect, hmissing, hgains.extends_pool, hmeets⟩,
      fun hfull => absurd hroom (Nat.not_le.2 hfull), ?_, ?_, hlegal, hminimal⟩
    · intro site
      rw [hredirect]
      rintro ⟨⟩
    · intro index error
      rw [hredirect]
      rintro ⟨⟩
  · refine ⟨fun hroom => absurd hlacks (Nat.not_lt.2 hroom), fun _ => hredirect, ?_, ?_, hlegal,
      hminimal⟩
    · intro site
      rw [hredirect]
      rintro ⟨⟩
    · intro index error
      rw [hredirect]
      rintro ⟨⟩

/-- The target of the first rule of a chain takes a name and a method besides what is there. -/
theorem redirect_fits_chained :
    ∃ image' report, calling.redirect .chained = .ok (image', report) ∧ report.poolGrowth = 2 := by
  have hcalls : ∀ site ∈ calling.callSites, (calling.pool.method? site.index).isSome := by
    decide +kernel
  have hmissing : calling.pool.missing (calling.needs .chained) = 2 := by decide +kernel
  have hverify : calling.verify = .ok () := by decide +kernel
  obtain ⟨hfits, -⟩ := @redirect_fits .chained calling (by decide) hverify hcalls
  obtain ⟨image', report, hredirect, hgrowth, -⟩ := hfits (by rw [hmissing]; decide)
  exact ⟨image', report, hredirect, hgrowth.trans hmissing⟩

end Image

end Interposition
