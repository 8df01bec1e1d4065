import Interposition.Call.Registry
import Interposition.Proofs.Checks

/-!
# Interposition.Proofs.Call.Registration — the rules of sets and registries

A set has one rule for each source, and finds it. Registering a rule keeps the rules that were
there and adds none but the rule registered (`Registry.insert_eq_ok`).
-/

namespace Interposition

/-! ## Sets -/

theorem RuleSet.lookup_eq_some {rules : RuleSet} {site : Symbol} {rule : Rule}
    (h : rules.lookup site = some rule) : rule ∈ rules.rules ∧ rule.source = site := by
  refine ⟨List.mem_of_find?_eq_some h, ?_⟩
  simpa using List.find?_some h

/-- Every rule is the one for its source. -/
theorem RuleSet.lookup_source {rules : RuleSet} {rule : Rule} (h : rule ∈ rules.rules) :
    rules.lookup rule.source = some rule := by
  rcases rules with ⟨list, hdistinct⟩
  change list.find? (fun r => r.source = rule.source) = some rule
  induction list with
  | nil => cases h
  | cons first rest ih =>
    rcases List.pairwise_cons.1 hdistinct with ⟨hfirst, hrest⟩
    rcases List.mem_cons.1 h with rfl | hmem
    · simp
    · rw [List.find?_cons_of_neg (by simpa using hfirst rule hmem)]
      exact ih hrest hmem

theorem RuleSet.lookup_eq_none {rules : RuleSet} {site : Symbol} (h : rules.isEmpty = true) :
    rules.lookup site = none := by
  rw [isEmpty, List.isEmpty_iff] at h
  rw [lookup, h, List.find?_nil]

/-- A set that has no rule for a source keeps its rules when one is added. -/
theorem RuleSet.mem_insert {rules : RuleSet} {rule other : Rule}
    (h : rules.lookup rule.source = none) :
    other ∈ (rules.insert rule).rules ↔ other ∈ rules.rules ∨ other = rule := by
  have hfresh := List.find?_eq_none.1 h
  simp only [RuleSet.insert, List.mem_append, List.mem_filter, List.mem_singleton]
  constructor
  · exact Or.imp_left And.left
  · exact Or.imp_left fun hmem => ⟨hmem, by simpa using hfresh other hmem⟩

/-! ## Registries -/

/-- A rule that is taken is in the registry, if only because it was there. The others are those
that were there. -/
theorem Registry.insert_eq_ok {r r' : Registry} {rule : Rule} (h : r.insert rule = .ok r') :
    rule ∈ r'.rules.rules ∧ (∀ other ∈ r.rules.rules, other ∈ r'.rules.rules) ∧
      ∀ other ∈ r'.rules.rules, other ∈ r.rules.rules ∨ other = rule := by
  unfold Registry.insert at h
  split at h
  · cases h
  · split at h
    case h_1 hnone =>
      rcases Except.ok.inj h with rfl
      have hmem (other : Rule) : other ∈ (r.rules.insert rule).rules ↔
          other ∈ r.rules.rules ∨ other = rule := RuleSet.mem_insert hnone
      exact ⟨(hmem rule).2 (Or.inr rfl), fun other hother => (hmem other).2 (Or.inl hother),
        fun other hother => (hmem other).1 hother⟩
    case h_2 existing hexisting =>
      split at h
      case isTrue htarget =>
        rcases Except.ok.inj h with rfl
        rcases RuleSet.lookup_eq_some hexisting with ⟨hmem, hsource⟩
        -- A rule is its source and its target.
        obtain rfl : existing = rule := by
          cases existing
          cases rule
          simp_all
        exact ⟨hmem, fun other hother => hother, fun other hother => Or.inl hother⟩
      case isFalse => cases h

end Interposition
