import Interposition.Proofs.Image.Alteration
import Interposition.Proofs.Linking.Retention

/-!
# Interposition.Proofs.Linking.Repetition — redirecting twice is redirecting once

The second pass reads its calls in the pool that the first one has left: constants that were added
there, and operands that named nothing before. But whatever a call of a redirected image names, it
is no source (`Image.redirect_settled`): either it stayed because it is none, or it became a call of
a target, whose descriptor reads as it was written. A settled image is its own redirection.
-/

namespace Interposition

variable {rules : RuleSet}

/-- Every call of an image names something that is no source. -/
def Image.Settled (rules : RuleSet) (image : Image) : Prop :=
  ∀ site ∈ image.callSites, ∃ s, image.pool.Names site.operand s ∧ rules.lookup s = none

/-- There is nothing left to redirect in a settled image, and nothing in the way. -/
theorem Image.Settled.redirect_eq {image : Image} (h : image.Settled rules) :
    image.redirect rules = .ok (image, ⟨image.name?.getD "", [], 0⟩) := by
  have hunruled : ∀ site ∈ image.callSites, ∀ s, image.pool.Names site.operand s →
      rules.lookup s = none := by
    intro site hsite s hs
    obtain ⟨t, ht, hnone⟩ := h site hsite
    rwa [hs.unique ht]
  rcases redirect_unruled hunruled with hsame | ⟨-, site, hsite, e, he, -⟩
  · exact hsame
  · -- The only thing in the way would be a call that names nothing.
    obtain ⟨s, hs, -⟩ := h site hsite
    rw [Pool.symbol_eq_ok_iff.2 hs] at he
    cases he

/-- No target is called by the symbol of a source. -/
theorem RuleSet.lookup_target (hapart : ∀ rule ∈ rules.rules, ∀ other ∈ rules.rules,
    rule.target ≠ other.source) {rule : Rule} (hrule : rule ∈ rules.rules) :
    rules.lookup rule.target = none := by
  cases hlookup : rules.lookup rule.target with
  | none => rfl
  | some other =>
    obtain ⟨hother, hsource⟩ := lookup_eq_some hlookup
    exact absurd hsource.symm (hapart rule hrule other hother)

/-- What a call has become names no source. -/
theorem Instruction.Becomes.settled {p : Pool} {i : Instruction} {kind : CallKind} {index : UInt16}
    (hreads : ∀ rule ∈ rules.rules, rule.source.Reads)
    (hapart : ∀ rule ∈ rules.rules, ∀ other ∈ rules.rules, rule.target ≠ other.source)
    (h : i.Becomes rules p (.invoke kind index)) :
    ∃ s, p.Names (index, kind) s ∧ rules.lookup s = none := by
  cases h with
  | stays hunruled => exact hunruled kind index rfl
  | @turns _ _ _ source rule hnames hrule htarget =>
    obtain ⟨hmem, rfl⟩ := RuleSet.lookup_eq_some hrule
    have htarget' := Rule.names_target (hreads rule hmem) hnames htarget
    exact ⟨rule.target, htarget', RuleSet.lookup_target hapart hmem⟩

namespace Image

/-- A redirected image is settled where no target is a source. -/
theorem redirect_settled {image image' : Image} {report : RedirectReport}
    (hsize : image.pool.size ≤ Pool.capacity)
    (hreads : ∀ rule ∈ rules.rules, rule.source.Reads)
    (hapart : ∀ rule ∈ rules.rules, ∀ other ∈ rules.rules, rule.target ≠ other.source)
    (hrules : rules.isEmpty = false) (h : image.redirect rules = .ok (image', report)) :
    image'.Settled rules := by
  rcases redirect_alters hsize h with ⟨hempty, -⟩ | halters
  · rw [hrules] at hempty
    cases hempty
  · intro site hsite
    obtain ⟨m', hm', hzip, -⟩ := mem_callSites.1 hsite
    have hcall : .invoke site.kind site.index ∈ m'.code :=
      Array.mem_toList_iff.1 (List.of_mem_zip hzip).1
    obtain ⟨k, hk⟩ := Array.mem_iff_getElem?.1 hm'
    obtain ⟨position, hposition⟩ := Array.mem_iff_getElem?.1 hcall
    obtain ⟨m, -, hmethod⟩ := halters.exists_method hk
    obtain ⟨i, -, hbecomes⟩ := hmethod.instruction position _ hposition
    exact hbecomes.settled hreads hapart

/-- Redirecting is idempotent: a redirected image is its own redirection, with nothing to report,
if no target is a source and the receivers of all instance calls that are sources can stand in a
descriptor. -/
theorem redirect_idempotent {image image' : Image} {report : RedirectReport}
    (hsize : image.pool.size ≤ Pool.capacity)
    (hapart : ∀ rule ∈ rules.rules, ∀ other ∈ rules.rules, rule.target ≠ other.source)
    (hreads : ∀ rule ∈ rules.rules, rule.source.kind = .virtual →
      rule.source.owner ≠ "" ∧ ';' ∉ rule.source.owner.toList ∧ ')' ∉ rule.source.owner.toList)
    (h : image.redirect rules = .ok (image', report)) :
    image'.redirect rules = .ok (image', ⟨image'.name?.getD "", [], 0⟩) := by
  by_cases hempty : rules.isEmpty = true
  · -- Without rules no call is looked at, so a call that names nothing is no fault.
    simp [redirect, hempty, pure, Except.pure]
  · exact (redirect_settled hsize hreads hapart (by simpa using hempty) h).redirect_eq

/-- An image that calls a method of an object, and then, by an operand that names nothing yet, the
static method that stands in for it. -/
def anticipating : Image where
  major := 1
  minor := 0
  pool := ⟨#[.utf8 "s", .utf8 "run", .utf8 "()V", .utf8 "q", .utf8 "hit", .method ⟨3, 4, 2⟩]⟩
  thisName := 0
  methods := #[⟨1, 1, 2, 0, #[.new 3, .invoke .virtual 5, .new 3, .invoke .static 7, .ret], []⟩]

/-- Both calls are the same after the first pass, and the second one leaves them so. -/
theorem redirect_idempotent_anticipating :
    anticipating.pool.method? 7 = none ∧
    ∃ image' report,
      anticipating.redirect (.ofList [.redirect ⟨"q", "hit", .void, .virtual⟩ "s" "hit"]) =
        .ok (image', report) ∧
      image'.methods =
        #[⟨1, 1, 2, 0, #[.new 3, .invoke .static 7, .new 3, .invoke .static 7, .ret], []⟩] ∧
      image'.redirect (.ofList [.redirect ⟨"q", "hit", .void, .virtual⟩ "s" "hit"]) =
        .ok (image', ⟨"s", [], 0⟩) := by
  have hredirect :
      anticipating.redirect (.ofList [.redirect ⟨"q", "hit", .void, .virtual⟩ "s" "hit"]) =
        .ok (⟨1, 0, ⟨#[.utf8 "s", .utf8 "run", .utf8 "()V", .utf8 "q", .utf8 "hit",
            .method ⟨3, 4, 2⟩, .utf8 "(Lq;)V", .method ⟨0, 4, 6⟩]⟩, 0,
            #[⟨1, 1, 2, 0, #[.new 3, .invoke .static 7, .new 3, .invoke .static 7, .ret], []⟩]⟩,
          ⟨"s", [⟨"run()V", 3, ⟨"q", "hit", .void, .virtual⟩,
            ⟨"s", "hit", ⟨[.object "q"], none⟩, .static⟩⟩], 2⟩) := by
    decide +kernel
  refine ⟨rfl, _, _, hredirect, rfl, ?_⟩
  exact redirect_idempotent (by decide) (by decide) (by decide) hredirect

end Image

end Interposition
