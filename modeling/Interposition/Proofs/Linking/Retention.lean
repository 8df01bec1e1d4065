import Interposition.Proofs.Image.Reach
import Interposition.Proofs.Image.RoundTrip
import Interposition.Proofs.Linking.Mediation

/-!
# Interposition.Proofs.Linking.Retention — what transforming does where no rule applies

Bytes whose calls have no rule are expected to come through as they are. They do if control
reaches every instruction. But the verifier looks only at instructions that control reaches,
while a redirection reads the operand of every call and the encoder that of every instruction. So
an operand in code that is never reached can keep bytes from being transformed that define a
module as they are (`transform_loses_unreached`).

The main statement, `transform_unruled`, says for verified bytes when they come through, that
nothing else comes out, and which faults there are.
-/

namespace Interposition

/-! ## Redirections that find nothing to do -/

/-- Where no call has a rule, a pass leaves the pool as it is and every operand it meets stays, up
to the first call that names nothing. -/
theorem Pool.resolveAll_unruled {rules : RuleSet} {p : Pool} {known : Replacements}
    {sites : List CallSite}
    (hknown : ∀ operand replacement, known.lookup operand = some replacement → replacement = none)
    (hunruled : ∀ site ∈ sites, ∀ s, p.Names site.operand s → rules.lookup s = none) :
    (∃ known' : Replacements, p.resolveAll rules known sites = .ok (p, known') ∧
      ∀ operand replacement, known'.lookup operand = some replacement → replacement = none) ∨
    ∃ site ∈ sites, ∃ e, p.symbol site = .error e ∧ p.resolveAll rules known sites = .error e := by
  induction sites generalizing known with
  | nil => exact Or.inl ⟨known, rfl, hknown⟩
  | cons site rest ih =>
    rcases List.forall_mem_cons.1 hunruled with ⟨hsite, hrest⟩
    rw [resolveAll]
    cases hmet : known.lookup site.operand with
    | some replacement =>
      rcases ih hknown hrest with hok | ⟨other, hother, e, he, hfails⟩
      · exact Or.inl hok
      · exact Or.inr ⟨other, List.mem_cons_of_mem _ hother, e, he, hfails⟩
    | none =>
      cases hsymbol : p.symbol site with
      | error e =>
        refine Or.inr ⟨site, List.mem_cons_self, e, hsymbol, ?_⟩
        simp [resolve, hsymbol, bind, Except.bind]
      | ok s =>
        have hnone : rules.lookup s = none := hsite s (Pool.symbol_eq_ok_iff.1 hsymbol)
        have hresolve : p.resolve rules site = .ok (none, p) := by
          rw [resolve_eq hsymbol, hnone]
        have hknown' (operand : UInt16 × CallKind) (replacement : Option Replacement)
            (hlookup : List.lookup operand ((site.operand, none) :: known) = some replacement) :
            replacement = none := by
          rw [List.lookup_cons] at hlookup
          split at hlookup
          · exact (Option.some.inj hlookup).symm
          · exact hknown operand replacement hlookup
        rw [hresolve]
        rcases ih hknown' hrest with hok | ⟨other, hother, e, he, hfails⟩
        · exact Or.inl hok
        · exact Or.inr ⟨other, List.mem_cons_of_mem _ hother, e, he, hfails⟩

/-- What is known to stay is put in place by changing nothing. -/
theorem Replacements.apply_of_none {known : Replacements}
    (h : ∀ operand, known.find? operand = none) (i : Instruction) : known.apply i = i := by
  unfold apply
  split
  case h_1 kind index => rw [h]
  case h_2 => rfl

/-- An image none of whose calls has a rule is its own redirection, unless there are rules and some
call names nothing. -/
theorem Image.redirect_unruled {rules : RuleSet} {image : Image}
    (hunruled : ∀ site ∈ image.callSites, ∀ s, image.pool.Names site.operand s →
      rules.lookup s = none) :
    image.redirect rules = .ok (image, ⟨image.name?.getD "", [], 0⟩) ∨
      rules.isEmpty = false ∧ ∃ site ∈ image.callSites, ∃ e,
        image.pool.symbol site = .error e ∧ image.redirect rules = .error e := by
  by_cases hempty : rules.isEmpty = true
  · refine Or.inl ?_
    simp [redirect, hempty, pure, Except.pure]
  · have hknown (operand : UInt16 × CallKind) (replacement : Option Replacement)
        (hlookup : ([] : Replacements).lookup operand = some replacement) : replacement = none := by
      cases hlookup
    rcases Pool.resolveAll_unruled hknown hunruled with
      ⟨known, hresolve, hnone⟩ | ⟨site, hsite, e, he, hfails⟩
    · have hfind (operand : UInt16 × CallKind) : known.find? operand = none := by
        rw [Replacements.find?]
        cases hlookup : known.lookup operand with
        | none => rfl
        | some replacement =>
          rw [hnone operand replacement hlookup]
          rfl
      have happly : known.apply = id := funext (Replacements.apply_of_none hfind)
      have hsites : image.callSites.filterMap known.redirected? = [] := by
        refine List.filterMap_eq_nil_iff.2 ?_
        intro site _
        rw [Replacements.redirected?, hfind, Option.map_none]
      refine Or.inl ?_
      simp [redirect, hempty, hresolve, happly, hsites, bind, Except.bind, pure, Except.pure]
    · refine Or.inr ⟨by simpa using hempty, site, hsite, e, he, ?_⟩
      simp [redirect, hempty, hfails, bind, Except.bind]

/-! ## Operands in well-formed images -/

/-- In a well-formed image a call names something if its operand is a method. -/
theorem Image.WellFormed.symbol_eq_error {image : Image} {site : CallSite} {e : RedirectError}
    (h : image.WellFormed) (he : image.pool.symbol site = .error e) :
    image.pool.method? site.index = none ∧ e = .badOperand site := by
  unfold Pool.symbol at he
  cases hmethod : image.pool.method? site.index with
  | none =>
    rw [hmethod] at he
    exact ⟨rfl, (Except.error.inj he).symm⟩
  | some texts =>
    rcases h.parse_of_method? hmethod with ⟨signature, hparse⟩
    rw [hmethod] at he
    simp only [Symbol.ofDescriptor, hparse] at he
    cases he

/-- Control reaches every instruction of an image. -/
def Image.FullyReached (image : Image) : Prop :=
  ∀ m ∈ image.methods, ∀ position < m.code.size, m.Reached position

/-- Where control reaches every instruction, every operand is as it should be. -/
theorem Image.WellFormed.operands {image : Image} (h : image.WellFormed)
    (hreached : image.FullyReached) {m : Method} (hm : m ∈ image.methods) {i : Instruction}
    (hi : i ∈ m.code) :
    i.RefersBelow image.pool.size ∧
      ∀ kind index, i = .invoke kind index → (image.pool.method? index).isSome := by
  rcases Array.mem_iff_getElem?.1 hi with ⟨position, hposition⟩
  have hlt : position < m.code.size := (Array.getElem?_eq_some_iff.1 hposition).1
  rcases h.exists_effect hm (hreached m hm position hlt) with ⟨r, i', e, hr, hi', he⟩
  rcases Routine.ofMethod_eq_ok_iff.1 hr with ⟨_, _, _, _, _, _, _, rfl⟩
  obtain rfl : i' = i := Option.some.inj (hi'.symm.trans hposition)
  constructor
  · intro index hindex
    exact (Routine.provides_of_effect he hindex).lt
  · rintro kind index rfl
    exact Routine.isSome_method?_of_effect he

/-! ## Redirecting and encoding -/

/-- All instructions, reached or not, refer to constants that are there. -/
def Image.Refers (image : Image) : Prop :=
  ∀ m ∈ image.methods, ∀ i ∈ m.code, i.RefersBelow image.pool.size

/-- All calls, reached or not, have a method for an operand. -/
def Image.CallsMethods (image : Image) : Prop :=
  ∀ site ∈ image.callSites, (image.pool.method? site.index).isSome

/-- A well-formed image none of whose calls is the source of a rule is its own redirection, unless
there are rules and a call has no method for an operand. -/
theorem Image.WellFormed.redirect_cases {rules : RuleSet} {image : Image} (h : image.WellFormed)
    (hsize : image.pool.size ≤ Pool.capacity)
    (hunruled : ∀ rule ∈ rules.rules, ∀ site ∈ image.callSites,
      ¬image.pool.Names site.operand rule.source) :
    image.redirect rules = .ok (image, ⟨image.name?.getD "", [], 0⟩) ∧
        (rules.isEmpty = true ∨ image.CallsMethods) ∨
      rules.isEmpty = false ∧ ∃ site ∈ image.callSites, image.pool.method? site.index = none ∧
        image.redirect rules = .error (.badOperand site) := by
  have hnone (site : CallSite) (hsite : site ∈ image.callSites) (s : Symbol)
      (hs : image.pool.Names site.operand s) : rules.lookup s = none := by
    cases hlookup : rules.lookup s with
    | none => rfl
    | some rule =>
      rcases RuleSet.lookup_eq_some hlookup with ⟨hrule, rfl⟩
      exact absurd hs (hunruled rule hrule site hsite)
  rcases Image.redirect_unruled hnone with hsame | ⟨hrules, site, hsite, e, he, hfails⟩
  · refine Or.inl ⟨hsame, ?_⟩
    rcases Image.redirect_ok hsame hsize with ⟨hempty, -, -⟩ | ⟨known, -, -, -, hsettles⟩
    · exact Or.inl hempty
    · refine Or.inr ?_
      intro site hsite
      rcases hsettles site hsite with ⟨source, ⟨texts, hmethod, -⟩, -⟩
      exact Option.isSome_iff_exists.2 ⟨texts, hmethod⟩
  · rcases h.symbol_eq_error he with ⟨hmethod, rfl⟩
    exact Or.inr ⟨hrules, site, hsite, hmethod, hfails⟩

/-- A decoded image with a name encodes to its bytes, unless an instruction refers to nothing. -/
theorem Image.encode_cases {bytes : List UInt8} {image : Image} {name : String}
    (hdecode : Image.decode bytes = .ok image) (hname : image.name? = some name) :
    image.encode = .ok bytes ∧ image.Refers ∨
      ¬image.Refers ∧ ∃ method position index, image.DanglesFirst method position index ∧
        image.encode = .error (.danglingOperand method position index) := by
  have hnamed : image.thisName.toNat < image.pool.size := Pool.lt_of_utf8? hname
  rcases Image.encode_decoded hdecode with ⟨hencodes, -, hfaults, -⟩
  by_cases hrefers : image.Refers
  · exact Or.inl ⟨hencodes.2 ⟨hnamed, hrefers⟩, hrefers⟩
  · refine Or.inr ⟨hrefers, hfaults hnamed ?_⟩
    by_contra hnone
    apply hrefers
    intro m hm i hi
    by_contra hnot
    exact hnone ⟨m, hm, i, hi, hnot⟩

/-! ## Transformations -/

/-- Verified bytes none of whose calls is the source of a rule come through, or the redirection
refuses a call, or the encoder refuses an operand. -/
theorem transform_cases {rules : RuleSet} {bytes : List UInt8} {image : Image} {name : String}
    (hdecode : Image.decode bytes = .ok image) (hverify : image.verifyNamed name = .ok ())
    (hunruled : ∀ rule ∈ rules.rules, ∀ site ∈ image.callSites,
      ¬image.pool.Names site.operand rule.source) :
    (transform rules bytes = .ok (bytes, ⟨name, [], 0⟩) ∧ image.Refers ∧
      (rules.isEmpty = true ∨ image.CallsMethods)) ∨
    (rules.isEmpty = false ∧ ∃ site ∈ image.callSites, image.pool.method? site.index = none ∧
      transform rules bytes = .error (.redirect (.badOperand site))) ∨
    ¬image.Refers ∧ ∃ method position index, image.DanglesFirst method position index ∧
      transform rules bytes = .error (.encode (.danglingOperand method position index)) := by
  rcases Image.verifyNamed_eq_ok_iff.1 hverify with ⟨hwell, hname⟩
  have hsize := (Image.decode_eq_ok_iff.1 hdecode).2.1.pool_size
  rw [transform_of_decode hdecode]
  rcases hwell.redirect_cases hsize hunruled with
    ⟨hsame, hcalls⟩ | ⟨hrules, site, hsite, hmethod, hfails⟩
  · rw [hsame, hname, Option.getD_some]
    rcases Image.encode_cases hdecode hname with
      ⟨hencode, hrefers⟩ | ⟨hrefers, method, position, index, hfirst, hencode⟩
    · dsimp only
      rw [hencode]
      exact Or.inl ⟨rfl, hrefers, hcalls⟩
    · dsimp only
      rw [hencode]
      exact Or.inr (Or.inr ⟨hrefers, method, position, index, hfirst, rfl⟩)
  · rw [hfails]
    exact Or.inr (Or.inl ⟨hrules, site, hsite, hmethod, rfl⟩)

/-- Bytes that define a module under a name, none of whose calls is the source of a rule.
Transforming them gives

* the bytes and a report of nothing exactly if all instructions, reached or not, refer to constants
  that are there, and, unless there are no rules, all calls to methods;
* nothing else, if it gives anything;
* else the fault of a call whose operand is no method, or of the first instruction that refers to
  a constant that is not there.

So the bytes come through if control reaches every instruction. -/
theorem transform_unruled {rules : RuleSet} {bytes : List UInt8} {image : Image} {name : String}
    (hdecode : Image.decode bytes = .ok image) (hverify : image.verifyNamed name = .ok ())
    (hunruled : ∀ rule ∈ rules.rules, ∀ site ∈ image.callSites,
      ¬image.pool.Names site.operand rule.source) :
    (transform rules bytes = .ok (bytes, ⟨name, [], 0⟩) ↔
      image.Refers ∧ (rules.isEmpty = true ∨ image.CallsMethods)) ∧
    (∀ result, transform rules bytes = .ok result → result = (bytes, ⟨name, [], 0⟩)) ∧
    (∀ e, transform rules bytes = .error e →
      (rules.isEmpty = false ∧ ∃ site ∈ image.callSites,
        image.pool.method? site.index = none ∧ e = .redirect (.badOperand site)) ∨
      ∃ method position index, image.DanglesFirst method position index ∧
        e = .encode (.danglingOperand method position index)) ∧
    (image.FullyReached → transform rules bytes = .ok (bytes, ⟨name, [], 0⟩)) := by
  have hreached (h : image.FullyReached) : image.Refers ∧ image.CallsMethods := by
    have hwell := (Image.verifyNamed_eq_ok_iff.1 hverify).1
    constructor
    · intro m hm i hi
      exact (hwell.operands h hm hi).1
    · intro site hsite
      rcases Image.mem_callSites.1 hsite with ⟨m, hm, hzip, -⟩
      have hi : .invoke site.kind site.index ∈ m.code :=
        Array.mem_toList_iff.1 (List.of_mem_zip hzip).1
      exact (hwell.operands h hm hi).2 site.kind site.index rfl
  rcases transform_cases hdecode hverify hunruled with
    ⟨hsame, hrefers, hcalls⟩ | ⟨hrules, site, hsite, hmethod, hfails⟩ |
    ⟨hrefers, method, position, index, hfirst, hfails⟩
  · rw [hsame]
    refine ⟨iff_of_true rfl ⟨hrefers, hcalls⟩, ?_, ?_, fun _ => rfl⟩
    · rintro result ⟨⟩
      rfl
    · rintro e ⟨⟩
  · have hnot : ¬image.CallsMethods := by
      intro hall
      have hsome := hall site hsite
      rw [hmethod] at hsome
      cases hsome
    rw [hfails]
    refine ⟨by simp [hrules, hnot], ?_, ?_, fun h => absurd (hreached h).2 hnot⟩
    · rintro result ⟨⟩
    · rintro e ⟨⟩
      exact Or.inl ⟨hrules, site, hsite, hmethod, rfl⟩
  · rw [hfails]
    refine ⟨by simp [hrefers], ?_, ?_, fun h => absurd (hreached h).1 hrefers⟩
    · rintro result ⟨⟩
    · rintro e ⟨⟩
      exact Or.inr ⟨method, position, index, hfirst, rfl⟩

/-- No call of an image is the source of a rule, as can be seen by looking at them all. -/
theorem Image.unruled_of_named? {rules : RuleSet} {image : Image}
    (h : ∀ rule ∈ rules.rules, ∀ site ∈ image.callSites,
      image.named? (.invoke site.kind site.index) ≠ some rule.source) :
    ∀ rule ∈ rules.rules, ∀ site ∈ image.callSites,
      ¬image.pool.Names site.operand rule.source := by
  intro rule hrule site hsite hnames
  exact h rule hrule site hsite (Image.named?_eq_some_iff.2 hnames)

/-- A program that returns, and calls what is at a position of its pool after that. -/
def Image.returning (operand : UInt16) : Image where
  major := 1
  minor := 0
  pool := ⟨#[.utf8 "a", .utf8 "main", .utf8 "()V", .method ⟨0, 1, 2⟩]⟩
  thisName := 0
  methods := #[⟨1, 1, 2, 0, #[.ret, .invoke .static operand], []⟩]

/-- Calls of `b.f` go to `c.g`. -/
def RuleSet.elsewhere : RuleSet :=
  .ofList [.redirect ⟨"b", "f", .void, .static⟩ "c" "g"]

/-- A call that is never reached comes through if its operand is a method. -/
theorem transform_unruled_returning :
    transform .elsewhere (Image.returning 3).bytes =
      .ok ((Image.returning 3).bytes, ⟨"a", [], 0⟩) := by
  have hdecode : Image.decode (Image.returning 3).bytes = .ok (Image.returning 3) := by
    decide +kernel
  have hunruled : ∀ rule ∈ RuleSet.elsewhere.rules, ∀ site ∈ (Image.returning 3).callSites,
      (Image.returning 3).named? (.invoke site.kind site.index) ≠ some rule.source := by
    decide +kernel
  have hverify : (Image.returning 3).verifyNamed "a" = .ok () := by decide +kernel
  refine (transform_unruled hdecode hverify (Image.unruled_of_named? hunruled)).1.2 ⟨?_, Or.inr ?_⟩
  · simp [Image.Refers, Image.returning, Instruction.RefersBelow, Instruction.poolOperand?,
      Pool.size]
  · have hcalls : ∀ site ∈ (Image.returning 3).callSites,
        ((Image.returning 3).pool.method? site.index).isSome := by decide +kernel
    exact hcalls

/-- An operand in code that is never reached keeps bytes from being transformed that define a
module as they are. -/
theorem transform_loses_unreached :
    Image.decode (Image.returning 9).bytes = .ok (Image.returning 9) ∧
    (Image.returning 9).verifyNamed "a" = .ok () ∧
    transform .empty (Image.returning 9).bytes = .error (.encode (.danglingOperand 0 1 9)) ∧
    transform .elsewhere (Image.returning 9).bytes =
      .error (.redirect (.badOperand ⟨"main()V", 1, .static, 9⟩)) ∧
    ¬∀ (bytes : List UInt8) (image : Image) (name : String) (rules : RuleSet),
      Image.decode bytes = .ok image → image.verifyNamed name = .ok () →
      (∀ rule ∈ rules.rules, ∀ site ∈ image.callSites,
        ¬image.pool.Names site.operand rule.source) →
      transform rules bytes = .ok (bytes, ⟨name, [], 0⟩) := by
  have hdecode : Image.decode (Image.returning 9).bytes = .ok (Image.returning 9) := by
    decide +kernel
  have hverify : (Image.returning 9).verifyNamed "a" = .ok () := by decide +kernel
  have hredirect : (Image.returning 9).redirect .elsewhere =
      .error (.badOperand ⟨"main()V", 1, .static, 9⟩) := by
    decide +kernel
  have hencode : (Image.returning 9).encode = .error (.danglingOperand 0 1 9) := by decide +kernel
  have hempty : transform .empty (Image.returning 9).bytes =
      .error (.encode (.danglingOperand 0 1 9)) := by
    rw [transform_of_decode hdecode]
    have hsame : (Image.returning 9).redirect .empty = .ok (Image.returning 9, ⟨"a", [], 0⟩) := rfl
    rw [hsame]
    dsimp only
    rw [hencode]
  have hruled : transform .elsewhere (Image.returning 9).bytes =
      .error (.redirect (.badOperand ⟨"main()V", 1, .static, 9⟩)) := by
    rw [transform_of_decode hdecode, hredirect]
  refine ⟨hdecode, hverify, hempty, hruled, ?_⟩
  intro hkeeps
  have hkept := hkeeps _ _ "a" .empty hdecode hverify (by intro rule hrule; cases hrule)
  rw [hempty] at hkept
  cases hkept

end Interposition
