import Interposition.Call.Symbol

/-!
# Interposition.Call.Rule — redirection rules and finished sets of them

A rule replaces calls of its source by static calls of its target. That the target is static
and takes what the source takes is part of the type, so a rule always fits its call sites.
A rule set holds at most one rule for each source.
-/

namespace Interposition

/-! ## Rules -/

/-- Calls of `source` become static calls of `target`. -/
structure Rule where
  source : Symbol
  target : Symbol
  /-- The replacement is a static call. -/
  target_static : target.kind = .static
  /-- It takes the operands the source takes, the receiver included. -/
  target_signature : target.signature = source.staticSignature
deriving DecidableEq

/-- Why a pair of symbols makes no rule. -/
inductive RuleError where
  | targetNotStatic (target : Symbol)
  | signatureMismatch (source target : Symbol)
deriving DecidableEq, Repr

def RuleError.message : RuleError → String
  | .targetNotStatic target => s!"rule target {target.text} must be a static call"
  | .signatureMismatch source target =>
    s!"rule target {target.text} has signature {target.signature.descriptor}, " ++
      s!"call site {source.text} needs {source.staticSignature.descriptor}"

instance : Diagnostic RuleError where
  kind
    | .targetNotStatic _ => "TargetNotStatic"
    | .signatureMismatch .. => "SignatureMismatch"
  message := RuleError.message
  causes _ := []

namespace Rule

/-- The rule for an explicit pair, if it is one. -/
def ofPair (source target : Symbol) : Except RuleError Rule :=
  if kind : target.kind = .static then
    if signature : target.signature = source.staticSignature then
      .ok ⟨source, target, kind, signature⟩
    else .error (.signatureMismatch source target)
  else .error (.targetNotStatic target)

/-- The rule from `source` to the static method `owner.name` of the fitting signature. -/
def redirect (source : Symbol) (owner name : String) : Rule :=
  ⟨source, ⟨owner, name, source.staticSignature, .static⟩, rfl, rfl⟩

/-- Source and target with an arrow between. -/
def text (r : Rule) : String :=
  s!"{r.source.text} -> {r.target.text}"

end Rule

/-! ## Rule sets -/

/-- Rules with distinct sources, oldest first. -/
structure RuleSet where
  rules : List Rule
  distinct : rules.Pairwise (·.source ≠ ·.source)

namespace RuleSet

def empty : RuleSet := ⟨[], .nil⟩

/-- The rule for a call site. -/
def lookup (s : RuleSet) (site : Symbol) : Option Rule :=
  s.rules.find? (·.source = site)

def size (s : RuleSet) : Nat :=
  s.rules.length

def isEmpty (s : RuleSet) : Bool :=
  s.rules.isEmpty

/-- Adds a rule. It takes the place of an older rule for its source. -/
def insert (s : RuleSet) (r : Rule) : RuleSet where
  rules := s.rules.filter (·.source ≠ r.source) ++ [r]
  distinct := by
    refine List.pairwise_append.2 ⟨s.distinct.filter _, List.pairwise_singleton _ _, ?_⟩
    intro old kept new added
    rw [List.mem_singleton.1 added]
    exact of_decide_eq_true (List.mem_filter.1 kept).2

/-- The rules of a list, a later rule winning over an earlier one for the same source. -/
def ofList (rules : List Rule) : RuleSet :=
  rules.foldl insert empty

end RuleSet

end Interposition
