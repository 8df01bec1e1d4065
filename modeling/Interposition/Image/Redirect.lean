import Interposition.Call.Rule
import Interposition.Image.Decode
import Interposition.Image.Intern

/-!
# Interposition.Image.Redirect — redirecting the calls of an image

Every call whose target is the source of a rule becomes a static call of the rule's target.
The target's constants are interned at the end of the pool, and both forms of a call have one
width, so nothing else moves. `Image.redirect` works in two passes: it settles what each
distinct call operand becomes, then puts that in place.
-/

namespace Interposition

/-! ## Call sites -/

/-- A call in the code of an image, in the method with the given label. -/
structure CallSite where
  method : String
  offset : Nat
  kind : CallKind
  index : UInt16
deriving DecidableEq, Repr

/-- What a call is told apart by: the constant it names and the way it calls it. -/
abbrev CallSite.operand (site : CallSite) : UInt16 × CallKind :=
  (site.index, site.kind)

/-- The call that an instruction at an offset makes. -/
def Instruction.callSite? (method : String) (i : Instruction) (offset : Nat) : Option CallSite :=
  match i with
  | .invoke kind index => some ⟨method, offset, kind, index⟩
  | _ => none

/-- The calls of a method in code order. -/
def Method.callSites (label : String) (m : Method) : List CallSite :=
  (m.code.toList.zip (Code.offsets m.code).toList).filterMap fun (i, offset) =>
    i.callSite? label offset

/-- The calls of an image in method and code order. -/
def Image.callSites (image : Image) : List CallSite :=
  image.methods.toList.flatMap fun m => m.callSites (image.methodLabel m)

/-! ## Resolution -/

/-- Why calls cannot be redirected. -/
inductive RedirectError where
  /-- The operand of a call is no method. -/
  | badOperand (site : CallSite)
  | badDescriptor (index : UInt16) (error : DescriptorError)
  /-- The rule for a call does not fit it. -/
  | illegalRule (reason : RuleError)
  | poolOverflow (error : PoolOverflow)
deriving DecidableEq, Repr

def RedirectError.message : RedirectError → String
  | .badOperand site =>
    s!"method {site.method} @{site.offset}: " ++
      s!"invoke operand #{site.index} is not a method reference"
  | .badDescriptor index _ => s!"call site #{index} has a malformed descriptor"
  | .illegalRule _ => "rule cannot be applied"
  | .poolOverflow error => error.message

/-- The messages of the errors beneath, outermost first. -/
def RedirectError.causes : RedirectError → List String
  | .badDescriptor _ error => [error.message]
  | .illegalRule reason => [reason.message]
  | _ => []

instance : Diagnostic RedirectError where
  kind
    | .badOperand _ => "BadOperand"
    | .badDescriptor .. => "Descriptor"
    | .illegalRule _ => "IllegalRule"
    | .poolOverflow _ => "Pool"
  message := RedirectError.message
  causes := RedirectError.causes

/-- A redirected call: the operand that replaces its own, and the symbols before and after. -/
structure Replacement where
  index : UInt16
  source : Symbol
  target : Symbol
deriving DecidableEq

/-- What the call operands met so far become; `none` is a call that stays. -/
abbrev Replacements :=
  List ((UInt16 × CallKind) × Option Replacement)

/-- The symbol a call names. -/
def Pool.symbol (p : Pool) (site : CallSite) : Except RedirectError Symbol :=
  match p.method? site.index with
  | none => .error (.badOperand site)
  | some m =>
    (Symbol.ofDescriptor site.kind m.owner m.name m.descriptor).mapError
      (.badDescriptor site.index)

/-- Whether a target may take the place of a call of `site`. -/
def Rule.check (site target : Symbol) : Except RuleError Unit :=
  if !target.isStatic then .error (.targetNotStatic target)
  else if target.signature ≠ site.staticSignature then .error (.signatureMismatch site target)
  else .ok ()

/-- What a call becomes under a rule set. Its rule is checked once more, at the symbol the call
names, and the target is interned. -/
def Pool.resolve (p : Pool) (rules : RuleSet) (site : CallSite) :
    Except RedirectError (Option Replacement × Pool) := do
  let source ← p.symbol site
  match rules.lookup source with
  | none => return (none, p)
  | some rule =>
    let target := rule.target
    (Rule.check source target).mapError .illegalRule
    match Pool.internMethod ⟨target.owner, target.name, target.signature.descriptor⟩ p with
    | (.ok index, p) => return (some ⟨index, source, target⟩, p)
    | (.error overflow, _) => throw (.poolOverflow overflow)

/-- Resolves calls in order, each distinct operand once. -/
def Pool.resolveAll (rules : RuleSet) (p : Pool) (known : Replacements) :
    List CallSite → Except RedirectError (Pool × Replacements)
  | [] => .ok (p, known)
  | site :: rest =>
    -- The pool may have grown since an operand was resolved; it keeps what it became.
    match known.lookup site.operand with
    | some _ => Pool.resolveAll rules p known rest
    | none =>
      match p.resolve rules site with
      | .error e => .error e
      | .ok (replacement, p) =>
        Pool.resolveAll rules p ((site.operand, replacement) :: known) rest

/-! ## Replacement -/

/-- What the calls of an operand become, if they are redirected. -/
def Replacements.find? (known : Replacements) (operand : UInt16 × CallKind) :
    Option Replacement :=
  (known.lookup operand).join

/-- A redirected call becomes a static call of its replacement. All else stays. -/
def Replacements.apply (known : Replacements) : Instruction → Instruction
  | .invoke kind index =>
    match known.find? (index, kind) with
    | some replacement => .invoke .static replacement.index
    | none => .invoke kind index
  | i => i

/-- A call that was redirected. -/
structure RedirectedSite where
  method : String
  offset : Nat
  source : Symbol
  target : Symbol
deriving DecidableEq

/-- The entry of a call in the report, if it is redirected. -/
def Replacements.redirected? (known : Replacements) (site : CallSite) : Option RedirectedSite :=
  (known.find? site.operand).map fun replacement =>
    ⟨site.method, site.offset, replacement.source, replacement.target⟩

/-- What a redirection changed. -/
structure RedirectReport where
  module : String
  sites : List RedirectedSite
  /-- The number of constants added for targets. -/
  poolGrowth : Nat
deriving DecidableEq

namespace RedirectReport

def callSites (r : RedirectReport) : Nat :=
  r.sites.length

def isUnchanged (r : RedirectReport) : Bool :=
  r.sites.isEmpty

end RedirectReport

/-- Redirects the calls of an image. Without rules the calls are not looked at. -/
def Image.redirect (rules : RuleSet) (image : Image) :
    Except RedirectError (Image × RedirectReport) := do
  let module := image.name?.getD ""
  if rules.isEmpty then return (image, ⟨module, [], 0⟩)
  let sites := image.callSites
  let (pool, known) ← image.pool.resolveAll rules [] sites
  let methods := image.methods.map fun m => { m with code := m.code.map known.apply }
  return ({ image with pool, methods },
    ⟨module, sites.filterMap known.redirected?, pool.size - image.pool.size⟩)

end Interposition
