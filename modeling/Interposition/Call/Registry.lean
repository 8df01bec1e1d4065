import Interposition.Call.Rule

/-!
# Interposition.Call.Registry — rules under construction

A registry collects rules until it is frozen. From then on its rules stay as they are and
every registration is refused. Registering a rule twice is allowed; registering two targets
for one source is a conflict.
-/

namespace Interposition

/-- Why a registration was refused. -/
inductive RegistryError where
  | conflict (source existing requested : Symbol)
  | frozen (source : Symbol)
  | invalid (reason : RuleError)
deriving DecidableEq, Repr

def RegistryError.message : RegistryError → String
  | .conflict source existing requested =>
    s!"{source.text} is already redirected to {existing.text}, refusing {requested.text}"
  | .frozen source => s!"registry is frozen, cannot register {source.text}"
  | .invalid reason => reason.message

instance : Diagnostic RegistryError where
  kind
    | .conflict .. => "RuleConflict"
    | .frozen _ => "RegistryFrozen"
    | .invalid _ => "InvalidRule"
  message := RegistryError.message
  causes _ := []

structure Registry where
  rules : RuleSet
  frozen : Bool

namespace Registry

def empty : Registry := ⟨.empty, false⟩

def size (r : Registry) : Nat :=
  r.rules.size

def isEmpty (r : Registry) : Bool :=
  r.rules.isEmpty

/-- Fixes the rules for good. -/
def freeze (r : Registry) : Registry :=
  { r with frozen := true }

/-- Adds a rule, unless the registry is frozen or has another target for the source. -/
def insert (r : Registry) (rule : Rule) : Except RegistryError Registry :=
  if r.frozen then .error (.frozen rule.source)
  else
    match r.rules.lookup rule.source with
    | none => .ok { r with rules := r.rules.insert rule }
    | some existing =>
      -- Registering what is there already changes nothing.
      if existing.target = rule.target then .ok r
      else .error (.conflict rule.source existing.target rule.target)

/-- Registers an explicit pair. -/
def register (r : Registry) (source target : Symbol) : Except RegistryError Registry :=
  match Rule.ofPair source target with
  | .error reason => .error (.invalid reason)
  | .ok rule => r.insert rule

/-- Redirects `source` to the static method `owner.name`. -/
def redirect (r : Registry) (source : Symbol) (owner name : String) :
    Except RegistryError Registry :=
  r.insert (.redirect source owner name)

end Registry

end Interposition
