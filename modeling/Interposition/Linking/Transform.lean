import Interposition.Error

/-!
# Interposition.Linking.Transform — redirecting encoded modules

Bytes are decoded, their calls are redirected and the result is encoded again.
-/

namespace Interposition

/-- The redirected image of encoded bytes. -/
def redirectBytes (rules : RuleSet) (bytes : List UInt8) :
    Except Error (Image × RedirectReport) := do
  let image ← (Image.decode bytes).mapError .decode
  (image.redirect rules).mapError .redirect

/-- The redirected bytes. -/
def transform (rules : RuleSet) (bytes : List UInt8) :
    Except Error (List UInt8 × RedirectReport) := do
  let (image, report) ← redirectBytes rules bytes
  let bytes ← image.encode.mapError .encode
  return (bytes, report)

/-! ## Counting -/

/-- How many modules had calls redirected, and how many calls. -/
structure Tally where
  modules : Nat
  callSites : Nat
deriving DecidableEq, Repr

namespace Tally

def zero : Tally := ⟨0, 0⟩

/-- Counts what a report tells. -/
def count (t : Tally) (report : RedirectReport) : Tally :=
  if report.isUnchanged then t else ⟨t.modules + 1, t.callSites + report.callSites⟩

def add (a b : Tally) : Tally :=
  ⟨a.modules + b.modules, a.callSites + b.callSites⟩

end Tally

end Interposition
