/-!
# Interposition.Text.Diagnostic — how errors show

Every error is of a kind, has a message, and has a chain of causes: the messages of the errors
it was made from, outermost first. An error that only passes another one on shows its message
and its causes as its own.
-/

namespace Interposition

/-- The errors of a type as they show to a reader. -/
class Diagnostic (ε : Type) where
  /-- One word for what went wrong, without the particulars. -/
  kind : ε → String
  message : ε → String
  /-- The messages of the errors beneath, outermost first. -/
  causes : ε → List String

end Interposition
