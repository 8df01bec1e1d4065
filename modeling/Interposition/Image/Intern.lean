import Interposition.Image.Pool
import Interposition.Text.Diagnostic

/-!
# Interposition.Image.Intern — constants added on demand

Interning gives the position of a constant and appends the constant first if the pool does not
hold it. The position is that of the first equal entry. Entries never move, so positions given
out earlier stay valid. A pool at capacity refuses a new entry; what a failed operation had
appended by then stays.
-/

namespace Interposition

/-- A pool with `size` entries has no room for another. -/
structure PoolOverflow where
  size : Nat
deriving DecidableEq, Repr

def PoolOverflow.message (e : PoolOverflow) : String :=
  s!"constant pool is full ({e.size} entries)"

instance : Diagnostic PoolOverflow where
  kind _ := "PoolOverflow"
  message := PoolOverflow.message
  causes _ := []

/-- An operation on a pool that may run out of room. The pool it leaves is there either way. -/
abbrev Interning (α : Type) :=
  ExceptT PoolOverflow (StateM Pool) α

namespace Pool

/-- The position of the first entry equal to `c`. -/
def find? (p : Pool) (c : Constant) : Option UInt16 :=
  (p.entries.findIdx? (· = c)).map Nat.toUInt16

/-- Appends an entry and gives its position. -/
def append (c : Constant) : Interning UInt16 := fun p =>
  if p.size < capacity then (.ok p.size.toUInt16, ⟨p.entries.push c⟩)
  else (.error ⟨p.size⟩, p)

/-- The position of `c`, appended if it is new. -/
def intern (c : Constant) : Interning UInt16 := fun p =>
  match p.find? c with
  | some index => (.ok index, p)
  | none => append c p

def internUtf8 (text : String) : Interning UInt16 :=
  intern (.utf8 text)

def internInt (value : Int64) : Interning UInt16 :=
  intern (.int value)

/-- A string literal: its text, then the literal. -/
def internStr (text : String) : Interning UInt16 := do
  intern (.str (← internUtf8 text))

/-- The three texts of a member, in the order owner, name, descriptor. -/
def internMember (m : MemberTexts) : Interning Member := do
  let owner ← internUtf8 m.owner
  let name ← internUtf8 m.name
  let descriptor ← internUtf8 m.descriptor
  return ⟨owner, name, descriptor⟩

def internMethod (m : MemberTexts) : Interning UInt16 := do
  intern (.method (← internMember m))

def internField (m : MemberTexts) : Interning UInt16 := do
  intern (.field (← internMember m))

end Pool

end Interposition
