/-!
# Interposition.Image.Pool — the constant pool of a module image

Constants refer to one another, and instructions refer to constants, by their position in the
pool. A reader of the pool asks for an entry of one kind and gets nothing for any other.
-/

namespace Interposition

/-! ## Constants -/

/-- Positions of the owner, the name and the descriptor of a method or field. -/
structure Member where
  owner : UInt16
  name : UInt16
  descriptor : UInt16
deriving DecidableEq, Repr

inductive Constant where
  | utf8 (text : String)
  | int (value : Int64)
  /-- A string literal; its text is the `utf8` constant at `text`. -/
  | str (text : UInt16)
  | method (member : Member)
  | field (member : Member)
deriving DecidableEq

/-- A member with its texts in place of their positions. -/
structure MemberTexts where
  owner : String
  name : String
  descriptor : String
deriving DecidableEq, Repr

/-! ## Pools -/

structure Pool where
  entries : Array Constant
deriving DecidableEq

namespace Pool

def empty : Pool := ⟨#[]⟩

/-- The largest number of entries the image format can count. -/
def capacity : Nat := 65535

def size (p : Pool) : Nat :=
  p.entries.size

def get? (p : Pool) (index : UInt16) : Option Constant :=
  p.entries[index.toNat]?

/-- The text of a `utf8` entry. -/
def utf8? (p : Pool) (index : UInt16) : Option String :=
  match p.get? index with
  | some (.utf8 text) => some text
  | _ => none

/-- The text of a string literal. -/
def str? (p : Pool) (index : UInt16) : Option String :=
  match p.get? index with
  | some (.str text) => p.utf8? text
  | _ => none

/-- The texts of a member, if all three positions hold text. -/
def texts? (p : Pool) (m : Member) : Option MemberTexts := do
  return ⟨← p.utf8? m.owner, ← p.utf8? m.name, ← p.utf8? m.descriptor⟩

/-- The texts of a method entry. -/
def method? (p : Pool) (index : UInt16) : Option MemberTexts :=
  match p.get? index with
  | some (.method m) => p.texts? m
  | _ => none

/-- The texts of a field entry. -/
def field? (p : Pool) (index : UInt16) : Option MemberTexts :=
  match p.get? index with
  | some (.field m) => p.texts? m
  | _ => none

end Pool

end Interposition
