import Interposition.Call.Symbol
import Interposition.Document.Basic

/-!
# Interposition.Document.Symbol — call symbols as documents

A symbol is a table of its parts. What `Symbol.toDocument` writes, `Symbol.ofDocument?` reads
back.
-/

namespace Interposition

/-! ## Types -/

def ValueType.toDocument : ValueType → Document
  | .int => .text "Int"
  | .bool => .text "Bool"
  | .str => .text "Str"
  | .object owner => .table [("Object", .text owner)]

def ValueType.ofDocument? : Document → Option ValueType
  | .text "Int" => some .int
  | .text "Bool" => some .bool
  | .text "Str" => some .str
  | .table [("Object", .text owner)] => some (.object owner)
  | _ => none

/-- A return type, or null if there is none. -/
def ValueType.resultOfDocument? : Document → Option (Option ValueType)
  | .null => some none
  | d => (ValueType.ofDocument? d).map some

theorem ValueType.ofDocument?_toDocument (t : ValueType) :
    ValueType.ofDocument? t.toDocument = some t := by
  cases t <;> rfl

theorem ValueType.resultOfDocument?_toDocument (t : Option ValueType) :
    ValueType.resultOfDocument? (.ofOption ValueType.toDocument t) = some t := by
  rcases t with _ | ⟨_ | _ | _ | _⟩ <;> rfl

/-! ## Signatures -/

def Signature.toDocument (s : Signature) : Document :=
  .table [
    ("params", .list (s.params.map ValueType.toDocument)),
    ("ret", .ofOption ValueType.toDocument s.result)]

def Signature.ofDocument? (d : Document) : Option Signature := do
  let .list params ← d.field? "params" | none
  return ⟨← params.mapM ValueType.ofDocument?,
    ← ValueType.resultOfDocument? (← d.field? "ret")⟩

theorem Signature.ofDocument?_toDocument (s : Signature) :
    Signature.ofDocument? s.toDocument = some s := by
  have params : (s.params.map ValueType.toDocument).mapM ValueType.ofDocument? = some s.params := by
    generalize s.params = types
    induction types with
    | nil => rfl
    | cons t rest ih => simp [ValueType.ofDocument?_toDocument, ih]
  show (do
    return ⟨← (s.params.map ValueType.toDocument).mapM ValueType.ofDocument?,
      ← ValueType.resultOfDocument? (.ofOption ValueType.toDocument s.result)⟩) = some s
  rw [params, ValueType.resultOfDocument?_toDocument]
  rfl

/-! ## Symbols -/

def CallKind.toDocument : CallKind → Document
  | .static => .text "Static"
  | .virtual => .text "Instance"

def CallKind.ofDocument? : Document → Option CallKind
  | .text "Static" => some .static
  | .text "Instance" => some .virtual
  | _ => none

namespace Symbol

def toDocument (s : Symbol) : Document :=
  .table [
    ("owner", .text s.owner),
    ("name", .text s.name),
    ("signature", s.signature.toDocument),
    ("kind", s.kind.toDocument)]

def ofDocument? (d : Document) : Option Symbol := do
  let .text owner ← d.field? "owner" | none
  let .text name ← d.field? "name" | none
  return ⟨owner, name, ← Signature.ofDocument? (← d.field? "signature"),
    ← CallKind.ofDocument? (← d.field? "kind")⟩

/-- Nothing of a symbol is lost in its document. -/
theorem ofDocument?_toDocument (s : Symbol) : ofDocument? s.toDocument = some s := by
  show (do
    return ⟨s.owner, s.name, ← Signature.ofDocument? s.signature.toDocument,
      ← CallKind.ofDocument? s.kind.toDocument⟩) = some s
  rw [Signature.ofDocument?_toDocument]
  rcases s with ⟨owner, name, signature, _ | _⟩ <;> rfl

end Symbol

end Interposition
