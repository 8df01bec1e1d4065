import Interposition.Call.Signature
import Interposition.Text.Numeral

/-!
# Interposition.Machine.Value — values of a running module

Objects are told apart by identity: two instances of one type are never equal. All other
values are equal when they look the same.
-/

namespace Interposition

/-- What tells an object from all others: its number among the objects that are made. The allocator
gives it an address too, which the text of the object shows and nothing else depends on. -/
structure Identity where
  number : Nat
  address : Nat
deriving DecidableEq, Repr

/-- An instance of a module or host type. -/
structure Object where
  identity : Identity
  typeName : String
  /-- A mark the host put on the object, such as which console stream it is. -/
  tag : Option String
deriving Repr

/-- Objects are the same when their numbers are. -/
instance : BEq Object where
  beq a b := a.identity.number == b.identity.number

inductive Value where
  | void
  | int (value : Int64)
  | bool (value : Bool)
  | str (text : String)
  | object (object : Object)

namespace Value

/-- Whether two values are equal to the program. -/
def same : Value → Value → Bool
  | void, void => true
  | int a, int b => a == b
  | bool a, bool b => a == b
  | str a, str b => a == b
  | object a, object b => a == b
  | _, _ => false

instance : BEq Value := ⟨same⟩

def typeName : Value → String
  | void => "void"
  | int _ => "int"
  | bool _ => "bool"
  | str _ => "string"
  | object o => o.typeName

def int? : Value → Option Int64
  | int v => some v
  | _ => none

def bool? : Value → Option Bool
  | bool v => some v
  | _ => none

def str? : Value → Option String
  | str v => some v
  | _ => none

def object? : Value → Option Object
  | object v => some v
  | _ => none

/-- Whether a value may be passed where a type is declared. -/
def conformsTo : Value → ValueType → Bool
  | int _, .int => true
  | bool _, .bool => true
  | str _, .str => true
  | object o, .object owner => o.typeName == owner
  | _, _ => false

end Value

/-! ## Text -/

/-- A tagged object shows its tag, an untagged one its address. -/
def Object.text (o : Object) : String :=
  match o.tag with
  | some tag => s!"{o.typeName}@{tag}"
  | none => s!"{o.typeName}@0x{Text.hex 0 o.identity.address}"

/-- How a value reads as text. -/
def Value.text : Value → String
  | .void => "void"
  | .int v => toString v.toInt
  | .bool true => "true"
  | .bool false => "false"
  | .str v => v
  | .object o => o.text

end Interposition
