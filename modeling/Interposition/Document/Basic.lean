import Interposition.Document.Number

/-!
# Interposition.Document.Basic — values in settings files

Settings come from files and from the environment as documents: values that nest in lists and
tables. A reading of a document as a number, a text or a truth value accepts every form that
can stand for one.
-/

namespace Interposition

inductive Document where
  | null
  | bool (value : Bool)
  | number (value : Number)
  | text (value : String)
  | list (items : List Document)
  | table (fields : List (String × Document))

namespace Document

def integer (n : Int) : Document :=
  number (.integer n)

def texts (items : List String) : Document :=
  list (items.map text)

/-- A table of fields. Of several with one key the last one counts, and no other. -/
def ofFields (fields : List (String × Document)) : Document :=
  table (fields.foldr (fun field later =>
    if later.any (·.1 = field.1) then later else field :: later) [])

/-- A value that may be missing. -/
def ofOption {α : Type} (write : α → Document) : Option α → Document
  | some a => write a
  | none => null

/-- The value under a key of a table; of several the last. -/
def field? (d : Document) (key : String) : Option Document :=
  match d with
  | table fields => fields.reverse.lookup key
  | _ => none

/-- The fields of a table; none for anything else. -/
def fields : Document → List (String × Document)
  | table fields => fields
  | _ => []

/-- Puts a value under a key. What is no table becomes one. -/
def setField (d : Document) (key : String) (value : Document) : Document :=
  table (d.fields.filter (·.1 ≠ key) ++ [(key, value)])

/-! ## Readings -/

def asciiLower (s : String) : String :=
  String.ofList (s.toList.map Char.toLower)

/-- The words that stand for a truth value. -/
def truthWord? (word : String) : Option Bool :=
  if word ∈ ["true", "on", "yes"] then some true
  else if word ∈ ["false", "off", "no"] then some false
  else none

def toBool? : Document → Option Bool
  | bool b => some b
  | number n => some !n.isZero
  | text s =>
    let word := asciiLower s
    if word = "1" then some true else if word = "0" then some false else truthWord? word
  | _ => none

def toUnsigned? : Document → Option Nat
  | bool b => some b.toNat
  | number n => n.unsigned?
  | text s =>
    match truthWord? (asciiLower s) with
    | some b => some b.toNat
    | none => Number.unsignedOf? s.toList
  | _ => none

def toText? : Document → Option String
  | bool b => some (if b then "true" else "false")
  | number n => some n.text
  | text s => some s
  | _ => none

def toTexts? : Document → Option (List String)
  | list items => items.mapM toText?
  | _ => none

/-- A reading that may also be left out. -/
def toOptional? {α : Type} (read : Document → Option α) : Document → Option (Option α)
  | null => some none
  | d => (read d).map some

end Document

end Interposition
