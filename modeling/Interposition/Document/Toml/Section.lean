import Interposition.Document.Basic

/-!
# Interposition.Document.Toml.Section — tables of TOML as they are filled

Headers and keys with dots make tables on their way. Which tables may be opened or added to
later depends on how they came to be.
-/

namespace Interposition.Toml

/-- How a table came to be. -/
inductive Origin where
  /-- By a header or braces of its own. -/
  | opened
  /-- By the header of a table inside it. -/
  | implied
  /-- By a key with dots. -/
  | dotted
deriving DecidableEq, Repr

/-- What stands under a key. -/
inductive Entry where
  | value (value : Document)
  | table (origin : Origin) (fields : List (String × Entry))
  /-- Tables with one header each, the latest first. -/
  | tables (items : List (List (String × Entry)))

abbrev Fields := List (String × Entry)

namespace Fields

/-- Puts an entry under a key, in the place of what was there. -/
def put (fields : Fields) (key : String) (entry : Entry) : Fields :=
  fields.filter (·.1 ≠ key) ++ [(key, entry)]

/-- Changes the table at the end of a path from a table of an origin. Tables that are not there
are made. The latest of several tables is meant. -/
def change? (way : Origin) (change : Origin → Fields → Option Fields) (origin : Origin)
    (fields : Fields) : List String → Option Fields
  | [] => change origin fields
  | key :: path =>
    match fields.lookup key with
    | none =>
      (change? way change way [] path).map fun under => fields.put key (.table way under)
    | some (.table origin under) =>
      -- Keys with dots add nothing to a table that has been opened.
      if way = .dotted ∧ origin = .opened then none
      else
        (change? way change origin under path).map fun under =>
          fields.put key (.table origin under)
    | some (.tables (latest :: earlier)) =>
      (change? way change .opened latest path).map fun latest =>
        fields.put key (.tables (latest :: earlier))
    | some _ => none

/-- Puts an entry made from what is there under the last key of a path. Nothing is known by no
keys at all. -/
def enter? (way : Origin) (make : Origin → Option Entry → Option Entry) (fields : Fields)
    (path : List String) : Option Fields := do
  let key ← path.getLast?
  fields.change? way (fun origin fields =>
    (make origin (fields.lookup key)).map (fields.put key)) .opened path.dropLast

/-- Puts a value under the last key of a path, where nothing may be. After dots it goes into a
table made by dots only. -/
def define? (fields : Fields) (path : List String) (value : Document) : Option Fields :=
  fields.enter? .dotted (fun origin there =>
    if there.isNone ∧ (origin = .dotted ∨ path.length = 1) then some (.value value) else none) path

/-- Opens a table that was at most implied so far. -/
def openTable? (fields : Fields) (path : List String) : Option Fields :=
  fields.enter? .implied (fun _ there =>
    match there with
    | none => some (.table .opened [])
    | some (.table .implied under) => some (.table .opened under)
    | _ => none) path

/-- Opens one more of several tables. -/
def openAnother? (fields : Fields) (path : List String) : Option Fields :=
  fields.enter? .implied (fun _ there =>
    match there with
    | none => some (.tables [[]])
    | some (.tables items) => some (.tables ([] :: items))
    | _ => none) path

/-- Puts a value into the table that was opened last. -/
def defineIn? (fields : Fields) (opened path : List String) (value : Document) : Option Fields :=
  fields.change? .implied (fun _ fields => fields.define? path value) .opened opened

end Fields

/-! ## Documents -/

mutual

def Entry.toDocument : Entry → Document
  | .value value => value
  | .table _ fields => .table (documentsOf fields)
  | .tables items => .list (tablesOf items).reverse

def documentsOf : List (String × Entry) → List (String × Document)
  | [] => []
  | (key, entry) :: rest => (key, entry.toDocument) :: documentsOf rest

def tablesOf : List (List (String × Entry)) → List Document
  | [] => []
  | fields :: rest => .table (documentsOf fields) :: tablesOf rest

end

end Interposition.Toml
