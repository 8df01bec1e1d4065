import Interposition.Document.Basic
import Interposition.Text.Letter
import Interposition.Text.Scanner

/-!
# Interposition.Document.Overlay — laying documents over one another

A later document replaces the parts of an earlier one that it mentions. The case of letters in
keys does not matter: what is laid over has its keys in lower case. A name with dots and
brackets, such as `artifact.candidates[0]`, is a path to a part of a document.
-/

namespace Interposition.Document

/-! ## Tables over tables -/

mutual

/-- Lays a value over what is under a key. A table is laid over field by field, anything else
takes the place of what was there. -/
def overlay (d : Document) (key : String) : Document → Document
  | table incoming =>
    let key := Text.lowerAll key
    d.setField key (overlayFields ((d.field? key).getD (table [])) incoming)
  | value => d.setField (Text.lowerAll key) value

def overlayFields (d : Document) : List (String × Document) → Document
  | [] => d
  | (key, value) :: rest => overlayFields (overlay d key value) rest

end

/-! ## Paths -/

/-- A step from a document to a part of it. -/
inductive Step where
  /-- To what is under a key of a table. -/
  | key (name : String)
  /-- To an item of a list. A place below zero counts from the end. -/
  | place (index : Int)
deriving DecidableEq, Repr

/-- Whether a character may stand in a key of a path. -/
def isKeyChar (c : Char) : Bool :=
  c.isAlphanum || c = '_' || c = '-' || c = ' '

def scanKey : Scanner Step := do
  let name ← Scanner.takeWhile isKeyChar
  if name.isEmpty then failure
  return .key (String.ofList name)

/-- A place after its opening bracket. -/
def scanPlace : Scanner Step := do
  let skipSpaces := Scanner.skipWhile fun c => c = ' ' || c = '\t'
  skipSpaces
  let negative ← Scanner.accept "-"
  let size ← Text.numeral? 10 (← Scanner.takeWhile Char.isDigit)
  skipSpaces
  Scanner.expect "]"
  let index : Int := if negative then -size else size
  if Number.fitsWord index then return .place index else failure

def scanPath : Scanner (List Step) := do
  let first ← scanKey
  let others ← Scanner.many do
    if ← Scanner.accept "." then some <$> scanKey
    else if ← Scanner.accept "[" then some <$> scanPlace
    else return none
  return first :: others

/-- The path that a name stands for. A name of any other form is one key. -/
def pathOf (name : String) : List Step :=
  (Scanner.read? scanPath name).getD [.key name]

/-! ## Laying over at a path -/

/-- How many items a list may have that is made longer to have a place. -/
def maxItems : Nat := 10000000

/-- Where a place is in a list of a length, or will be when the list is long enough. -/
def position? (length : Nat) (index : Int) : Option Nat :=
  let position := if index < 0 then length + index else index
  if 0 ≤ position ∧ position < maxItems then some position.toNat else none

/-- The items of a list; none for anything else. -/
def items : Document → List Document
  | list items => items
  | _ => []

/-- Puts a value at a position of a list. What is no list becomes one, and one that is too
short is filled up with nulls. -/
def setItem (d : Document) (position : Nat) (value : Document) : Document :=
  let items := d.items
  list ((items ++ List.replicate (position + 1 - items.length) null).set position value)

/-- Lays a value over what is at the end of a path. Parts on the way that are not there are made,
and those of the wrong kind replaced. An item of a list is always replaced whole. -/
def overlayAt? (d : Document) : List Step → Document → Option Document
  | [], value => some value
  | [.key name], value => some (d.overlay name value)
  | .key name :: path, value =>
    let name := Text.lowerAll name
    (((d.field? name).getD null).overlayAt? path value).map (d.setField name)
  | .place index :: path, value => do
    let position ← position? d.items.length index
    let item ← (d.items[position]?.getD null).overlayAt? path value
    return d.setItem position item

/-- Lays values over the parts of a document that their names stand for. -/
def overlayAll? (d : Document) (fields : List (String × Document)) : Option Document :=
  fields.foldlM (fun d (name, value) => d.overlayAt? (pathOf name) value) d

end Interposition.Document
