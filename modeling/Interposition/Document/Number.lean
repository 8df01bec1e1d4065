import Interposition.Text.Decimal
import Interposition.Text.Numeral

/-!
# Interposition.Document.Number — numbers in documents

A number is an integer of 64 bits or a floating number. `integer?` and `real?` read the texts
that stand for each, and `parse?` reads a text as an integer where that is possible.
-/

namespace Interposition

inductive Number where
  | integer (value : Int)
  | real (value : Float)

namespace Number

/-- Whether an integer fits 64 bits with sign. -/
def fitsWord (n : Int) : Bool :=
  -9223372036854775808 ≤ n && n ≤ 9223372036854775807

/-- The largest unsigned 64-bit number. -/
def maxUnsigned : Nat := 18446744073709551615

def text : Number → String
  | integer n => toString n
  | real x => Text.floatText x

/-- The number as an unsigned word. A negative integer is none; a floating number is rounded,
half away from zero, and clamped at both ends. -/
def unsigned? : Number → Option Nat
  | integer n => if 0 ≤ n then some n.toNat else none
  | real x => some x.round.toUInt64.toNat

def isZero : Number → Bool
  | integer n => n = 0
  | real x => x == 0

/-! ## Reading -/

/-- Whether there is a minus sign at the front, and what follows the sign. -/
def spanSign : List Char → Bool × List Char
  | '-' :: rest => (true, rest)
  | '+' :: rest => (false, rest)
  | input => (false, input)

/-- The digits at the front, and what follows. -/
def spanDigits (input : List Char) : List Char × List Char :=
  (input.takeWhile Char.isDigit, input.dropWhile Char.isDigit)

/-- An unsigned number of 64 bits in decimal digits, with a plus sign if wanted. -/
def unsignedOf? (input : List Char) : Option Nat := do
  let digits :=
    match input with
    | '+' :: rest => rest
    | input => input
  let n ← Text.numeral? 10 digits
  if n ≤ maxUnsigned then return n else none

/-- An integer of 64 bits in digits of a radix, with a sign if wanted. -/
def integer? (radix : Nat) (input : List Char) : Option Int := do
  let (negative, digits) := spanSign input
  let size ← Text.numeral? radix digits
  let n : Int := if negative then -size else size
  if fitsWord n then return n else none

/-- An exponent: the letter `e`, a sign if wanted, digits. Nothing at all is the exponent 0. -/
def exponent? : List Char → Option Int
  | [] => some 0
  | c :: rest =>
    if c = 'e' ∨ c = 'E' then
      let (negative, digits) := spanSign rest
      (Text.numeral? 10 digits).map fun n => if negative then -n else n
    else none

/-- The size of a floating number: digits with a point among or around them if wanted, and an
exponent. It is rounded to the nearest floating number. -/
def size? (input : List Char) : Option Float := do
  let (whole, rest) := spanDigits input
  let (places, rest) :=
    match rest with
    | '.' :: rest => spanDigits rest
    | rest => ([], rest)
  let digits ← Text.numeral? 10 (whole ++ places)
  let exponent ← exponent? rest
  return Text.ofDecimal ⟨digits, exponent - places.length⟩

/-- A floating number: a size or a word for infinity, with a sign if wanted, or a word for no
number. Words may be in any mix of cases. -/
def real? (input : List Char) : Option Float := do
  let (negative, body) := spanSign input
  let word := String.ofList (body.map Char.toLower)
  let size ←
    if word = "inf" ∨ word = "infinity" then some Text.infinity
    else if word = "nan" then some Text.notANumber
    else size? body
  return if negative then -size else size

/-- The number that a text stands for, an integer if it can be one. -/
def parse? (input : List Char) : Option Number :=
  (integer? 10 input).map integer <|> (real? input).map real

end Number

end Interposition
