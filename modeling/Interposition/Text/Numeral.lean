/-!
# Interposition.Text.Numeral — numbers as digits

Writing numbers in hexadecimal, and reading digits of any radix.
-/

namespace Interposition.Text

/-! ## Writing -/

/-- The lowercase hexadecimal digits of a number, with zeros in front up to a width. -/
def hex (width n : Nat) : String :=
  let digits := Nat.toDigits 16 n
  String.ofList (List.replicate (width - digits.length) '0' ++ digits)

/-! ## Reading -/

/-- The value of a digit of a radix. Letters follow the decimal digits, in either case. -/
def digit? (radix : Nat) (c : Char) : Option Nat :=
  let value :=
    if c.isDigit then c.toNat - '0'.toNat
    else if c.isLower then c.toNat - 'a'.toNat + 10
    else if c.isUpper then c.toNat - 'A'.toNat + 10
    else radix
  if value < radix then some value else none

def isHexDigit (c : Char) : Bool :=
  (digit? 16 c).isSome

/-- The number that digits of a radix stand for, of which there is at least one. -/
def numeral? (radix : Nat) (digits : List Char) : Option Nat :=
  if digits.isEmpty then none
  else digits.foldlM (fun n c => (digit? radix c).map (n * radix + ·)) 0

/-- The character with a number. The halves of surrogate pairs are no characters. -/
def character? (n : Nat) : Option Char :=
  if n.isValidChar then some (Char.ofNat n) else none

end Interposition.Text
