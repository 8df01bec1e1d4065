/-!
# Interposition.Text.Decimal — floating numbers in decimal

A decimal is a number of units of a power of ten. `ofDecimal` rounds a decimal to the nearest
floating number, and `shortest` finds the decimal of the fewest digits that rounds back to a
floating number. The digits are found by exact arithmetic: every floating number is a whole
number of units of `10 ^ -1074`.
-/

namespace Interposition.Text

/-- Larger than every number. -/
def infinity : Float := 1 / 0

/-- The result of an operation that has none. -/
def notANumber : Float := 0 / 0

/-- `digits` units of `10 ^ exponent`. -/
structure Decimal where
  digits : Nat
  exponent : Int
deriving DecidableEq, Repr

/-- How many digits a number has. -/
def digitCount (n : Nat) : Nat :=
  (Nat.toDigits 10 n).length

/-- The floating number nearest to a decimal. Decimals from `10 ^ 400` on are infinite, and
those below `10 ^ -400` are zero. -/
def ofDecimal (d : Decimal) : Float :=
  if d.digits = 0 then 0
  else
    match d.exponent with
    | .ofNat e => Float.ofScientific d.digits false (min e 400)
    | .negSucc e =>
      if digitCount d.digits + 400 < e then 0 else Float.ofScientific d.digits true (e + 1)

/-- The decimal that a finite floating number is exactly, without its sign. -/
def exactDecimal (x : Float) : Decimal :=
  let bits := x.toBits.toNat
  let fraction := bits % 0x10000000000000
  let power := (bits >>> 52) % 2048
  let units := if power = 0 then fraction else (fraction + 0x10000000000000) <<< (power - 1)
  ⟨units * Nat.pow 5 1074, -1074⟩

/-- The decimals of a number of digits on both sides of a decimal, the nearer one first. -/
def neighbours (d : Decimal) (count : Nat) : List Decimal :=
  let cut := digitCount d.digits - count
  let unit := Nat.pow 10 cut
  let below : Decimal := ⟨d.digits / unit, d.exponent + cut⟩
  let above : Decimal := ⟨d.digits / unit + 1, d.exponent + cut⟩
  if 2 * (d.digits % unit) < unit then [below, above] else [above, below]

/-- The decimal of the fewest digits that rounds to a finite floating number, without its sign.
Seventeen digits are always enough. -/
def shortest (x : Float) : Decimal :=
  let exact := exactDecimal x
  (((List.range 17).flatMap fun n => neighbours exact (n + 1)).find?
    fun d => ofDecimal d == x.abs).getD exact

/-- A decimal written with a point where one is needed and without an exponent. -/
def Decimal.positional (d : Decimal) : List Char :=
  let digits := Nat.toDigits 10 d.digits
  match d.exponent with
  | .ofNat e => digits ++ List.replicate e '0'
  | .negSucc e =>
    let padded := List.replicate (e + 2 - digits.length) '0' ++ digits
    let point := padded.length - (e + 1)
    match ((padded.drop point).reverse.dropWhile (· = '0')).reverse with
    | [] => padded.take point
    | places => padded.take point ++ '.' :: places

/-- A floating number in the fewest digits that read back as it. -/
def floatText (x : Float) : String :=
  if x.isNaN then "NaN"
  else
    let sign := if x.toBits.toNat < 0x8000000000000000 then "" else "-"
    if x.isInf then sign ++ "inf"
    else if x == 0 then sign ++ "0"
    else sign ++ String.ofList (shortest x).positional

end Interposition.Text
