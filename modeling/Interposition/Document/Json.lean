import Interposition.Document.Basic
import Interposition.Text.Scanner

/-!
# Interposition.Document.Json — documents as JSON

`Json.parse?` reads a JSON text and `Json.render` writes one, two spaces to a level. Numbers that
are no integers are computed in floating arithmetic from the digits that fit 64 bits, so the last
digit of what is read may differ from what was written.
-/

namespace Interposition.Json

/-! ## Strings -/

def skipBlanks : Scanner Unit :=
  Scanner.skipWhile fun c => c = ' ' || c = '\t' || c = '\n' || c = '\r'

def isHighSurrogate (n : Nat) : Bool :=
  0xD800 ≤ n && n ≤ 0xDBFF

def isLowSurrogate (n : Nat) : Bool :=
  0xDC00 ≤ n && n ≤ 0xDFFF

/-- The character of an escape by number. Two halves, each an escape of its own, make a character
beyond the first plane. -/
def scanUnicode : Scanner Char := do
  let n ← Scanner.hexadecimal 4
  if isHighSurrogate n then
    Scanner.expect "\\u"
    let low ← Scanner.hexadecimal 4
    unless isLowSurrogate low do failure
    return Char.ofNat (0x10000 + (n - 0xD800) * 0x400 + (low - 0xDC00))
  else Text.character? n

/-- The character of an escape, after its backslash. -/
def scanEscape : Scanner Char := do
  match ← Scanner.next with
  | '"' => return '"'
  | '\\' => return '\\'
  | '/' => return '/'
  | 'b' => return '\x08'
  | 'f' => return '\x0C'
  | 'n' => return '\n'
  | 'r' => return '\r'
  | 't' => return '\t'
  | 'u' => scanUnicode
  | _ => failure

/-- The rest of a string after its opening quote. -/
def scanString : Scanner String :=
  String.ofList <$> Scanner.many do
    match ← Scanner.next with
    | '"' => return none
    | '\\' => some <$> scanEscape
    | c => if c < ' ' then failure else return some c

/-! ## Numbers -/

/-- What was read of a number: the units that its digits make, and of which power of ten. -/
structure Amount where
  units : Nat
  exponent : Int

namespace Amount

/-- Adds a digit, unless the units would no longer fit 64 bits. -/
def push? (a : Amount) (digit : Nat) : Option Amount :=
  let units := a.units * 10 + digit
  if units ≤ Number.maxUnsigned then some ⟨units, a.exponent⟩ else none

/-- Reads the digits before the point. Those that do not fit count as zeros. The second part says
whether all did fit. -/
def whole (a : Amount) : List Char → Amount × Bool
  | [] => (a, true)
  | c :: rest =>
    match a.push? (c.toNat - '0'.toNat) with
    | some a => a.whole rest
    | none => (⟨a.units, a.exponent + (rest.length + 1)⟩, false)

/-- Reads the digits after the point up to the first one that does not fit. -/
def places (a : Amount) : List Char → Amount
  | [] => a
  | c :: rest =>
    match a.push? (c.toNat - '0'.toNat) with
    | some a => places ⟨a.units, a.exponent - 1⟩ rest
    | none => a

/-- A power of ten up to the largest there is, `10 ^ 308`. -/
def power (exponent : Nat) : Float :=
  Float.ofScientific 1 false exponent

/-- The amount as a floating number: one product, or one or two quotients. Infinity is refused. -/
def toFloat? (a : Amount) : Option Float :=
  let x := a.units.toUInt64.toFloat
  match a.exponent with
  | .ofNat e =>
    if x == 0 then some 0
    else if 308 < e then none
    else
      let product := x * power e
      if product.isInf then none else some product
  | .negSucc e =>
    let e := e + 1
    some (
      if e ≤ 308 then x / power e
      else if e ≤ 616 then x / power 308 / power (e - 308)
      else 0)

end Amount

/-- The exponent part of a number, if there is one. -/
def scanExponent : Scanner (Option Int) := do
  unless ← Scanner.acceptOneOf ["e", "E"] do return none
  let negative ← Scanner.accept "-"
  unless negative do let _ ← Scanner.accept "+"
  let n ← Text.numeral? 10 (← Scanner.takeWhile Char.isDigit)
  return some (if negative then -n else n)

/-- The digits after the point of a number, if there is one. -/
def scanPlaces : Scanner (Option (List Char)) := do
  unless ← Scanner.accept "." do return none
  let digits ← Scanner.takeWhile Char.isDigit
  if digits.isEmpty then failure
  return some digits

/-- A number: no zero in front of other digits, and digits on both sides of a point. A zero with
a minus sign keeps its sign. -/
def scanNumber : Scanner Number := do
  let negative ← Scanner.accept "-"
  let digits ← Scanner.takeWhile Char.isDigit
  match digits with
  | [] => failure
  | '0' :: _ :: _ => failure
  | _ => pure ()
  let (whole, fits) := Amount.whole ⟨0, 0⟩ digits
  let places ← scanPlaces
  let exponent ← scanExponent
  let n : Int := if negative then -whole.units else whole.units
  let isInteger := fits && places.isNone && exponent.isNone && !(negative && n = 0)
  if isInteger && Number.fitsWord n then return .integer n
  let amount := whole.places (places.getD [])
  let size ← Amount.toFloat? ⟨amount.units, amount.exponent + exponent.getD 0⟩
  return .real (if negative then -size else size)

/-! ## Values -/

/-- How many lists and tables may stand inside one another. -/
def maxDepth : Nat := 127

/-- A value that is no list and no table. -/
def scanAtom : Scanner Document := do
  if ← Scanner.accept "null" then return .null
  else if ← Scanner.accept "true" then return .bool true
  else if ← Scanner.accept "false" then return .bool false
  else if ← Scanner.accept "\"" then .text <$> scanString
  else .number <$> scanNumber

/-- A value in which lists and tables stand inside one another up to a depth. -/
def scanValue : Nat → Scanner Document
  | 0 => scanAtom
  | depth + 1 => do
    if ← Scanner.accept "[" then
      .list <$> Scanner.listed "]" false skipBlanks (scanValue depth)
    else if ← Scanner.accept "\x7b" then
      .ofFields <$> Scanner.listed "\x7d" false skipBlanks do
        Scanner.expect "\""
        let key ← scanString
        skipBlanks
        Scanner.expect ":"
        skipBlanks
        return (key, ← scanValue depth)
    else scanAtom

/-- The document that a whole text stands for. -/
def parse? (text : String) : Option Document :=
  Scanner.read? (skipBlanks *> scanValue maxDepth <* skipBlanks) text

/-! ## Writing -/

/-- A character inside a string. -/
def escape (c : Char) : String :=
  if c = '"' then "\\\""
  else if c = '\\' then "\\\\"
  else if c = '\n' then "\\n"
  else if c = '\r' then "\\r"
  else if c = '\t' then "\\t"
  else if c = '\x08' then "\\b"
  else if c = '\x0C' then "\\f"
  else if c < ' ' then "\\u" ++ Text.hex 4 c.toNat
  else c.toString

def quote (s : String) : String :=
  "\"" ++ String.join (s.toList.map escape) ++ "\""

/-- A new line at a level. -/
def newLine (level : Nat) : String :=
  "\n" ++ String.ofList (List.replicate (2 * level) ' ')

/-- Parts between brackets, each on a line of its own one level further in. -/
def block (left right : String) (level : Nat) (parts : List String) : String :=
  if parts.isEmpty then left ++ right
  else
    left ++ newLine (level + 1) ++ String.intercalate ("," ++ newLine (level + 1)) parts ++
      newLine level ++ right

mutual

/-- A document as it stands at a level. -/
def renderAt (level : Nat) : Document → String
  | .null => "null"
  | .bool b => if b then "true" else "false"
  | .number n => n.text
  | .text s => quote s
  | .list items => block "[" "]" level (renderItems (level + 1) items)
  | .table fields => block "\x7b" "\x7d" level (renderFields (level + 1) fields)

def renderItems (level : Nat) : List Document → List String
  | [] => []
  | d :: rest => renderAt level d :: renderItems level rest

def renderFields (level : Nat) : List (String × Document) → List String
  | [] => []
  | (key, d) :: rest => (quote key ++ ": " ++ renderAt level d) :: renderFields level rest

end

def render (d : Document) : String :=
  renderAt 0 d

end Interposition.Json
