import Interposition.Document.Basic
import Interposition.Text.Blank
import Interposition.Text.Letter
import Interposition.Text.Scanner

/-!
# Interposition.Document.Json5 — documents as JSON5

JSON with comments, keys without quotes, strings in either quotes, commas after the last item,
and more forms of numbers.
-/

namespace Interposition.Json5

/-! ## Blanks -/

def isLineEnd (c : Char) : Bool :=
  c = '\n' || c = '\r' || c = '\u2028' || c = '\u2029'

def isBlank (c : Char) : Bool :=
  (Text.isBlank c && c ≠ '\u0085') || c = '\uFEFF'

/-- The rest of a comment up to the marks that close it. -/
def scanComment : Scanner Unit := do
  let _ ← Scanner.many do
    if ← Scanner.accept "*/" then return none
    some <$> Scanner.next

/-- Drops blanks and comments. -/
def skipBlanks : Scanner Unit := do
  let _ ← Scanner.many do
    if !(← Scanner.takeWhile isBlank).isEmpty then return some ()
    else if ← Scanner.accept "//" then some <$> Scanner.skipWhile fun c => !isLineEnd c
    else if ← Scanner.accept "/*" then some <$> scanComment
    else return none

/-! ## Strings and keys -/

/-- A character by its number in hexadecimal digits. -/
def scanCode (count : Nat) : Scanner Char := do
  Text.character? (← Scanner.hexadecimal count)

/-- The characters of an escape, after its backslash. The end of a line stands for none. -/
def scanEscape : Scanner (List Char) := do
  match ← Scanner.next with
  | 'b' => return ['\x08']
  | 'f' => return ['\x0C']
  | 'n' => return ['\n']
  | 'r' => return ['\r']
  | 't' => return ['\t']
  | 'v' => return ['\x0B']
  | '0' => return ['\x00']
  | 'x' => return [← scanCode 2]
  | 'u' => return [← scanCode 4]
  | '\r' =>
    let _ ← Scanner.accept "\n"
    return []
  | c => if isLineEnd c then return [] else if c.isDigit then failure else return [c]

/-- The rest of a string after its opening quote. -/
def scanString (quote : Char) : Scanner String :=
  (fun parts => String.ofList parts.flatten) <$> Scanner.many do
    let c ← Scanner.next
    if c = quote then return none
    else if c = '\\' then some <$> scanEscape
    else if isLineEnd c then failure
    else return some [c]

/-- Whether a character may start a key without quotes. -/
def startsKey (c : Char) : Bool :=
  c = '$' || c = '_' || (Text.isAlphanumeric c && !c.isDigit)

/-- Whether a character may go on with a key without quotes. -/
def continuesKey (c : Char) : Bool :=
  startsKey c || c.isDigit || c = '\u200C' || c = '\u200D' || c = '\u203F'

/-- A character of a key without quotes, which may be an escape by number. -/
def scanKeyChar (isWanted : Char → Bool) : Scanner (Option Char) := do
  if ← Scanner.accept "\\u" then some <$> scanCode 4
  else
    match ← Scanner.peek? with
    | some c => if isWanted c then some <$> Scanner.next else return none
    | none => return none

def scanKey : Scanner String := do
  if ← Scanner.accept "\"" then scanString '"'
  else if ← Scanner.accept "'" then scanString '\''
  else
    let some first ← scanKeyChar startsKey | failure
    return String.ofList (first :: (← Scanner.many (scanKeyChar continuesKey)))

/-! ## Numbers -/

/-- The largest number that hexadecimal digits may stand for. -/
def maxHexadecimal : Nat := 4294967295

/-- The exponent part of a number; nothing if there is none. -/
def scanExponent : Scanner (List Char) := do
  match ← Scanner.takeWhile fun c => c = 'e' || c = 'E' with
  | [] => return []
  | mark =>
    let negative ← Scanner.accept "-"
    unless negative do let _ ← Scanner.accept "+"
    let digits ← Scanner.takeWhile Char.isDigit
    return mark ++ (if negative then ['-'] else []) ++ digits

/-- A number in decimal digits, after its sign: an integer without a point and an exponent. -/
def scanDecimal (sign : List Char) : Scanner Number := do
  let whole ← Scanner.takeWhile Char.isDigit
  if whole.head? = some '0' && whole.length ≠ 1 then failure
  let point := if ← Scanner.accept "." then ['.'] else []
  let places ← if point.isEmpty then pure [] else Scanner.takeWhile Char.isDigit
  let exponent ← scanExponent
  let text := sign ++ whole ++ point ++ places ++ exponent
  if point.isEmpty && exponent.isEmpty then .integer <$> Number.integer? 10 text
  else
    let x ← Number.real? text
    if x.isFinite then return .real x else failure

/-- A number. In front of words and hexadecimal digits there is no plus sign, and no sign at all
in front of the latter. -/
def scanNumber : Scanner Number := do
  let sign ← Scanner.takeWhile fun c => c = '+' || c = '-'
  if 1 < sign.length then failure
  if ← Scanner.accept "Infinity" then
    if sign = ['+'] then failure
    return .real (if sign.isEmpty then Text.infinity else -Text.infinity)
  else if ← Scanner.accept "NaN" then
    if sign = ['+'] then failure
    return .real Text.notANumber
  else if ← Scanner.acceptOneOf ["0x", "0X"] then
    let n ← Text.numeral? 16 (← Scanner.takeWhile Text.isHexDigit)
    if sign.isEmpty && n ≤ maxHexadecimal then return .integer n else failure
  else scanDecimal sign

/-! ## Values -/

def scanAtom : Scanner Document := do
  if ← Scanner.accept "null" then return .null
  else if ← Scanner.accept "true" then return .bool true
  else if ← Scanner.accept "false" then return .bool false
  else if ← Scanner.accept "\"" then .text <$> scanString '"'
  else if ← Scanner.accept "'" then .text <$> scanString '\''
  else .number <$> scanNumber

/-- A value in which lists and tables stand inside one another up to a depth. -/
def scanValue : Nat → Scanner Document
  | 0 => scanAtom
  | depth + 1 => do
    if ← Scanner.accept "[" then
      .list <$> Scanner.listed "]" true skipBlanks (scanValue depth)
    else if ← Scanner.accept "\x7b" then
      .ofFields <$> Scanner.listed "\x7d" true skipBlanks do
        let key ← scanKey
        skipBlanks
        Scanner.expect ":"
        skipBlanks
        return (key, ← scanValue depth)
    else scanAtom

/-- The document that a whole text stands for. -/
def parse? (text : String) : Option Document :=
  Scanner.read? (skipBlanks *> scanValue text.length <* skipBlanks) text

end Interposition.Json5
