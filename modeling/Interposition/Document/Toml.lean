import Interposition.Document.Toml.Key
import Interposition.Document.Toml.Moment
import Interposition.Document.Toml.Section

/-!
# Interposition.Document.Toml — documents as TOML

Reads a TOML text line by line. Dates and times are read as texts.
-/

namespace Interposition.Toml

/-! ## Numbers -/

/-- Digits with single underscores between them, at least one digit. -/
def scanDigits (isDigit : Char → Bool) : Scanner (List Char) := do
  let run ← Scanner.takeWhile isDigit
  if run.isEmpty then failure
  let others ← Scanner.many do
    unless ← Scanner.accept "_" do return none
    let run ← Scanner.takeWhile isDigit
    if run.isEmpty then failure
    return some run
  return run ++ others.flatten

def scanSign : Scanner (List Char) := do
  if ← Scanner.accept "-" then return ['-']
  else if ← Scanner.accept "+" then return ['+']
  else return []

/-- The digits before a point, with their sign. There is no zero in front of other digits. -/
def scanWhole : Scanner (List Char) := do
  let sign ← scanSign
  let digits ← scanDigits Char.isDigit
  if digits.head? = some '0' && digits.length ≠ 1 then failure
  return sign ++ digits

def scanExponent : Scanner (List Char) := do
  unless ← Scanner.acceptOneOf ["e", "E"] do return []
  return 'e' :: (← scanSign) ++ (← scanDigits Char.isDigit)

/-- A number with a point or an exponent. One too large is infinite, which only a negative one
may be. -/
def scanReal : Scanner Number := do
  let whole ← scanWhole
  let places ←
    if ← Scanner.accept "." then List.cons '.' <$> scanDigits Char.isDigit else pure []
  let exponent ← scanExponent
  if places.isEmpty && exponent.isEmpty then failure
  let x ← Number.real? (whole ++ places ++ exponent)
  if x == Text.infinity then failure
  return .real x

/-- A word for infinity or no number, with a sign if wanted. -/
def scanWord : Scanner Number := do
  let sign ← scanSign
  if ← Scanner.accept "inf" then
    return .real (if sign = ['-'] then -Text.infinity else Text.infinity)
  else if ← Scanner.accept "nan" then return .real Text.notANumber
  else failure

/-- The radix of an integer, by the mark in front of its digits. -/
def scanRadix : Scanner Nat := do
  if ← Scanner.accept "0x" then return 16
  else if ← Scanner.accept "0o" then return 8
  else if ← Scanner.accept "0b" then return 2
  else return 10

def scanInteger : Scanner Number := do
  let radix ← scanRadix
  let digits ←
    if radix = 10 then scanWhole else scanDigits fun c => (Text.digit? radix c).isSome
  .integer <$> Number.integer? radix digits

def scanAtom : Scanner Document := do
  if ← Scanner.accept "\"" then .text <$> scanString '"' true
  else if ← Scanner.accept "'" then .text <$> scanString '\'' false
  else if ← Scanner.accept "true" then return .bool true
  else if ← Scanner.accept "false" then return .bool false
  else
    (.text <$> scanMoment) <|> (.number <$> (scanReal <|> scanWord <|> scanInteger))

/-! ## Lists and inline tables -/

/-- How many lists and inline tables may stand inside one another. -/
def maxDepth : Nat := 79

/-- A value in which lists and inline tables stand inside one another up to a depth. A list may
go over several lines, with a comma after its last item. -/
def scanValue : Nat → Scanner Document
  | 0 => scanAtom
  | depth + 1 => do
    if ← Scanner.accept "[" then
      .list <$> Scanner.listed "]" true skipLines (scanValue depth)
    else if ← Scanner.accept "\x7b" then
      let pairs ← Scanner.listed "\x7d" false skipSpaces do
        let path ← scanPath
        Scanner.expect "="
        skipSpaces
        return (path, ← scanValue depth)
      let fields ← pairs.foldlM (fun fields (path, value) =>
        Fields.define? fields path value) []
      return .table (documentsOf fields)
    else scanAtom

/-! ## Texts -/

/-- What was read: the fields from the top, and the path of the table that was opened last. -/
structure Progress where
  fields : Fields
  opened : List String

namespace Progress

def start : Progress :=
  ⟨[], []⟩

/-- A header after its opening bracket. -/
def scanHeader (p : Progress) : Scanner Progress := do
  let another ← Scanner.accept "["
  let path ← scanPath
  Scanner.expect (if another then "]]" else "]")
  expectLineEnd
  let fields ← if another then p.fields.openAnother? path else p.fields.openTable? path
  return ⟨fields, path⟩

/-- A key with its value. -/
def scanPair (p : Progress) : Scanner Progress := do
  let path ← scanPath
  Scanner.expect "="
  skipSpaces
  let value ← scanValue maxDepth
  expectLineEnd
  let fields ← p.fields.defineIn? p.opened path value
  return ⟨fields, p.opened⟩

/-- One entry after blanks, comments and line ends; nothing at the end of the text. -/
def scanEntry? (p : Progress) : Scanner (Option Progress) := do
  skipLines
  if (← Scanner.rest).isEmpty then return none
  else if ← Scanner.accept "[" then some <$> p.scanHeader
  else some <$> p.scanPair

end Progress

/-- The table that a whole text stands for. A mark of the byte order may stand in front. -/
def parse? (text : String) : Option Document :=
  Scanner.read? (do
    let _ ← Scanner.accept "\uFEFF"
    let progress ← Scanner.iterate Progress.scanEntry? .start
    return .table (documentsOf progress.fields)) text

end Interposition.Toml
