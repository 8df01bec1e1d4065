import Interposition.Document.Basic
import Interposition.Text.Scanner

/-!
# Interposition.Document.Ron — documents as RON

An object notation with structures and tuples beside maps and lists. A structure is read as a
table and a tuple as a list, whatever their names; a name alone stands for null.
-/

namespace Interposition.Ron

/-! ## Blanks -/

/-- The rest of a comment in marks, in which others may nest: `depth` are open. -/
def scanComment : Scanner Unit := do
  let _ ← Scanner.iterate (fun depth => do
    if depth = 0 then return none
    else if ← Scanner.accept "/*" then return some (depth + 1)
    else if ← Scanner.accept "*/" then return some (depth - 1)
    else
      let _ ← Scanner.next
      return some depth) 1

/-- Drops blanks and comments. -/
def skipBlanks : Scanner Unit := do
  let isBlank := fun c => c = ' ' || c = '\t' || c = '\n' || c = '\r'
  let _ ← Scanner.many do
    if !(← Scanner.takeWhile isBlank).isEmpty then return some ()
    else if ← Scanner.accept "//" then some <$> Scanner.skipWhile (· ≠ '\n')
    else if ← Scanner.accept "/*" then some <$> scanComment
    else return none

/-! ## Names -/

def startsName (c : Char) : Bool :=
  c.isAlpha || c = '_'

def continuesName (c : Char) : Bool :=
  c.isAlphanum || c = '_'

/-- Whether a character may stand in a name after a mark. -/
def isRawNameChar (c : Char) : Bool :=
  continuesName c || c = '.' || c = '+' || c = '-'

/-- Takes a name if one comes next. The start of a raw string is none. -/
def acceptName : Scanner (Option String) := do
  let name :=
    match ← Scanner.rest with
    | 'r' :: '"' :: _ => []
    | 'r' :: '#' :: rest =>
      match rest.takeWhile isRawNameChar with
      | [] => []
      | name => 'r' :: '#' :: name
    | c :: rest => if startsName c then c :: rest.takeWhile continuesName else []
    | [] => []
  if name.isEmpty then return none
  let _ ← Scanner.take name.length
  return some (String.ofList name)

/-! ## Strings and characters -/

/-- A character by one to six hexadecimal digits in braces. -/
def scanCode : Scanner Char := do
  Scanner.expect "\x7b"
  let digits ← Scanner.takeWhile Text.isHexDigit
  Scanner.expect "\x7d"
  if 6 < digits.length then failure
  Text.character? (← Text.numeral? 16 digits)

/-- The character of an escape, after its backslash. -/
def scanEscape : Scanner Char := do
  match ← Scanner.next with
  | '\'' => return '\''
  | '"' => return '"'
  | '\\' => return '\\'
  | 'n' => return '\n'
  | 'r' => return '\r'
  | 't' => return '\t'
  | '0' => return '\x00'
  | 'x' => return Char.ofNat (← Scanner.hexadecimal 2)
  | 'u' => scanCode
  | _ => failure

/-- The rest of a string after its opening quote. -/
def scanString : Scanner String :=
  String.ofList <$> Scanner.many do
    match ← Scanner.next with
    | '"' => return none
    | '\\' => some <$> scanEscape
    | c => return some c

/-- A raw string: nothing is escaped in it, and as many marks as stand in front of its opening
quote follow the closing one. -/
def scanRawString : Scanner String := do
  Scanner.expect "r"
  let marks ← Scanner.takeWhile (· = '#')
  Scanner.expect "\""
  String.ofList <$> Scanner.many do
    if ← Scanner.accept (String.ofList ('"' :: marks)) then return none
    some <$> Scanner.next

/-- The rest of a single character after its opening quote. -/
def scanChar : Scanner String := do
  let c ← if ← Scanner.accept "\\" then scanEscape else Scanner.next
  Scanner.expect "'"
  return c.toString

/-! ## Numbers -/

def isIntegerChar (c : Char) : Bool :=
  Text.isHexDigit c || c = '_'

def isRealChar (c : Char) : Bool :=
  c.isDigit || c = 'e' || c = 'E' || c = '.' || c = '+' || c = '-' || c = '_'

/-- An integer in digits with underscores among them, of another radix than ten after a mark. -/
def scanInteger (sign : List Char) : Scanner Number := do
  let radix :=
    match ← Scanner.rest with
    | '0' :: 'x' :: _ => 16
    | '0' :: 'o' :: _ => 8
    | '0' :: 'b' :: _ => 2
    | _ => 10
  if radix ≠ 10 then let _ ← Scanner.take 2
  let run ← Scanner.takeWhile isIntegerChar
  if run.head? = some '_' then failure
  let digits := run.filter (· ≠ '_')
  if sign.isEmpty then
    -- Without a sign it may be beyond the integers of a document, and is rounded then.
    let n ← Text.numeral? radix digits
    if Number.maxUnsigned < n then failure
    return if Number.fitsWord n then .integer n else .real (n.toUInt64.toFloat)
  else .integer <$> Number.integer? radix (sign ++ digits)

def scanReal : Scanner Number := do
  let run ← Scanner.takeWhile isRealChar
  .real <$> Number.real? run

/-- A number: an integer if it can be read as one, unless a point or a sign shows that it is
none. -/
def scanNumber : Scanner Number := do
  let input ← Scanner.rest
  let sign := input.take 1 |>.filter fun c => c = '+' || c = '-'
  let body := input.drop sign.length
  if (body.takeWhile isIntegerChar).length < (body.takeWhile isRealChar).length then scanReal
  else
    (do
      let _ ← Scanner.take sign.length
      scanInteger sign) <|> scanReal

/-- Takes a word for infinity or no number if one comes next. -/
def acceptWord : Scanner (Option Number) := do
  let isOver := fun rest : List Char => !(rest.head?.any continuesName)
  let word? := fun (word : String) (x : Float) => do
    Scanner.expect word
    unless isOver (← Scanner.rest) do failure
    return some (Number.real x)
  word? "inf" Text.infinity <|> word? "+inf" Text.infinity <|> word? "-inf" (-Text.infinity) <|>
    word? "NaN" Text.notANumber <|> word? "+NaN" Text.notANumber <|>
    word? "-NaN" Text.notANumber <|> return none

/-! ## Values -/

/-- A text or a character as a key. -/
def keyOf? : Document → Option String
  | .text key => some key
  | _ => none

/-- A value that is none of the parts that hold others. -/
def scanAtom : Scanner Document := do
  match ← acceptWord with
  | some n => return .number n
  | none =>
    match ← acceptName with
    | some "true" => return .bool true
    | some "false" => return .bool false
    | some "Some" => failure
    | some _ => return .null
    | none =>
      if ← Scanner.accept "()" then return .null
      else if ← Scanner.accept "\"" then .text <$> scanString
      else if ← Scanner.accept "'" then .text <$> scanChar
      else if ← Scanner.looksAt "r" then .text <$> scanRawString
      else .number <$> scanNumber

/-- Whether the fields of a structure come next, and not the items of a tuple: a name and a
colon. -/
def looksAtField : Scanner Bool :=
  (do
    let here ← get
    let name ← acceptName
    skipBlanks
    let found := name.isSome && (← Scanner.looksAt ":")
    set here
    return found) <|> return false

/-- The rest of a structure or tuple after its opening bracket. -/
def scanStructure (scanPart : Scanner Document) : Scanner Document := do
  skipBlanks
  if ← looksAtField then
    .ofFields <$> Scanner.listed ")" true skipBlanks do
      let some key ← acceptName | failure
      skipBlanks
      Scanner.expect ":"
      skipBlanks
      return (key, ← scanPart)
  else .list <$> Scanner.listed ")" true skipBlanks scanPart

/-- How many parts that hold others may stand inside one another. -/
def maxDepth : Nat := 128

/-- A value in which parts that hold others stand inside one another up to a depth. -/
def scanValue : Nat → Scanner Document
  | 0 => scanAtom
  | depth + 1 => do
    if ← Scanner.accept "[" then
      .list <$> Scanner.listed "]" true skipBlanks (scanValue depth)
    else if ← Scanner.accept "\x7b" then
      .ofFields <$> Scanner.listed "\x7d" true skipBlanks do
        let key ← keyOf? (← scanValue depth)
        skipBlanks
        Scanner.expect ":"
        skipBlanks
        return (key, ← scanValue depth)
    else
      -- A name in front of brackets tells nothing, but for the mark of a value that is there.
      let here ← get
      let name ← acceptName
      skipBlanks
      if (← Scanner.looksAt "(") && !(name.isNone && (← Scanner.looksAt "()")) then
        Scanner.expect "("
        if name = some "Some" then
          skipBlanks
          let value ← scanValue depth
          skipBlanks
          let _ ← Scanner.accept ","
          skipBlanks
          Scanner.expect ")"
          return value
        else scanStructure (scanValue depth)
      else
        set here
        scanAtom

/-! ## Texts -/

/-- The extensions that a text may ask for. None changes what it stands for. -/
def extensions : List String :=
  ["unwrap_newtypes", "implicit_some", "unwrap_variant_newtypes"]

/-- Drops the marks in front of a text that ask for extensions. -/
def skipExtensions : Scanner Unit := do
  let _ ← Scanner.many do
    unless ← Scanner.accept "#" do return none
    for token in ["!", "[", "enable", "("] do
      skipBlanks
      Scanner.expect token
    let names ← Scanner.listed ")" true skipBlanks do
      let some name ← acceptName | failure
      return name
    if names.isEmpty || !names.all (· ∈ extensions) then failure
    skipBlanks
    Scanner.expect "]"
    skipBlanks
    return some ()

/-- The document that a whole text stands for. -/
def parse? (text : String) : Option Document :=
  Scanner.read? (skipBlanks *> skipExtensions *> scanValue maxDepth <* skipBlanks) text

end Interposition.Ron
