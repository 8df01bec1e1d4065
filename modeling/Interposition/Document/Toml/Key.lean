import Interposition.Text.Scanner

/-!
# Interposition.Document.Toml.Key — blanks, strings and keys of TOML

A line ends with a line feed, with or without a carriage return in front. Control characters
other than tabs stand nowhere, not even in comments.
-/

namespace Interposition.Toml

/-! ## Blanks -/

/-- Whether a character may stand in comments and strings as it is. -/
def isPrintable (c : Char) : Bool :=
  c = '\t' || (' ' ≤ c && c ≠ '\x7F')

/-- Drops spaces and tabs. -/
def skipSpaces : Scanner Unit :=
  Scanner.skipWhile fun c => c = ' ' || c = '\t'

/-- Takes the end of a line if it comes next. -/
def acceptLineEnd : Scanner Bool := do
  if ← Scanner.accept "\n" then return true else Scanner.accept "\r\n"

/-- Drops a comment up to the end of its line. -/
def skipComment : Scanner Unit := do
  if ← Scanner.accept "#" then Scanner.skipWhile isPrintable

/-- What follows a complete entry: the end of its line, or of the text. -/
def expectLineEnd : Scanner Unit := do
  skipSpaces
  skipComment
  unless ← acceptLineEnd do Scanner.expectEnd

/-- Drops blanks, comments and line ends. -/
def skipLines : Scanner Unit := do
  let _ ← Scanner.many do
    skipSpaces
    skipComment
    if ← acceptLineEnd then return some () else return none

/-! ## Strings -/

/-- A character by its number in hexadecimal digits. -/
def scanCode (count : Nat) : Scanner Char := do
  Text.character? (← Scanner.hexadecimal count)

/-- The character of an escape, after its backslash. -/
def scanEscape : Scanner Char := do
  match ← Scanner.next with
  | 'b' => return '\x08'
  | 'f' => return '\x0C'
  | 'n' => return '\n'
  | 'r' => return '\r'
  | 't' => return '\t'
  | '"' => return '"'
  | '\\' => return '\\'
  | 'u' => scanCode 4
  | 'U' => scanCode 8
  | _ => failure

/-- The rest of a string on one line after its opening quote. -/
def scanLine (quote : Char) (escapes : Bool) : Scanner String :=
  String.ofList <$> Scanner.many do
    let c ← Scanner.next
    if c = quote then return none
    else if escapes && c = '\\' then some <$> scanEscape
    else if isPrintable c then return some c
    else failure

/-- Takes a backslash at the end of a line, with all blanks and line ends up to what follows. -/
def acceptJoin : Scanner Bool := do
  let joins : Scanner Unit := do
    Scanner.expect "\\"
    skipSpaces
    unless ← acceptLineEnd do failure
    let _ ← Scanner.many do
      skipSpaces
      if ← acceptLineEnd then return some () else return none
  (do joins; return true) <|> return false

/-- A part of a string on several lines; nothing at its end. Three quotes end it, and up to two
quotes may stand before those. -/
def scanPart (quote : Char) (escapes : Bool) : Scanner (Option (List Char × Bool)) := do
  let quotes ← Scanner.takeWhile (· = quote)
  if 5 < quotes.length then failure
  else if 3 ≤ quotes.length then return some (quotes.drop 3, true)
  else if !quotes.isEmpty then return some (quotes, false)
  else if ← acceptLineEnd then return some (['\n'], false)
  else
    if escapes then
      if ← acceptJoin then return some ([], false)
    let c ← Scanner.next
    if escapes && c = '\\' then return some ([← scanEscape], false)
    else if isPrintable c then return some ([c], false)
    else failure

/-- The rest of a string on several lines after its opening quotes. A line end right after them
does not count. -/
def scanLines (quote : Char) (escapes : Bool) : Scanner String := do
  let _ ← acceptLineEnd
  let (done, _) ← Scanner.iterate (fun (done, isOver) => do
    if isOver then return none
    let some (part, isOver) ← scanPart quote escapes | failure
    return some (part.reverse ++ done, isOver)) (([] : List Char), false)
  return String.ofList done.reverse

/-- A string after its opening quote. -/
def scanString (quote : Char) (escapes : Bool) : Scanner String := do
  if ← Scanner.accept (String.ofList [quote, quote]) then scanLines quote escapes
  else scanLine quote escapes

/-! ## Keys -/

def isBareKeyChar (c : Char) : Bool :=
  c.isAlphanum || c = '_' || c = '-'

def scanKey : Scanner String := do
  if ← Scanner.accept "\"" then scanLine '"' true
  else if ← Scanner.accept "'" then scanLine '\'' false
  else
    let key ← Scanner.takeWhile isBareKeyChar
    if key.isEmpty then failure
    return String.ofList key

/-- Paths have fewer keys than this. -/
def maxPath : Nat := 80

/-- Keys with dots between them, and blanks around. -/
def scanPath : Scanner (List String) := do
  skipSpaces
  let first ← scanKey
  skipSpaces
  let others ← Scanner.many do
    unless ← Scanner.accept "." do return none
    skipSpaces
    let key ← scanKey
    skipSpaces
    return some key
  let path := first :: others
  if path.length < maxPath then return path else failure

end Interposition.Toml
