import Interposition.Text.Scanner

/-!
# Interposition.Text.Pattern — patterns of texts

`isPattern` tells the texts that are regular expressions: groups and classes are closed, what is
repeated is there, ranges go upwards, and escapes mean something. Classes that depend on tables of
characters, and boundaries of words, are no part of the language.
-/

namespace Interposition.Text.Pattern

/-! ## Escapes -/

/-- A character by its number after the mark of its escape: two, four or eight hexadecimal
digits, or any number of them in braces. -/
def scanCode (count : Nat) : Scanner Char := do
  if ← Scanner.accept "\x7b" then
    let digits ← Scanner.takeWhile isHexDigit
    Scanner.expect "\x7d"
    character? (← numeral? 16 digits)
  else character? (← Scanner.hexadecimal count)

/-- Whether a character stands for itself after a backslash. -/
def isEscapable (c : Char) : Bool :=
  c.toNat < 0x80 && !c.isAlphanum && c ≠ '<' && c ≠ '>'

/-- The character that an escape stands for, after its backslash. -/
def scanEscape : Scanner Char := do
  match ← Scanner.next with
  | 'a' => return '\x07'
  | 'f' => return '\x0C'
  | 't' => return '\t'
  | 'n' => return '\n'
  | 'r' => return '\r'
  | 'v' => return '\x0B'
  | 'x' => scanCode 2
  | 'u' => scanCode 4
  | 'U' => scanCode 8
  | c => if isEscapable c then return c else failure

/-! ## Classes -/

/-- The names of classes in brackets of their own. -/
def classNames : List String :=
  ["alnum", "alpha", "ascii", "blank", "cntrl", "digit", "graph", "lower", "print", "punct",
    "space", "upper", "word", "xdigit"]

/-- Takes a class by its name if one comes next. -/
def acceptNamedClass : Scanner Bool :=
  (do
    Scanner.expect "[:"
    let _ ← Scanner.accept "^"
    let name ← Scanner.takeWhile Char.isAlpha
    Scanner.expect ":]"
    return String.ofList name ∈ classNames) <|> return false

/-- One character of a class. -/
def scanClassChar : Scanner Char := do
  if ← Scanner.accept "\\" then scanEscape else Scanner.next

/-- A character or a range of a class. A minus sign before the end of the class, or before another
one, makes no range. -/
def scanRange : Scanner Unit := do
  let low ← scanClassChar
  match ← Scanner.rest with
  | '-' :: c :: _ =>
    if c ≠ ']' && c ≠ '-' then
      let _ ← Scanner.next
      let high ← scanClassChar
      unless low ≤ high do failure
  | _ => return ()

/-- The rest of a class after its opening bracket. In it brackets at the front are characters. -/
def scanClass : Nat → Scanner Unit
  | 0 => failure
  | depth + 1 => do
    let _ ← Scanner.accept "^"
    Scanner.skipWhile (· = '-')
    let _ ← Scanner.accept "]"
    let _ ← Scanner.many do
      if ← Scanner.accept "]" then return none
      else if ← acceptNamedClass then return some ()
      else if ← Scanner.accept "[" then some <$> scanClass depth
      else some <$> scanRange

/-! ## Groups -/

/-- The flags of a group, each at most once, and one sign that turns off those after it. -/
def areFlags (flags : List Char) : Bool :=
  flags.Nodup && flags.all (· ∈ ['i', 'm', 's', 'U', 'u', 'R', 'x', '-']) &&
    flags.getLast? ≠ some '-' && !flags.isEmpty

/-- Whether a text names a group. -/
def isGroupName (name : List Char) : Bool :=
  match name with
  | c :: rest =>
    (c.isAlpha || c = '_') && rest.all fun c => c.isAlphanum || c ∈ ['_', '.', '[', ']']
  | [] => false

/-- What may stand after the opening bracket of a group: a name or flags. Flags without a group
stand alone up to the closing bracket; the answer says whether a group follows. -/
def scanGroupStart : Scanner Bool := do
  unless ← Scanner.accept "?" do return true
  if ← Scanner.acceptOneOf ["P<", "<"] then
    let name ← Scanner.takeWhile (· ≠ '>')
    Scanner.expect ">"
    unless isGroupName name do failure
    return true
  else
    let flags ← Scanner.takeWhile fun c => c ≠ ':' && c ≠ ')'
    if ← Scanner.accept ":" then
      unless flags.isEmpty || areFlags flags do failure
      return true
    else
      Scanner.expect ")"
      unless areFlags flags do failure
      return false

/-! ## Patterns -/

/-- What came last in a sequence: something that can be repeated, or not. -/
inductive Last where
  | operand
  | none
deriving DecidableEq, Repr

/-- One part of a pattern after what came last; nothing at its end. `group` reads the rest of a
group. -/
def scanPart (group : Scanner Unit) (last : Last) : Scanner (Option Last) := do
  match ← Scanner.peek? with
  | none => return none
  | some ')' => return none
  | some '|' =>
    let _ ← Scanner.next
    return some .none
  | some '(' =>
    let _ ← Scanner.next
    if ← scanGroupStart then
      group
      return some .operand
    else return some .none
  | some '[' =>
    let _ ← Scanner.next
    scanClass (← Scanner.rest).length
    return some .operand
  | some '\\' =>
    let _ ← Scanner.next
    unless ← Scanner.acceptOneOf ["A", "z"] do let _ ← scanEscape
    return some .operand
  | some c =>
    if c ∈ ['*', '+', '?'] then
      if last = .none then failure
      let _ ← Scanner.next
      let _ ← Scanner.accept "?"
    else
      if c = '\x7b' then failure
      let _ ← Scanner.next
    return some .operand

/-- Parts in a row, in which groups nest up to a depth. -/
def scanParts : Nat → Scanner Unit
  | 0 => failure
  | depth + 1 => do
    let group := do
      scanParts depth
      Scanner.expect ")"
    let _ ← Scanner.iterate (scanPart group) .none

/-- How far groups may nest. -/
def maxDepth : Nat := 250

end Pattern

/-- Whether a text is a regular expression. -/
def isPattern (text : String) : Bool :=
  (Scanner.read? (Pattern.scanParts Pattern.maxDepth) text).isSome

end Interposition.Text
