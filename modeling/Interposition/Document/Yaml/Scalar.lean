import Interposition.Document.Basic
import Interposition.Document.Yaml.Gap

/-!
# Interposition.Document.Yaml.Scalar — texts in YAML

A text stands in quotes, plain, or as a block of lines. Lines of the first two kinds are joined:
a line end becomes a blank, and each empty line a line end. A plain text may stand for another
value.
-/

namespace Interposition.Yaml

/-! ## Values of plain texts -/

/-- The kind of value that a tag asks for. -/
inductive Tag where
  /-- One of the kinds that every text may use, such as `int`. -/
  | common (kind : String)
  | other
deriving DecidableEq, Repr

/-- An integer in hexadecimal or octal digits after a mark, or in decimal digits. -/
def integer? (text : String) : Option Int :=
  match text.toList with
  | '0' :: 'x' :: digits => Number.integer? 16 digits
  | '0' :: 'o' :: digits => Number.integer? 8 digits
  | '+' :: digits => Number.integer? 10 digits
  | digits => Number.integer? 10 digits

/-- Whether a text is a word for infinity or no number. -/
def isRealWord (text : String) : Bool :=
  text ∈ [".inf", ".Inf", ".INF", "+.inf", "+.Inf", "+.INF", "-.inf", "-.Inf", "-.INF",
    ".nan", ".NaN", ".NAN"]

/-- A floating number, which has a digit. -/
def real? (text : String) : Option Float :=
  if text.toList.any Char.isDigit then Number.real? text.toList else none

/-- The value of a plain text without a tag. The words for infinity are recognized as such, but
stand for no value. -/
def plainValue? (text : String) : Option Document :=
  if text ∈ ["", "~", "null"] then some .null
  else if text = "true" then some (.bool true)
  else if text = "false" then some (.bool false)
  else if isRealWord text then none
  else
    match integer? text, real? text with
    | some n, _ => some (.integer n)
    | none, some x => some (.number (.real x))
    | none, none => some (.text text)

/-- The value of a plain text with a tag. One that is not of the kind is null. -/
def taggedValue? (text : String) : Option Tag → Option Document
  | none => plainValue? text
  | some (.common "bool") =>
    some (if text = "true" then .bool true else if text = "false" then .bool false else .null)
  | some (.common "int") =>
    some (((Number.integer? 10 text.toList).map Document.integer).getD .null)
  | some (.common "float") =>
    if isRealWord text then none
    else some (((real? text).map fun x => .number (.real x)).getD .null)
  | some (.common "null") => some .null
  | some _ => some (.text text)

/-! ## Joined lines -/

/-- A text as it is read, backwards, and the blanks that count only if more of the line
follows. -/
structure Joined where
  done : List Char
  blanks : List Char

namespace Joined

def empty : Joined :=
  ⟨[], []⟩

/-- Adds characters, given backwards, after the blanks in front of them. -/
def push (j : Joined) (chars : List Char) : Joined :=
  ⟨chars ++ (j.blanks ++ j.done), []⟩

def text (j : Joined) : String :=
  String.ofList j.done.reverse

/-- What some line ends in a row become. -/
def joint : Nat → List Char
  | 1 => [' ']
  | count => List.replicate (count - 1) '\n'

/-- Drops line ends and the blanks around them, and counts the line ends. -/
def skipLineEnds : Scanner Nat :=
  Scanner.iterate (fun count => do
    Scanner.skipWhile isSpace
    if ← Scanner.accept "\n" then return some (count + 1) else return none) 0

end Joined

/-! ## Quoted texts -/

/-- A character by its number in hexadecimal digits. -/
def scanCode (count : Nat) : Scanner Char := do
  Text.character? (← Scanner.hexadecimal count)

/-- The character of an escape, after its backslash. -/
def scanEscape : Scanner Char := do
  match ← Scanner.next with
  | '0' => return '\x00'
  | 'a' => return '\x07'
  | 'b' => return '\x08'
  | 't' => return '\t'
  | '\t' => return '\t'
  | 'n' => return '\n'
  | 'v' => return '\x0B'
  | 'f' => return '\x0C'
  | 'r' => return '\r'
  | 'e' => return '\x1B'
  | ' ' => return ' '
  | '"' => return '"'
  | '/' => return '/'
  | '\\' => return '\\'
  | 'N' => return '\u0085'
  | '_' => return '\u00A0'
  | 'L' => return '\u2028'
  | 'P' => return '\u2029'
  | 'x' => scanCode 2
  | 'u' => scanCode 4
  | 'U' => scanCode 8
  | _ => failure

/-- One part of a text in quotes; nothing after its closing quote. -/
def scanQuotedPart (least : Nat) (quote : Char) (j : Joined) : Scanner (Option Joined) := do
  if (← atEnd) || (← Scanner.column) + 1 < least then failure
  let c ← Scanner.next
  if c = '\n' then
    let more ← Joined.skipLineEnds
    return some ⟨Joined.joint (more + 1) ++ j.done, []⟩
  else if isSpace c then return some { j with blanks := c :: j.blanks }
  else if c = quote then
    -- A quote stands for itself where it is written twice.
    let doubled := quote = '\'' && (← Scanner.looksAt "'")
    if doubled then some <$> (j.push [·]) <$> Scanner.next else return none
  else if c = '\\' && quote = '"' then
    if ← Scanner.accept "\n" then
      let count ← Joined.skipLineEnds
      return some (j.push (List.replicate count '\n'))
    else return some (j.push [← scanEscape])
  else return some (j.push [c])

/-- A text in quotes. -/
def scanQuoted (least : Nat) : Scanner String := do
  let quote ← Scanner.next
  let joined ← Scanner.iterate (scanQuotedPart least quote) .empty
  return (joined.push []).text

/-! ## Plain texts -/

/-- The characters of a plain text up to a gap. A colon before a gap ends it; so does in flow style
a mark of that style, and a colon before one. -/
def plainRun (inFlow : Bool) : List Char → List Char
  | [] => []
  | c :: rest =>
    let endsFlow := fun c => inFlow && isFlowMark c
    if isGap (some c) || endsFlow c then []
    else if c = ':' && (isGap rest.head? || rest.head?.any endsFlow) then []
    else c :: plainRun inFlow rest

/-- One run of a plain text after the gap in front of it; nothing at its end, where the gap stays.
Lines after the first one are indented. -/
def scanPlainPart (least : Nat) (inFlow : Bool) (j : Joined) : Scanner (Option Joined) := do
  let before ← get
  let blanks ← Scanner.takeWhile isSpace
  let count ← Joined.skipLineEnds
  let run := plainRun inFlow (← Scanner.rest)
  let isOver := run.isEmpty || run.head? = some '#' ||
    (!inFlow && count ≠ 0 && (← Scanner.column) < least)
  if isOver || (← atEnd) then
    set before
    return none
  let run ← Scanner.take run.length
  if inFlow && run = ['-'] && (← Scanner.peek?).any isFlowMark then failure
  let gap := if count = 0 then blanks.reverse else Joined.joint count
  return some (Joined.push { j with blanks := gap } run.reverse)

/-- A plain text. It has at least one character. -/
def scanPlain (least : Nat) (inFlow : Bool) : Scanner String := do
  let joined ← Scanner.iterate (scanPlainPart least inFlow) .empty
  if joined.done.isEmpty then failure
  return joined.text

/-! ## Blocks of lines -/

/-- Which line ends at the end of a block of lines count. -/
inductive Chomping where
  | strip
  | clip
  | keep
deriving DecidableEq, Repr

def acceptChomping : Scanner (Option Chomping) := do
  if ← Scanner.accept "-" then return some .strip
  else if ← Scanner.accept "+" then return some .keep
  else return none

/-- How many columns further in than the block around it a block of lines says it is. -/
def acceptIndent : Scanner (Option Nat) := do
  match ← Scanner.peek? with
  | some c =>
    if c.isDigit then
      let _ ← Scanner.next
      if c = '0' then failure
      return some (c.toNat - '0'.toNat)
    else return none
  | none => return none

/-- The column of the first line that is not empty. -/
def firstColumn : List Char → Nat → Nat
  | ' ' :: rest, column => firstColumn rest (column + 1)
  | '\n' :: rest, _ => firstColumn rest 0
  | _, column => column

/-- The lines of a block, the last one first, and whether the last one has an end. -/
structure Lines where
  done : List (List Char)
  ended : Bool

/-- Drops blanks up to a column. -/
def skipIndent : Nat → Scanner Unit
  | 0 => return ()
  | count + 1 => do if ← Scanner.accept " " then skipIndent count

/-- One line of a block without its indent; nothing after the last one. -/
def scanLine (indent : Nat) (lines : Lines) : Scanner (Option Lines) := do
  if ← atEnd then return none
  skipIndent indent
  if ← Scanner.accept "\n" then return some ⟨[] :: lines.done, true⟩
  else if (← Scanner.column) < indent || (← Scanner.rest).isEmpty then return none
  else
    let line ← Scanner.takeWhile (· ≠ '\n')
    return some ⟨line :: lines.done, ← Scanner.accept "\n"⟩

/-- What comes between two lines with some empty lines between them. Where lines are folded those
that start with a blank are left alone. -/
def between (folded : Bool) (before after : List Char) (empty : Nat) : List Char :=
  let isLoose := fun (line : List Char) => line.head?.any isSpace
  if folded && !isLoose before && !isLoose after then Joined.joint (empty + 1)
  else List.replicate (empty + 1) '\n'

/-- Lines as one text, and how many empty lines follow. `before` is the line in front, and `empty`
how many empty lines were after it. -/
def joinLines (folded : Bool) (before : Option (List Char)) (empty : Nat) :
    List (List Char) → List Char × Nat
  | [] => ([], empty)
  | [] :: rest => joinLines folded before (empty + 1) rest
  | line :: rest =>
    let gap :=
      match before with
      | some before => between folded before line empty
      | none => List.replicate empty '\n'
    let (text, empty) := joinLines folded (some line) 0 rest
    (gap ++ line ++ text, empty)

/-- A block of lines after its mark. -/
def scanBlock (least : Nat) (folded : Bool) : Scanner String := do
  let early ← acceptChomping
  let offset ← acceptIndent
  let late ← if early.isNone then acceptChomping else pure none
  expectLineEnd
  let found := firstColumn (← Scanner.rest) 0
  let indent :=
    match offset with
    | some offset => least - 1 + offset
    | none => max least found
  let lines ← Scanner.iterate (scanLine indent) ⟨[], true⟩
  let (text, empty) := joinLines folded none 0 lines.done.reverse
  let final := if text.isEmpty || !lines.ended && empty = 0 then [] else ['\n']
  let tail :=
    match early <|> late with
    | some .strip => []
    | some .keep => final ++ List.replicate empty '\n'
    | _ => final
  return String.ofList (text ++ tail)

end Interposition.Yaml
