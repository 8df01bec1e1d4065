import Interposition.Document.Basic
import Interposition.Text.Blank
import Interposition.Text.Scanner

/-!
# Interposition.Document.Ini — documents as sections of lines

Sections in brackets, and in each lines of a key, an equals sign or a colon, and a value. All
values are texts. What stands before the first section is at the top of the document.
-/

namespace Interposition.Ini

/-! ## Texts -/

/-- The characters of an escape, after its backslash. The end of a line stands for none, and a
character without a meaning of its own for itself. -/
def scanEscape : Scanner (List Char) := do
  match ← Scanner.next with
  | '0' => return ['\x00']
  | 'a' => return ['\x07']
  | 'b' => return ['\x08']
  | 't' => return ['\t']
  | 'r' => return ['\r']
  | 'n' => return ['\n']
  | '\n' => return []
  | 'x' => return [← Text.character? (← Scanner.hexadecimal 4)]
  | c => return [c]

/-- The characters in front of one that ends them, with escapes. -/
def scanUntil (isEnd : Char → Bool) : Scanner (List Char) :=
  List.flatten <$> Scanner.many do
    match ← Scanner.peek? with
    | none => return none
    | some c =>
      if isEnd c then return none
      let c ← Scanner.next
      if c = '\\' then some <$> scanEscape else return some [c]

/-- As `scanUntil`, but the end must be there, and is taken. -/
def scanThrough (isEnd : Char → Bool) : Scanner (List Char) := do
  let text ← scanUntil isEnd
  let _ ← Scanner.next
  return text

def isLineEnd (c : Char) : Bool :=
  c = '\n' || c = '\r'

/-- The value on the rest of a line. One in quotes keeps its blanks, and may go over lines. -/
def scanValue : Scanner String := do
  Scanner.skipWhile fun c => Text.isBlank c && !isLineEnd c
  let quoted ←
    if ← Scanner.accept "\"" then scanThrough (· = '"')
    else if ← Scanner.accept "'" then scanThrough (· = '\'')
    else pure []
  return String.ofList (quoted ++ Text.trim (← scanUntil isLineEnd))

/-! ## Sections -/

/-- What was read: the fields of the section in brackets, if there is one, and those at the
top. -/
structure Progress where
  name : Option String
  body : List (String × Document)
  top : List (String × Document)

namespace Progress

def start : Progress :=
  ⟨none, [], []⟩

/-- The fields at the top, with the section as one of them. -/
def close (p : Progress) : List (String × Document) :=
  match p.name with
  | some name => p.top ++ [(name, .ofFields p.body)]
  | none => p.top

def push (p : Progress) (key value : String) : Progress :=
  match p.name with
  | some _ => { p with body := p.body ++ [(key, .text value)] }
  | none => { p with top := p.top ++ [(key, .text value)] }

/-- One section header, line or comment after blanks; nothing at the end of the text. A comment
must be the first on its line. -/
def scanLine? (p : Progress) : Scanner (Option Progress) := do
  Scanner.skipWhile Text.isBlank
  match ← Scanner.peek? with
  | none => return none
  | some c =>
    if c = ';' || c = '#' then
      unless (← Scanner.column) = 0 do failure
      Scanner.skipWhile (· ≠ '\n')
      return some p
    else if c = '[' then
      let _ ← Scanner.next
      let name ← scanThrough (· = ']')
      return some ⟨some (String.ofList (Text.trim name)), [], p.close⟩
    else
      let key := Text.trim (← scanThrough fun c => c = '=' || c = ':')
      if key.isEmpty then failure
      return some (p.push (String.ofList key) (← scanValue))

end Progress

/-- The table that a whole text stands for. -/
def parse? (text : String) : Option Document :=
  Scanner.read? (do
    let progress ← Scanner.iterate Progress.scanLine? .start
    return .ofFields progress.close) text

end Interposition.Ini
