import Interposition.Document.Number
import Interposition.Text.Blank
import Interposition.Text.Letter
import Interposition.Text.Pattern

/-!
# Interposition.Launch.LogFilter — which log lines are written

A log filter is a list of directives with commas between them. A directive is a level, or a
target, a span in brackets with a field in braces, or both, and a level after an equals sign.
Only whether a text is a log filter matters to a launch.
-/

namespace Interposition.LogFilter

/-! ## Levels and fields -/

def levelWords : List String :=
  ["error", "warn", "info", "debug", "trace", "off"]

/-- A level is a word in any mix of cases, a number up to five, or nothing at all. -/
def isLevel (text : String) : Bool :=
  text.isEmpty || String.ofList (text.toList.map Char.toLower) ∈ levelWords ||
    (Number.unsignedOf? text.toList).any (· ≤ 5)

/-- A field is a name, or a name and what its value must be: a truth value, a number or a
pattern. -/
def isField (text : String) : Bool :=
  !text.isEmpty &&
    match text.splitToList (· = '=') with
    | _ :: value :: _ => (Number.parse? value.toList).isSome || Text.isPattern value
    | _ => true

/-! ## Directives -/

/-- Why a text is no log filter. -/
inductive Fault where
  | malformed
  /-- A part of a directive begins or ends inside a character. -/
  | misplaced
deriving DecidableEq, Repr

/-- Cuts a text after a number of bytes, if that is not inside a character. -/
def cut? : List Char → Nat → Option (List Char × List Char)
  | text, 0 => some ([], text)
  | [], _ + 1 => none
  | c :: rest, offset =>
    if c.utf8Size ≤ offset then
      (cut? rest (offset - c.utf8Size)).map fun (front, rest) => (c :: front, rest)
    else none

/-- The text between two offsets, which are counted in bytes. -/
def slice (text : String) (first stop : Nat) : Except Fault String :=
  let part? := do
    let (front, _) ← cut? text.toList stop
    let (_, part) ← cut? front first
    return part
  match part? with
  | some part => .ok (String.ofList part)
  | none => .error .misplaced

/-- What is read of a directive, with the offset at which the part begins that is read. A name
begins the directive. -/
inductive Stage where
  | start
  /-- In a level or target. -/
  | name
  | span (first : Nat)
  | field (first : Nat)
  | afterField
  | afterSpan
  | level (first : Nat)
deriving DecidableEq, Repr

/-- Whether a character may start a level or target. -/
def startsName (c : Char) : Bool :=
  c ∈ ['-', ':', '_'] || Text.isAlphanumeric c

/-- The stage after a character at an offset of a directive. -/
def Stage.next (directive : String) (offset : Nat) (c : Char) : Stage → Except Fault Stage
  | start =>
    if c = '[' then .ok (span (offset + 1))
    else if startsName c then .ok name
    else .error .malformed
  | name => do
    if c = '=' || c = '[' then
      -- Every text is a target.
      let _ ← slice directive 0 offset
      return if c = '=' then level (offset + 1) else span (offset + 1)
    else return name
  | span first => do
    if c = ']' || c = '\x7b' then
      let _ ← slice directive first offset
      return if c = ']' then afterSpan else field (offset + 1)
    else return span first
  | field first => do
    if c = '\x7d' then
      if isField (← slice directive first offset) then return afterField
      else throw .malformed
    else return field first
  | afterField => if c = ']' then .ok afterSpan else .error .malformed
  | afterSpan => if c = '=' then .ok (level (offset + 1)) else .error .malformed
  | level first => .ok (level first)

/-- Whether a directive may end at a stage. A level may be left out. -/
def Stage.finish (directive : String) : Stage → Except Fault Unit
  | name | afterSpan => .ok ()
  | level first => do
    unless isLevel (← slice directive first directive.utf8ByteSize) do throw .malformed
  | _ => .error .malformed

/-- The stages of a directive are those of its characters without the blanks at both ends, while
offsets are counted into the text with these blanks. -/
def checkDirective (directive : String) : Except Fault Unit := do
  let (stage, _) ← (Text.trim directive.toList).foldlM (fun (stage, offset) c => do
    return (← stage.next directive offset c, offset + c.utf8Size)) (Stage.start, 0)
  stage.finish directive

/-- Whether a text is a log filter, or why not. Directives may be empty. -/
def check (text : String) : Except Fault Unit :=
  (text.splitToList (· = ',')).forM fun directive =>
    if directive.isEmpty then .ok () else checkDirective directive

end Interposition.LogFilter
