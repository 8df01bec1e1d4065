import Interposition.Text.Scanner

/-!
# Interposition.Document.Yaml.Gap — what stands between the parts of a YAML text

Blanks, comments, line ends, and the marks at which a document starts or ends. Where a part stands
in its line matters: `least` is the least column that belongs to what is read, so a block around
it stands one column further left, and nothing is around a part with the least column 0.
-/

namespace Interposition.Yaml

def isSpace (c : Char) : Bool :=
  c = ' ' || c = '\t'

/-- Whether a character is a blank or a line end, or missing. -/
def isGap (c : Option Char) : Bool :=
  !c.any fun c => !isSpace c && c ≠ '\n'

def isFlowMark (c : Char) : Bool :=
  c ∈ [',', '[', ']', '\x7b', '\x7d']

/-- Whether a mark and a gap come next. -/
def looksAtMark (mark : Char) : Scanner Bool := do
  match ← Scanner.rest with
  | c :: rest => return c = mark && isGap rest.head?
  | [] => return false

/-- Whether a line with three of a mark comes next. -/
def looksAtLine (mark : String) : Scanner Bool := do
  return (← Scanner.column) = 0 && (← Scanner.looksAt mark) &&
    isGap ((← Scanner.rest).drop 3).head?

/-- Whether the document ends here, with the text or at a mark. -/
def atEnd : Scanner Bool := do
  return (← Scanner.rest).isEmpty || (← looksAtLine "---") || (← looksAtLine "...")

/-- Where a reading of gaps stands: whether a blank was last, and whether the line had only
blanks so far. -/
structure GapState where
  spaced : Bool
  leading : Bool

/-- Drops one blank, comment or line end. Tabs do not indent what is in a block. -/
def GapState.step (least : Nat) (s : GapState) : Scanner (Option GapState) := do
  match ← Scanner.peek? with
  | some ' ' =>
    let _ ← Scanner.next
    return some { s with spaced := true }
  | some '\t' =>
    if s.leading && (← Scanner.column) + 1 < least then
      Scanner.skipWhile isSpace
      unless (← Scanner.peek?).all (fun c => c = '\n' || c = '#') do failure
    else
      let _ ← Scanner.next
    return some { s with spaced := true }
  | some '\n' =>
    let _ ← Scanner.next
    return some ⟨true, true⟩
  | some '#' =>
    unless s.spaced do failure
    Scanner.skipWhile (· ≠ '\n')
    return some s
  | _ => return none

/-- Drops blanks, comments and line ends. A comment follows a blank or starts its line. -/
def skipGaps (least : Nat) : Scanner Unit := do
  let first := (← Scanner.column) = 0
  let _ ← Scanner.iterate (GapState.step least) ⟨first, first⟩

/-- Drops blanks and a comment up to the end of the line, which must come next. -/
def expectLineEnd : Scanner Unit := do
  let spaces ← Scanner.takeWhile isSpace
  if !spaces.isEmpty && (← Scanner.peek?) = some '#' then Scanner.skipWhile (· ≠ '\n')
  unless ← Scanner.accept "\n" do Scanner.expectEnd

end Interposition.Yaml
