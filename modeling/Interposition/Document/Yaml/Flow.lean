import Interposition.Document.Yaml.Scalar

/-!
# Interposition.Document.Yaml.Flow — lists and tables in brackets

Parts of a YAML text may be named by anchors and used again, and tagged with the kind of value they
are. In flow style lists and tables stand in brackets.
-/

namespace Interposition.Yaml

/-! ## Anchors and tags -/

/-- The named parts so far, the latest first. -/
abbrev Anchors := List (String × Document)

abbrev Reader := StateT Anchors Scanner

/-- What stands in front of a part: a name for it, and the kind of its value. -/
structure Properties where
  anchor : Option String
  tag : Option Tag

def Properties.isNone (p : Properties) : Bool :=
  p.anchor.isNone && p.tag.isNone

/-- The characters up to a gap or a mark of the flow style. -/
def scanName : Scanner String := do
  let name ← Scanner.takeWhile fun c => !isGap (some c) && !isFlowMark c
  return String.ofList name

def scanAnchor : Scanner String := do
  let name ← scanName
  if name.isEmpty then failure
  return name

/-- A tag after its mark. -/
def scanTag : Scanner Tag := do
  if ← Scanner.accept "<" then
    Scanner.skipWhile fun c => c ≠ '>' && !isGap (some c)
    Scanner.expect ">"
    return .other
  else if ← Scanner.accept "!" then return .common (← scanAnchor)
  else
    let _ ← scanName
    return .other

/-- The properties that come next, on one line. -/
def scanProperties : Scanner Properties :=
  Scanner.iterate (fun p => do
    let before ← get
    Scanner.skipWhile isSpace
    if ← Scanner.accept "&" then
      if p.anchor.isSome then failure
      return some { p with anchor := some (← scanAnchor) }
    else if ← Scanner.accept "!" then
      if p.tag.isSome then failure
      return some { p with tag := some (← scanTag) }
    else
      set before
      return none) ⟨none, none⟩

/-- Gives a part its name. -/
def Properties.name (p : Properties) (d : Document) : Reader Document := do
  match p.anchor with
  | some name => modify ((name, d) :: ·)
  | none => pure ()
  return d

/-- The part that a name after its mark stands for. -/
def scanAlias : Reader Document := do
  let name ← (scanAnchor : Scanner String)
  (← get).lookup name

/-! ## Tables -/

/-- A key, and whether it is a text and no number. -/
def keyOf? : Document → Option (String × Bool)
  | .text s => some (s, true)
  | .number (.integer n) => some (toString n, false)
  | _ => none

/-- The table of some pairs. Keys are texts or integers, and no two of them equal. -/
def tableOf? (pairs : List (Document × Document)) : Option Document := do
  let keys ← pairs.mapM fun (key, _) => keyOf? key
  if keys.Nodup then return .ofFields ((keys.map (·.1)).zip (pairs.map (·.2))) else none

/-! ## Flow style -/

/-- Whether a character starts no plain text. -/
def isReserved (c : Char) : Bool :=
  isFlowMark c || c ∈ ['#', '&', '*', '!', '|', '>', '\'', '"', '%', '@', '\x60']

/-- Whether the mark between a key and its value comes next. It is followed by a gap or a mark,
unless the key had marks of its own at its end. -/
def looksAtValue (marked : Bool) : Scanner Bool := do
  match ← Scanner.rest with
  | ':' :: rest => return marked || isGap rest.head? || rest.head?.any isFlowMark
  | _ => return false

/-- Whether an item ends here, before it had a value. -/
def endsItem : Scanner Bool := do
  return (← Scanner.peek?).any fun c => c ∈ [',', ']', '\x7d']

/-- The value of a pair, if its mark comes next. `node` reads a part. -/
def scanFlowValue (least : Nat) (node : Reader (Document × Bool)) (marked : Bool) :
    Reader (Option Document) := do
  unless ← looksAtValue marked do return none
  (Scanner.expect ":" : Scanner Unit)
  skipGaps least
  if ← endsItem then return some .null
  return some (← node).1

/-- A key and its value, which may be missing. -/
def scanFlowPair (least : Nat) (node : Reader (Document × Bool)) :
    Reader (Document × Document) := do
  if ← looksAtMark '?' then
    (Scanner.expect "?" : Scanner Unit)
    skipGaps least
  let (key, marked) ← node
  skipGaps least
  return (key, (← scanFlowValue least node marked).getD .null)

/-- An item of a list, which may be a table of one pair. Its key is on one line. -/
def scanFlowItem (least : Nat) (node : Reader (Document × Bool)) : Reader Document := do
  if ← looksAtMark '?' then
    let pair ← scanFlowPair least node
    tableOf? [pair]
  else
    let line ← (Scanner.line : Scanner Nat)
    let (item, marked) ← node
    skipGaps least
    let isOneLine := (← (Scanner.line : Scanner Nat)) = line
    match ← scanFlowValue least node marked with
    | none => return item
    | some value => if isOneLine then tableOf? [(item, value)] else failure

/-- A part in flow style, and whether it has marks of its own at its end. -/
def scanFlow (least : Nat) : Nat → Reader (Document × Bool)
  | 0 => failure
  | depth + 1 => do
    let properties ← scanProperties
    skipGaps least
    if (← (Scanner.column : Scanner Nat)) + 1 < least then failure
    let node := scanFlow least depth
    let c ← (Scanner.peek? : Scanner (Option Char))
    if c = some '[' then
      (Scanner.expect "[" : Scanner Unit)
      let items ← Scanner.listed "]" true (skipGaps least) (scanFlowItem least node)
      return (← properties.name (.list items), true)
    else if c = some '\x7b' then
      (Scanner.expect "\x7b" : Scanner Unit)
      let pairs ← Scanner.listed "\x7d" true (skipGaps least) (scanFlowPair least node)
      return (← properties.name (← tableOf? pairs), true)
    else if c = some '"' || c = some '\'' then
      return (← properties.name (.text (← scanQuoted least)), true)
    else if c = some '*' then
      (Scanner.expect "*" : Scanner Unit)
      return (← scanAlias, false)
    else if !properties.isNone && ((← endsItem) || (← looksAtValue false)) then
      return (← properties.name (← taggedValue? "" properties.tag), false)
    else if c.any (fun c => isReserved c && c ≠ '|' && c ≠ '>') ||
        (← (Scanner.column : Scanner Nat)) < least then failure
    else
      let text ← scanPlain least true
      return (← properties.name (← taggedValue? text properties.tag), false)

end Interposition.Yaml
