import Interposition.Document.Yaml.Flow

/-!
# Interposition.Document.Yaml — documents as YAML

Lists and tables are blocks of lines whose items stand in one column, or are in flow style. A text
is one document.
-/

namespace Interposition.Yaml

/-! ## Places -/

/-- Where a part of a block may stand. -/
structure Place where
  /-- The least column that belongs to it. -/
  least : Nat
  /-- Whether a list or table of lines may start on this line already. -/
  opens : Bool
  /-- Whether a list may stand one column further left, as it may under a key. -/
  outdents : Bool
  /-- The kind of value that was asked for on a line above. -/
  tag : Option Tag

/-- After the dash of an item or the mark of a key, in a block at a column. -/
def Place.item (column : Nat) : Place :=
  ⟨column + 1, true, false, none⟩

/-- After a key of a table at a column. -/
def Place.value (column : Nat) : Place :=
  ⟨column + 1, false, true, none⟩

def column : Reader Nat :=
  (Scanner.column : Scanner Nat)

def line : Reader Nat :=
  (Scanner.line : Scanner Nat)

def expect (token : String) : Reader Unit :=
  (Scanner.expect token : Scanner Unit)

/-! ## Blocks -/

/-- A part on one line or in flow style, that is no block. -/
def scanAtom (least : Nat) (tag : Option Tag) : Reader Document := do
  let c ← (Scanner.peek? : Scanner (Option Char))
  if c = some '[' || c = some '\x7b' then
    let input ← (Scanner.rest : Scanner (List Char))
    return (← scanFlow least (input.length + 1)).1
  else if c = some '"' || c = some '\'' then return .text (← scanQuoted least)
  else if c = some '*' then
    expect "*"
    scanAlias
  else if c.any isReserved || (← looksAtMark '-') || (← looksAtMark '?') then failure
  else taggedValue? (← scanPlain least false) tag

/-- Takes the colon after a key, if it comes next. -/
def acceptColon : Scanner Bool := do
  let before ← get
  Scanner.skipWhile isSpace
  let found ← looksAtMark ':'
  if found then Scanner.expect ":" else set before
  return found

/-- Whether only blanks and a comment are left of the line. -/
def endsLine : Scanner Bool := do
  let next := ((← Scanner.rest).dropWhile isSpace).head?
  return isGap next || next = some '#'

/-- A key on one line with its colon, or a key after its own mark. -/
def scanPair (node : Place → Reader Document) (here : Nat) : Reader (Document × Document) := do
  if ← looksAtMark '?' then
    expect "?"
    let key ← node { Place.item here with outdents := true }
    skipGaps (here + 1)
    if (← column) = here && (← looksAtMark ':') then
      expect ":"
      return (key, ← node { Place.item here with outdents := true })
    else return (key, .null)
  else
    let start ← line
    let properties ← scanProperties
    (Scanner.skipWhile isSpace : Scanner Unit)
    let key ← properties.name (← scanAtom (here + 1) properties.tag)
    unless (← line) = start do failure
    unless ← acceptColon do failure
    return (key, ← node (.value here))

/-- The rest of a table at a column, after its first pairs. -/
def scanTable (node : Place → Reader Document) (here : Nat) (first : List (Document × Document)) :
    Reader Document := do
  let pairs ← Scanner.iterate (fun done => do
    skipGaps (here + 1)
    if (← atEnd) || (← column) < here then return none
    unless (← column) = here do failure
    return some ((← scanPair node here) :: done)) first
  tableOf? pairs.reverse

/-- A list at a column. Under a key it may end where another key begins. -/
def scanList (node : Place → Reader Document) (here : Nat) (outdented : Bool) :
    Reader Document := do
  let items ← Scanner.iterate (fun done => do
    skipGaps (here + 1)
    if (← atEnd) || (← column) < here then return none
    unless (← column) = here do failure
    if ← looksAtMark '-' then
      expect "-"
      return some ((← node (.item here)) :: done)
    else if outdented then return none
    else failure) []
  return .list items.reverse

/-- A part of a block at a place. What is missing is null. -/
def scanNode : Nat → Place → Reader Document
  | 0, _ => failure
  | depth + 1, place => do
    let before ← line
    skipGaps place.least
    let start ← line
    let opens := place.opens || start ≠ before
    let here ← column
    let node := scanNode depth
    let isDash ← looksAtMark '-'
    if ← atEnd then taggedValue? "" place.tag
    else if here < place.least then
      if isDash && opens && place.outdents && here + 1 = place.least then scanList node here true
      else taggedValue? "" place.tag
    else if isDash then
      if opens then scanList node here false else failure
    else if ← looksAtMark '?' then
      if opens then scanTable node here [] else failure
    else
      let properties ← scanProperties
      let tag := properties.tag <|> place.tag
      if !properties.isNone && (← endsLine) then
        -- The properties are those of what follows on the next lines.
        return ← properties.name (← node { place with opens := false, tag })
      (Scanner.skipWhile isSpace : Scanner Unit)
      let next ← (Scanner.peek? : Scanner (Option Char))
      if next = some '|' || next = some '>' then
        expect (if next = some '|' then "|" else ">")
        properties.name (.text (← scanBlock place.least (next = some '>')))
      else
        let d ← properties.name (← scanAtom place.least tag)
        if (← line) ≠ start then return d
        unless ← acceptColon do return d
        unless opens do failure
        scanTable node here [(d, ← node (.value here))]

/-! ## Texts -/

/-- Line feeds in the place of all line ends. -/
def unifyLineEnds : List Char → List Char
  | '\r' :: '\n' :: rest => '\n' :: unifyLineEnds rest
  | '\r' :: rest => '\n' :: unifyLineEnds rest
  | c :: rest => c :: unifyLineEnds rest
  | [] => []

/-- Drops the lines in front of a document that say how it is written. Whether there were any. -/
def skipDirectives : Scanner Bool :=
  Scanner.iterate (fun found => do
    skipGaps 0
    if (← Scanner.column) = 0 && (← Scanner.looksAt "%") then
      Scanner.skipWhile (· ≠ '\n')
      return some true
    else if !found && (← looksAtLine "...") then
      Scanner.expect "..."
      expectLineEnd
      return some false
    else return none) false

/-- Drops the marks after a document, behind which there may be no other one. -/
def skipMarks : Scanner Unit := do
  let _ ← Scanner.many do
    skipGaps 0
    unless ← looksAtLine "..." do return none
    Scanner.expect "..."
    some <$> expectLineEnd

/-- The only document of a text; a text without any is an empty table. -/
def scanDocument : Reader Document := do
  let directed ← skipDirectives
  let input ← (Scanner.rest : Scanner (List Char))
  let node := scanNode (input.length + 1)
  if ← looksAtLine "---" then
    expect "---"
    let d ← node ⟨0, false, false, none⟩
    skipMarks
    return d
  else if directed then failure
  else if input.isEmpty then return .table []
  else
    let d ← node ⟨0, true, false, none⟩
    skipMarks
    return d

/-- The document that a whole text stands for. -/
def parse? (text : String) : Option Document :=
  Scanner.read? (scanDocument.run' []) (String.ofList (unifyLineEnds text.toList))

end Interposition.Yaml
