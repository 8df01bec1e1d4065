import Interposition.Text.Numeral

/-!
# Interposition.Text.Scanner — reading a text from its front

A scanner takes characters from the front of what is left of a text and gives a result, or
refuses the text. Of two scanners joined by `<|>` the second one starts where the first did.
Repetition goes on step by step; a step that goes on takes at least one character, so there are
no more steps than the text has characters.
-/

namespace Interposition

/-- What is left of a text, how many lines and characters of the line were taken, and how many
characters the whole text has. -/
structure Scanner.Position where
  rest : List Char
  line : Nat
  column : Nat
  size : Nat

abbrev Scanner := StateT Scanner.Position Option

namespace Scanner

/-! ## Positions -/

namespace Position

def start (text : String) : Position :=
  ⟨text.toList, 0, 0, text.length⟩

/-- The position after a character, when `rest` follows it. -/
def past (here : Position) (c : Char) (rest : List Char) : Position :=
  if c = '\n' then { here with rest, line := here.line + 1, column := 0 }
  else { here with rest, column := here.column + 1 }

/-- The longest run of characters with a property, and the position after it. -/
def spanFrom (here : Position) (isWanted : Char → Bool) (done : List Char) :
    List Char → List Char × Position
  | c :: rest =>
    if isWanted c then (here.past c rest).spanFrom isWanted (c :: done) rest
    else (done.reverse, here)
  | [] => (done.reverse, here)

end Position

variable {α σ : Type}

/-! ## Characters -/

def rest : Scanner (List Char) :=
  return (← get).rest

def line : Scanner Nat :=
  return (← get).line

def column : Scanner Nat :=
  return (← get).column

/-- The next character, which is not taken. -/
def peek? : Scanner (Option Char) :=
  return (← get).rest.head?

/-- Takes the next character. There must be one. -/
def next : Scanner Char := do
  match (← get).rest with
  | c :: rest =>
    modify (·.past c rest)
    return c
  | [] => failure

/-- Takes the longest run of characters with a property. -/
def takeWhile (isWanted : Char → Bool) : Scanner (List Char) :=
  modifyGet fun here => here.spanFrom isWanted [] here.rest

def skipWhile (isWanted : Char → Bool) : Scanner Unit := do
  let _ ← takeWhile isWanted

/-- Takes a number of characters. -/
def take : Nat → Scanner (List Char)
  | 0 => return []
  | count + 1 => return (← next) :: (← take count)

/-! ## Tokens -/

/-- Whether a text comes next, which is not taken. -/
def looksAt (token : String) : Scanner Bool :=
  return token.toList.isPrefixOf (← rest)

/-- Takes a text if it comes next. -/
def accept (token : String) : Scanner Bool := do
  let found ← looksAt token
  if found then let _ ← take token.length
  return found

/-- Takes the first of some texts that comes next. -/
def acceptOneOf : List String → Scanner Bool
  | [] => return false
  | token :: others => do if ← accept token then return true else acceptOneOf others

/-- Takes a text, which must come next. -/
def expect (token : String) : Scanner Unit := do
  unless ← accept token do failure

/-- Nothing may be left. -/
def expectEnd : Scanner Unit := do
  unless (← rest).isEmpty do failure

/-- A number of hexadecimal digits. -/
def hexadecimal (count : Nat) : Scanner Nat := do
  Text.numeral? 16 (← take count)

/-! ## Repetition -/

/-- Takes steps until one ends the repetition, at most `fuel`. -/
def iterateFor {m : Type → Type} [Monad m] [MonadLiftT Scanner m] (step : σ → m (Option σ))
    (s : σ) : Nat → m σ
  | 0 => (failure : Scanner σ)
  | fuel + 1 => do
    match ← step s with
    | none => return s
    | some s => iterateFor step s fuel

/-- Takes steps until one ends the repetition, and gives what the last one before it gave. -/
def iterate {m : Type → Type} [Monad m] [MonadLiftT Scanner m]
    (step : σ → m (Option σ)) (s : σ) : m σ := do
  let size ← (Position.size <$> get : Scanner Nat)
  iterateFor step s (size + 1)

/-- What the steps give, in order, up to the one that gives nothing. -/
def many (step : Scanner (Option α)) : Scanner (List α) :=
  List.reverse <$> iterate (fun done => return (← step).map (· :: done)) []

/-- Items with commas between them, up to a closing text. `skip` drops what may stand around
items; with `trailing` a comma may follow the last one. -/
def listed {m : Type → Type} [Monad m] [MonadLiftT Scanner m] (close : String)
    (trailing : Bool) (skip : Scanner Unit) (item : m α) : m (List α) := do
  skip
  if ← (accept close : Scanner Bool) then return []
  let first ← item
  skip
  let done ← iterate (fun done => do
    if ← (accept close : Scanner Bool) then return none
    (expect "," : Scanner Unit)
    skip
    if trailing then
      -- What follows the last comma is found again as the end.
      if ← (looksAt close : Scanner Bool) then
        return some done
    let another ← item
    skip
    return some (another :: done)) [first]
  return done.reverse

/-- The result of a scanner that takes a whole text. -/
def read? (scan : Scanner α) (text : String) : Option α :=
  (do
    let result ← scan
    expectEnd
    return result : Scanner α).run' (.start text)

end Scanner

end Interposition
