/-!
# Interposition.Text.Utf8 — text from bytes

Two readings of a byte sequence as text. `decode?` accepts exactly the well-formed UTF-8
sequences. `decodeLossy` accepts everything: each maximal sequence of bytes that starts a
character and cannot be continued becomes one replacement character.
-/

namespace Interposition.Text

/-- The UTF-8 encoding of a text. -/
def utf8 (text : String) : List UInt8 :=
  text.toUTF8.data.toList

/-- The text a well-formed UTF-8 sequence stands for. -/
def decode? (bytes : List UInt8) : Option String :=
  String.fromUTF8? ⟨bytes.toArray⟩

/-! ## Lossy reading -/

/-- U+FFFD, which stands where bytes could not be read. -/
def replacement : Char := '\uFFFD'

/-- Where a lossy reading stands between two bytes. -/
inductive Utf8State where
  /-- Between characters. -/
  | start
  /-- Inside a character: `left` more bytes, the next of them from `low` to `high`, after
  the leading bits `code`. -/
  | inside (left : Nat) (low high : UInt8) (code : Nat)

/-- Reads the first byte of a character: the text it completes and the state after it. -/
def Utf8State.first (byte : UInt8) : List Char × Utf8State :=
  let n := byte.toNat
  if n ≤ 0x7F then ([Char.ofNat n], .start)
  else if 0xC2 ≤ n ∧ n ≤ 0xDF then ([], .inside 1 0x80 0xBF (n - 0xC0))
  else if n = 0xE0 then ([], .inside 2 0xA0 0xBF 0)
  else if n = 0xED then ([], .inside 2 0x80 0x9F 0xD)
  else if 0xE1 ≤ n ∧ n ≤ 0xEF then ([], .inside 2 0x80 0xBF (n - 0xE0))
  else if n = 0xF0 then ([], .inside 3 0x90 0xBF 0)
  else if 0xF1 ≤ n ∧ n ≤ 0xF3 then ([], .inside 3 0x80 0xBF (n - 0xF0))
  else if n = 0xF4 then ([], .inside 3 0x80 0x8F 4)
  else ([replacement], .start)

/-- Reads one byte. A byte that cannot go on with a character starts a new one. -/
def Utf8State.next (byte : UInt8) : Utf8State → List Char × Utf8State
  | .start => Utf8State.first byte
  | .inside left low high code =>
    if low ≤ byte ∧ byte ≤ high then
      let code := code * 64 + (byte.toNat - 0x80)
      if left ≤ 1 then ([Char.ofNat code], .start)
      else ([], .inside (left - 1) 0x80 0xBF code)
    else
      let (text, state) := Utf8State.first byte
      (replacement :: text, state)

/-- Reads bytes from a state on; a character that the end cuts off is replaced. -/
def Utf8State.read : Utf8State → List UInt8 → List Char
  | .start, [] => []
  | .inside .., [] => [replacement]
  | state, byte :: rest =>
    let (text, state) := state.next byte
    text ++ state.read rest

/-- The text of any byte sequence, with replacement characters where it is not UTF-8. -/
def decodeLossy (bytes : List UInt8) : List Char :=
  Utf8State.start.read bytes

end Interposition.Text
