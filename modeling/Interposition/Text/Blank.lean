/-!
# Interposition.Text.Blank — white space

Unicode's `White_Space` property and the cuts made at it: lines, trimming, words.
-/

namespace Interposition.Text

/-- The characters with Unicode's `White_Space` property. -/
def isBlank (c : Char) : Bool :=
  let n := c.toNat
  (0x09 ≤ n && n ≤ 0x0D) || n == 0x20 || n == 0x85 || n == 0xA0 || n == 0x1680 ||
    (0x2000 ≤ n && n ≤ 0x200A) || n == 0x2028 || n == 0x2029 || n == 0x202F ||
    n == 0x205F || n == 0x3000

/-! ## Lines and words -/

/-- The pieces of a text between separators; one more than there are separators. -/
def pieces (isSeparator : Char → Bool) : List Char → List (List Char)
  | [] => [[]]
  | c :: rest =>
    if isSeparator c then [] :: pieces isSeparator rest
    else
      match pieces isSeparator rest with
      | [] => [[c]]
      | piece :: others => (c :: piece) :: others

/-- The lines of a text. A carriage return stays at the end of its line. -/
def lines (text : List Char) : List (List Char) :=
  pieces (· == '\n') text

/-- A text without the blanks at both ends. -/
def trim (text : List Char) : List Char :=
  ((text.dropWhile isBlank).reverse.dropWhile isBlank).reverse

/-- The maximal runs of characters that are not blank. -/
def words (text : List Char) : List (List Char) :=
  (pieces isBlank text).filter (!·.isEmpty)

end Interposition.Text
