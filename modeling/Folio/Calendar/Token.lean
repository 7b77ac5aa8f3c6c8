/-
The parts of a text that writes a date: numbers, words, marks, blanks, and what
does not count. A word is a month if its first three letters are those of one;
the other words that mean something do so only when nothing follows them.
-/
import Folio.Text.Blank

namespace Folio.Calendar

/-- What a word says. -/
inductive Word where
  /-- A month, from 1. -/
  | month (number : Nat)
  /-- A half of the day, and the hours before it. -/
  | half (hours : Nat)
  /-- A zone, and its hours ahead of universal time. -/
  | zone (hours : Int)
  /-- The letter between a date and a time. -/
  | separator
  | other
deriving DecidableEq, Repr

/-- A part of a text. -/
inductive Token where
  /-- A row of digits: what it writes, and how many digits there are. -/
  | number (value digits : Nat)
  /-- One of `:`, `-`, `+`, `.` and `)`. -/
  | mark (c : Char)
  | word (w : Word) (letters : Nat)
  | blank
  /-- Anything else, and all that stands in parentheses. -/
  | other
deriving DecidableEq, Repr

/-- The first three letters of the months. -/
def monthNames : List String :=
  ["jan", "feb", "mar", "apr", "may", "jun", "jul", "aug", "sep", "oct", "nov", "dec"]

/-- The zones that have a name, and their hours ahead of universal time. -/
def zoneNames : List (String × Int) :=
  [("ut", 0), ("utc", 0), ("z", 0), ("gmt", 0), ("cdt", -5), ("cst", -6), ("edt", -4), ("est", -5),
    ("mdt", -6), ("mst", -7), ("pdt", -7), ("pst", -8)]

/-- What a word of these letters says. -/
def Word.ofLetters (letters : List Char) : Word :=
  let name := letters.map Char.toLower
  match monthNames.findIdx? fun m => m.toList = name.take 3 with
  | some k => .month (k + 1)
  | none =>
    if name = ['a', 'm'] then .half 0
    else if name = ['p', 'm'] then .half 12
    else if name = ['t'] then .separator
    else
      match zoneNames.find? fun z => z.1.toList = name with
      | some (_, hours) => .zone hours
      | none => .other

/-- A letter of a word: whatever is no mark, no digit and no blank. -/
def isLetter (c : Char) : Bool := 'A' ≤ c && !Text.isBlank c

/-- The digits of a number that count. -/
def maxDigits : Nat := 9

/-- What a row of digits writes. Zeros at its front and digits beyond `maxDigits`
do not count. -/
def digitsValue (ds : List Char) : Nat :=
  ((ds.dropWhile (· == '0')).take maxDigits).foldl (fun n d => 10 * n + (d.toNat - '0'.toNat)) 0

/-- The text after the parentheses of which `depth` are open. -/
def afterParentheses : (depth : Nat) → List Char → List Char
  | 0, text => text
  | _ + 1, [] => []
  | depth + 1, ')' :: text => afterParentheses depth text
  | depth + 1, '(' :: text => afterParentheses (depth + 2) text
  | depth + 1, _ :: text => afterParentheses (depth + 1) text

/-- The token at the front of the text `c :: text`, and the text after it. -/
def token (c : Char) (text : List Char) : Token × List Char :=
  if c.isDigit then
    let ds := c :: text.takeWhile Char.isDigit
    (.number (digitsValue ds) ds.length, text.dropWhile Char.isDigit)
  else if c ∈ [':', '-', '+', '.', ')'] then (.mark c, text)
  else if isLetter c then
    let letters := c :: text.takeWhile isLetter
    (.word (.ofLetters letters) letters.length, text.dropWhile isLetter)
  else if Text.isBlank c then (.blank, text)
  else if c = '(' then (.other, afterParentheses 1 text)
  else (.other, text)

theorem length_afterParentheses_le (depth : Nat) (text : List Char) :
    (afterParentheses depth text).length ≤ text.length := by
  fun_induction afterParentheses depth text with
  | case1 => exact Nat.le_refl _
  | case2 => exact Nat.le_refl _
  | case3 _ _ ih | case4 _ _ ih | case5 _ _ _ _ _ ih => exact Nat.le_succ_of_le ih

theorem length_dropWhile_le (p : Char → Bool) (text : List Char) :
    (text.dropWhile p).length ≤ text.length :=
  (List.dropWhile_sublist p).length_le

theorem length_token_le (c : Char) (text : List Char) : (token c text).2.length ≤ text.length := by
  unfold token
  split
  · exact length_dropWhile_le _ _
  · split
    · exact Nat.le_refl _
    · split
      · exact length_dropWhile_le _ _
      · split
        · exact Nat.le_refl _
        · split
          · exact length_afterParentheses_le _ _
          · exact Nat.le_refl _

/-- The tokens of a text. -/
def tokens : List Char → List Token
  | [] => []
  | c :: text => (token c text).1 :: tokens (token c text).2
termination_by text => text.length
decreasing_by exact Nat.lt_succ_of_le (length_token_le c text)

end Folio.Calendar
