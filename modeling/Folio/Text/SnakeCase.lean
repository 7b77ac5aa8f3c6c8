/-
Snake case: the words of a name in lower case, joined by underscores. A word
starts at each capital, except that a row of capitals is one word, whose last
capital belongs to the next word if a small letter follows; digits in a row are
a word too, and every other character only separates.
-/
namespace Folio.Text

/-- The classes of characters that the words of a name are made of. -/
inductive NameClass where
  | small
  | capital
  | digit
  | other
deriving DecidableEq

/-- The class of a character. -/
def nameClass (c : Char) : NameClass :=
  if c.isLower then .small
  else if c.isUpper then .capital
  else if c.isDigit then .digit
  else .other

/-- Whether the word that `c` ends goes on with `d`, when `e` comes after that. -/
def sameWord (c d : Char) (e : Option Char) : Bool :=
  match nameClass c, nameClass d with
  | .small, .small => true
  | .digit, .digit => true
  | .capital, .small => true
  | .capital, .capital => !(e.map nameClass == some .small)
  | _, _ => false

/-- The words of a name. -/
def nameWords : List Char → List (List Char)
  | [] => []
  | c :: cs =>
    if nameClass c = .other then nameWords cs
    else
      match cs, nameWords cs with
      | d :: more, w :: ws => if sameWord c d more.head? then (c :: w) :: ws else [c] :: w :: ws
      | _, ws => [c] :: ws

/-- The name in snake case. -/
def snakeCase (name : String) : String :=
  String.ofList (['_'].intercalate ((nameWords name.toList).map fun w => w.map Char.toLower))

end Folio.Text
