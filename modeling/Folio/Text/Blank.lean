/-
Two notions of white space. `isBreak` is the narrow one at which words are
wrapped: ASCII alone, so a no-break space stays inside its word. `isBlank` is
the wide one that trimming and summaries use: the Unicode space separators, the
line and paragraph separators and the byte order mark as well.
-/
namespace Folio.Text

/-- ASCII white space: tab, line feed, vertical tab, form feed, carriage return, space. -/
def isBreak (c : Char) : Bool :=
  c == '\t' || c == '\n' || c == '\x0b' || c == '\x0c' || c == '\r' || c == ' '

/-- White space of any script. -/
def isBlank (c : Char) : Bool :=
  isBreak c || c == '\u00a0' || c == '\u1680' || ('\u2000' ≤ c && c ≤ '\u200a') ||
    c == '\u2028' || c == '\u2029' || c == '\u202f' || c == '\u205f' || c == '\u3000' || c == '\ufeff'

/-- The text without the white space at either end. -/
def trim (text : String) : String :=
  let front := text.toList.dropWhile isBlank
  String.ofList (front.reverse.dropWhile isBlank).reverse

/-- The words of a text: its maximal runs without white space. -/
def words : List Char → List (List Char)
  | [] => []
  | c :: cs =>
    if isBlank c then words cs
    else
      match cs with
      | [] => [[c]]
      | d :: _ =>
        if isBlank d then [c] :: words cs
        else
          match words cs with
          | w :: ws => (c :: w) :: ws
          | [] => [[c]]

end Folio.Text
