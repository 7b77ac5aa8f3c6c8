/-
Summaries. White space collapses to single spaces, and a text that is then
still too long is cut at a word boundary so that it fits with three dots after
it. A first word that is already too long is cut inside.
-/
import Folio.Number.Basic
import Folio.Text.Blank

namespace Folio.Text

/-- What stands for the part of a text that was cut off. -/
def ellipsis : List Char := ['.', '.', '.']

/-- Words joined by single spaces. -/
def joinWords (ws : List (List Char)) : List Char := [' '].intercalate ws

/-- `line` and the next of `words` after it, as long as `room` characters hold them. -/
def longestFit (room : Int) (line : List Char) : List (List Char) → List Char
  | [] => line
  | w :: ws =>
    let next := if line = [] then w else line ++ ' ' :: w
    if room < next.length then line else longestFit room next ws

/-- The text collapsed, and cut to `width` characters if it is longer. -/
def shorten (width : Int) (text : List Char) : List Char :=
  let ws := words text
  let collapsed := joinWords ws
  if collapsed.length ≤ width then collapsed
  else
    let room := width - ellipsis.length
    let line := longestFit room [] ws
    (if line = [] then collapsed.take room.toNat else line) ++ ellipsis

/-- The characters in a summary. -/
def summaryWidth : Nat := 40

/-- The text cut to a width that need not be an integer. A text is never too
long for an infinite width, and always for one that is no number. -/
def shortenTo (width : Number) (text : List Char) : List Char :=
  match width with
  | .finite q => shorten q.floor text
  | .infinite false => joinWords (words text)
  | .infinite true => shorten (-1) text
  | .nan => joinWords (words text) ++ ellipsis

end Folio.Text
