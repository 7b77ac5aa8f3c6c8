/-
Packing entries into pages without splitting one. Each entry is followed by a
line feed; an entry that does not fit on the current page starts the next, and
one that is too long for any page has a page of its own.
-/
import Folio.Text.Units

namespace Folio.Text

/-- A limit on the length of a page in 16-bit units; `none` is no limit. -/
abbrev Limit := Option Int

/-- Whether a length is within a limit. -/
def Limit.admits (limit : Limit) (length : Nat) : Bool :=
  match limit with
  | none => true
  | some most => (length : Int) ≤ most

/-- An entry as it stands on a page. -/
def entryLine (entry : List Char) : List Char := entry ++ ['\n']

/-- The text of a page with these entries. -/
def pageText (entries : List (List Char)) : List Char := (entries.map entryLine).flatten

/-- The groups of entries that share a page, `current` being the page under way. -/
def packOnto (limit : Limit) (current : List (List Char)) : List (List Char) → List (List (List Char))
  | [] => if current = [] then [] else [current]
  | entry :: rest =>
    if current ≠ [] ∧ limit.admits (units (pageText current) + units (entryLine entry)) = false then
      current :: packOnto limit [entry] rest
    else packOnto limit (current ++ [entry]) rest

/-- The entries in order, grouped by page. -/
def packGroups (limit : Limit) (entries : List (List Char)) : List (List (List Char)) :=
  packOnto limit [] entries

/-- The texts of the pages that the entries fill. -/
def pack (limit : Limit) (entries : List (List Char)) : List (List Char) :=
  (packGroups limit entries).map pageText

end Folio.Text
