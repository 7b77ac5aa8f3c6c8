/-
Loosely typed data, as callers hand it in and as the chat service takes it:
overrides of a configuration, the fields of an embed, a control whose parts
nobody has checked yet.
-/
import Folio.Number.Decimal
import Folio.Table
import Folio.Text.Units

namespace Folio

/-- A value of unchecked type. -/
inductive Value where
  /-- A member that was named and left undefined. -/
  | absent
  | null
  | bool (b : Bool)
  | number (n : Number)
  | text (s : String)
  | list (items : List Value)
  | record (fields : List (String × Value))
deriving Inhabited

/-- The members of a record. -/
abbrev Record := Table String Value

/-- A member of a record, `absent` if there is none. -/
def Record.member (r : Record) (key : String) : Value := (r.get? key).getD .absent

namespace Value

/-- Whether a value counts as given: everything but the absent, null, false,
zero, `nan` and empty ones. -/
def isGiven : Value → Bool
  | .absent | .null => false
  | .bool b => b
  | .number n => n != .nan && n != 0
  | .text s => s != ""
  | .list _ | .record _ => true

/-- Whether a value is absent or null. -/
def isNothing : Value → Bool
  | .absent | .null => true
  | _ => false

/-- Whether a value is absent. -/
def isAbsent : Value → Bool
  | .absent => true
  | _ => false

/-- The members of a record; other values have none that are named by words. -/
def fields : Value → Record
  | .record r => r
  | _ => []

/-- The value as it reads inside a text. -/
def display : Value → String
  | .absent => "undefined"
  | .null => "null"
  | .bool b => toString b
  | .number n => n.text
  | .text s => s
  | .list items => ",".intercalate (displayItems items)
  | .record _ => "[object Object]"
where
  /-- The items of a list; one that is absent or null reads as nothing. -/
  displayItems : List Value → List String
    | [] => []
    | .absent :: more | .null :: more => "" :: displayItems more
    | item :: more => display item :: displayItems more

/-- The members of a value, as far as it has any: the items of a list and the
16-bit units of a text have their positions as names. Only null cannot have
members. -/
def members? : Value → Option Record
  | .null => none
  | .record fields => some fields
  | .list items => some (numbered 0 items)
  | .text s => some (numbered 0 (s.toList.flatMap unitsOf))
  | .absent | .bool _ | .number _ => some []
where
  /-- The items of a list with their positions from `k` on. -/
  numbered (k : Nat) : List Value → Record
    | [] => []
    | item :: more => (toString k, item) :: numbered (k + 1) more
  /-- The units of a character; half of a pair is no text by itself. -/
  unitsOf (c : Char) : List Value :=
    if Text.charUnits c = 1 then [.text (String.singleton c)] else [.text "\ufffd", .text "\ufffd"]

end Value

end Folio
