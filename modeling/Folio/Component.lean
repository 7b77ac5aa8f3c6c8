/-
Rendering: controls as the chat service takes them. Each part of a control is
checked on its own, in a fixed order, and the first that is refused fails the
whole. A control may come as a record that nobody has checked.
-/
import Folio.Control

namespace Folio

/-- A rendered control. -/
inductive Component where
  | menu (customId placeholder : String) (options : List MenuOption) (disabled : Bool)
  | button (customId : String) (style : Nat) (emoji : EmojiParts) (disabled : Bool)
deriving DecidableEq, Repr

/-- Rendered controls in rows. -/
abbrev ComponentRows := List (List Component)

namespace Component

/-- The units in a custom id, a label or a value. -/
def maxText : Nat := 100

/-- A text of `least` to `most` units. -/
def checkText (least most : Nat) : Value → Except Fault String
  | .text s =>
    if least ≤ Text.unitLength s ∧ Text.unitLength s ≤ most then .ok s
    else .error (.part .badLength)
  | _ => .error (.part .notText)

/-- A truth value, which holds when it is left out. -/
def checkFlag : Value → Except Fault Bool
  | .bool b => .ok b
  | .absent => .ok true
  | _ => .error (.part .notBool)

/-- The names of the styles, the first of number 1. -/
def styleNames : List String := ["Primary", "Secondary", "Success", "Danger", "Link", "Premium"]

/-- The number of a style, given as a number, as its digit, or by name. -/
def checkStyle : Value → Except Fault Nat
  | .number n =>
    match (List.range 6).find? fun k => ((k + 1 : Nat) : Number) = n with
    | some k => .ok (k + 1)
    | none => .error (.part .unknownStyle)
  | .text s =>
    match (List.range 6).find? fun k => toString (k + 1) = s || styleNames[k]? = some s with
    | some k => .ok (k + 1)
    | none => .error (.part .unknownStyle)
  | _ => .error (.part .notStyle)

/-- A member of a value that has members. -/
def memberOf (key : String) : Value → Except Fault Value
  | .record r => .ok (Record.member r key)
  | .absent | .null => .error .missing
  | _ => .ok .absent

/-- An entry of a menu. -/
def checkOption (v : Value) : Except Fault MenuOption := do
  let label ← checkText 1 maxText (← memberOf "label" v)
  let value ← checkText 1 maxText (← memberOf "value" v)
  return ⟨label, value⟩

/-- The entries of a menu. -/
def checkOptions : Value → Except Fault (List MenuOption)
  | .list items => do
    let options ← items.mapM checkOption
    if options.length ≤ maxMenuOptions then .ok options else .error (.part .badCount)
  | _ => .error .missing

/-- The control that a record is. -/
def ofRecord (control : Record) : Except Fault Component := do
  let customId ← checkText 1 maxText (control.member "customId")
  if control.isMenu then
    let placeholder ← checkText 0 maxPlaceholder (control.member "placeholder")
    let disabled ← checkFlag (control.member "disabled")
    let options ← checkOptions (control.member "options")
    return .menu customId placeholder options disabled
  else
    let style ← checkStyle (control.member "style")
    let emoji ← EmojiParts.ofValue (control.member "emoji")
    let disabled ← checkFlag (control.member "disabled")
    return .button customId style emoji disabled

/-- Whether a control is complete. The styles for links and for purchases need
parts that no page control has. -/
def isComplete : Component → Bool
  | .menu .. => true
  | .button _ style _ _ => style ≤ 4

/-- Whether a rendered control is disabled. -/
def isDisabled : Component → Bool
  | .menu _ _ _ disabled | .button _ _ _ disabled => disabled

/-- Controls rendered in rows. -/
def rows (controls : List Record) : Except Fault ComponentRows :=
  (spread Record.isMenu controls).mapM fun row => row.mapM ofRecord

/-- Controls rendered in rows, each of them complete. -/
def completeRows (controls : List Record) : Except Fault ComponentRows := do
  let rendered ← rows controls
  if rendered.all (·.all isComplete) then .ok rendered else .error (.part .incompleteStyle)

end Component

/-- The rendered controls at a position. -/
def Layout.render (l : Layout) (off : Bool) : Except Fault ComponentRows := do
  Component.rows ((← l.controls off).map Control.toRecord)

/-- The rendered controls at an index that need not be a whole number. -/
def Layout.renderAt (session : String) (pages : List Page) (index : Number) (config : Config)
    (off : Value) : Except Fault ComponentRows := do
  Component.rows (← Layout.recordsAt session pages index config off)

end Folio
