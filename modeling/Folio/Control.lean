/-
Controls: the menu and the buttons under a page, before they are rendered.
`Layout.controls` builds the ones that a configuration shows, in display order,
and `spread` lays controls out in rows.
-/
import Folio.Config.Basic
import Folio.Page

namespace Folio

/-- An entry of a menu. -/
structure MenuOption where
  label : String
  value : String
deriving DecidableEq, Repr

/-- A control. -/
inductive Control where
  | menu (customId placeholder : String) (options : List MenuOption) (disabled : Bool)
  | button (role : Role) (customId : String) (emoji : Emoji) (style : Style) (disabled : Bool)
deriving DecidableEq, Repr

/-- The entry as a record. -/
def MenuOption.toRecord (o : MenuOption) : Record :=
  [("label", .text o.label), ("value", .text o.value)]

/-- The control as a record. -/
def Control.toRecord : Control → Record
  | .menu customId placeholder options disabled =>
    [("kind", .text "select"), ("role", .text Role.select.name), ("customId", .text customId),
      ("placeholder", .text placeholder), ("options", .list (options.map fun o => .record o.toRecord)),
      ("disabled", .bool disabled)]
  | .button role customId emoji style disabled =>
    [("kind", .text "button"), ("role", .text role.name), ("customId", .text customId),
      ("emoji", emoji.toValue), ("style", .number style.number), ("disabled", .bool disabled)]

/-- The control as a record, where `off` is what was said about turning it off.
If that is given, it is shown as it was said. -/
def Control.toRecordAs (off : Value) (c : Control) : Record :=
  match c with
  | .menu .. => c.toRecord.put "disabled" (if off.isNothing then .bool false else off)
  | .button .. => if off.isGiven then c.toRecord.put "disabled" off else c.toRecord

/-- Whether a record is a control that takes a row of its own. -/
def Record.isMenu (control : Record) : Bool :=
  match control.member "kind" with
  | .text kind => kind = "select"
  | _ => false

/-! ### The menu -/

/-- The entries that a menu takes. -/
def maxMenuOptions : Nat := 25

/-- The characters in an entry's label. -/
def maxLabel : Nat := 100

/-- The characters in a placeholder. -/
def maxPlaceholder : Nat := 150

/-- A text of at most `most` characters: a longer one ends in an ellipsis. -/
def clip (most : Nat) (text : String) : String :=
  if text.length ≤ most then text else String.ofList (text.toList.take (most - 1) ++ ['…'])

/-- The indices that a menu offers at `index` out of `count`: all of them, or as
many as it takes, around the index where both ends allow. `length` says how many
entries a list of the given length has. -/
def menuWindow {α : Type} [Add α] [Sub α] [Min α] [Max α] [NatCast α] (length : α → Nat)
    (index count : α) : List α :=
  let size := min count ((maxMenuOptions : Nat) : α)
  let start := min (max (index - ((maxMenuOptions / 2 : Nat) : α)) ((0 : Nat) : α)) (count - size)
  (List.range (length size)).map fun (k : Nat) => start + (k : α)

/-- What a layout is made for: a position among the pages of a session. -/
structure Layout where
  session : String
  pages : List Page
  index : Nat
  config : Config

namespace Layout

/-- How a page is called in the menu. -/
def label (index : Nat) (page : Page) : Except Fault String :=
  (page.summary index).map fun summary => toString (index + 1) ++ " " ++ summary.display

/-- How the page at an index is called in the menu, clipped to so many characters. -/
def labelAt (l : Layout) (index most : Nat) : Except Fault String :=
  match l.pages[index]? with
  | some page => (label index page).map (clip most)
  | none => .error .missing

/-- The entries of the menu. -/
def menuOptions (l : Layout) : Except Fault (List MenuOption) :=
  (menuWindow id l.index l.pages.length).mapM fun i =>
    (l.labelAt i maxLabel).map fun label => ⟨label, toString i⟩

/-- The menu, which names the page that is shown. -/
def menu (l : Layout) (off : Bool) : Except Fault Control := do
  let placeholder ← l.labelAt l.index maxPlaceholder
  return .menu (customId l.session .select) placeholder (← l.menuOptions) off

/-- The buttons that a configuration shows, in display order; `idle` says which
of them have nothing to do. -/
def buttons (session : String) (config : Config) (idle : Role → Bool) (off : Bool) : List Control :=
  Role.all.filterMap fun role =>
    if config.shows role then
      (config.emoji? role).map fun emoji =>
        .button role (customId session role) emoji config.buttonStyle (off || idle role)
    else none

/-- The buttons that have nothing to do at a position. -/
def idleAt (atStart atEnd : Bool) : Role → Bool
  | .first | .back => atStart
  | .next | .last => atEnd
  | .select | .callback => false

/-- The controls at a position, all of them disabled if `off`. -/
def controls (l : Layout) (off : Bool) : Except Fault (List Control) :=
  let row := buttons l.session l.config (idleAt (l.index = 0) (l.pages.length ≤ l.index + 1)) off
  if l.config.showSelectMenu && !l.pages.isEmpty then (l.menu off).map (· :: row) else .ok row

/-- The controls at an index that need not be a whole number. Where it is none,
there is no page to name in the menu. -/
def controlsAt (session : String) (pages : List Page) (index : Number) (config : Config) (off : Bool) :
    Except Fault (List Control) :=
  match index.toNat? with
  | some i => controls ⟨session, pages, i, config⟩ off
  | none =>
    if config.showSelectMenu && !pages.isEmpty then .error .missing
    else
      let last : Number := ((pages.length - 1 : Int) : Number)
      .ok (buttons session config (idleAt false (last.le index)) off)

/-- The controls at an index that need not be a whole number, as records, where
`off` is of any type. -/
def recordsAt (session : String) (pages : List Page) (index : Number) (config : Config) (off : Value) :
    Except Fault (List Record) :=
  (controlsAt session pages index config off.isGiven).map fun controls =>
    controls.map (Control.toRecordAs off)

end Layout

/-! ### Rows -/

/-- The controls that a value lists, of which none may be nothing; the controls
of a text are its characters. -/
def controlsOf (v : Value) : Except Fault (List Value) :=
  let items := match v with
    | .list items => some items
    | .text s => some (s.toList.map fun c => .text (String.singleton c))
    | _ => none
  match items with
  | some items => if items.any Value.isNothing then .error .missing else .ok items
  | none => .error .missing

/-- The buttons that a row takes. -/
def maxRowButtons : Nat := 5

/-- The row of the pending buttons, if there are any. -/
def flush {α : Type} (pending : List α) : List (List α) := if pending.isEmpty then [] else [pending]

/-- The rows of the controls after those that are `pending` for the current row. -/
def spreadOnto {α : Type} (alone : α → Bool) (pending : List α) : List α → List (List α)
  | [] => flush pending
  | c :: cs =>
    if alone c then flush pending ++ [c] :: spreadOnto alone [] cs
    else if pending.length = maxRowButtons then pending :: spreadOnto alone [c] cs
    else spreadOnto alone (pending ++ [c]) cs

/-- Controls in rows: one that stands `alone` takes a row to itself, the others
share rows of up to `maxRowButtons`. -/
def spread {α : Type} (alone : α → Bool) (controls : List α) : List (List α) :=
  spreadOnto alone [] controls

end Folio
