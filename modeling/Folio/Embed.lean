/-
Embeds: the framed part of a message. Their fields are kept as given, with three
exceptions: names are in snake case at every depth, a text that is named `emoji`
is resolved, and a timestamp is in its full written form.
-/
import Folio.Calendar.Reading
import Folio.Emoji
import Folio.Text.SnakeCase
import Folio.Text.Units

namespace Folio

/-- A record in which the last of several members of one name counts. -/
def Record.ofList (fields : List (String × Value)) : Record :=
  fields.foldl (fun r f => r.put f.1 f.2) []

/-- A value as an embed holds it: the names in it are in snake case, and a text
with the name `emoji` becomes the emoji that it stands for, null if there is none. -/
def Value.held : Value → Except Fault Value
  | .list items => (inItems items).map .list
  | .record fields => (inFields fields).map fun fs => .record (Record.ofList fs)
  | v => .ok v
where
  /-- The items of a list as an embed holds them. -/
  inItems : List Value → Except Fault (List Value)
    | [] => .ok []
    | item :: more => do return (← item.held) :: (← inItems more)
  /-- The members of a record as an embed holds them. -/
  inFields : List (String × Value) → Except Fault (List (String × Value))
    | [] => .ok []
    | (name, v) :: more => do
      let v ← match name, v with
        | "emoji", .text s => emojiValue s
        | _, v => v.held
      return (Text.snakeCase name, v) :: (← inFields more)
  /-- The emoji that a text stands for, as a value. -/
  emojiValue (s : String) : Except Fault Value := do
    return ((← EmojiParts.read? s.toList).map fun parts => .record parts.toRecord).getD .null

/-- An embed. -/
structure Embed where
  fields : Record
deriving Inhabited

namespace Embed

/-- The embed without fields. -/
def empty : Embed := ⟨[]⟩

/-- The embed with a field set. -/
def set (e : Embed) (name : String) (v : Value) : Embed := ⟨e.fields.put name v⟩

/-- The embed of the given fields. -/
def ofFields (fields : List (String × Value)) : Except Fault Embed := do
  let r := Record.ofList (← Value.held.inFields fields)
  let timestamp := r.member "timestamp"
  if timestamp.isGiven then
    match Calendar.ofValue? timestamp with
    | some moment => .ok ⟨r.put "timestamp" (.text (Calendar.written moment))⟩
    | none => .error .outOfRange
  else .ok ⟨r⟩

/-- The embed of the members of a value. -/
def ofValue (v : Value) : Except Fault Embed :=
  match v.members? with
  | some fields => ofFields fields
  | none => .error .missing

/-- The title, which may be of any type. -/
def title (e : Embed) : Value := e.fields.member "title"

/-- The description, which may be of any type. -/
def description (e : Embed) : Value := e.fields.member "description"

/-- The units in a title. -/
def titleLimit : Nat := 256

/-- The units in a description. -/
def descriptionLimit : Nat := 4096

/-- A text of at least one unit and at most `most`. -/
def fits (most : Nat) (text : String) : Bool :=
  1 ≤ Text.unitLength text && Text.unitLength text ≤ most

/-- The embed with a title. -/
def withTitle (e : Embed) (title : String) : Except Fault Embed :=
  if fits titleLimit title then .ok (e.set "title" (.text title)) else .error (.part .badEmbedText)

/-- The embed with a description. -/
def withDescription (e : Embed) (text : String) : Except Fault Embed :=
  if fits descriptionLimit text then .ok (e.set "description" (.text text))
  else .error (.part .badEmbedText)

/-- The embed with a footer of this text, in place of any other. -/
def withFooter (e : Embed) (text : String) : Embed := e.set "footer" (.record [("text", .text text)])

/-- The embed with a colour, unless it has the field already. -/
def withColorByDefault (e : Embed) (color : Nat) : Embed :=
  if (e.fields.member "color").isAbsent then e.set "color" (.number color) else e

/-- The embed with a title, unless one is given already. -/
def withTitleByDefault (e : Embed) : Option String → Embed
  | some title => if e.title.isGiven then e else e.set "title" (.text title)
  | none => e

end Embed

end Folio
