/-
Emoji on buttons. A text is read as an id when it is all digits, as a mention
`name:id` when it has a colon, and as the character itself otherwise; percent
escapes in it are decoded first.
-/
import Folio.Fault
import Folio.Text.Percent
import Folio.Value

namespace Folio

/-- An emoji as the chat service takes it. -/
structure EmojiParts where
  id : Option String
  name : Option String
  animated : Option Bool
deriving DecidableEq, Repr

/-- An emoji as a configuration gives it. -/
inductive Emoji where
  | text (s : String)
  | parts (p : EmojiParts)
deriving DecidableEq, Repr

namespace EmojiParts

/-- The members that an emoji may have. -/
def keys : List String := ["id", "name", "animated"]

/-- An optional member that is a text. -/
def text? (v : Value) : Option (Option String) :=
  match v with
  | .absent => some none
  | .text s => some (some s)
  | _ => none

/-- An optional member that is a truth value. -/
def bool? (v : Value) : Option (Option Bool) :=
  match v with
  | .absent => some none
  | .bool b => some (some b)
  | _ => none

/-- The known members of a record, if each has its type. -/
def ofKnown? (r : Record) : Option EmojiParts :=
  match text? (r.member "id"), text? (r.member "name"), bool? (r.member "animated") with
  | some id, some name, some animated => some ⟨id, name, animated⟩
  | _, _, _ => none

/-- The members of a record that no emoji has. -/
def unknown (r : Record) : List String := (r.map (·.1)).filter fun key => key ∉ keys

/-- A letter of a mention's name. -/
def isNameChar (c : Char) : Bool := c.isAlphanum || c == '_'

/-- Whether a text is an id: 17 to 19 digits. -/
def isId (text : List Char) : Bool := text.all Char.isDigit && 17 ≤ text.length && text.length ≤ 19

/-- The name and id after the mark of a mention: 2 to 32 letters, a colon, and
as many digits of an id as there are, if these are enough. -/
def named? (animated : Bool) (text : List Char) : Option EmojiParts :=
  let name := text.takeWhile isNameChar
  match text.dropWhile isNameChar with
  | ':' :: rest =>
    if 2 ≤ name.length ∧ name.length ≤ 32 then
      let id := (rest.takeWhile Char.isDigit).take 19
      some ⟨if isId id then some (String.ofList id) else none, some (String.ofList name), some animated⟩
    else none
  | _ => none

/-- The mention at the front of a text. -/
def mentionAt? (text : List Char) : Option EmojiParts :=
  match if text.head? = some '<' then text.tail else text with
  | 'a' :: ':' :: rest => named? true rest
  | rest => named? false rest

/-- The first mention in a text. -/
def mention? : List Char → Option EmojiParts
  | [] => none
  | c :: cs =>
    match mentionAt? (c :: cs) with
    | some parts => some parts
    | none => mention? cs

/-- The emoji that a text stands for, if it does; an empty text is none. -/
def read? (text : List Char) : Except Fault (Option EmojiParts) :=
  if text = [] then .ok none
  else if isId text then .ok (some ⟨some (String.ofList text), none, none⟩)
  else
    match if '%' ∈ text then Text.percentDecode? text else some text with
    | none => .error .badEscape
    | some text =>
      .ok (if ':' ∈ text then mention? text else some ⟨none, some (String.ofList text), some false⟩)

/-- The emoji that a text has to stand for. -/
def ofText (text : List Char) : Except Fault EmojiParts := do
  match ← read? text with
  | some parts => return parts
  | none => .error (.part .notEmoji)

/-- The emoji that a value stands for. -/
def ofValue : Value → Except Fault EmojiParts
  | .text s => ofText s.toList
  | .record r =>
    match ofKnown? r with
    | some parts => if unknown r = [] then .ok parts else .error (.part .badMembers)
    | none => .error (.part .badMembers)
  | .null => .error (.part .notEmoji)
  | .list _ => .error (.part .notRecordButList)
  | .absent => .error (.part (.notRecord "undefined"))
  | .bool _ => .error (.part (.notRecord "boolean"))
  | .number _ => .error (.part (.notRecord "number"))

/-- The parts as members of a record. -/
def toRecord (p : EmojiParts) : Record :=
  [("id", (p.id.map Value.text).getD .absent), ("name", (p.name.map Value.text).getD .absent),
    ("animated", (p.animated.map Value.bool).getD .absent)]

end EmojiParts

/-- The emoji as a value. -/
def Emoji.toValue : Emoji → Value
  | .text s => .text s
  | .parts p => .record p.toRecord

end Folio
