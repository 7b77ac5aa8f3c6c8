/-
Checking a record against the configuration it should be. All that is wrong is
reported, key by key in the order of `Config.keys`, with unknown keys last; a
check that succeeds yields the configuration.
-/
import Folio.Config.Basic
import Folio.Text.Units

namespace Folio.Config

/-- The outcome of a check: a value, or why there is none. -/
inductive Checked (ε α : Type) where
  | ok (a : α)
  | bad (causes : List ε)
deriving Repr

namespace Checked

variable {ε α β : Type}

/-- Both outcomes together: what is wrong with either counts. -/
def on : Checked ε (α → β) → Checked ε α → Checked ε β
  | .ok f, .ok a => .ok (f a)
  | .bad e, .ok _ => .bad e
  | .ok _, .bad e => .bad e
  | .bad e, .bad e' => .bad (e ++ e')

end Checked

/-- The type of a value, as a cause names it. -/
def typeName : Value → String
  | .absent => "undefined"
  | .null => "null"
  | .bool _ => "boolean"
  | .number .nan => "nan"
  | .number _ => "number"
  | .text _ => "string"
  | .list _ => "array"
  | .record _ => "object"

/-- A cause that holds only under a condition. -/
def complaint (bad : Bool) (cause : Cause) : List Cause := if bad then [cause] else []

/-- A value that passes unless there are causes against it. -/
def passing {α : Type} (causes : List Cause) (a : α) : Checked Cause α :=
  if causes = [] then .ok a else .bad causes

/-- A truth value. -/
def checkBool : Value → Checked Cause Bool
  | .bool b => .ok b
  | v => .bad [.wrongType "boolean" (typeName v)]

/-- A text whose units number from `least` to `most`. -/
def checkText (least most : Nat) : Value → Checked Cause String
  | .text s =>
    passing (complaint (Text.unitLength s < least) (.tooShort least) ++
      complaint (most < Text.unitLength s) (.tooLong most)) s
  | v => .bad [.wrongType "string" (typeName v)]

/-- A text that may be left out. -/
def checkTitle : Value → Checked Cause (Option String)
  | .absent => .ok none
  | v =>
    match checkText 1 maxTitle v with
    | .ok s => .ok (some s)
    | .bad causes => .bad causes

/-- An emoji: a text that is not empty, or a record of the members of one. -/
def checkEmoji : Value → Checked Cause Emoji
  | .text s => if s = "" then .bad [.tooShort 1] else .ok (.text s)
  | .record r =>
    match EmojiParts.ofKnown? r with
    | some parts =>
      if EmojiParts.unknown r = [] then .ok (.parts parts)
      else .bad [.unknownKeys (EmojiParts.unknown r)]
    | none => .bad [.noAlternative]
  | _ => .bad [.noAlternative]

/-- A button style, by its number. -/
def checkStyle : Value → Checked Cause Style
  | .number n =>
    match Style.ofNumber? n with
    | some style => .ok style
    | none => .bad [.noAlternative]
  | _ => .bad [.noAlternative]

/-- What is wrong with a number that should be from 0 to `most`. -/
def outside (most : Nat) (n : Number) : List Cause :=
  complaint (n.lt 0) (.tooSmall 0) ++ complaint ((most : Number).lt n) (.tooLarge most)

/-- A colour: a whole number up to `maxColor`. -/
def checkColor : Value → Checked Cause Nat
  | .number .nan => .bad [.wrongType "number" "nan"]
  | .number n =>
    match n.toNat? with
    | some color => passing (outside maxColor n) color
    | none => .bad (complaint n.toInt?.isNone .notInteger ++ outside maxColor n)
  | v => .bad [.wrongType "number" (typeName v)]

/-- A finite number of seconds up to `maxIdleSeconds`. -/
def checkSeconds : Value → Checked Cause Rat
  | .number .nan => .bad [.wrongType "number" "nan"]
  | .number (.finite q) => passing (outside maxIdleSeconds (.finite q)) q
  | .number n => .bad (.notFinite :: outside maxIdleSeconds n)
  | v => .bad [.wrongType "number" (typeName v)]

/-- The outcome for the value of a key. -/
def atKey {α : Type} (r : Record) (key : String) (check : Value → Checked Cause α) : Checked Issue α :=
  match check (r.member key) with
  | .ok a => .ok a
  | .bad causes => .bad (causes.map fun cause => ⟨[key], cause⟩)

/-- The keys of a record that a configuration does not have. -/
def unknownKeys (r : Record) : List String := (r.map (·.1)).filter fun key => key ∉ keys

/-- No key but those of a configuration. -/
def checkKeys (r : Record) : Checked Issue Unit :=
  if unknownKeys r = [] then .ok () else .bad [⟨[], .unknownKeys (unknownKeys r)⟩]

/-- The configuration that a record is. -/
def ofRecord (r : Record) : Checked Issue Config :=
  let fields : Checked Issue Config :=
    (.ok Config.mk : Checked Issue _)
    |>.on (atKey r "showFirst" checkBool)
    |>.on (atKey r "showBack" checkBool)
    |>.on (atKey r "showNext" checkBool)
    |>.on (atKey r "showLast" checkBool)
    |>.on (atKey r "showCallback" checkBool)
    |>.on (atKey r "showSelectMenu" checkBool)
    |>.on (atKey r "firstEmoji" checkEmoji)
    |>.on (atKey r "backEmoji" checkEmoji)
    |>.on (atKey r "nextEmoji" checkEmoji)
    |>.on (atKey r "lastEmoji" checkEmoji)
    |>.on (atKey r "callbackEmoji" checkEmoji)
    |>.on (atKey r "buttonStyle" checkStyle)
    |>.on (atKey r "wrongUserMessage" (checkText 0 maxMessage))
    |>.on (atKey r "defaultTitle" checkTitle)
    |>.on (atKey r "defaultColor" checkColor)
    |>.on (atKey r "idleTimeoutSeconds" checkSeconds)
  (.ok fun c _ => c : Checked Issue (Config → Unit → Config)).on fields |>.on (checkKeys r)

end Folio.Config
