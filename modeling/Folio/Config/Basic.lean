/-
The configuration of a paginator: which controls it shows and how they look,
what it tells strangers, what an embed gets by default, and how long it waits
for its author.
-/
import Folio.CustomId
import Folio.Emoji

namespace Folio

/-- The style of a button. -/
inductive Style where
  | primary
  | secondary
  | success
  | danger
deriving DecidableEq, Repr, Inhabited

namespace Style

/-- The number of a style. -/
def number : Style → Nat
  | primary => 1
  | secondary => 2
  | success => 3
  | danger => 4

/-- The style of a number. -/
def ofNumber? (n : Number) : Option Style :=
  [primary, secondary, success, danger].find? fun style => (style.number : Number) = n

end Style

/-- The configuration of a paginator. -/
structure Config where
  showFirst : Bool
  showBack : Bool
  showNext : Bool
  showLast : Bool
  showCallback : Bool
  showSelectMenu : Bool
  firstEmoji : Emoji
  backEmoji : Emoji
  nextEmoji : Emoji
  lastEmoji : Emoji
  callbackEmoji : Emoji
  buttonStyle : Style
  /-- What a stranger who uses a control is told, nothing if it is empty. -/
  wrongUserMessage : String
  /-- The title of an embed that has none. -/
  defaultTitle : Option String
  /-- The colour of an embed that has none. -/
  defaultColor : Nat
  /-- How long the paginator waits for its author, forever if it is zero. -/
  idleTimeoutSeconds : Rat
deriving DecidableEq, Repr

namespace Config

/-- The configuration that nothing overrides. -/
def default : Config where
  showFirst := true
  showBack := true
  showNext := true
  showLast := true
  showCallback := false
  showSelectMenu := false
  firstEmoji := .text "⏮️"
  backEmoji := .text "⬅️"
  nextEmoji := .text "➡️"
  lastEmoji := .text "⏩"
  callbackEmoji := .text "✅"
  buttonStyle := .primary
  wrongUserMessage := "This paginator is not for you"
  defaultTitle := none
  defaultColor := 0x5865f2
  idleTimeoutSeconds := 0

/-- The seconds after which a timer would no longer count right. -/
def maxIdleSeconds : Nat := 2147483

/-- The last colour. -/
def maxColor : Nat := 0xffffff

/-- The units in a message to strangers. -/
def maxMessage : Nat := 2000

/-- The units in a default title. -/
def maxTitle : Nat := 256

/-- The keys of a configuration, in the order in which they are checked. -/
def keys : List String :=
  ["showFirst", "showBack", "showNext", "showLast", "showCallback", "showSelectMenu", "firstEmoji",
    "backEmoji", "nextEmoji", "lastEmoji", "callbackEmoji", "buttonStyle", "wrongUserMessage",
    "defaultTitle", "defaultColor", "idleTimeoutSeconds"]

/-- The value of a key. -/
def member (c : Config) : String → Value
  | "showFirst" => .bool c.showFirst
  | "showBack" => .bool c.showBack
  | "showNext" => .bool c.showNext
  | "showLast" => .bool c.showLast
  | "showCallback" => .bool c.showCallback
  | "showSelectMenu" => .bool c.showSelectMenu
  | "firstEmoji" => c.firstEmoji.toValue
  | "backEmoji" => c.backEmoji.toValue
  | "nextEmoji" => c.nextEmoji.toValue
  | "lastEmoji" => c.lastEmoji.toValue
  | "callbackEmoji" => c.callbackEmoji.toValue
  | "buttonStyle" => .number c.buttonStyle.number
  | "wrongUserMessage" => .text c.wrongUserMessage
  | "defaultTitle" => (c.defaultTitle.map Value.text).getD .absent
  | "defaultColor" => .number c.defaultColor
  | "idleTimeoutSeconds" => .number (.finite c.idleTimeoutSeconds)
  | _ => .absent

/-- The configuration as a record. -/
def toRecord (c : Config) : Record := keys.map fun key => (key, c.member key)

/-- Whether the control of a role is shown. -/
def shows (c : Config) : Role → Bool
  | .select => c.showSelectMenu
  | .first => c.showFirst
  | .back => c.showBack
  | .callback => c.showCallback
  | .next => c.showNext
  | .last => c.showLast

/-- The emoji on the button of a role; the menu has none. -/
def emoji? (c : Config) : Role → Option Emoji
  | .select => none
  | .first => some c.firstEmoji
  | .back => some c.backEmoji
  | .callback => some c.callbackEmoji
  | .next => some c.nextEmoji
  | .last => some c.lastEmoji

end Config

end Folio
