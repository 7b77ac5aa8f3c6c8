/-
Everything that can go wrong, by cause. `Fault.message` is the wording; a fault
in the form of a value that only a careless caller supplies has none.
-/
import Folio.Config.Issue

namespace Folio

/-- Why a value is refused as a part of a component or of an embed. -/
inductive PartFault where
  /-- A text that is empty or beyond the limit of its part. -/
  | badLength
  /-- More options than a menu takes. -/
  | badCount
  | notText
  | notBool
  /-- A style that is neither a number nor a name. -/
  | notStyle
  /-- A number or name that is no style. -/
  | unknownStyle
  /-- A text, or an empty value, that is no emoji. -/
  | notEmoji
  /-- A value of a type that no emoji has. -/
  | notRecord (received : String)
  | notRecordButList
  /-- An emoji whose members are not those of one. -/
  | badMembers
  /-- A text that an embed does not take as its title or description. -/
  | badEmbedText
  /-- A style that needs parts which a page control does not have. -/
  | incompleteStyle
deriving DecidableEq, Repr

/-- The wording of a fault in a part. -/
def PartFault.message? : PartFault → Option String
  | badLength => some "Invalid string length"
  | badCount => some "Invalid number value"
  | notText => some "Expected a string primitive"
  | notBool => some "Expected a boolean primitive"
  | notStyle => some "Expected the value to be a string or number"
  | unknownStyle => some "Expected the value to be one of the following enum values:"
  | notEmoji => some "Expected the value to not be null"
  | notRecord received =>
    some ("Expected the value to be an object, but received " ++ received ++ " instead")
  | notRecordButList => some "Expected the value to not be an array"
  | badMembers | badEmbedText => some "Received one or more errors"
  | incompleteStyle => none

/-- Why an operation failed. -/
inductive Fault where
  /-- Text cannot be wrapped to a width that reads like this. -/
  | badWidth (width : String)
  | badConfig (issues : List Config.Issue)
  /-- A paginator without pages was to be sent. -/
  | nothingToSend
  /-- There is no page at the index. -/
  | noPage (index : Number) (count : Nat)
  /-- The operation needs a message, and none was sent. -/
  | unsent (operation : String)
  /-- A stopped paginator was to be sent again. -/
  | stopped
  /-- The channel takes no messages. -/
  | closedChannel (channel : String)
  | part (fault : PartFault)
  /-- A part that the operation reads does not exist. -/
  | missing
  /-- A moment that does not exist, or a list of impossible length, was asked for. -/
  | outOfRange
  /-- A percent escape is malformed. -/
  | badEscape
  /-- The level is not one of those that log lines have. -/
  | unknownLevel (name : String)
  /-- The outside world reported a failure. -/
  | reported (message : String)
deriving DecidableEq, Repr

/-- The wording of a fault. -/
def Fault.message? : Fault → Option String
  | badWidth width => some ("Page width must be a positive integer, got " ++ width)
  | badConfig issues =>
    some ("Invalid paginator config: " ++ "; ".intercalate (issues.map Config.Issue.message))
  | nothingToSend => some "Paginator has no pages to send"
  | noPage index count =>
    some ("No page at index " ++ index.text ++ " (" ++ toString count ++ " pages)")
  | unsent operation => some ("Cannot " ++ operation ++ " a paginator that has not been sent")
  | stopped => some "Paginator was stopped; create a new one"
  | closedChannel channel => some ("Channel " ++ channel ++ " does not accept messages")
  | part fault => fault.message?
  | missing | outOfRange | badEscape => none
  | unknownLevel name => some ("default level:" ++ name ++ " must be included in custom levels")
  | reported message => some message

end Folio
