/-
What can be seen from outside a room: the calls it makes to the chat service,
and the lines it logs.
-/
import Folio.Log
import Folio.Paginator

namespace Folio

/-- A use of a control by a user. -/
structure Press where
  user : String
  customId : String
  /-- The values that were chosen in a menu. -/
  values : List String
  /-- The interaction that came in from the service, if one did. -/
  interaction : Option Nat
deriving DecidableEq, Repr

/-- A call to the chat service. -/
inductive Call where
  /-- Delivers a message for a user. -/
  | deliver (via : Via) (user : String) (id : Nat) (payload : Payload)
  /-- Changes a message. -/
  | edit (id : Nat) (payload : Payload)
  /-- Posts a message in a channel. -/
  | post (id : Nat) (payload : Payload)
  /-- Replies to a message. -/
  | replyTo (id : Nat) (payload : Payload)
  /-- Answers a command for the first time. -/
  | answer (command : String) (id : Nat) (payload : Payload)
  /-- Changes the answer to a command. -/
  | editAnswer (command : String) (id : Nat) (payload : Payload)
  /-- Asks for the answer to a command. -/
  | fetchAnswer (command : String) (id : Nat)
  /-- Answers a command once more. -/
  | followUp (command : String) (id : Nat) (payload : Payload)
  /-- Acknowledges a press. -/
  | acknowledge (interaction : Option Nat)
  /-- Tells the user of a press something. -/
  | notify (interaction : Option Nat) (text : String)
  /-- Answers a press by replacing the message. -/
  | replace (interaction : Option Nat) (payload : Payload)

namespace Call

/-- What a call to a service of this kind is named. -/
def name (service : Bool) : Call → String
  | deliver .send .. => "sendMessage"
  | deliver .reply .. => "replyMessage"
  | edit .. => if service then "handle.edit" else "editMessage"
  | post .. => "channel.send"
  | replyTo .. => "message.reply"
  | answer .. => "interaction.reply"
  | editAnswer .. => "interaction.editReply"
  | fetchAnswer .. => "interaction.fetchReply"
  | followUp .. => "interaction.followUp"
  | acknowledge none => "deferInPlace"
  | acknowledge (some _) => "component.deferUpdate"
  | notify none _ => "ephemeralReply"
  | notify (some _) _ => "component.reply"
  | replace none _ => "editOriginInPlace"
  | replace (some _) _ => "component.update"

end Call

/-- Why a paginator stopped. -/
inductive StopReason where
  | asked
  | timedOut
deriving DecidableEq, Repr

/-- The wording of a reason. -/
def StopReason.message : StopReason → String
  | asked => "stopped"
  | timedOut => "timed out"

/-- A line of the log. -/
inductive LogLine where
  | sent (session : String) (pages : Nat) (seconds : Rat)
  | idle (session : String)
  | stopped (session : String) (reason : StopReason)
  /-- Someone other than the author used a control. -/
  | stranger (session user : String)
  /-- A menu entry that leads nowhere was chosen. -/
  | badChoice (session value : String)
  /-- The controls could not be disabled after the author had been idle. -/
  | expiryFailed (session : String) (fault : Fault)
  | pressFailed (customId user : String) (fault : Fault)
  /-- The user could not be told of a failure. -/
  | noticeFailed (fault : Fault)

namespace LogLine

/-- How serious a line is. -/
def level : LogLine → Level
  | sent .. | idle _ | stopped .. | stranger .. | badChoice .. => .debug
  | expiryFailed .. | pressFailed .. => .error
  | noticeFailed _ => .warn

/-- The part of the program that logs a line. -/
def scope : LogLine → String
  | sent .. | idle _ | stopped .. | stranger .. | badChoice .. | expiryFailed .. => "paginator"
  | pressFailed .. | noticeFailed _ => "router"

/-- The wording of a line. -/
def message : LogLine → String
  | sent .. => "paginator sent"
  | idle _ => "paginator idle, disabling controls"
  | stopped .. => "paginator stopped"
  | stranger .. => "interaction from non-owner"
  | badChoice .. => "ignoring out-of-range page selection"
  | expiryFailed .. => "failed to disable paginator after idle timeout"
  | pressFailed .. => "paginator interaction failed"
  | noticeFailed _ => "could not report interaction failure"

/-- The fault that a line reports. -/
def fault? : LogLine → Option Fault
  | expiryFailed _ fault | pressFailed _ _ fault | noticeFailed fault => some fault
  | _ => none

/-- What else a line says. -/
def fields : LogLine → Record
  | sent session pages seconds =>
    [("sessionId", .text session), ("pages", .number pages),
      ("idleTimeoutSeconds", .number (.finite seconds))]
  | idle session | expiryFailed session _ => [("sessionId", .text session)]
  | stopped session reason => [("sessionId", .text session), ("reason", .text reason.message)]
  | stranger session user => [("sessionId", .text session), ("userId", .text user)]
  | badChoice session value => [("sessionId", .text session), ("value", .text value)]
  | pressFailed customId user _ => [("customId", .text customId), ("userId", .text user)]
  | noticeFailed _ => []

end LogLine

/-- What happens in a room for all to see. -/
inductive Event where
  /-- The client starts to listen for interactions. -/
  | listening
  | call (c : Call)
  | registered (session : String) (names : List String)
  | unregistered (session : String)
  | log (line : LogLine)
  /-- The callback of a paginator runs. -/
  | callback (press : Press)
  /-- A handler of this name runs. -/
  | handler (name : String) (press : Press)

end Folio
