/-
The custom ids that tie a control on a message to the session it drives:
the session's id, a bar, and the role of the control. A session id may hold
bars itself, so it is the last bar that separates the two.
-/
namespace Folio

/-- What a control does. -/
inductive Role where
  | select
  | first
  | back
  | callback
  | next
  | last
deriving DecidableEq, Repr, Inhabited

namespace Role

/-- The roles in the order in which their controls are shown. -/
def all : List Role := [select, first, back, callback, next, last]

/-- The name of a role in a custom id. -/
def name : Role → String
  | select => "select"
  | first => "first"
  | back => "back"
  | callback => "callback"
  | next => "next"
  | last => "last"

/-- The role of a name. -/
def ofName? (name : String) : Option Role := all.find? fun r => r.name = name

theorem mem_all (r : Role) : r ∈ all := by cases r <;> decide

end Role

/-- What separates a session id from a role. -/
def bar : Char := '|'

/-- The custom id of a role's control, or of anything else with a name, in a session. -/
def boundId (session : String) (name : String) : String := session ++ String.ofList (bar :: name.toList)

/-- The custom id of a role's control in a session. -/
def customId (session : String) (role : Role) : String := boundId session role.name

/-- The two parts of a text around its last bar. -/
def splitAtBar? : List Char → Option (List Char × List Char)
  | [] => none
  | c :: cs =>
    match splitAtBar? cs with
    | some (before, after) => some (c :: before, after)
    | none => if c = bar then some ([], cs) else none

/-- The session and the role of a custom id. A text without a session before its
last bar, or without a role after it, is not one. -/
def parseCustomId? (text : String) : Option (String × Role) :=
  match splitAtBar? text.toList with
  | none | some ([], _) => none
  | some (session, name) =>
    (Role.ofName? (String.ofList name)).map fun role => (String.ofList session, role)

end Folio
