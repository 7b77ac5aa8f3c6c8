/-
A paginator: a list of pages of which one is shown in a message, with controls
for the message's author to turn them. This module has what a paginator knows
and how its index moves; how it reaches the outside is the business of `Room`.
-/
import Folio.Number.Numeral
import Folio.Payload

namespace Folio

/-- How a message is delivered. -/
inductive Via where
  | send
  | reply
deriving DecidableEq, Repr

/-- A message that was delivered. A client that tells its two ways of delivery
apart says which it was. -/
structure Handle where
  id : Nat
  via : Option Via
deriving DecidableEq, Repr

/-- What a paginator is sent in answer to: a user, or a context by its name. -/
inductive Origin where
  | user (id : String)
  | context (name : String)
deriving DecidableEq, Repr

/-- What the callback of a paginator does. -/
inductive Callback where
  /-- Returns a value. -/
  | give (value : Value)
  /-- Fails before it returns. -/
  | fail (message : String)
  /-- Returns, and fails in a turn of its own. -/
  | failLater (message : String)
  /-- Acknowledges the interaction. -/
  | defer
  /-- Stops the paginator. -/
  | stop
  /-- Sends the paginator again. -/
  | send (origin : Origin)
  /-- Shows the current page again. -/
  | update
  /-- Turns to an index and answers with that page. -/
  | turnTo (index : Number)

/-- Where a paginator is in its life. -/
inductive Status where
  | unsent
  | active
  | stopped
deriving DecidableEq, Repr

/-- The name of a status. -/
def Status.name : Status → String
  | unsent => "unsent"
  | active => "active"
  | stopped => "stopped"

/-- A paginator. -/
structure Paginator where
  session : String
  pages : List Page
  config : Config
  callback : Option Callback
  /-- The index of the page that is shown. -/
  index : Nat
  status : Status
  /-- The message that holds it. -/
  message : Option Handle
  /-- The user who may turn the pages. -/
  author : Option String
  /-- The number of the watchdog that waits for the author. -/
  watchdog : Option Nat
  /-- Whether the router knows the session. -/
  registered : Bool

namespace Paginator

/-- A paginator that has not been sent. -/
def create (session : String) (pages : List Page) (config : Config) (callback : Option Callback) :
    Paginator where
  session := session
  pages := pages
  config := config
  callback := callback
  index := 0
  status := .unsent
  message := none
  author := none
  watchdog := none
  registered := false

/-- The index of the last page, 0 if there is none. -/
def last (p : Paginator) : Nat := p.pages.length - 1

/-- The paginator with its index within the pages. -/
def clamp (p : Paginator) : Paginator := { p with index := min p.index p.last }

/-- The paginator turned to an index, which is cut to a whole number and into range. -/
def turnTo (p : Paginator) (index : Number) : Paginator :=
  { p with index := min (index.toLength p.last) p.last }

/-- What the controls are laid out for. -/
def layout (p : Paginator) : Layout := ⟨p.session, p.pages, p.index, p.config⟩

/-- The page at the index with its controls, which are off once it is stopped. -/
def payload (p : Paginator) : Except Fault Payload := p.layout.payload (p.status = .stopped)

/-- The controls alone, all of them off. -/
def offControls (p : Paginator) : Except Fault Payload := (p.layout.render true).map .controls

/-! ### Turning pages -/

/-- The index that a menu entry of this value leads to. -/
def choice? (count : Nat) (value : String) : Option Nat :=
  match (Number.whole? 10 value.toList) with
  | some i => if i < count then some i else none
  | none => none

/-- The index after a press of a control, and the value of a menu entry that
leads nowhere. -/
def pressed (count index : Nat) (role : Option Role) (values : List String) : Nat × Option String :=
  match role with
  | some .first => (0, none)
  | some .last => (count - 1, none)
  | some .next => (if index + 1 < count then index + 1 else index, none)
  | some .back => (index - 1, none)
  | some .select =>
    let value := values.headD ""
    match choice? count value with
    | some i => (i, none)
    | none => (index, some value)
  | some .callback | none => (index, none)

/-! ### Changing the pages in place -/

/-- The position that a number counts to, from the end if it is negative. -/
def position (count : Nat) (n : Number) : Nat :=
  match n.trunc with
  | .nan | .infinite true => 0
  | .infinite false => count
  | .finite q => if q < 0 then (count + q.floor).toNat else min q.floor.toNat count

/-- The pages with some removed and others put in their place, and how many were
removed. -/
def splice (p : Paginator) (start removed : Number) (pages : List Page) : Paginator × Nat :=
  let count := p.pages.length
  let start := position count start
  let removed := min (removed.toLength count) (count - start)
  ({ p with pages := p.pages.take start ++ pages ++ p.pages.drop (start + removed) }, removed)

end Paginator

end Folio
