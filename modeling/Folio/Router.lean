/-
The router from custom ids to handlers. A session is registered with the names
of its controls, each of which is bound to the session's handler, until it is
registered anew or unregistered.
-/
import Folio.CustomId
import Folio.Table

namespace Folio

/-- The bindings of a router, with handlers of type `η`. -/
structure Router (η : Type) where
  /-- The handler of each bound custom id. -/
  handlers : Table String η
  /-- The custom ids of each session. -/
  sessions : Table String (List String)

namespace Router

variable {η : Type}

/-- The router that binds nothing. -/
def empty : Router η := ⟨[], []⟩

/-- The number of sessions. -/
def size (r : Router η) : Nat := r.sessions.length

/-- Whether a custom id is bound. -/
def has (r : Router η) (id : String) : Bool := r.handlers.has id

/-- The handler of a custom id. -/
def handler? (r : Router η) (id : String) : Option η := r.handlers.get? id

/-- Removes a session and its bindings. -/
def unregister (r : Router η) (session : String) : Router η where
  handlers := ((r.sessions.get? session).getD []).foldl Table.erase r.handlers
  sessions := r.sessions.erase session

/-- Binds the names in a session to a handler, and nothing else in that session. -/
def register (r : Router η) (session : String) (names : List String) (handler : η) : Router η :=
  let r := r.unregister session
  let ids := names.map (boundId session)
  { handlers := ids.foldl (fun t id => t.put id handler) r.handlers
    sessions := r.sessions.put session ids }

end Router

end Folio
