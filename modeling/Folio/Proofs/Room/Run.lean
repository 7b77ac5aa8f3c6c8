/-
Runs of a room. A move is an act, a turn of what has been ready longest, a timer
going off, or the clock moving; a run is any sequence of moves. So acts come
between any two turns, as early or as late as they like, also after a timer went
off and before whoever waited for it goes on. A callback that does several things
is a press whose callback does nothing, with acts right after it.

What a script does is one such sequence for each of its steps (`leads_step`), so
what holds of every run holds of every script.
-/
import Folio.Room.Script

namespace Folio.Room

/-- What can happen next in a room. -/
inductive Move where
  /-- An act, of step `k`. -/
  | act (k : Nat) (a : Act)
  /-- What has been ready longest takes its turn. -/
  | turn
  /-- The first timer goes off, if it is due by then. -/
  | fire (limit : Number)
  /-- The clock moves. -/
  | moveTo (time : Number)

/-- The room after a move. -/
def after (room : Room) : Move → Room
  | .act k a => (act k a room).1
  | .turn => Timed.turn room
  | .fire limit => (Timed.fire? limit room).getD room
  | .moveTo time => Timed.moveTo time room

/-- The room after moves. -/
def afterAll (room : Room) (moves : List Move) : Room := moves.foldl after room

@[simp] theorem afterAll_nil (room : Room) : room.afterAll [] = room := rfl

@[simp] theorem afterAll_cons (room : Room) (m : Move) (moves : List Move) :
    room.afterAll (m :: moves) = (room.after m).afterAll moves := rfl

theorem afterAll_append (room : Room) (moves moves' : List Move) :
    room.afterAll (moves ++ moves') = (room.afterAll moves).afterAll moves' := List.foldl_append

/-- What every move keeps, every run keeps. -/
theorem afterAll_keeps {P : Room → Prop} (step : ∀ room m, P room → P (room.after m)) {room : Room} (start : P room)
    (moves : List Move) : P (room.afterAll moves) := by
  induction moves generalizing room with
  | nil => exact start
  | cons m moves ih => exact ih (step room m start)

/-- What holds of the first moves of a run, however many, holds of all that begins it. -/
theorem throughout_of_take {moves : List Move} {P : List Move → Prop} (h : ∀ n < moves.length + 1, P (moves.take n)) :
    ∀ ms, ms <+: moves → P ms := by
  intro ms hms
  rw [List.prefix_iff_eq_take.1 hms]
  exact h ms.length (Nat.lt_succ_of_le hms.length_le)

/-- Whether an act leaves the router to the paginators. -/
def Act.sparesRouter : Act → Bool
  | .register .. | .unregister _ | .clientRegister .. | .clientUnregister _ => false
  | _ => true

/-- Whether a move leaves the router to the paginators. -/
def Move.sparesRouter : Move → Bool
  | .act _ a => a.sparesRouter
  | _ => true

/-- Moves that leave the router to the paginators lead from one room to another. -/
def Leads (a b : Room) : Prop :=
  ∃ moves : List Move, (∀ m ∈ moves, m.sparesRouter = true) ∧ a.afterAll moves = b

/-- Such moves lead from an empty room to this one. -/
def Reached (room : Room) : Prop :=
  ∃ ids client environment contexts, Leads (openedWith ids client environment contexts) room

/-- A room in which nothing has happened yet. -/
inductive IsOpened : Room → Prop where
  | opened (ids : SessionIds) (client : Client) (environment : Environment) (contexts : Table String Context) :
    IsOpened (openedWith ids client environment contexts)

/-- What holds of empty rooms and what every move keeps holds at the end of every run. -/
theorem IsOpened.holds {P : Room → Prop} (start : ∀ ids client environment contexts,
      P (openedWith ids client environment contexts))
    (step : ∀ room m, P room → P (room.after m)) {room : Room} (h : IsOpened room) (moves : List Move) :
    P (room.afterAll moves) := by
  obtain ⟨ids, client, environment, contexts⟩ := h
  exact afterAll_keeps step (start ids client environment contexts) moves

theorem Leads.refl (room : Room) : Leads room room := ⟨[], by simp, rfl⟩

theorem Leads.trans {a b c : Room} (h : Leads a b) (h' : Leads b c) : Leads a c := by
  obtain ⟨moves, spare, rfl⟩ := h
  obtain ⟨moves', spare', rfl⟩ := h'
  refine ⟨moves ++ moves', fun m hm => ?_, afterAll_append a moves moves'⟩
  rcases List.mem_append.1 hm with hm | hm
  · exact spare m hm
  · exact spare' m hm

theorem Leads.move {a : Room} {m : Move} (h : m.sparesRouter = true) : Leads a (a.after m) :=
  ⟨[m], by simpa using h, rfl⟩

/-- What every move keeps, a run keeps. -/
theorem Leads.keeps {P : Room → Prop} (step : ∀ room m, m.sparesRouter = true → P room → P (room.after m))
    {a b : Room} (h : Leads a b) (start : P a) : P b := by
  obtain ⟨moves, spare, rfl⟩ := h
  induction moves generalizing a with
  | nil => exact start
  | cons m moves ih =>
    exact ih (step a m (spare m (by simp)) start) fun m' hm => spare m' (List.mem_cons_of_mem m hm)

theorem Reached.move {room : Room} (h : Reached room) {m : Move} (spare : m.sparesRouter = true) :
    Reached (room.after m) := by
  obtain ⟨ids, client, environment, contexts, h⟩ := h
  exact ⟨ids, client, environment, contexts, h.trans (.move spare)⟩

theorem Reached.afterAll {room : Room} (h : Reached room) {moves : List Move}
    (spare : ∀ m ∈ moves, m.sparesRouter = true) : Reached (room.afterAll moves) := by
  obtain ⟨ids, client, environment, contexts, h⟩ := h
  exact ⟨ids, client, environment, contexts, h.trans ⟨moves, spare, rfl⟩⟩

/-- What holds of empty rooms and what every move keeps holds of every room that
is reached. -/
theorem Reached.holds {P : Room → Prop} (start : ∀ ids client environment contexts,
      P (openedWith ids client environment contexts))
    (step : ∀ room m, m.sparesRouter = true → P room → P (room.after m)) {room : Room} (h : Reached room) :
    P room := by
  obtain ⟨ids, client, environment, contexts, h⟩ := h
  exact h.keeps step (start ids client environment contexts)

/-! ## Scripts are runs -/

theorem leads_turns (n : Nat) (room : Room) : Leads room (Timed.turns n room) := by
  induction n generalizing room with
  | zero => exact .refl room
  | succ n ih =>
    rw [Timed.turns]
    split
    · exact .refl room
    · exact (Leads.move (m := .turn) rfl).trans (ih _)

theorem leads_settle (room : Room) : Leads room (Timed.settle room) := leads_turns _ room

theorem leads_fireUpTo {f : Room → Room} (h : ∀ room, Leads room (f room)) (limit : Number) (n : Nat)
    (room : Room) : Leads room (Timed.fireUpTo f limit n room) := by
  induction n generalizing room with
  | zero => exact .refl room
  | succ n ih =>
    rw [Timed.fireUpTo]
    split
    · next fired hf =>
      have hm : room.after (.fire limit) = fired := by rw [after, hf, Option.getD_some]
      have fire : Leads room fired := hm ▸ .move rfl
      exact (fire.trans (h fired)).trans (ih _)
    · exact .refl room

/-- A step of a script is a sequence of moves. -/
theorem leads_step (k : Nat) (room : Room) (next : Step Act)
    (spare : ∀ a, next = .act a ∨ (∃ ms, next = .race ms a) → a.sparesRouter = true) :
    Leads room (Scripted.step k room next).1 := by
  cases next with
  | act a =>
    have act : Leads room (room.after (.act k a)) := .move (spare a (.inl rfl))
    exact act.trans (leads_settle _)
  | advance ms => exact (leads_fireUpTo leads_settle _ _ room).trans (.move (m := .moveTo _) rfl)
  | race ms a =>
    have clock : Leads room (room.after (.moveTo (room.agenda.now + ms))) := .move rfl
    have fired := leads_fireUpTo (f := id) Leads.refl (room.agenda.now + ms) room.agenda.timers.length
      (room.after (.moveTo (room.agenda.now + ms)))
    have acted := Leads.move (a := Timed.fireUpTo id (room.agenda.now + ms) room.agenda.timers.length
      (room.after (.moveTo (room.agenda.now + ms)))) (m := .act k a) (spare a (.inr ⟨ms, rfl⟩))
    exact (clock.trans fired).trans (acted.trans (leads_settle _))

end Folio.Room
