/-
The life of a paginator, from one move to the next. `step_after` runs the small
machine of `Standing` beside the room: whatever a move does, things come to stand
by one of six steps. The invariants of runs are proved of these steps. `fate` is
what they make of one paginator.
-/
import Folio.Proofs.Room.Change

namespace Folio.Room

variable {room : Room} {p : Nat} {pg : Paginator} {m : Move}

/-- A move completes a delivery of a paginator. -/
def Delivers (room : Room) (m : Move) (p : Nat) : Prop :=
  m = .turn ∧ ∃ origin h frames rest,
    room.agenda.ready = .resume (.deliver p origin :: frames) (.ok (.message h)) :: rest

theorem Delivers.pending (h : Delivers room m p) : ∃ origin, (p, origin) ∈ room.pending := by
  obtain ⟨-, origin, handle, frames, rest, ready⟩ := h
  exact ⟨origin, mem_pending_ready ready (by simp [Task.deliveries])⟩

/-! ## Steps -/

/-- How things can come to stand as `s` by a move. -/
inductive Step (room : Room) (m : Move) (s : Standing) : Prop where
  | same (h : s = room.standing)
  | born {n : Nat} {o : Option Paginator} (later : room.sessions ≤ n) (new : room.standing.Newborn n o)
      (h : s = room.standing.born n o)
  | live {p : Nat} {pg : Paginator} {author : Option String} {handle : Handle} (delivers : Delivers room m p)
      (life : room.standing.life? p = some pg) (h : s = room.standing.live p pg author handle)
  | closed {p : Nat} {pg : Paginator} (life : room.standing.life? p = some pg) (sent : pg.message.isSome = true)
      (h : s = room.standing.closed p pg)
  | dozed {w : Nat} (spared : Spared room.standing w) (h : s = room.standing.dozed (some w))
  /-- Only the script, or a handler of it, turns to the router. -/
  | rerouted {r : Router Handler} (foreign : m.sparesRouter = false ∨
        ∃ id name session reaction, room.standing.router.handler? id = some (.scripted name session reaction))
      (h : s = { room.standing with router := r })

theorem step_after (room : Room) (m : Move) : Step room m (room.after m).standing := by
  cases room.change_after m with
  | effect effect =>
    cases effect with
    | kept kept => exact .same kept.standing
    | sending _ _ _ kept => exact .same kept.standing
    | showing _ _ _ shift => exact .same shift.standing
    | @stopping p pg h was message _ _ shift =>
      have standing : (room.after m).standing = room.standing.closed p pg.bare := shift.standing
      exact .closed (life?_of_paginator? was) (Option.isSome_iff_exists.2 ⟨h, message⟩) standing
    | forgetting handler shift => exact .rerouted (.inr ⟨_, _, _, _, handler⟩) shift.standing
  | created later new shift => exact .born later new shift.standing
  | live turn ready life shift => exact .live ⟨turn, _, _, _, _, ready⟩ life shift.standing
  | dozing spared shift => exact .dozed spared shift.standing
  | rerouted own shift => exact .rerouted (.inl own) shift.standing

/-! ## Lives -/

/-- What a move can make of a life: it goes on as it is, begins, is over, or comes
to be live because a delivery completed. -/
inductive Fate (before after : Option Paginator) (delivered : Prop) : Prop where
  | same (h : after = before)
  | born {session : String} {config : Config} (new : before = none)
      (h : after = some (Paginator.create session [] config none))
  | closed {pg : Paginator} (was : before = some pg) (sent : pg.message.isSome = true)
      (h : after = some (Standing.ended pg))
  | live {pg : Paginator} {n : Nat} {author : Option String} {handle : Handle} (was : before = some pg)
      (completed : delivered) (h : after = some (Standing.begun n author handle pg))

theorem fate (room : Room) (m : Move) (p : Nat) :
    Fate (room.standing.life? p) ((room.after m).standing.life? p) (Delivers room m p) := by
  cases room.step_after m with
  | same h => exact .same (by rw [h])
  | @born n o _ new h =>
    have born := Standing.life?_born (s := room.standing) n o p
    rw [← h] at born
    split at born
    next hp =>
      have none : room.standing.life? p = none := hp ▸ Standing.life?_length
      cases o with
      | none => exact .same (born.trans none.symm)
      | some pg =>
        obtain ⟨-, config, rfl⟩ := new pg rfl
        exact .born none born
    · exact .same born
  | @live _ _ author handle delivers life h =>
    have live := Standing.life?_live life author handle p
    rw [← h] at live
    split at live
    next hq =>
      subst hq
      exact .live life delivers live
    · exact .same live
  | closed life sent h =>
    have closed := Standing.life?_closed life p
    rw [← h] at closed
    split at closed
    next hq =>
      subst hq
      exact .closed life sent closed
    · exact .same closed
  | dozed _ h => exact .same (by rw [h, Standing.life?_dozed])
  | rerouted _ h =>
    refine .same ?_
    rw [h]
    rfl

/-- A paginator keeps its session and its configuration. -/
theorem life_after (m : Move) (life : room.standing.life? p = some pg) :
    ∃ pg', (room.after m).standing.life? p = some pg' ∧ pg'.session = pg.session ∧ pg'.config = pg.config := by
  cases room.fate m p with
  | same h => exact ⟨pg, h.trans life, rfl, rfl⟩
  | born new _ =>
    rw [life] at new
    cases new
  | closed was _ h | live was _ h =>
    obtain rfl := Option.some.inj (life.symm.trans was)
    exact ⟨_, h, rfl, rfl⟩

/-- What is stopped stays so unless a delivery of it completes. -/
theorem stopped_after (m : Move) (life : room.standing.life? p = some pg) (stopped : pg.status = .stopped) :
    (∃ pg', (room.after m).standing.life? p = some pg' ∧ pg'.status = .stopped) ∨ Delivers room m p := by
  cases room.fate m p with
  | same h => exact .inl ⟨pg, h.trans life, stopped⟩
  | born new _ =>
    rw [life] at new
    cases new
  | closed _ _ h => exact .inl ⟨_, h, rfl⟩
  | live _ completed _ => exact .inr completed

/-- A delivery makes its paginator active, whatever it was. -/
theorem active_after (h : Delivers room m p) (life : room.standing.life? p = some pg) :
    ∃ pg', (room.after m).standing.life? p = some pg' ∧ pg'.status = .active := by
  obtain ⟨rfl, origin, handle, frames, rest, ready⟩ := h
  obtain ⟨pg, hp, rfl⟩ := exists_of_life? life
  have shift := after_turn_shifted ready hp
  have live := Standing.life?_live life (room.authorOf? origin) handle p
  rw [if_pos rfl] at live
  exact ⟨_, shift.standing ▸ live, rfl⟩

/-- A delivery that comes to be waited for is one of a paginator that is not
stopped, and whose page could be rendered. -/
theorem pending_after (room : Room) (m : Move) {d : Nat × Origin} (hd : d ∈ (room.after m).pending) :
    d ∈ room.pending ∨ ∃ (pg : Paginator) (payload : Payload), room.standing.life? d.1 = some pg.bare ∧
      pg.status ≠ .stopped ∧ pg.payload = .ok payload := by
  cases room.change_after m with
  | effect effect =>
    cases effect with
    | kept kept => exact (kept.pending d hd).imp_right fun h => absurd h List.not_mem_nil
    | sending life going drawn kept =>
      rcases kept.pending d hd with h | h
      · exact .inl h
      · obtain rfl := List.mem_singleton.1 h
        exact .inr ⟨_, _, life, going, drawn⟩
    | showing _ _ _ shift | stopping _ _ _ _ shift | forgetting _ shift =>
      exact (shift.pending d hd).imp_right fun h => absurd h List.not_mem_nil
  | created _ _ shift | live _ _ _ shift | dozing _ shift | rerouted _ shift =>
    exact (shift.pending d hd).imp_right fun h => absurd h List.not_mem_nil

end Folio.Room
