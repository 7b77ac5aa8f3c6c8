/-
Deliveries that overlap. Sending asks the chat service for a message, and the
paginator goes live in it only when it comes; by then others may have been sent, may
have come or may have failed. All that a paginator owes to its deliveries, its
message, its author and its watchdog, comes from the one that completed last
(`bears_afterAll`). A call that is refused, or whose delivery fails, has to do with the
outside alone, apart from the index that it cuts into range (`last_delivery_wins`).

`fate` says what a move makes of a paginator, but not whose message a delivery
brings; that is read off the turn in which it completes (`life_of_completed`).
-/
import Folio.Proofs.Room.Clock
import Folio.Proofs.Room.UnderWay
import Folio.Proofs.Room.Watched
import Mathlib.Data.List.Induction

namespace Folio

/-- A delivery that completed. -/
structure Delivery where
  message : Handle
  origin : Origin
  /-- The user of the origin. -/
  author : Option String
  /-- The number of the watchdog that is started for it, if one is. -/
  watchdog : Nat
deriving DecidableEq, Repr

namespace Room

variable {a b c room start : Room} {p : Nat} {pg : Paginator} {m : Move} {d : Delivery} {frames : List Frame}
  {rest : List Task} {outcome : Outcome}

/-! ## The last delivery -/

/-- The delivery of a paginator that a move completes. -/
def completed? (room : Room) (p : Nat) (m : Move) : Option Delivery :=
  match m, room.agenda.ready with
  | .turn, .resume (.deliver q origin :: _) (.ok (.message h)) :: _ =>
    if q = p then some ⟨h, origin, room.authorOf? origin, room.watchers.length⟩ else none
  | _, _ => none

/-- The delivery of a paginator that completed last in a run. -/
def lastDelivery? (room : Room) (p : Nat) : List Move → Option Delivery
  | [] => none
  | m :: moves => ((room.after m).lastDelivery? p moves).or (room.completed? p m)

theorem lastDelivery?_append (room : Room) (p : Nat) (ms : List Move) (m : Move) :
    room.lastDelivery? p (ms ++ [m]) = ((room.afterAll ms).completed? p m).or (room.lastDelivery? p ms) := by
  induction ms generalizing room with
  | nil => simp [lastDelivery?]
  | cons m' ms ih => rw [List.cons_append, lastDelivery?, ih, afterAll_cons, lastDelivery?, Option.or_assoc]

/-- A delivery completes when its message has its turn. -/
theorem completed?_eq_some : room.completed? p m = some d ↔ m = .turn ∧ (∃ frames rest,
    room.agenda.ready = .resume (.deliver p d.origin :: frames) (.ok (.message d.message)) :: rest) ∧
    d.author = room.authorOf? d.origin ∧ d.watchdog = room.watchers.length := by
  constructor
  · intro h
    unfold completed? at h
    split at h
    next q origin frames handle rest ready =>
      split at h
      next hq =>
        obtain rfl := Option.some.inj h
        exact ⟨rfl, ⟨frames, rest, hq ▸ ready⟩, rfl, rfl⟩
      · cases h
    · cases h
  · rintro ⟨rfl, ⟨frames, rest, ready⟩, author, watchdog⟩
    simp [completed?, ready, ← author, ← watchdog]

theorem delivers_of_completed (done : room.completed? p m = some d) : Delivers room m p := by
  obtain ⟨turn, ⟨frames, rest, ready⟩, -, -⟩ := completed?_eq_some.1 done
  exact ⟨turn, _, _, frames, rest, ready⟩

theorem not_delivers (none : room.completed? p m = none) : ¬Delivers room m p := by
  rintro ⟨turn, origin, h, frames, rest, ready⟩
  have done := completed?_eq_some (d := ⟨h, origin, room.authorOf? origin, room.watchers.length⟩).2
    ⟨turn, ⟨frames, rest, ready⟩, rfl, rfl⟩
  rw [none] at done
  cases done

/-- What a paginator is once a delivery of it completes. -/
theorem life_of_completed (done : room.completed? p m = some d) (life : room.standing.life? p = some pg) :
    (room.after m).standing.life? p = some (Standing.begun d.watchdog d.author d.message pg) := by
  obtain ⟨rfl, ⟨frames, rest, ready⟩, author, watchdog⟩ := completed?_eq_some.1 done
  obtain ⟨pg', hp, rfl⟩ := exists_of_life? life
  have shift := after_turn_shifted ready hp
  have live := Standing.life?_live life (room.authorOf? d.origin) d.message p
  have length : room.standing.guards.length = room.watchers.length := List.length_map _
  rw [if_pos rfl, length, ← author, ← watchdog] at live
  rw [shift.standing, ← author]
  exact live

/-- All that a paginator has from a delivery it has from this one. One that is
missing had none. -/
structure Bears (life : Option Paginator) (d : Option Delivery) : Prop where
  message : life.bind (·.message) = d.map (·.message)
  author : life.bind (·.author) = d.bind (·.author)
  watchdog : ∀ {pg}, life = some pg →
    pg.watchdog = d.bind fun d => if 0 < pg.config.idleTimeoutSeconds then some d.watchdog else none

theorem bears_none : Bears none none := ⟨rfl, rfl, fun life => by cases life⟩

/-- Who bears a delivery is there. -/
theorem Bears.missing {d : Option Delivery} (h : Bears none d) : d = none :=
  Option.map_eq_none_iff.1 h.message.symm

/-- Without a delivery that completes, a paginator keeps what it has from the last one. -/
theorem Bears.after {d : Option Delivery} (h : Bears (room.standing.life? p) d) (quiet : ¬Delivers room m p) :
    Bears ((room.after m).standing.life? p) d := by
  cases room.fate m p with
  | same same => rwa [same]
  | born new born =>
    rw [new] at h
    obtain rfl := h.missing
    rw [born]
    exact ⟨rfl, rfl, fun life => Option.some.inj life ▸ rfl⟩
  | @closed pg was _ closed =>
    rw [was] at h
    have kept : pg.watchdog = _ := h.watchdog rfl
    rw [closed]
    exact ⟨h.message, h.author, fun life => Option.some.inj life ▸ kept⟩
  | live _ completed _ => exact absurd completed quiet

theorem bears_of_completed (done : room.completed? p m = some d) (life : room.standing.life? p = some pg) :
    Bears ((room.after m).standing.life? p) (some d) := by
  rw [life_of_completed done life]
  exact ⟨rfl, rfl, fun life => Option.some.inj life ▸ rfl⟩

/-- What a run can rely on when a delivery completes in it: whoever waits for one is there. -/
theorem IsOpened.drawn (opened : IsOpened start) (moves : List Move) : (start.afterAll moves).Drawn := by
  have both := opened.holds (P := fun room => room.standing.Watched ∧ room.Drawn)
    (fun ids client environment contexts =>
      ⟨opened_watched ids client environment contexts, opened_drawn ids client environment contexts⟩)
    (fun room m h => ⟨room.after_watched m h.1, after_drawn m h.1 h.2⟩) moves
  exact both.2

/-- Whose delivery completes is there. -/
theorem exists_of_completed (drawn : room.Drawn) (done : room.completed? p m = some d) :
    ∃ pg, room.standing.life? p = some pg := by
  obtain ⟨origin, waits⟩ := (delivers_of_completed done).pending
  obtain ⟨pg, life, -⟩ := drawn.waiting waits
  exact ⟨pg, life⟩

/-- **The last to complete wins.** In every run, a paginator bears the delivery of it
that completed last, and none if there was none. -/
theorem bears_afterAll (opened : IsOpened start) (moves : List Move) (p : Nat) :
    Bears ((start.afterAll moves).standing.life? p) (start.lastDelivery? p moves) := by
  induction moves using List.reverseRecOn with
  | nil =>
    obtain ⟨ids, client, environment, contexts⟩ := opened
    exact bears_none
  | append_singleton ms m ih =>
    have step : start.afterAll (ms ++ [m]) = (start.afterAll ms).after m := afterAll_append start ms [m]
    rw [step, lastDelivery?_append]
    cases done : (start.afterAll ms).completed? p m with
    | none => exact ih.after (not_delivers done)
    | some d =>
      obtain ⟨pg, life⟩ := exists_of_completed (opened.drawn ms) done
      exact bears_of_completed done life

/-! ## Calls -/

/-- From `a` to `b` no paginator changed its status, its message or its author, the
router has the same in it, and no deadline moved. -/
structure Untouched (a b : Room) : Prop extends Still a b where
  standing : b.standing = a.standing

theorem Untouched.trans (h : Untouched a b) (h' : Untouched b c) : Untouched a c :=
  ⟨h.toStill.trans h'.toStill, h'.standing.trans h.standing⟩

theorem Outward.untouched {es : List Event} (h : Outward es a b) : Untouched a b := by
  have same : b.inside.standing = a.inside.standing := by rw [h.inside]
  exact ⟨h.still, same⟩

theorem clamp_untouched (room : Room) (p : Nat) : Untouched room (room.modifyPaginator p Paginator.clamp) :=
  ⟨⟨rfl, rfl, rfl, rfl⟩, (room.clamp_kept p).standing⟩

theorem SendsOut.untouched {via : Via} {origin : Origin} {payload : Payload}
    (h : SendsOut via origin payload frames a b) : Untouched a b := by
  rcases h.outward with outward | ⟨call, -, outward⟩
  · exact outward.untouched
  · exact outward.untouched

/-- How a paginator is sent, from the moment of the call to the moment at which it
waits: it is refused, its page cannot be rendered, or its page goes out to the origin,
unless there is none to send it to. What goes on after it are the frames. -/
inductive Sends (room : Room) (p : Nat) (via : Via) (origin : Origin) (frames : List Frame) (b : Room) : Prop where
  | missing (none : room.paginator? p = none) (eq : b = room.finish frames (.error .missing))
  | stopped {pg : Paginator} (was : room.paginator? p = some pg) (stopped : pg.status = .stopped)
      (eq : b = room.finish frames (.error .stopped))
  | empty {pg : Paginator} (was : room.paginator? p = some pg) (going : pg.status ≠ .stopped) (empty : pg.pages = [])
      (eq : b = room.finish frames (.error .nothingToSend))
  | undrawn {pg : Paginator} {fault : Fault} (was : room.paginator? p = some pg) (going : pg.status ≠ .stopped)
      (pages : pg.pages ≠ []) (undrawn : pg.clamp.payload = .error fault)
      (eq : b = (room.modifyPaginator p Paginator.clamp).finish frames (.error fault))
  | out {pg : Paginator} {payload : Payload} (was : room.paginator? p = some pg) (going : pg.status ≠ .stopped)
      (pages : pg.pages ≠ []) (drawn : pg.clamp.payload = .ok payload)
      (out : SendsOut via origin payload (.deliver p origin :: frames) (room.modifyPaginator p Paginator.clamp) b)

theorem sends (room : Room) (p : Nat) (via : Via) (origin : Origin) (frames : List Frame) :
    Sends room p via origin frames (room.send p via origin frames) := by
  rw [send]
  split
  next none => exact .missing none rfl
  next pg was =>
  split
  next stopped => exact .stopped was stopped rfl
  next going =>
  split
  next empty => exact .empty was going (List.isEmpty_iff.1 empty) rfl
  next pages =>
  have pages : pg.pages ≠ [] := fun empty => pages (List.isEmpty_iff.2 empty)
  simp only
  split
  next fault undrawn => exact .undrawn was going pages undrawn rfl
  next payload drawn => exact .out was going pages drawn (deliver_sendsOut _ via origin payload _)

theorem Sends.untouched {via : Via} {origin : Origin} (h : Sends room p via origin frames b) : Untouched room b := by
  have finished : ∀ (r : Room) (o : Outcome), Untouched r (r.finish frames o) := fun r o => (r.finish_outward frames o).untouched
  have clamped := room.clamp_untouched p
  cases h with
  | missing _ eq | stopped _ _ eq | empty _ _ _ eq => exact eq ▸ finished room _
  | undrawn _ _ _ _ eq => exact eq ▸ clamped.trans (finished _ _)
  | out _ _ _ _ out => exact clamped.trans out.untouched

/-- A frame that makes no paginator live has to do with the outside alone. -/
theorem resume_outward (room : Room) (frame : Frame) (frames : List Frame) {outcome : Outcome}
    (h : ∀ p origin h, frame = .deliver p origin → outcome ≠ .ok (.message h)) :
    ∃ es, Outward es room (room.resume frame frames outcome) := by
  have finished : ∀ o, ∃ es, Outward es room (room.finish frames o) := fun o => ⟨[], room.finish_outward frames o⟩
  cases frame with
  | pass => exact finished outcome
  | caller step paginator => exact ⟨[], rfl, (List.append_nil _).symm⟩
  | yield a | fail fault => cases outcome <;> exact finished _
  | fetch command id =>
    cases outcome with
    | error fault => exact finished _
    | ok a => exact ⟨_, room.relay_outward _ frames⟩
  | deliver p origin =>
    cases outcome with
    | error fault => exact finished _
    | ok a =>
      cases a with
      | message m => exact absurd rfl (h p origin m rfl)
      | nothing | flag b | value v | sent m held => exact finished _
  | expire p =>
    cases outcome with
    | ok a => exact finished _
    | error fault =>
      rw [resume]
      split
      · exact ⟨_, (room.log_outward _).andThen (finish_outward _ frames _)⟩
      · exact finished _
  | guard press =>
    cases outcome with
    | ok a => exact finished _
    | error fault =>
      obtain ⟨es, outward, -⟩ := room.apologize_outward press fault frames
      exact ⟨_, outward⟩
  | notice press =>
    cases outcome with
    | ok a => exact finished _
    | error fault => exact ⟨_, (room.log_outward _).andThen (finish_outward _ frames _)⟩

theorem popped_outward (ready : room.agenda.ready = .resume frames outcome :: rest) :
    Outward [] room (room.popped rest) := by
  refine ⟨?_, (List.append_nil _).symm⟩
  simp only [inside, popped, ready]
  rw [List.filter_cons_of_neg (by simp [Task.isWoken])]

/-- Frames that complete no delivery have to do with the outside alone when they go on. -/
theorem turn_outward (ready : room.agenda.ready = .resume frames outcome :: rest)
    (none : ∀ p, room.completed? p .turn = none) : ∃ es, Outward es room (room.after .turn) := by
  have popped := popped_outward ready
  have turned := after_turn ready
  cases frames with
  | nil => exact ⟨[], turned ▸ popped⟩
  | cons frame frames =>
    rw [turned]
    have spares : ∀ p origin h, frame = .deliver p origin → outcome ≠ .ok (.message h) := by
      rintro p origin h rfl rfl
      exact not_delivers (none p) ⟨rfl, origin, h, frames, rest, ready⟩
    obtain ⟨es, outward⟩ := resume_outward (room.popped rest) frame frames spares
    exact ⟨es, outward.after popped⟩

/-- A delivery that fails hands that on, and does nothing else. -/
theorem turn_of_failed {origin : Origin} {fault : Fault}
    (ready : room.agenda.ready = .resume (.deliver p origin :: frames) (.error fault) :: rest) :
    room.after .turn = (room.popped rest).finish frames (.error fault) ∧ Untouched room (room.after .turn) := by
  have turned : room.after .turn = (room.popped rest).finish frames (.error fault) := after_turn ready
  have outward := (finish_outward (room.popped rest) frames (.error fault)).after (popped_outward ready)
  exact ⟨turned, turned ▸ outward.untouched⟩

/-- An answer to a call that was held back has to do with the outside alone. -/
theorem release_outward {position : Nat} {failure : Option String} (h : room.release position failure = some b) :
    Outward [] room b := by
  rw [release, Option.map_eq_some_iff] at h
  obtain ⟨call, -, rfl⟩ := h
  have erased : Outward [] room { room with held := room.held.eraseIdx position } := ⟨rfl, (List.append_nil _).symm⟩
  split
  · exact (finish_outward _ call.frames _).after erased
  · exact (succeed_outward _ call.call call.frames).after erased

/-! ## Overlapping deliveries -/

/-- A delivery that completes leaves a paginator live in a message that was sent to
its origin, with the user of that origin for its author. -/
structure Delivered (room : Room) (p : Nat) (m : Move) (d : Delivery) : Prop where
  sent : room.Sent d.origin d.message
  author : d.author = room.authorOf? d.origin
  live : ∃ pg, (room.after m).paginator? p = some pg ∧ pg.status = .active ∧ pg.registered = true ∧
    pg.message = some d.message ∧ pg.author = d.author

theorem delivered_of_completed (drawn : room.Drawn) (underWay : room.UnderWay) (done : room.completed? p m = some d) :
    room.Delivered p m d := by
  obtain ⟨turn, ⟨frames, rest, ready⟩, author, -⟩ := completed?_eq_some.1 done
  obtain ⟨pg, life⟩ := exists_of_completed drawn done
  obtain ⟨pg', hp, bare⟩ := exists_of_life? (life_of_completed done life)
  have status : pg'.bare.status = .active := bare ▸ rfl
  have registered : pg'.bare.registered = true := bare ▸ rfl
  have message : pg'.bare.message = some d.message := bare ▸ rfl
  have user : pg'.bare.author = d.author := bare ▸ rfl
  exact ⟨underWay.sent ready, author, pg', hp, status, registered, message, user⟩

/-- **Deliveries are all or nothing, and the last to complete wins.** In every run,
however its deliveries overlap, complete or fail: a paginator has the message and the
author of the delivery of it that completed last, and neither if there was none; and
one that completes leaves it live in a message that was sent to its origin. A call is
refused, or its page cannot be rendered, or goes out; that moves nothing but the index,
which is cut into range. If the delivery fails nothing moves at all, nor does anything
on the way, on which there are only dealings with the outside. -/
theorem last_delivery_wins {moves : List Move} (opened : IsOpened start) (run : start.afterAll moves = room) :
    (∀ p pg, room.paginator? p = some pg → pg.message = (start.lastDelivery? p moves).map (·.message) ∧
      pg.author = (start.lastDelivery? p moves).bind (·.author)) ∧
    (∀ ms m p d, ms ++ [m] <+: moves → (start.afterAll ms).completed? p m = some d → (start.afterAll ms).Delivered p m d) ∧
    (∀ p via origin frames, Sends room p via origin frames (room.send p via origin frames) ∧
      Untouched room (room.send p via origin frames)) ∧
    (∀ p origin frames fault rest, room.agenda.ready = .resume (.deliver p origin :: frames) (.error fault) :: rest →
      room.after .turn = (room.popped rest).finish frames (.error fault) ∧ Untouched room (room.after .turn)) ∧
    (∀ frames outcome rest, room.agenda.ready = .resume frames outcome :: rest → (∀ p, room.completed? p .turn = none) →
      ∃ es, Outward es room (room.after .turn)) ∧
    ∀ position failure b, room.release position failure = some b → Outward [] room b := by
  subst run
  refine ⟨fun p pg hp => ?_, fun ms m p d _ done => ?_, fun p via origin frames => ?_,
    fun p origin frames fault rest => turn_of_failed, fun frames outcome rest => turn_outward,
    fun position failure b => release_outward⟩
  · have bears := bears_afterAll opened moves p
    rw [life?_of_paginator? hp] at bears
    have message : pg.bare.message = _ := bears.message
    have author : pg.bare.author = _ := bears.author
    exact ⟨message, author⟩
  · exact delivered_of_completed (opened.drawn ms) (opened.underWay ms) done
  · have sends := (start.afterAll moves).sends p via origin frames
    exact ⟨sends, sends.untouched⟩

/-- Of deliveries that overlap, to users and to contexts, the one that came first is the last
to complete, another fails, one is refused for its channel; and the paginator is left with
the message and the author of the first. -/
theorem last_delivery_wins_overlapping :
    let hello : Move := .act 0 (.create (.pages [.text "hello" "" "" ""]) (.record []) none)
    let toUsers : List Move := [hello, .act 1 (.setHolding true), .act 2 (.send 0 .send (.user "ada")),
      .act 3 (.send 0 .reply (.user "bob")), .act 4 (.send 0 .send (.user "cyd")), .act 5 (.release 1 none), .turn,
      .turn, .turn, .act 6 (.release 0 none), .turn, .turn, .turn, .act 7 (.release 0 (some "refused")), .turn, .turn,
      .turn]
    let toContexts : List Move := [hello, .act 1 (.setHolding true), .act 2 (.send 0 .send (.context "lobby")),
      .act 3 (.send 0 .reply (.context "ask")), .act 4 (.send 0 .send (.context "lobby")),
      .act 5 (.send 0 .send (.context "shut")), .act 6 (.release 1 none), .turn, .turn, .turn, .turn,
      .act 7 (.release 2 none), .turn, .turn, .turn, .turn, .turn, .act 8 (.release 0 none), .turn, .turn, .turn, .turn,
      .act 9 (.release 0 (some "refused")), .turn, .turn, .turn, .turn]
    let plain := openedWith .numbered .plain [] []
    let service := openedWith .numbered (.service false) [] [("lobby", .message "ada" "lobby" true),
      ("ask", .command ⟨"bob", false, false, none⟩), ("shut", .message "cyd" "shut" false)]
    (∃ pg, (plain.afterAll toUsers).paginator? 0 = some pg ∧ pg.message = some ⟨1, some .send⟩ ∧
      pg.author = some "ada") ∧
    ∃ pg, (service.afterAll toContexts).paginator? 0 = some pg ∧ pg.message = some ⟨1, none⟩ ∧ pg.author = some "ada" := by
  intro hello toUsers toContexts plain service
  have left : ∀ (start : Room) (moves : List Move) (d : Delivery), IsOpened start →
      start.lastDelivery? 0 moves = some d → ((start.afterAll moves).paginator? 0).isSome = true →
        ∃ pg, (start.afterAll moves).paginator? 0 = some pg ∧ pg.message = some d.message ∧ pg.author = d.author := by
    intro start moves d opened last there
    obtain ⟨pg, hp⟩ := Option.isSome_iff_exists.1 there
    obtain ⟨message, author⟩ := (last_delivery_wins opened rfl).1 0 pg hp
    rw [last] at message author
    exact ⟨pg, hp, message, author⟩
  have users : plain.lastDelivery? 0 toUsers = some ⟨⟨1, some .send⟩, .user "ada", some "ada", 0⟩ := by decide +kernel
  have contexts : service.lastDelivery? 0 toContexts = some ⟨⟨1, none⟩, .context "lobby", some "ada", 0⟩ := by
    decide +kernel
  exact ⟨left plain toUsers _ (.opened _ _ _ _) users (by decide +kernel),
    left service toContexts _ (.opened _ _ _ _) contexts (by decide +kernel)⟩

end Room

end Folio
