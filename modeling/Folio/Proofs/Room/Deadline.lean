/-
The idle deadline. A run is prompt if whatever a step leads to is done before the
next one comes, and timers go off when they are due. In such a run the flag, the
timers and the watchdogs that come and go amount to one line: a live paginator is
stopped as idle when its patience has passed since it was last tended, by a delivery
that completed or by a press of its author, and not before (`idle_deadline`).

What carries the proof is that the watchdog of a live paginator is `Scheduled`: it is
asleep until that moment, or has just been pinged, or its time has just run out. A
move that tends the paginator sets the schedule anew, and no other move changes it.
-/
import Folio.Proofs.Room.Leafing
import Folio.Proofs.Room.Vigil

namespace Folio.Room

variable {room : Room} {p w : Nat} {pg : Paginator} {m : Move} {x : Watch} {t : Number}

/-! ## What holds in every run -/

/-- What a run relies on when it comes to time. -/
structure Orderly (room : Room) : Prop where
  watched : room.standing.Watched
  wound : Wound room.goes room
  /-- A live paginator has a watchdog unless it may be idle for ever. -/
  minded : ∀ {p pg}, room.standing.life? p = some pg → pg.status = .active →
    (pg.watchdog.isSome = true ↔ 0 < pg.config.idleTimeoutSeconds)
  accepted : ∀ {p pg}, room.standing.life? p = some pg →
    ∃ environment overrides, Config.resolveValue environment overrides = .ok pg.config

theorem opened_orderly (ids : SessionIds) (client : Client) (environment : Environment)
    (contexts : Table String Context) : (openedWith ids client environment contexts).Orderly := by
  refine ⟨opened_watched ids client environment contexts, ⟨fun hw => ?_, fun _ => ⟨rfl, rfl⟩⟩, fun life => ?_, fun life => ?_⟩
  · cases hw
  · cases life
  · cases life

theorem Orderly.after (h : Orderly room) (m : Move) : Orderly (room.after m) := by
  refine ⟨room.after_watched m h.watched, room.after_wound m h.wound, fun {p pg} life active => ?_, fun {p pg} life => ?_⟩
  · cases room.fate m p with
    | same same => exact h.minded (same.symm.trans life) active
    | born _ born =>
      obtain rfl := Option.some.inj (life.symm.trans born)
      cases active
    | closed _ _ closed =>
      obtain rfl := Option.some.inj (life.symm.trans closed)
      cases active
    | @live pg₀ n author handle _ _ live =>
      obtain rfl := Option.some.inj (life.symm.trans live)
      have own : (Standing.begun n author handle pg₀).watchdog =
        if 0 < pg₀.config.idleTimeoutSeconds then some n else none := rfl
      have config : (Standing.begun n author handle pg₀).config = pg₀.config := rfl
      rw [own, config]
      split
      next pos => simp [pos]
      next none => simp [none]
  · obtain ⟨pg', hp', rfl⟩ := exists_of_life? life
    rcases paginator?_before hp' with ⟨pg, hp⟩ | ⟨-, overrides, accepted⟩
    · obtain ⟨pg₁, life₁, -, config⟩ := life_after m (life?_of_paginator? hp)
      obtain rfl := Option.some.inj (life.symm.trans life₁)
      have same : pg'.bare.config = pg.config := config
      have accepted := h.accepted (life?_of_paginator? hp)
      rw [same]
      exact accepted
    · exact ⟨room.environment, overrides, accepted⟩

/-- The delay of the watchdog of a paginator is its patience. -/
theorem Orderly.delay_eq (h : Orderly room) (life : room.standing.life? p = some pg) :
    ((Agenda.delay pg.interval : Nat) : Number) = pg.patience := by
  obtain ⟨environment, overrides, accepted⟩ := h.accepted life
  obtain ⟨least, most⟩ := Config.seconds_of_resolveValue accepted
  obtain ⟨ms, interval, pos, limit⟩ := Number.scale_seconds least most
  rw [Paginator.patience, Paginator.interval, interval]
  exact Number.delay_eq pos limit

/-! ## Prompt runs -/

/-- The moves that may come next where consequences come before all else, and timers
go off when they are due. -/
inductive Prompt (room : Room) : Move → Prop where
  | act (k : Nat) (a : Act) (quiet : room.agenda.ready = []) : Prompt room (.act k a)
  | turn : Prompt room .turn
  | fire (limit : Number) (quiet : room.agenda.ready = []) : Prompt room (.fire limit)
  /-- Time passes, but not beyond a time at which a timer is due. -/
  | moveTo {time : Number} (quiet : room.agenda.ready = []) (isTime : time.IsTime)
      (later : room.agenda.now.le time = true) (due : ∀ t ∈ room.agenda.timers, time.le t.due = true) :
    Prompt room (.moveTo time)

instance (room : Room) (m : Move) : Decidable (Prompt room m) :=
  match m with
  | .act k a => decidable_of_iff (room.agenda.ready.isEmpty = true)
      ⟨fun h => .act k a (List.isEmpty_iff.1 h), fun h => match h with | .act _ _ quiet => List.isEmpty_iff.2 quiet⟩
  | .turn => isTrue .turn
  | .fire limit => decidable_of_iff (room.agenda.ready.isEmpty = true)
      ⟨fun h => .fire limit (List.isEmpty_iff.1 h), fun h => match h with | .fire _ quiet => List.isEmpty_iff.2 quiet⟩
  | .moveTo time => decidable_of_iff (room.agenda.ready.isEmpty = true ∧ time.IsTime ∧ room.agenda.now.le time = true ∧
        ∀ t ∈ room.agenda.timers, time.le t.due = true)
      ⟨fun h => .moveTo (List.isEmpty_iff.1 h.1) h.2.1 h.2.2.1 h.2.2.2,
        fun h => match h with | .moveTo quiet isTime later due => ⟨List.isEmpty_iff.2 quiet, isTime, later, due⟩⟩

/-- Every move of a run comes promptly. -/
def Promptly (room : Room) : List Move → Prop
  | [] => True
  | m :: moves => Prompt room m ∧ (room.after m).Promptly moves

instance decidablePromptly (room : Room) : (moves : List Move) → Decidable (room.Promptly moves)
  | [] => isTrue trivial
  | m :: moves => @instDecidableAnd _ _ inferInstance (decidablePromptly (room.after m) moves)

theorem promptly_append (room : Room) (ms ms' : List Move) :
    room.Promptly (ms ++ ms') ↔ room.Promptly ms ∧ (room.afterAll ms).Promptly ms' := by
  induction ms generalizing room with
  | nil => simp [Promptly]
  | cons m ms ih => rw [List.cons_append, Promptly, ih, Promptly, afterAll_cons, and_assoc]

/-- A prompt move keeps the agenda on time, and only a timer or the clock itself
moves the clock. -/
theorem Prompt.onTime (prompt : Prompt room m) (h : Orderly room) (onTime : room.agenda.OnTime) :
    (room.after m).agenda.OnTime ∧
      ((∀ limit, m ≠ .fire limit) → (∀ time, m ≠ .moveTo time) → (room.after m).agenda.now = room.agenda.now) := by
  rcases (room.tick_after m).winds h.wound with winds | ⟨t, rest, ⟨limit, fire⟩, timers, winds⟩ | ⟨time, move, -, eq⟩
  · exact ⟨winds.onTime onTime, fun _ _ => winds.now⟩
  · exact ⟨winds.onTime (onTime.fire timers).2, fun other => absurd fire (other limit)⟩
  · refine ⟨?_, fun _ other => absurd move (other time)⟩
    rw [eq]
    subst move
    cases prompt with
    | moveTo quiet isTime later due =>
      exact (onTime.moveTo isTime ((onTime.now.le_iff isTime).1 later)
        fun t ht => (isTime.le_iff (onTime.due t ht).1).1 (due t ht)).2

/-! ## Tending -/

/-- Whether a move completes a delivery of a paginator. -/
def delivers (room : Room) (p : Nat) (m : Move) : Bool :=
  match m, room.agenda.ready with
  | .turn, .resume (.deliver q _ :: _) (.ok (.message _)) :: _ => q = p
  | _, _ => false

/-- Whether a move brings a live paginator a press of its author. -/
def attends (room : Room) (p : Nat) (m : Move) : Bool :=
  match room.received? m, room.paginator? p with
  | some (q, press), some pg => q = p && pg.author = some press.user && pg.status = .active
  | _, _ => false

/-- Whether a move tends a paginator: it completes a delivery of it, or brings a press
of its author while it is live. -/
def tends (room : Room) (p : Nat) (m : Move) : Bool := room.delivers p m || room.attends p m

theorem delivers_iff : room.delivers p m = true ↔ Delivers room m p := by
  constructor
  · intro h
    unfold delivers at h
    split at h
    next q origin frames handle rest ready =>
      obtain rfl := of_decide_eq_true h
      exact ⟨rfl, origin, handle, frames, rest, ready⟩
    · cases h
  · rintro ⟨rfl, origin, handle, frames, rest, ready⟩
    simp [delivers, ready]

theorem attends_iff : room.attends p m = true ↔ ∃ press pg, room.received? m = some (p, press) ∧
    room.paginator? p = some pg ∧ pg.author = some press.user ∧ pg.status = .active := by
  constructor
  · intro h
    rw [attends] at h
    split at h
    next q press pg received hp =>
      simp only [Bool.and_eq_true, decide_eq_true_eq] at h
      obtain ⟨⟨rfl, author⟩, active⟩ := h
      exact ⟨press, pg, received, hp, author, active⟩
    · cases h
  · rintro ⟨press, pg, received, hp, author, active⟩
    rw [attends, received, hp]
    simp [author, active]

/-- When a paginator was last tended in a run, if it was. -/
def tendedAt? (room : Room) (p : Nat) : List Move → Option Number
  | [] => none
  | m :: moves => ((room.after m).tendedAt? p moves).or (if room.tends p m then some room.agenda.now else none)

theorem tendedAt?_append (room : Room) (p : Nat) (ms : List Move) (m : Move) :
    room.tendedAt? p (ms ++ [m]) =
      if (room.afterAll ms).tends p m then some (room.afterAll ms).agenda.now else room.tendedAt? p ms := by
  induction ms generalizing room with
  | nil => rfl
  | cons m' ms ih =>
    rw [List.cons_append, tendedAt?, ih, afterAll_cons, tendedAt?]
    split
    · rfl
    · rfl

/-! ## The schedule -/

/-- A watchdog that was tended at `t` keeps to the schedule for `due`. -/
def OnSchedule (room : Room) (t due : Number) : Stage → Prop
  | .asleep until' => until' = due
  | .woken true => room.agenda.now = t
  | .woken false => room.agenda.now = due
  | .finished => False

/-- The watchdog of a live paginator that was tended at `t` keeps to its schedule. -/
def Scheduled (room : Room) (p : Nat) (t : Number) : Prop :=
  ∀ pg w, room.standing.life? p = some pg → pg.status = .active → pg.watchdog = some w →
    ∃ x, At room w x ∧ x.interval = pg.interval ∧ OnSchedule room t (t + (Agenda.delay pg.interval : Number)) x.stage

/-- Where nothing is ready, a live paginator's watchdog is asleep. -/
theorem Orderly.asleep (h : Orderly room) (quiet : room.agenda.ready = []) (life : room.standing.life? p = some pg)
    (active : pg.status = .active) (current : pg.watchdog = some w) (known : At room w x) :
    ∃ due, x.stage = .asleep due := by
  obtain ⟨-, running⟩ := known.running_of_active h.watched life current active
  obtain ⟨watchdog, -, -, runs, stands⟩ := known
  cases hs : x.stage with
  | asleep due => exact ⟨due, rfl⟩
  | woken pinged =>
    rw [hs] at stands
    cases stands with
    | woken _ wakes =>
      rw [Agenda.wakes, quiet] at wakes
      cases wakes
  | finished =>
    rw [hs] at stands
    cases stands with
    | finished _ _ _ ended =>
      rw [runs, running] at ended
      cases ended

/-- The watchdog of a paginator, with the interval that goes with it. -/
theorem Orderly.staged (h : Orderly room) (life : room.standing.life? p = some pg) (current : pg.watchdog = some w) :
    ∃ x, At room w x ∧ x.interval = pg.interval := by
  obtain ⟨running, guards, -⟩ := h.watched.guarded life current
  cases hw : room.watchers[w]? with
  | none =>
    have absent : room.standing.guards[w]? = none := by rw [standing, List.getElem?_map, hw, Option.map_none]
    rw [absent] at guards
    cases guards
  | some watcher =>
    obtain ⟨x, known, pg', life', interval⟩ := h.wound.staged hw
    rw [known.guards] at guards
    obtain ⟨own, -⟩ := Prod.mk.inj (Option.some.inj guards)
    rw [own] at life'
    obtain rfl := Option.some.inj (life.symm.trans life')
    exact ⟨x, known, interval⟩

theorem length_watchers_callOff (room : Room) (o : Option Nat) :
    (room.callOff o).watchers.length = room.watchers.length := by
  cases o with
  | none => rfl
  | some w =>
    rw [callOff, modifyWatchdog]
    split
    · exact List.length_set
    · rfl

/-- A delivery that completes sets the schedule. -/
theorem scheduled_of_delivers (h : Orderly room) (delivers : Delivers room m p) :
    Scheduled (room.after m) p room.agenda.now := by
  obtain ⟨rfl, origin, handle, frames, rest, ready⟩ := delivers
  intro pg w life active current
  have popped : Still room (room.popped rest) := by
    refine ⟨rfl, rfl, rfl, ?_⟩
    rw [ready]
    rfl
  have turned : room.after .turn = ((room.popped rest).goLive p origin handle).finish frames (.ok (.message handle)) :=
    after_turn ready
  cases hp : room.paginator? p with
  | none =>
    -- Who is not there does not come to be there in a turn.
    have hp' : (room.popped rest).paginator? p = none := hp
    have stays : (room.popped rest).goLive p origin handle = room.popped rest := by rw [goLive, hp']
    have none : (room.after .turn).paginator? p = none := by
      rw [turned, stays, (finish_outward _ frames _).paginator?, hp']
    rw [life?_standing, none] at life
    cases life
  | some pg₀ =>
    have shift := after_turn_shifted ready hp
    have live := Standing.life?_live (life?_of_paginator? hp) (room.authorOf? origin) handle p
    rw [if_pos rfl] at live
    have begun : (room.after .turn).standing.life? p = _ := shift.standing ▸ live
    obtain rfl := Option.some.inj (life.symm.trans begun)
    have own : (if 0 < pg₀.config.idleTimeoutSeconds then some room.standing.guards.length else none) = some w := current
    split at own
    next pos =>
      have hp' : (room.popped rest).paginator? p = some pg₀ := hp
      have ended := (h.wound.still popped).trans ((h.wound.still popped).wound.callOff pg₀.watchdog)
      obtain ⟨known, -⟩ := ((room.popped rest).callOff pg₀.watchdog).watchOver_at p pos
        (ended.wound.spare (List.getElem?_eq_none (Nat.le_refl _)))
      have still : Still _ (room.after .turn) :=
        turned ▸ (goLive_still hp' origin handle).trans (finish_outward _ frames _).still
      have number : room.standing.guards.length = room.watchers.length := List.length_map _
      rw [length_watchers_callOff, ended.now] at known
      rw [← Option.some.inj own, number]
      exact ⟨_, still.at known, rfl, rfl⟩
    · cases own

/-- So does a press of the author. -/
theorem scheduled_of_attends (h : Orderly room) (prompt : Prompt room m) (attends : room.attends p m = true) :
    Scheduled (room.after m) p room.agenda.now := by
  obtain ⟨press, pg, received, hp, author, active⟩ := attends_iff.1 attends
  obtain ⟨a, frames, receives, eq⟩ := receives received
  have quiet : room.agenda.ready = [] := by
    cases receives <;> (cases prompt with | act k a quiet => exact quiet)
  have before := receives.outward.calm
  have standing : a.standing = room.standing := by
    cases receives <;> rfl
  have hp' : a.paginator? p = some pg := (receives.outward.paginator? p).trans hp
  intro pg' w life active' current
  rw [eq] at life ⊢
  rcases receive_own hp' author active frames with calm | ⟨-, -, closed⟩
  · have pinged : (a.ping pg.watchdog).standing = room.standing := ((a.ping_kept pg.watchdog).standing).trans standing
    have lives : (a.receive p press frames).standing.life? p = some pg.bare :=
      calm.lives (pinged ▸ life?_of_paginator? hp)
    obtain rfl := Option.some.inj (life.symm.trans lives)
    have own : pg.watchdog = some w := current
    obtain ⟨x, known, interval⟩ := h.staged (life?_of_paginator? hp) own
    obtain ⟨due, asleep⟩ := h.asleep quiet (life?_of_paginator? hp) active own known
    rw [own] at calm
    have rung := (before.at known).ping
    refine ⟨_, calm.at rung.1, interval, ?_⟩
    have now : (a.receive p press frames).agenda.now = room.agenda.now :=
      (calm.now.trans rung.2.now).trans before.now
    simp only [asleep]
    exact now
  · have ended := Standing.life?_closed (s := a.standing) (life?_of_paginator? hp') p
    have finished : (a.receive p press frames).standing.life? p = some (Standing.ended pg.bare) := by
      rw [closed]
      exact ended.trans (if_pos rfl)
    obtain rfl := Option.some.inj (life.symm.trans finished)
    cases active'

/-- Who is live was so before, or a delivery of it has just completed. -/
theorem life_before (life : (room.after m).standing.life? p = some pg) (active : pg.status = .active) :
    room.standing.life? p = some pg ∨ Delivers room m p := by
  cases room.fate m p with
  | same same => exact .inl (same.symm.trans life)
  | born _ born =>
    obtain rfl := Option.some.inj (life.symm.trans born)
    cases active
  | closed _ _ closed =>
    obtain rfl := Option.some.inj (life.symm.trans closed)
    cases active
  | live _ completed _ => exact .inr completed

/-- No other move changes the schedule. -/
theorem Scheduled.after (scheduled : Scheduled room p t) (h : Orderly room) (onTime : room.agenda.OnTime)
    (prompt : Prompt room m) (untended : room.tends p m = false) : Scheduled (room.after m) p t := by
  rw [tends, Bool.or_eq_false_iff] at untended
  have undelivered : ¬Delivers room m p := fun delivers => by
    rw [delivers_iff.2 delivers] at untended
    cases untended.1
  intro pg w life active current
  have before := (life_before life active).resolve_right undelivered
  obtain ⟨x, known, interval, schedule⟩ := scheduled pg w before active current
  have now := (prompt.onTime h onTime).2
  -- A watchdog is not asleep only for as long as something is ready, and then only turns come.
  have awake : ∀ {pinged}, x.stage = .woken pinged → m = .turn := by
    intro pinged hs
    cases prompt with
    | turn => rfl
    | act _ _ quiet | fire _ quiet | moveTo quiet =>
      obtain ⟨due, asleep⟩ := h.asleep quiet before active current known
      rw [hs] at asleep
      cases asleep
  have minds : Minds room p w pg x := ⟨h.watched, h.wound, before, active, current, known⟩
  cases minds.vigil m with
  | same _ known' =>
    refine ⟨x, known', interval, ?_⟩
    cases hs : x.stage with
    | asleep due =>
      rw [hs] at schedule
      exact schedule
    | woken pinged =>
      obtain rfl := awake hs
      rw [hs] at schedule
      have stood := now (by simp) (by simp)
      cases pinged with
      | true => exact stood.trans schedule
      | false => exact stood.trans schedule
    | finished =>
      rw [hs] at schedule
      exact schedule
  | @pinged press received author _ _ =>
    obtain ⟨pg', hp, rfl⟩ := exists_of_life? before
    have attends := attends_iff.2 ⟨press, pg', received, hp, author, active⟩
    rw [attends] at untended
    cases untended.2
  | asked _ finished | timedOut _ _ _ finished =>
    have ended : pg = Standing.ended pg := Option.some.inj (life.symm.trans finished)
    rw [ended] at active
    cases active
  | begun delivers => exact absurd delivers undelivered
  | renewed turn _ stage _ known' =>
    refine ⟨_, known', interval, ?_⟩
    rw [stage] at schedule
    have since : room.agenda.now = t := schedule
    simp only [Watch.wentOn, minds.running, Bool.and_self, if_true, since, interval]
    rfl
  | lapsed fire timers own stage _ known' now' =>
    refine ⟨_, known', interval, ?_⟩
    rw [stage] at schedule
    exact (now'.trans (onTime.fire timers).1).trans schedule

/-! ## How a live paginator ends -/

/-- The status of a paginator. -/
def status? (room : Room) (p : Nat) : Option Status := (room.paginator? p).map (·.status)

theorem status?_of_life (life : room.standing.life? p = some pg) : room.status? p = some pg.status := by
  obtain ⟨pg', hp, rfl⟩ := exists_of_life? life
  rw [status?, hp]
  rfl

theorem life_of_status? {status : Status} (h : room.status? p = some status) :
    ∃ pg, room.standing.life? p = some pg ∧ pg.status = status := by
  obtain ⟨pg, hp, rfl⟩ := Option.map_eq_some_iff.1 h
  exact ⟨pg.bare, life?_of_paginator? hp, rfl⟩

/-- A move stops a live paginator since the wait of its watchdog ran out. -/
structure TimesOut (room : Room) (m : Move) (p : Nat) : Prop where
  turn : m = .turn
  ranOut : ∃ pg w rest, room.standing.life? p = some pg ∧ pg.status = .active ∧ pg.watchdog = some w ∧
    room.agenda.ready = .woken w false :: rest
  stopped : (room.after m).status? p = some .stopped

/-- A live paginator goes on, unless it is asked to stop or times out. -/
theorem ends_after (m : Move) (life : room.standing.life? p = some pg) (active : pg.status = .active) :
    (room.after m).status? p = some .active ∨ Asks room m p ∨ TimesOut room m p := by
  have goes : (room.after m).standing.life? p = some pg → (room.after m).status? p = some .active := fun life' =>
    active ▸ status?_of_life life'
  -- The end of another paginator leaves this one live.
  have spared : ∀ {q : Nat} {pg' : Paginator}, room.paginator? q = some pg' → p ≠ q →
      (room.after m).standing = room.standing.closed q pg' → (room.after m).status? p = some .active := by
    intro q pg' was other closed
    have others : (room.standing.closed q pg').life? p = _ := Standing.life?_closed (life?_of_paginator? was) p
    rw [if_neg other, life, ← closed] at others
    exact goes others
  cases room.tick_after m with
  | calm calm => exact .inl (goes (calm.lives life))
  | @pinged q press pg' a _ _ _ _ before calm =>
    have kept : (a.ping pg'.watchdog).standing = a.standing := (a.ping_kept pg'.watchdog).standing
    exact .inl (goes (calm.lives (kept ▸ before.lives life)))
  | @stopped q pg' a was asked _ closed =>
    by_cases hq : p = q
    · subst hq
      refine .inr (.inl ?_)
      rcases asked with ⟨stop, -⟩ | ⟨press, r, received, author, active', role, callback, -, -⟩
      · exact .inl stop
      · exact .inr ⟨press, pg', received, was, author, active', role, callback⟩
    · exact .inl (spared was hq closed)
  | @started q pg' origin handle a delivers was _ _ standing =>
    have live := Standing.life?_live (life?_of_paginator? was) (room.authorOf? origin) handle p
    have began : (room.after m).standing.life? p = _ := standing ▸ live
    split at began
    · exact .inl (status?_of_life began)
    · exact .inl (goes (began.trans life))
  | woken _ _ _ calm =>
    refine .inl (goes (calm.lives ?_))
    rw [standing_goneOn]
    exact life
  | @expired w q pg' rest turn ready ranOut _ closed =>
    by_cases hq : p = q
    · subst hq
      have finished : (room.standing.closed p pg').life? p = _ := Standing.life?_closed (life?_of_paginator? ranOut.was) p
      rw [if_pos rfl, ← closed] at finished
      exact .inr (.inr ⟨turn, ⟨pg'.bare, w, rest, life?_of_paginator? ranOut.was, ranOut.active, ranOut.current, ready⟩,
        status?_of_life finished⟩)
    · exact .inl (spared ranOut.was hq closed)
  | @lapsed limit t rest fire timers eq =>
    refine .inl (goes ?_)
    rw [eq, (modifyWatchdog_kept _ t.key (Watchdog.lapse .woken t.key) fun wd a => wd.lapse_spec a t.key).standing]
    exact life
  | moved _ eq => exact .inl (goes (eq ▸ life))

/-- An idle timeout comes when it is due. -/
theorem TimesOut.due (timesOut : TimesOut room m p) (h : Orderly room) (scheduled : Scheduled room p t)
    (life : room.standing.life? p = some pg) :
    0 < pg.config.idleTimeoutSeconds ∧ room.agenda.now = t + pg.patience := by
  obtain ⟨pg', w, rest, life', active, current, ready⟩ := timesOut.ranOut
  obtain rfl := Option.some.inj (life.symm.trans life')
  obtain ⟨x, known, -, schedule⟩ := scheduled pg w life active current
  rw [(known.goneOn ready).1] at schedule
  refine ⟨(h.minded life active).1 (by rw [current]; rfl), ?_⟩
  rw [← h.delay_eq life]
  exact schedule

/-- The clock has not passed a time, and has not reached it once all that is due is done. -/
def Awaits (room : Room) (due : Number) : Prop :=
  room.agenda.now.le due = true ∧
    (room.agenda.ready = [] → (∀ timer ∈ room.agenda.timers, timer.due.le room.agenda.now = false) →
      room.agenda.now.lt due = true)

/-- A live paginator has not been idle for too long. -/
theorem awaits (h : Orderly room) (onTime : room.agenda.OnTime) (scheduled : Scheduled room p t)
    (life : room.standing.life? p = some pg) (active : pg.status = .active) (pos : 0 < pg.config.idleTimeoutSeconds) :
    Awaits room (t + pg.patience) := by
  obtain ⟨w, current⟩ := Option.isSome_iff_exists.1 ((h.minded life active).2 pos)
  obtain ⟨x, known, -, schedule⟩ := scheduled pg w life active current
  rw [h.delay_eq life] at schedule
  -- Who is asleep has a timer that is set for then.
  have asleep : ∀ {due}, x.stage = .asleep due → ∃ timer ∈ room.agenda.timers, timer.due = t + pg.patience := by
    intro due hs
    obtain ⟨watchdog, -, -, -, stands⟩ := known
    rw [hs] at stands schedule
    cases stands with
    | asleep dues =>
      have mem : due ∈ room.agenda.dues w := by simp [dues]
      obtain ⟨timer, ht, rfl⟩ := List.mem_map.1 mem
      exact ⟨timer, (List.mem_filter.1 ht).1, schedule⟩
  refine ⟨?_, fun quiet done => ?_⟩
  · cases hs : x.stage with
    | asleep due =>
      obtain ⟨timer, ht, due⟩ := asleep hs
      obtain ⟨time, later⟩ := onTime.due timer ht
      rw [← due]
      exact (onTime.now.le_iff time).2 later
    | woken pinged =>
      rw [hs] at schedule
      cases pinged with
      | true =>
        have since : room.agenda.now = t := schedule
        obtain ⟨time, later⟩ := onTime.now.add_natCast (Agenda.delay pg.interval)
        rw [h.delay_eq life] at time later
        rw [← since]
        exact (onTime.now.le_iff time).2 later
      | false =>
        have reached : room.agenda.now = t + pg.patience := schedule
        rw [← reached]
        exact (onTime.now.le_iff onTime.now).2 le_rfl
    | finished =>
      rw [hs] at schedule
      exact schedule.elim
  · obtain ⟨due, hs⟩ := h.asleep quiet life active current known
    obtain ⟨timer, ht, due⟩ := asleep hs
    obtain ⟨time, -⟩ := onTime.due timer ht
    have ahead := done timer ht
    rw [← due]
    refine (onTime.now.lt_iff time).2 (lt_of_not_ge fun passed => ?_)
    rw [(time.le_iff onTime.now).2 passed] at ahead
    cases ahead

/-! ## Runs -/

/-- In a prompt run, every live paginator was tended, and keeps to the schedule of then. -/
theorem scheduled_afterAll {start : Room} (opened : IsOpened start) {moves : List Move} (prompt : start.Promptly moves) :
    Orderly (start.afterAll moves) ∧ (start.afterAll moves).agenda.OnTime ∧
      ∀ p, (start.afterAll moves).status? p = some .active →
        ∃ t, start.tendedAt? p moves = some t ∧ Scheduled (start.afterAll moves) p t := by
  induction moves using List.reverseRecOn with
  | nil =>
    obtain ⟨ids, client, environment, contexts⟩ := opened
    refine ⟨opened_orderly ids client environment contexts, .initial, fun p active => ?_⟩
    cases active
  | append_singleton ms m ih =>
    obtain ⟨before, now, -⟩ := (promptly_append _ ms [m]).1 prompt
    obtain ⟨h, onTime, scheduled⟩ := ih before
    have after : start.afterAll (ms ++ [m]) = (start.afterAll ms).after m := afterAll_append start ms [m]
    rw [after]
    refine ⟨h.after m, (now.onTime h onTime).1, fun p active => ?_⟩
    rw [tendedAt?_append]
    cases tended : (start.afterAll ms).tends p m with
    | true =>
      refine ⟨_, if_pos rfl, ?_⟩
      rw [tends, Bool.or_eq_true] at tended
      rcases tended with delivers | attends
      · exact scheduled_of_delivers h (delivers_iff.1 delivers)
      · exact scheduled_of_attends h now attends
    | false =>
      obtain ⟨pg, life, active⟩ := life_of_status? active
      have was : (start.afterAll ms).standing.life? p = some pg :=
        (life_before life active).resolve_right fun delivers => by
          rw [tends, delivers_iff.2 delivers] at tended
          cases tended
      obtain ⟨t, last, scheduled⟩ := scheduled p (active ▸ status?_of_life was)
      exact ⟨t, last, scheduled.after h onTime now tended⟩

/-- What is stopped stays so while it is not tended. -/
theorem stopped_afterAll {moves : List Move} (stopped : room.status? p = some .stopped)
    (untended : ∀ ms m, ms ++ [m] <+: moves → (room.afterAll ms).tends p m = false) :
    (room.afterAll moves).status? p = some .stopped := by
  induction moves generalizing room with
  | nil => exact stopped
  | cons m moves ih =>
    refine ih ?_ fun ms m' hms => untended (m :: ms) m' (List.cons_prefix_cons.2 ⟨rfl, hms⟩)
    obtain ⟨pg, life, stopped⟩ := life_of_status? stopped
    rcases stopped_after m life stopped with ⟨pg', life', stopped'⟩ | delivers
    · exact stopped' ▸ status?_of_life life'
    · have tended := untended [] m (List.cons_prefix_cons.2 ⟨rfl, List.nil_prefix⟩)
      rw [afterAll_nil, tends, delivers_iff.2 delivers] at tended
      cases tended

/-- A live paginator that is neither tended nor asked to stop goes on until it times
out, which it does when that is due. -/
theorem awaits_afterAll {moves : List Move} (h : Orderly room) (onTime : room.agenda.OnTime)
    (scheduled : Scheduled room p t) (life : room.standing.life? p = some pg) (active : pg.status = .active)
    (prompt : room.Promptly moves) (alone : ∀ ms m, ms ++ [m] <+: moves →
      (room.afterAll ms).tends p m = false ∧ ∀ k, m ≠ .act k (.stop p)) :
    ((room.afterAll moves).status? p = some .active ∧
        (0 < pg.config.idleTimeoutSeconds → Awaits (room.afterAll moves) (t + pg.patience))) ∨
      (room.afterAll moves).status? p = some .stopped ∧ ∃ ms m, ms ++ [m] <+: moves ∧
        TimesOut (room.afterAll ms) m p ∧ (room.afterAll ms).agenda.now = t + pg.patience := by
  induction moves generalizing room pg with
  | nil => exact .inl ⟨active ▸ status?_of_life life, awaits h onTime scheduled life active⟩
  | cons m moves ih =>
    obtain ⟨now, later⟩ := prompt
    obtain ⟨untended, unasked⟩ := alone [] m (List.cons_prefix_cons.2 ⟨rfl, List.nil_prefix⟩)
    have alone' : ∀ ms m', ms ++ [m'] <+: moves → ((room.after m).afterAll ms).tends p m' = false ∧
        ∀ k, m' ≠ .act k (.stop p) := fun ms m' hms => alone (m :: ms) m' (List.cons_prefix_cons.2 ⟨rfl, hms⟩)
    rw [afterAll_nil] at untended
    rcases ends_after m life active with goes | asks | timesOut
    · obtain ⟨pg', life', active'⟩ := life_of_status? goes
      obtain ⟨pg₁, life₁, -, config⟩ := life_after m life
      obtain rfl := Option.some.inj (life'.symm.trans life₁)
      have patience : pg'.patience = pg.patience := by
        rw [Paginator.patience, Paginator.interval, config, ← Paginator.interval, ← Paginator.patience]
      rcases ih (h.after m) (now.onTime h onTime).1 (scheduled.after h onTime now untended) life' active' later alone' with
        ⟨goes', awaits⟩ | ⟨finished, ms, m', hms, timesOut, due⟩
      · exact .inl ⟨goes', patience ▸ config ▸ awaits⟩
      · exact .inr ⟨finished, m :: ms, m', List.cons_prefix_cons.2 ⟨rfl, hms⟩, timesOut, patience ▸ due⟩
    · rcases asks with ⟨k, stop⟩ | ⟨press, pg', received, hp, author, active', -⟩
      · exact absurd stop (unasked k)
      · rw [tends, attends_iff.2 ⟨press, pg', received, hp, author, active'⟩, Bool.or_true] at untended
        cases untended
    · have finished := stopped_afterAll timesOut.stopped fun ms m' hms => (alone' ms m' hms).1
      exact .inr ⟨finished, [], m, List.cons_prefix_cons.2 ⟨rfl, List.nil_prefix⟩, timesOut,
        (timesOut.due h scheduled life).2⟩

/-- **The idle deadline is exact.** Take a live paginator in a prompt run, and let `t`
be when it was last tended. Whatever ends it then asks it to stop, or is its idle
timeout, at `t` plus its patience exactly; it has no such timeout if it may be idle
for ever. While it is live, the clock is not beyond that time; and if it is neither
tended nor stopped from now on, it is live until it times out. The patience is the
seconds in whole milliseconds, at least one, and a timer can be set for it. -/
theorem idle_deadline {start room : Room} {moves : List Move} {p : Nat} {pg : Paginator} (opened : IsOpened start)
    (prompt : start.Promptly moves) (run : start.afterAll moves = room) (hp : room.paginator? p = some pg)
    (active : pg.status = .active) :
    (∃ t, start.tendedAt? p moves = some t ∧
      (∀ m, (room.after m).status? p = some .active ∨ Asks room m p ∨ TimesOut room m p) ∧
      (∀ m, TimesOut room m p → 0 < pg.config.idleTimeoutSeconds ∧ room.agenda.now = t + pg.patience) ∧
      (∀ rest, room.Promptly rest →
        (∀ ms m, ms ++ [m] <+: rest → (room.afterAll ms).tends p m = false ∧ ∀ k, m ≠ .act k (.stop p)) →
        ((room.afterAll rest).status? p = some .active ∧
          (0 < pg.config.idleTimeoutSeconds → Awaits (room.afterAll rest) (t + pg.patience))) ∨
        ((room.afterAll rest).status? p = some .stopped ∧
          ∃ ms m, ms ++ [m] <+: rest ∧ TimesOut (room.afterAll ms) m p ∧
            (room.afterAll ms).agenda.now = t + pg.patience))) ∧
    (∀ (environment : Environment) (overrides : Value) (config : Config),
      Config.resolveValue environment overrides = .ok config →
      (Number.scale (.finite config.idleTimeoutSeconds) 1000).le (Agenda.maxDelay : Nat) = true ∧
      ((Agenda.delay (Number.scale (.finite config.idleTimeoutSeconds) 1000) : Nat) : Number) =
        max 1 (Number.scale (.finite config.idleTimeoutSeconds) 1000).trunc) := by
  subst run
  obtain ⟨h, onTime, scheduled⟩ := scheduled_afterAll opened prompt
  have life := life?_of_paginator? hp
  refine ⟨?_, fun environment overrides config accepted => ?_⟩
  · obtain ⟨t, last, scheduled⟩ := scheduled p (status?_of_life life |>.trans (congrArg some active))
    refine ⟨t, last, fun m => ends_after m life active, fun m timesOut => ?_, fun rest prompt alone => ?_⟩
    · have due := timesOut.due h scheduled life
      exact due
    · have awaits := awaits_afterAll h onTime scheduled life active prompt alone
      exact awaits
  · obtain ⟨least, most⟩ := Config.seconds_of_resolveValue accepted
    obtain ⟨ms, interval, pos, limit⟩ := Number.scale_seconds least most
    rw [interval]
    exact ⟨(Number.le_finite _ _).2 limit, Number.delay_eq pos limit⟩

/-- A paginator that is pressed after two seconds of the five that it waits for its
author, and shown anew after four, is stopped after seven. -/
theorem idle_deadline_pressed :
    let moves : List Move := [.act 0 (.create (.pages [.text "one" "" "" "", .text "two" "" "" ""])
        (.record [("idleTimeoutSeconds", .number 5)]) none),
      .act 1 (.send 0 .send (.user "ada")), .turn, .turn, .moveTo 2000,
      .act 2 (.interact 0 ⟨"ada", .control 0 "next", []⟩), .turn, .turn, .turn]
    let rest : List Move := [.moveTo 4000, .act 3 (.update 0), .turn, .turn, .fire 9000, .turn]
    let room := (openedWith .numbered .plain [] []).afterAll moves
    ∃ ms m, ms ++ [m] <+: rest ∧ TimesOut (room.afterAll ms) m 0 ∧ (room.afterAll ms).agenda.now = 7000 := by
  intro moves rest room
  have prompt : (openedWith .numbered .plain [] []).Promptly moves := by decide +kernel
  have prompt' : room.Promptly rest := by decide +kernel
  have live : ∃ pg, room.paginator? 0 = some pg ∧ pg.status = .active ∧ pg.patience = 5000 := by
    have h : (room.paginator? 0).any (fun pg => pg.status = .active && pg.patience = 5000) = true := by decide +kernel
    obtain ⟨pg, hp, h⟩ := (Option.any_eq_true _ _).1 h
    simp only [Bool.and_eq_true, decide_eq_true_eq] at h
    exact ⟨pg, hp, h⟩
  obtain ⟨pg, hp, active, patience⟩ := live
  have untended : ∀ n < 6, (rest[n]?).all (fun m => !(room.afterAll (rest.take n)).tends 0 m) = true := by
    decide +kernel
  have alone : ∀ ms m, ms ++ [m] <+: rest → (room.afterAll ms).tends 0 m = false ∧ ∀ k, m ≠ .act k (.stop 0) := by
    intro ms m hms
    have mem : m ∈ rest := hms.subset (by simp)
    refine ⟨?_, fun k stop => ?_⟩
    · obtain ⟨later, eq⟩ := hms
      have length : ms.length < 6 := by
        have all := congrArg List.length eq
        simp only [List.length_append, List.length_singleton] at all
        have six : rest.length = 6 := rfl
        omega
      have one := untended ms.length length
      rw [← eq] at one
      simpa using one
    · subst stop
      simp [rest] at mem
  obtain ⟨t, last, -, -, ends⟩ := (idle_deadline (.opened _ _ _ _) prompt rfl hp active).1
  have since : (openedWith .numbered .plain [] []).tendedAt? 0 moves = some 2000 := by decide +kernel
  rcases ends rest prompt' alone with ⟨live, -⟩ | ⟨-, ms, m, hms, timesOut, due⟩
  · have finished : (room.afterAll rest).status? 0 = some .stopped := by decide +kernel
    rw [live] at finished
    cases finished
  · refine ⟨ms, m, hms, timesOut, ?_⟩
    rw [due, Option.some.inj (last.symm.trans since), patience]
    decide +kernel

end Folio.Room
