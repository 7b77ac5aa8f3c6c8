/-
The watchdogs of a room. `At room w x` says who watchdog `w` watches over, for how
long it waits, whether it runs, and at which stage it is; every operation that
touches it leads from one such `Watch` to another, and touches no other watchdog
(`Touches`). In every run each watchdog is at some stage, and nothing is set or ready
for a number that no watchdog has yet (`Wound`).
-/
import Folio.Proofs.Patience
import Folio.Proofs.Room.Clock

namespace Folio

/-- What there is to know of a watchdog. -/
structure Watch where
  owner : Nat
  interval : Number
  running : Bool
  stage : Stage

theorem Task.woken?_woken (w : Nat) (pinged : Bool) : (Task.woken w pinged).woken? = some (w, pinged) := rfl

/-- A watchdog that goes on after a wait that is over `now`. -/
def Watch.wentOn (x : Watch) (now : Number) (pinged : Bool) : Watch where
  owner := x.owner
  interval := x.interval
  running := x.running && pinged
  stage := if pinged && x.running then .asleep (now + (Agenda.delay x.interval : Number)) else .finished

namespace Room

variable {a b c room : Room} {p v w : Nat} {pg : Paginator} {m : Move} {x : Watch}

/-- The waits of a watchdog that are over. -/
abbrev wakes (room : Room) (w : Nat) : List Bool := room.agenda.wakes Task.woken? w

/-- What there is to know of watchdog `w`. -/
def At (room : Room) (w : Nat) (x : Watch) : Prop :=
  ∃ watchdog, room.watchers[w]? = some ⟨x.owner, watchdog⟩ ∧ watchdog.interval = x.interval ∧
    watchdog.running = x.running ∧ watchdog.Stands Task.woken? w room.agenda x.stage

/-- From `a` to `b` nothing changed for any watchdog but `w`. -/
structure Elsewhere (w : Nat) (a b : Room) : Prop where
  watchers : ∀ v ≠ w, b.watchers[v]? = a.watchers[v]?
  dues : ∀ v ≠ w, b.agenda.dues v = a.agenda.dues v
  wakes : ∀ v ≠ w, b.wakes v = a.wakes v

/-- From `a` to `b` watchdog `w` was touched, in no time. -/
structure Touches (w : Nat) (a b : Room) : Prop extends Elsewhere w a b where
  now : b.agenda.now = a.agenda.now
  onTime : a.agenda.OnTime → b.agenda.OnTime

theorem Elsewhere.trans (h : Elsewhere w a b) (h' : Elsewhere w b c) : Elsewhere w a c where
  watchers v other := (h'.watchers v other).trans (h.watchers v other)
  dues v other := (h'.dues v other).trans (h.dues v other)
  wakes v other := (h'.wakes v other).trans (h.wakes v other)

theorem Touches.trans (h : Touches w a b) (h' : Touches w b c) : Touches w a c :=
  ⟨h.toElsewhere.trans h'.toElsewhere, h'.now.trans h.now, fun timely => h'.onTime (h.onTime timely)⟩

/-- What is ready for watchdogs is among the tasks that are theirs. -/
theorem wakes_eq (room : Room) (w : Nat) : room.wakes w =
    (room.agenda.ready.filter Task.isWoken).filterMap fun r =>
      (Task.woken? r).bind fun wake => if wake.1 = w then some wake.2 else none := by
  rw [wakes, Agenda.wakes]
  induction room.agenda.ready with
  | nil => rfl
  | cons t ts ih =>
    cases t with
    | woken v pinged => simp only [List.filterMap_cons, ih, List.filter_cons, Task.isWoken, if_true]
    | resume frames outcome => simp only [List.filterMap_cons, ih, List.filter_cons, Task.isWoken]; rfl

theorem Still.touches (h : Still a b) (w : Nat) : Touches w a b := by
  refine ⟨⟨fun v _ => by rw [h.watchers], fun v _ => ?_, fun v _ => ?_⟩, h.now, fun timely => timely.of_eq h.now h.timers⟩
  · rw [Agenda.dues, h.timers, Agenda.dues]
  · rw [wakes_eq, h.woken, wakes_eq]

theorem Elsewhere.at (h : Elsewhere w a b) (other : v ≠ w) (known : At a v x) : At b v x := by
  obtain ⟨watchdog, hw, interval, running, stands⟩ := known
  exact ⟨watchdog, (h.watchers v other).trans hw, interval, running, stands.of_eq (h.dues v other) (h.wakes v other)⟩

theorem Still.at (h : Still a b) (known : At a w x) : At b w x :=
  (h.touches (w + 1)).at (Nat.ne_of_lt (Nat.lt_succ_self w)) known

/-! ## Operations -/

/-- An operation of a watchdog leads to a stage. -/
theorem modifyWatchdog_at (room : Room) {f : Watchdog Nat → Agenda Nat Task → Watchdog Nat × Agenda Nat Task} {stage : Stage}
    {owner : Nat} {watchdog : Watchdog Nat} (hw : room.watchers[w]? = some ⟨owner, watchdog⟩)
    (leads : Watchdog.Leads Task.woken? w room.agenda (f watchdog room.agenda) stage) :
    At (room.modifyWatchdog w f) w
        ⟨owner, (f watchdog room.agenda).1.interval, (f watchdog room.agenda).1.running, stage⟩ ∧
      Touches w room (room.modifyWatchdog w f) := by
  obtain ⟨stands, spares⟩ := leads
  obtain ⟨hlt, -⟩ := List.getElem?_eq_some_iff.1 hw
  rw [modifyWatchdog_eq hw]
  refine ⟨⟨_, List.getElem?_set_self hlt, rfl, rfl, stands⟩,
    ⟨⟨fun v other => ?_, spares.dues, spares.wakes⟩, spares.now, spares.onTime⟩⟩
  exact List.getElem?_set_ne other.symm

theorem At.ping (h : At room w x) :
    At (room.ping (some w)) w { x with stage := x.stage.rung } ∧ Touches w room (room.ping (some w)) := by
  obtain ⟨watchdog, hw, interval, running, stands⟩ := h
  obtain ⟨known, touches⟩ := room.modifyWatchdog_at (f := Watchdog.ping .woken) hw (stands.ping Task.woken?_woken)
  have waits : (watchdog.ping .woken room.agenda).1.interval = watchdog.interval := by
    rw [Watchdog.ping]
    split <;> rfl
  rw [waits, interval, (watchdog.ping_spec room.agenda).1, running] at known
  exact ⟨known, touches⟩

theorem At.callOff (h : At room w x) :
    At (room.callOff (some w)) w { x with running := false, stage := x.stage.rung } ∧
      Touches w room (room.callOff (some w)) := by
  obtain ⟨watchdog, hw, interval, -, stands⟩ := h
  obtain ⟨leads, ended⟩ := stands.stop Task.woken?_woken
  obtain ⟨known, touches⟩ := room.modifyWatchdog_at (f := Watchdog.stop .woken) hw leads
  have waits : (watchdog.stop .woken room.agenda).1.interval = watchdog.interval := by
    rw [Watchdog.stop]
    split <;> rfl
  rw [waits, interval, ended] at known
  exact ⟨known, touches⟩

/-- A watchdog starts, for a number that no other has. -/
theorem watchOver_at (room : Room) (p : Nat) {seconds : Rat} (pos : 0 < seconds)
    (spare : room.agenda.dues room.watchers.length = [] ∧ room.wakes room.watchers.length = []) :
    At (room.watchOver p seconds) room.watchers.length ⟨p, Number.scale (.finite seconds) 1000, true,
        .asleep (room.agenda.now + (Agenda.delay (Number.scale (.finite seconds) 1000) : Number))⟩ ∧
      Touches room.watchers.length room (room.watchOver p seconds) := by
  obtain ⟨⟨stands, spares⟩, interval⟩ := Watchdog.Stands.watch
    (w := Watchdog.fresh (Number.scale (.finite seconds) 1000)) Task.woken rfl rfl spare.1 spare.2
  have running := (Watchdog.watch_spec (.fresh (Number.scale (.finite seconds) 1000)) room.agenda room.watchers.length).1
  simp only [watchOver, if_pos pos]
  refine ⟨⟨_, ?_, interval, running, stands⟩, ⟨⟨fun v other => ?_, spares.dues, spares.wakes⟩, spares.now, spares.onTime⟩⟩
  · exact List.getElem?_concat_length
  · show (room.watchers ++ [_])[v]? = room.watchers[v]?
    rw [List.getElem?_append]
    split
    · rfl
    next beyond =>
      rw [List.getElem?_eq_none (by simp; omega), List.getElem?_eq_none (by omega)]

/-- A watchdog whose wait is over is about to go on. -/
theorem wakes_popped {pinged : Bool} {rest : List Task} (ready : room.agenda.ready = .woken w pinged :: rest) :
    room.wakes w = pinged :: (room.popped rest).wakes w ∧ Elsewhere w room (room.popped rest) := by
  refine ⟨?_, fun _ _ => rfl, fun _ _ => rfl, fun v other => ?_⟩
  · rw [wakes, Agenda.wakes, ready, List.filterMap_cons]
    simp only [Task.woken?, Option.bind_some, if_true]
    rfl
  · have otherwise : ¬w = v := fun e => other e.symm
    show (room.popped rest).agenda.wakes _ v = room.agenda.wakes _ v
    rw [Agenda.wakes, Agenda.wakes, ready, List.filterMap_cons]
    simp only [Task.woken?, Option.bind_some, otherwise, if_false]
    rfl

theorem At.goneOn {pinged : Bool} {rest : List Task} (ready : room.agenda.ready = .woken w pinged :: rest)
    (h : At room w x) : x.stage = .woken pinged ∧
      At ((room.popped rest).goneOn w pinged) w (x.wentOn room.agenda.now pinged) ∧
      Touches w room ((room.popped rest).goneOn w pinged) := by
  obtain ⟨wakes, elsewhere⟩ := wakes_popped ready
  have popped : Touches w room (room.popped rest) := ⟨elsewhere, rfl, fun timely => timely.of_eq rfl rfl⟩
  obtain ⟨watchdog, hw, interval, running, stands⟩ := h
  have woken : x.stage = .woken pinged ∧ room.agenda.dues w = [] ∧ (room.popped rest).wakes w = [] ∧
      watchdog.signal.sleepers = [] := by
    cases hs : x.stage with
    | asleep due =>
      rw [hs] at stands
      cases stands with
      | asleep _ none => rw [Room.wakes, none] at wakes; cases wakes
    | woken pinged' =>
      rw [hs] at stands
      cases stands with
      | woken dues one sleepers =>
        rw [Room.wakes, one] at wakes
        obtain ⟨rfl, none⟩ := List.cons.inj wakes
        exact ⟨rfl, dues, none.symm, sleepers⟩
    | finished =>
      rw [hs] at stands
      cases stands with
      | finished _ none => rw [Room.wakes, none] at wakes; cases wakes
  obtain ⟨stage, dues, none, sleepers⟩ := woken
  obtain ⟨leads, waits, goes⟩ := Watchdog.Stands.resume
    (a := (room.popped rest).agenda) Task.woken sleepers dues none pinged
  obtain ⟨known, touches⟩ := (room.popped rest).modifyWatchdog_at
    (f := fun wd a => ((wd.resume .woken w pinged a).1, (wd.resume .woken w pinged a).2.1)) hw leads
  rw [waits, goes, interval, running] at known
  exact ⟨stage, known, popped.trans touches⟩

/-- The timer of a watchdog goes off. -/
theorem At.lapse {t : Timer Nat} {rest : List (Timer Nat)} (timers : room.agenda.timers = t :: rest)
    (h : At room t.key x) :
    x.stage = .asleep t.due ∧
      At ((room.fired t rest).modifyWatchdog t.key (Watchdog.lapse .woken t.key)) t.key
        { x with stage := .woken false } ∧
      Touches t.key (room.fired t rest) ((room.fired t rest).modifyWatchdog t.key (Watchdog.lapse .woken t.key)) := by
  obtain ⟨watchdog, hw, interval, running, stands⟩ := h
  have due : room.agenda.dues t.key = t.due :: (rest.filter fun u => u.key = t.key).map Timer.due := by
    rw [Agenda.dues, timers, List.filter_cons_of_pos (by simp), List.map_cons]
  have asleep : x.stage = .asleep t.due ∧ (rest.filter fun u => u.key = t.key).map Timer.due = [] ∧
      room.wakes t.key = [] ∧ watchdog.signal = ⟨false, [t.key]⟩ := by
    cases hs : x.stage with
    | asleep due' =>
      rw [hs] at stands
      cases stands with
      | asleep one none signal =>
        rw [due] at one
        obtain ⟨rfl, others⟩ := List.cons.inj one
        exact ⟨rfl, others, none, signal⟩
    | woken pinged =>
      rw [hs] at stands
      cases stands with
      | woken none => rw [due] at none; cases none
    | finished =>
      rw [hs] at stands
      cases stands with
      | finished none => rw [due] at none; cases none
  obtain ⟨stage, dues, none, signal⟩ := asleep
  have none' : (room.fired t rest).agenda.dues t.key = [] := dues
  obtain ⟨known, touches⟩ := (room.fired t rest).modifyWatchdog_at (f := Watchdog.lapse .woken t.key) hw
    (Watchdog.Stands.lapse Task.woken?_woken signal none' none)
  have waits : At _ t.key ⟨x.owner, watchdog.interval, watchdog.running, .woken false⟩ := known
  rw [interval, running] at waits
  exact ⟨stage, waits, touches⟩

/-- The timers of the other watchdogs stay. -/
theorem fired_elsewhere {t : Timer Nat} {rest : List (Timer Nat)} (timers : room.agenda.timers = t :: rest) :
    Elsewhere t.key room (room.fired t rest) := by
  refine ⟨fun _ _ => rfl, fun v other => ?_, fun _ _ => rfl⟩
  have otherwise : ¬t.key = v := fun e => other e.symm
  rw [Agenda.dues, Agenda.dues, timers, List.filter_cons_of_neg (by simpa using otherwise)]
  rfl

/-! ## All watchdogs -/

/-- Every watchdog is at a stage, with an owner and an interval that go together;
and nothing is set or ready for a number that none has. -/
structure Wound (goes : Nat → Number → Prop) (room : Room) : Prop where
  staged : ∀ {w watcher}, room.watchers[w]? = some watcher → ∃ x, At room w x ∧ goes x.owner x.interval
  spare : ∀ {w}, room.watchers[w]? = none → room.agenda.dues w = [] ∧ room.wakes w = []

/-- From `a` to `b` no time passed, and the watchdogs are wound as before. -/
structure Winds (goes : Nat → Number → Prop) (a b : Room) : Prop where
  wound : Wound goes b
  now : b.agenda.now = a.agenda.now
  onTime : a.agenda.OnTime → b.agenda.OnTime

namespace Wound

variable {goes goes' : Nat → Number → Prop}

theorem mono (h : Wound goes room) (le : ∀ p i, goes p i → goes' p i) : Wound goes' room :=
  ⟨fun hw => let ⟨x, known, own⟩ := h.staged hw; ⟨x, known, le _ _ own⟩, h.spare⟩

/-- One watchdog came to another stage. -/
theorem touch (h : Wound goes a) (elsewhere : Elsewhere w a b) (known : At b w x) (own : goes x.owner x.interval) :
    Wound goes b := by
  refine ⟨fun {v watcher} hv => ?_, fun {v} hv => ?_⟩
  · by_cases other : v = w
    · subst other
      exact ⟨x, known, own⟩
    · rw [elsewhere.watchers v other] at hv
      obtain ⟨y, hy, own'⟩ := h.staged hv
      exact ⟨y, elsewhere.at other hy, own'⟩
  · by_cases other : v = w
    · subst other
      obtain ⟨watchdog, hw, -⟩ := known
      rw [hw] at hv
      cases hv
    · rw [elsewhere.watchers v other] at hv
      obtain ⟨dues, wakes⟩ := h.spare hv
      exact ⟨(elsewhere.dues v other).trans dues, (elsewhere.wakes v other).trans wakes⟩

theorem winds (h : Wound goes a) (touches : Touches w a b) (known : At b w x) (own : goes x.owner x.interval) :
    Winds goes a b := ⟨h.touch touches.toElsewhere known own, touches.now, touches.onTime⟩

theorem still (h : Wound goes a) (same : Still a b) : Winds goes a b := by
  refine ⟨⟨fun {w watcher} hw => ?_, fun {w} hw => ?_⟩, same.now, (same.touches 0).onTime⟩
  · rw [same.watchers] at hw
    obtain ⟨x, known, own⟩ := h.staged hw
    exact ⟨x, same.at known, own⟩
  · rw [same.watchers] at hw
    obtain ⟨dues, wakes⟩ := h.spare hw
    have elsewhere := (same.touches (w + 1)).toElsewhere
    have other : w ≠ w + 1 := Nat.ne_of_lt (Nat.lt_succ_self w)
    exact ⟨(elsewhere.dues w other).trans dues, (elsewhere.wakes w other).trans wakes⟩

/-- An operation on a watchdog that may not be there. -/
theorem modify (h : Wound goes room) {f : Watchdog Nat → Agenda Nat Task → Watchdog Nat × Agenda Nat Task}
    (step : ∀ x, At room w x → ∃ y, At (room.modifyWatchdog w f) w y ∧ y.owner = x.owner ∧ y.interval = x.interval ∧
      Touches w room (room.modifyWatchdog w f)) : Winds goes room (room.modifyWatchdog w f) := by
  cases hw : room.watchers[w]? with
  | none =>
    rw [modifyWatchdog, hw]
    exact ⟨h, rfl, id⟩
  | some watcher =>
    obtain ⟨x, known, own⟩ := h.staged hw
    obtain ⟨y, known', owner, interval, touches⟩ := step x known
    exact h.winds touches known' (owner ▸ interval ▸ own)

theorem ping (h : Wound goes room) (w : Option Nat) : Winds goes room (room.ping w) := by
  cases w with
  | none => exact ⟨h, rfl, id⟩
  | some w => exact h.modify (f := Watchdog.ping .woken) fun x known => ⟨_, known.ping.1, rfl, rfl, known.ping.2⟩

theorem callOff (h : Wound goes room) (w : Option Nat) : Winds goes room (room.callOff w) := by
  cases w with
  | none => exact ⟨h, rfl, id⟩
  | some w => exact h.modify (f := Watchdog.stop .woken) fun x known => ⟨_, known.callOff.1, rfl, rfl, known.callOff.2⟩

theorem watchOver (h : Wound goes room) {seconds : Rat} (own : goes p (Number.scale (.finite seconds) 1000)) :
    Winds goes room (room.watchOver p seconds) := by
  by_cases pos : 0 < seconds
  · obtain ⟨known, touches⟩ := room.watchOver_at p pos (h.spare (List.getElem?_eq_none (Nat.le_refl _)))
    exact h.winds touches known own
  · rw [Room.watchOver, if_neg pos]
    exact h.still (Aside.modifyPaginator room p _).still

theorem goneOn (h : Wound goes room) {pinged : Bool} {rest : List Task}
    (ready : room.agenda.ready = .woken w pinged :: rest) : Winds goes room ((room.popped rest).goneOn w pinged) := by
  cases hw : room.watchers[w]? with
  | none =>
    have wakes := (wakes_popped ready).1
    rw [(h.spare hw).2] at wakes
    cases wakes
  | some watcher =>
    obtain ⟨x, known, own⟩ := h.staged hw
    obtain ⟨-, known', touches⟩ := known.goneOn ready
    exact h.winds touches known' own

theorem lapse (h : Wound goes room) {t : Timer Nat} {rest : List (Timer Nat)} (timers : room.agenda.timers = t :: rest) :
    Winds goes (room.fired t rest) ((room.fired t rest).modifyWatchdog t.key (Watchdog.lapse .woken t.key)) := by
  cases hw : room.watchers[t.key]? with
  | none =>
    have dues := (h.spare hw).1
    rw [Agenda.dues, timers, List.filter_cons_of_pos (by simp)] at dues
    cases dues
  | some watcher =>
    obtain ⟨x, known, own⟩ := h.staged hw
    obtain ⟨-, known', touches⟩ := known.lapse timers
    exact ⟨h.touch ((fired_elsewhere timers).trans touches.toElsewhere) known' own, touches.now, touches.onTime⟩

end Wound

namespace Winds

variable {goes goes' : Nat → Number → Prop}

theorem trans (h : Winds goes a b) (h' : Winds goes' b c) : Winds goes' a c :=
  ⟨h'.wound, h'.now.trans h.now, fun timely => h'.onTime (h.onTime timely)⟩

end Winds

/-! ## Moves -/

/-- The watchdogs of a room go with the paginators that they watch over. -/
def goes (room : Room) (p : Nat) (interval : Number) : Prop :=
  ∃ pg, room.standing.life? p = some pg ∧ interval = pg.interval

theorem Tick.winds {b : Room} (tick : Tick room m b) (h : Wound room.goes room) :
    Winds room.goes room b ∨
      (∃ t rest, (∃ limit, m = .fire limit) ∧ room.agenda.timers = t :: rest ∧ Winds room.goes (room.fired t rest) b) ∨
      ∃ time, m = .moveTo time ∧ Wound room.goes b ∧ b = { room with agenda := room.agenda.moveTo time } := by
  cases tick with
  | calm calm => exact .inl (h.still calm.toStill)
  | @pinged p press pg a received was author active before calm =>
    have came := h.still before.toStill
    have pinged := came.trans (came.wound.ping pg.watchdog)
    exact .inl (pinged.trans (pinged.wound.still calm.toStill))
  | @stopped p pg a was asked still standing =>
    have came : Winds room.goes room a := by
      rcases asked with ⟨-, rfl⟩ | ⟨press, r, -, -, -, -, -, before, rfl⟩
      · exact ⟨h, rfl, id⟩
      · have came := h.still before.toStill
        exact came.trans (came.wound.ping pg.watchdog)
    have ended := came.trans (came.wound.callOff pg.watchdog)
    exact .inl (ended.trans (ended.wound.still still))
  | @started p pg origin handle a delivers was before still standing =>
    have came := h.still before
    have ended := came.trans (came.wound.callOff pg.watchdog)
    have own : room.goes p (Number.scale (.finite pg.config.idleTimeoutSeconds) 1000) :=
      ⟨pg.bare, life?_of_paginator? was, rfl⟩
    have begun := ended.trans (ended.wound.watchOver (p := p) own)
    exact .inl (begun.trans (begun.wound.still still))
  | woken turn ready spares calm =>
    have gone := h.goneOn ready
    exact .inl (gone.trans (gone.wound.still calm.toStill))
  | expired turn ready ranOut still standing =>
    have gone := h.goneOn ready
    exact .inl (gone.trans (gone.wound.still still))
  | @lapsed limit t rest fire timers eq =>
    subst eq
    exact .inr (.inl ⟨t, rest, ⟨limit, fire⟩, timers, h.lapse timers⟩)
  | @moved time move eq =>
    subst eq
    refine .inr (.inr ⟨time, move, ⟨fun {w watcher} hw => ?_, h.spare⟩, rfl⟩)
    obtain ⟨x, ⟨watchdog, hw', interval, running, stands⟩, own⟩ := h.staged hw
    exact ⟨x, ⟨watchdog, hw', interval, running, stands.of_eq rfl rfl⟩, own⟩

theorem after_wound (room : Room) (m : Move) (h : Wound room.goes room) : Wound (room.after m).goes (room.after m) := by
  have later : ∀ p i, room.goes p i → (room.after m).goes p i := by
    rintro p i ⟨pg, life, rfl⟩
    obtain ⟨pg', life', -, config⟩ := life_after m life
    exact ⟨pg', life', by rw [Paginator.interval, ← config, Paginator.interval]⟩
  rcases (room.tick_after m).winds h with winds | ⟨_, _, _, _, winds⟩ | ⟨_, _, wound, _⟩
  · exact winds.wound.mono later
  · exact winds.wound.mono later
  · exact wound.mono later

end Room

end Folio
