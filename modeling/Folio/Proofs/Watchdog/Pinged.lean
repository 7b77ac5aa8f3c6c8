/-
What a ping is good for. A ping in time puts off the idle handler: it is not called
before a whole interval has passed since (`PutOff`, which every move keeps). A ping that
comes when the wait has run out, and the task has not gone on yet, is accepted as well,
but it comes too late: it raises a flag that nobody waits for any more, and all goes on
as it would without it (`Alike`).

A clock that was set to no number is not before any time, so "not before" is said by
`lt` being false, and nothing need be assumed of the times to which the clock moves.
-/
import Folio.Proofs.Patience
import Folio.Proofs.Watchdog.Phase

namespace Folio.WatchdogRun

open Scripted (Move after afterAll)

variable {interval bound since : Number} {handler : IdleHandler} {c d : Course} {phase phase' : Phase}

/-! ## Pings in time -/

namespace Phase

/-- The idle handler was not called before `bound`, nor will it be by a turn of the task
at `now`, or by the timer that is set. -/
inductive PutOff (now bound : Number) : Phase → Prop where
  | unstarted (raised running : Bool) : PutOff now bound (unstarted raised running)
  | asleep (k : Nat) {due : Number} (later : due.lt bound = false) : PutOff now bound (asleep k due)
  | pinged (k : Nat) (raised running : Bool) : PutOff now bound (woken k true raised running)
  | ranOut (k : Nat) (raised running : Bool) (later : now.lt bound = false) :
    PutOff now bound (woken k false raised running)
  | held (k : Nat) {idle : Number} (raised : Bool) (later : idle.lt bound = false) : PutOff now bound (held k idle raised)
  | handled (k : Nat) {idle : Number} (raised : Bool) (outcome : Except Fault Unit) (later : idle.lt bound = false) :
    PutOff now bound (handled k idle raised outcome)
  | stopped (k : Nat) (raised : Bool) : PutOff now bound (stopped k raised)
  | ended (k : Nat) {idle : Number} (raised : Bool) (outcome : Except Fault Unit) (later : idle.lt bound = false) :
    PutOff now bound (ended k idle raised outcome)

namespace PutOff

variable {now : Number}

theorem call (h : phase.PutOff now bound) (c : WatchdogCall) : (phase.call c).PutOff now bound := by
  cases h with
  | unstarted raised running => cases c <;> cases running <;> constructor
  | asleep k later => cases c <;> constructor
  | pinged k raised running => cases c <;> cases running <;> constructor
  | ranOut k raised running later => cases c <;> cases running <;> exact .ranOut k _ _ later
  | held k raised later => cases c <;> exact .held k raised later
  | handled k raised outcome later => cases c <;> exact .handled k raised outcome later
  | stopped k raised => cases c <;> exact .stopped k raised
  | ended k raised outcome later => cases c <;> exact .ended k raised outcome later

/-- To go to sleep is to wait for a whole interval. -/
theorem start (h : phase.PutOff now bound) (whole : (now + (Agenda.delay interval : Number)).lt bound = false) (k : Nat) :
    (phase.start interval now k).PutOff now bound := by
  cases h with
  | unstarted raised running =>
    cases raised <;> cases running
    · exact .stopped k _
    · exact .asleep k whole
    · exact .stopped k _
    · exact .pinged k _ _
  | asleep k later => exact .asleep k later
  | pinged k raised running => exact .pinged k raised running
  | ranOut k raised running later => exact .ranOut k raised running later
  | held k raised later => exact .held k raised later
  | handled k raised outcome later => exact .handled k raised outcome later
  | stopped k raised => exact .stopped k raised
  | ended k raised outcome later => exact .ended k raised outcome later

theorem finish (h : phase.PutOff now bound) (outcome : Except Fault Unit) : (phase.finish outcome).PutOff now bound := by
  cases h with
  | held k raised later => exact .handled k raised outcome later
  | unstarted | asleep | pinged | ranOut | handled | stopped | ended => constructor <;> assumption

theorem turn (h : phase.PutOff now bound) (whole : (now + (Agenda.delay interval : Number)).lt bound = false) :
    (phase.turn interval handler now).PutOff now bound := by
  cases h with
  | pinged k raised running =>
    cases running
    · exact .stopped k _
    · exact .asleep k whole
  | ranOut k raised running later =>
    cases running
    · exact .stopped k raised
    · dsimp only [Phase.turn]
      split
      · exact .handled k raised _ later
      · exact .held k raised later
  | handled k raised outcome later => exact .ended k raised outcome later
  | unstarted raised running => exact .unstarted raised running
  | asleep k later => exact .asleep k later
  | held k raised later => exact .held k raised later
  | stopped k raised => exact .stopped k raised
  | ended k raised outcome later => exact .ended k raised outcome later

/-- The clock only goes forward. -/
theorem moveTo (h : phase.PutOff now bound) (time : Number) : phase.PutOff (max now time) bound := by
  cases h with
  | ranOut k raised running later => exact .ranOut k raised running (Number.not_max_lt time later)
  | unstarted | asleep | pinged | held | handled | stopped | ended => constructor <;> assumption

theorem idles (h : phase.PutOff now bound) : ∀ idle ∈ (phase.toRun interval handler now).idles, idle.1.lt bound = false := by
  intro idle called
  cases h with
  | held | handled | ended =>
    obtain rfl := List.mem_singleton.1 called
    assumption
  | unstarted | asleep | pinged | ranOut | stopped => cases called

end PutOff

/-- A ping while the watchdog runs puts off the idle handler, unless the wait has run out. -/
theorem putOff_call_ping {now : Number} (runs : (phase.toRun interval handler now).watchdog.running = true)
    (inTime : ∀ k raised running, phase ≠ woken k false raised running) (bound : Number) :
    (phase.call .ping).PutOff now bound := by
  cases phase with
  | unstarted raised running => cases running <;> constructor
  | asleep k due => exact .pinged k true true
  | woken k pinged raised running =>
    cases pinged
    · exact absurd rfl (inTime k raised running)
    · cases running <;> constructor
  | held | handled | stopped | ended => cases runs

end Phase

namespace Course

/-- A clock that is not before a time stays so. -/
theorem not_lt_now_after (h : c.now.lt bound = false) (m : Move Act) : (c.after interval handler m).now.lt bound = false := by
  cases m with
  | act k a => cases a <;> exact h
  | turn => exact h
  | fire limit =>
    obtain ⟨now, phase⟩ := c
    dsimp only [Course.after]
    split
    · split
      · exact Number.not_max_lt _ h
      · exact h
    · exact h
  | moveTo time => exact Number.not_max_lt time h

theorem not_lt_now_afterAll (h : c.now.lt bound = false) (moves : List (Move Act)) :
    (c.afterAll interval handler moves).now.lt bound = false := by
  induction moves generalizing c with
  | nil => exact h
  | cons m moves ih => exact ih (not_lt_now_after h m)

/-- From a time on the idle handler is put off for a whole interval. -/
theorem putOff_after (origin : since.lt 0 = false) (later : c.now.lt since = false)
    (h : c.phase.PutOff c.now (since + (Agenda.delay interval : Number))) (m : Move Act) :
    (c.after interval handler m).phase.PutOff (c.after interval handler m).now (since + (Agenda.delay interval : Number)) := by
  have whole := Number.not_add_natCast_lt origin later (Agenda.delay interval)
  cases m with
  | act k a =>
    cases a with
    | start => exact h.start whole k
    | call asked => exact h.call asked
    | finish outcome => exact h.finish outcome
  | turn => exact h.turn whole
  | fire limit =>
    obtain ⟨now, phase⟩ := c
    dsimp only [Course.after] at h ⊢
    split
    next k due =>
      cases h with
      | asleep _ reached =>
        split
        · exact .ranOut k _ _ (Number.not_max_lt_right now reached)
        · exact .asleep k reached
    · exact h
  | moveTo time => exact h.moveTo time

theorem putOff_afterAll (origin : since.lt 0 = false) (later : c.now.lt since = false)
    (h : c.phase.PutOff c.now (since + (Agenda.delay interval : Number))) (moves : List (Move Act)) :
    (c.afterAll interval handler moves).phase.PutOff (c.afterAll interval handler moves).now
      (since + (Agenda.delay interval : Number)) := by
  induction moves generalizing c with
  | nil => exact h
  | cons m moves ih => exact ih (not_lt_now_after later m) (putOff_after origin later h m)

end Course

/-! ## Pings that are late -/

namespace Phase

/-- Two phases past a wait that ran out, or past the end of the task, which differ in the flag alone. -/
inductive Alike : Phase → Phase → Prop where
  | ranOut (k : Nat) (raised raised' running : Bool) : Alike (woken k false raised running) (woken k false raised' running)
  | held (k : Nat) (idle : Number) (raised raised' : Bool) : Alike (held k idle raised) (held k idle raised')
  | handled (k : Nat) (idle : Number) (raised raised' : Bool) (outcome : Except Fault Unit) :
    Alike (handled k idle raised outcome) (handled k idle raised' outcome)
  | stopped (k : Nat) (raised raised' : Bool) : Alike (stopped k raised) (stopped k raised')
  | ended (k : Nat) (idle : Number) (raised raised' : Bool) (outcome : Except Fault Unit) :
    Alike (ended k idle raised outcome) (ended k idle raised' outcome)

namespace Alike

theorem call (h : phase.Alike phase') (c : WatchdogCall) : (phase.call c).Alike (phase'.call c) := by
  cases h with
  | ranOut k raised raised' running => cases c <;> cases running <;> constructor
  | held | handled | stopped | ended => cases c <;> constructor

theorem start (h : phase.Alike phase') (now : Number) (k : Nat) :
    (phase.start interval now k).Alike (phase'.start interval now k) := by
  cases h <;> constructor

theorem finish (h : phase.Alike phase') (outcome : Except Fault Unit) : (phase.finish outcome).Alike (phase'.finish outcome) := by
  cases h <;> constructor

theorem turn (h : phase.Alike phase') (now : Number) :
    (phase.turn interval handler now).Alike (phase'.turn interval handler now) := by
  cases h with
  | ranOut k raised raised' running =>
    cases running
    · exact .stopped k raised raised'
    · dsimp only [Phase.turn]
      cases handler.outcome <;> constructor
  | held | handled | stopped | ended => constructor

theorem idles (h : phase.Alike phase') (now : Number) :
    (phase.toRun interval handler now).idles = (phase'.toRun interval handler now).idles := by
  cases h <;> rfl

end Alike

end Phase

/-- Courses that differ in the flag alone, past its use, go on alike. -/
theorem Course.alike_after (interval : Number) (handler : IdleHandler) (same : d.now = c.now)
    (h : c.phase.Alike d.phase) (m : Move Act) :
    (d.after interval handler m).now = (c.after interval handler m).now ∧
      (c.after interval handler m).phase.Alike (d.after interval handler m).phase := by
  obtain ⟨now, phase⟩ := c
  obtain ⟨now', phase'⟩ := d
  obtain rfl : now' = now := same
  cases m with
  | act k a =>
    cases a with
    | start => exact ⟨rfl, h.start now' k⟩
    | call asked => exact ⟨rfl, h.call asked⟩
    | finish outcome => exact ⟨rfl, h.finish outcome⟩
  | turn => exact ⟨rfl, h.turn now'⟩
  | fire limit => cases h <;> exact ⟨rfl, by constructor⟩
  | moveTo time => exact ⟨rfl, h⟩

theorem Course.idles_of_alike (same : d.now = c.now) (h : c.phase.Alike d.phase) (moves : List (Move Act)) :
    ((c.afterAll interval handler moves).toRun interval handler).idles =
      ((d.afterAll interval handler moves).toRun interval handler).idles := by
  induction moves generalizing c d with
  | nil =>
    obtain ⟨now, phase⟩ := c
    obtain ⟨now', phase'⟩ := d
    obtain rfl : now' = now := same
    exact h.idles now'
  | cons m moves ih =>
    obtain ⟨same, alike⟩ := Course.alike_after interval handler same h m
    exact ih same alike

/-! ## Both -/

/-- Whether a wait has run out, and the task has not gone on yet. -/
def ranOut (run : WatchdogRun) : Bool :=
  match run.agenda.ready with
  | .woken false :: _ => true
  | _ => false

/-- **What becomes of an accepted ping.** A watchdog is pinged while it runs, and its
interval is within the limit of a timer. If its wait has not run out, the idle handler is
not called before the whole milliseconds of the interval, and at least one, have passed
since, whatever happens. If the wait has run out and the task has not gone on yet, the
idle handler is called just as without the ping, and at once if nothing else happens. -/
theorem idle_after_ping {before : List (Move Act)} {run : WatchdogRun} (k : Nat)
    (reached : afterAll (initial interval handler) before = run)
    (limit : interval.le (Agenda.maxDelay : Nat) = true) (accepted : run.watchdog.running = true) :
    (run.ranOut = false → ∀ rest, ∀ idle ∈ (afterAll run (.act k (.call .ping) :: rest)).idles,
      idle.1.lt (run.agenda.now + max 1 interval.trunc) = false) ∧
    (run.ranOut = true →
      (∀ rest, (afterAll run (.act k (.call .ping) :: rest)).idles = (afterAll run rest).idles) ∧
      (afterAll run [.act k (.call .ping), .turn]).idles = [(run.agenda.now, false)]) := by
  have origin : (Course.initial.afterAll interval handler before).now.lt 0 = false :=
    Course.not_lt_now_afterAll (by decide) before
  rw [afterAll_initial] at reached
  subst reached
  generalize Course.initial.afterAll interval handler before = c at origin accepted ⊢
  obtain ⟨now, phase⟩ := c
  have clock : (Course.toRun interval handler ⟨now, phase⟩).agenda.now = now := by cases phase <;> rfl
  have afterPing (rest : List (Move Act)) :
      afterAll (Course.toRun interval handler ⟨now, phase⟩) (.act k (.call .ping) :: rest) =
        (Course.afterAll interval handler ⟨now, phase.call .ping⟩ rest).toRun interval handler :=
    Course.toRun_afterAll _ _
  rw [clock, ← Number.delay_eq_of_le limit]
  refine ⟨fun inTime rest => ?_, fun late => ?_⟩
  · rw [afterPing]
    have later : now.lt now = false := by
      cases now <;> simp [Number.lt]
    have off : (phase.call .ping).PutOff now (now + (Agenda.delay interval : Number)) := by
      refine Phase.putOff_call_ping accepted (fun k raised running out => ?_) _
      subst out
      cases inTime
    exact (Course.putOff_afterAll (c := ⟨now, phase.call .ping⟩) origin later off rest).idles
  · obtain ⟨j, raised, rfl⟩ : ∃ j raised, phase = .woken j false raised true := by
      cases phase with
      | woken j pinged raised running =>
        obtain rfl : running = true := accepted
        cases pinged
        · exact ⟨j, raised, rfl⟩
        · cases late
      | unstarted | asleep | held | handled | stopped | ended => cases late
    refine ⟨fun rest => ?_, ?_⟩
    · rw [afterPing, Course.toRun_afterAll]
      exact Course.idles_of_alike (c := ⟨now, .woken j false true true⟩) (d := ⟨now, .woken j false raised true⟩) rfl
        (.ranOut j true raised true) rest
    · rw [afterPing]
      dsimp only [Course.afterAll, List.foldl_cons, List.foldl_nil, Course.after, Phase.call, Phase.turn, Course.toRun]
      cases handler.outcome <;> rfl

/-- A watchdog with an interval of a second is pinged after 600 milliseconds, and is idle at 1600. -/
theorem idle_after_ping_waiting :
    let before : List (Move Act) := [.act 0 .start, .moveTo 600]
    let run := afterAll (initial 1000 ⟨[], some (.ok ())⟩) before
    (1000 : Number).le (Agenda.maxDelay : Nat) = true ∧ run.watchdog.running = true ∧ run.ranOut = false ∧
      ∀ rest, ∀ idle ∈ (afterAll run (.act 1 (.call .ping) :: rest)).idles, idle.1.lt 1600 = false := by
  intro before run
  have limit : (1000 : Number).le (Agenda.maxDelay : Nat) = true := by decide
  have running : run.watchdog.running = true := by decide +kernel
  have inTime : run.ranOut = false := by decide +kernel
  have bound : run.agenda.now + max 1 (Number.trunc 1000) = 1600 := by decide +kernel
  have off := (idle_after_ping 1 rfl limit running).1 inTime
  rw [bound] at off
  exact ⟨limit, running, inTime, off⟩

/-- A ping that comes after the timer went off, and before the task goes on, is accepted,
and the idle handler is called at that very time. -/
theorem not_every_ping_counts :
    ¬∀ (interval : Number) (handler : IdleHandler) (before rest : List (Move Act)) (k : Nat),
      interval.le (Agenda.maxDelay : Nat) = true →
      (afterAll (initial interval handler) before).starter.isSome = true →
      (afterAll (initial interval handler) before).watchdog.running = true →
      ∀ idle ∈ (afterAll (initial interval handler) (before ++ .act k (.call .ping) :: rest)).idles,
        idle.1.lt ((afterAll (initial interval handler) before).agenda.now + max 1 interval.trunc) = false := by
  intro claim
  have early := claim 1000 ⟨[], some (.ok ())⟩ [.act 0 .start, .fire 1000] [.turn] 1 (by decide) (by decide +kernel)
    (by decide +kernel)
  revert early
  decide +kernel

end Folio.WatchdogRun
