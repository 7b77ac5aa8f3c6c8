/-
What a watchdog can be relied on for, in every run: its idle handler is called once at
most, with the watchdog stopped, and not after someone else stopped it; there is one task,
however often it is started; and the task ends as the idle handler does, or without a wait
if the watchdog was stopped before.

What a state shows is read off its phase. Three things need the moves that led to it, and
each is kept by every move: who started the task, where its outcome comes from, and that
a watchdog which was stopped in time is `Halted`.
-/
import Folio.Proofs.Watchdog.Phase
import Mathlib.Data.List.Induction

namespace Folio.WatchdogRun

open Scripted (Move after afterAll)

variable {interval : Number} {handler : IdleHandler} {moves : List (Move Act)} {c : Course} {phase : Phase}

/-! ## Stopped in time -/

namespace Phase

/-- The watchdog is stopped and its idle handler was not called, so it will not be. -/
inductive Halted : Phase → Prop where
  | unstarted (raised : Bool) : Halted (unstarted raised false)
  | woken (k : Nat) (pinged raised : Bool) : Halted (woken k pinged raised false)
  | stopped (k : Nat) (raised : Bool) : Halted (stopped k raised)

namespace Halted

theorem call (h : phase.Halted) (c : WatchdogCall) : (phase.call c).Halted := by
  cases c <;> cases h <;> constructor

theorem start (h : phase.Halted) (now : Number) (k : Nat) : (phase.start interval now k).Halted := by
  cases h with
  | unstarted raised => cases raised <;> exact .stopped k _
  | woken k' pinged raised => exact .woken k' pinged raised
  | stopped k' raised => exact .stopped k' raised

theorem finish (h : phase.Halted) (outcome : Except Fault Unit) : (phase.finish outcome).Halted := by
  cases h <;> constructor

theorem turn (h : phase.Halted) (now : Number) : (phase.turn interval handler now).Halted := by
  cases h with
  | unstarted raised => exact .unstarted raised
  | woken k pinged raised => cases pinged <;> exact .stopped k _
  | stopped k raised => exact .stopped k raised

/-- What was stopped in time stays so. -/
theorem after (h : c.phase.Halted) (m : Move Act) : (c.after interval handler m).phase.Halted := by
  cases m with
  | act k a =>
    cases a with
    | start => exact h.start c.now k
    | call asked => exact h.call asked
    | finish outcome => exact h.finish outcome
  | turn => exact h.turn c.now
  | fire limit =>
    obtain ⟨now, phase⟩ := c
    cases h <;> constructor
  | moveTo time => exact h

theorem afterAll (h : c.phase.Halted) (moves : List (Move Act)) : (c.afterAll interval handler moves).phase.Halted := by
  induction moves generalizing c with
  | nil => exact h
  | cons m moves ih => exact ih (h.after m)

theorem idles (h : phase.Halted) (now : Number) : (phase.toRun interval handler now).idles = [] := by
  cases h <;> rfl

/-- No timer is set, and the task is over, or will be with its next turn. -/
theorem ends (h : phase.Halted) (now : Number) {k : Nat} (started : (phase.toRun interval handler now).starter = some k) :
    (phase.toRun interval handler now).settled = [(k, .ok ())] ∨
      (Timed.turn (phase.toRun interval handler now)).settled = [(k, .ok ())] ∧
        (Timed.turn (phase.toRun interval handler now)).agenda.now = (phase.toRun interval handler now).agenda.now := by
  cases h with
  | unstarted raised => cases started
  | woken k' pinged raised =>
    cases started
    cases pinged <;> exact .inr ⟨rfl, rfl⟩
  | stopped k' raised =>
    cases started
    exact .inl rfl

theorem timers (h : phase.Halted) (now : Number) : (phase.toRun interval handler now).agenda.timers = [] := by
  cases h <;> rfl

end Halted

/-- To stop a watchdog before its idle handler is called is to stop it in time. -/
theorem halted_call_stop (now : Number) (before : (phase.toRun interval handler now).idles = []) :
    (phase.call .stop).Halted := by
  cases phase with
  | unstarted raised running => cases running <;> exact .unstarted _
  | asleep k due => exact .woken k true true
  | woken k pinged raised running => cases running <;> exact .woken k pinged _
  | stopped k raised => exact .stopped k raised
  | held | handled | ended => cases before

/-- A watchdog that runs has not called its idle handler. -/
theorem idles_of_running (now : Number) (running : (phase.toRun interval handler now).watchdog.running = true) :
    (phase.toRun interval handler now).idles = [] := by
  cases phase with
  | held | handled | ended => cases running
  | _ => rfl

end Phase

/-- A watchdog that was stopped before its idle handler was called is halted from then on. -/
theorem halted_of_stop {before rest : List (Move Act)} {k : Nat} (stop : moves = before ++ .act k (.call .stop) :: rest)
    (uncalled : (afterAll (initial interval handler) before).idles = []) :
    (Course.initial.afterAll interval handler moves).phase.Halted := by
  rw [afterAll_initial] at uncalled
  rw [stop, Course.afterAll, List.foldl_append]
  exact (Phase.halted_call_stop _ uncalled).afterAll rest

/-! ## Who started the task -/

/-- The number of a move that starts the task. -/
def start? : Move Act → Option Nat
  | .act k .start => some k
  | _ => none

namespace Phase

/-- The call that started the task. -/
def starter : Phase → Option Nat
  | unstarted _ _ => none
  | asleep k _ | woken k _ _ _ | held k _ _ | handled k _ _ _ | stopped k _ | ended k _ _ _ => some k

theorem starter_call (phase : Phase) (c : WatchdogCall) : (phase.call c).starter = phase.starter := by
  cases c <;> cases phase with
  | unstarted raised running => cases running <;> rfl
  | woken k pinged raised running => cases running <;> rfl
  | _ => rfl

theorem starter_start (phase : Phase) (now : Number) (k : Nat) :
    (phase.start interval now k).starter = phase.starter.or (some k) := by
  cases phase with
  | unstarted raised running => cases raised <;> cases running <;> rfl
  | _ => rfl

theorem starter_turn (phase : Phase) (now : Number) : (phase.turn interval handler now).starter = phase.starter := by
  cases phase with
  | woken k pinged raised running =>
    cases pinged <;> cases running
    · rfl
    · dsimp only [turn]
      cases handler.outcome <;> rfl
    · rfl
    · rfl
  | _ => rfl

theorem starter_toRun (phase : Phase) (now : Number) : (phase.toRun interval handler now).starter = phase.starter := by
  cases phase <;> rfl

end Phase

/-- The first start is the one that counts. -/
theorem Course.starter_after (c : Course) (m : Move Act) :
    (c.after interval handler m).phase.starter = c.phase.starter.or (start? m) := by
  obtain ⟨now, phase⟩ := c
  cases m with
  | act k a =>
    cases a with
    | start => exact phase.starter_start now k
    | call asked => exact (phase.starter_call asked).trans Option.or_none.symm
    | finish outcome => cases phase <;> rfl
  | turn => exact (phase.starter_turn now).trans Option.or_none.symm
  | fire limit =>
    cases phase with
    | asleep k due =>
      dsimp only [after]
      split <;> rfl
    | _ => rfl
  | moveTo time => exact Option.or_none.symm

theorem Course.starter_afterAll (c : Course) (moves : List (Move Act)) :
    (c.afterAll interval handler moves).phase.starter = c.phase.starter.or (moves.findSome? start?) := by
  induction moves generalizing c with
  | nil => exact Option.or_none.symm
  | cons m moves ih =>
    have first : (m :: moves).findSome? start? = (start? m).or (moves.findSome? start?) := by
      rw [List.findSome?_cons]
      cases start? m <;> rfl
    rw [first, ← Option.or_assoc, ← starter_after c m]
    exact ih (c.after interval handler m)

/-! ## How the task ends -/

/-- In a run of these moves the idle handler comes to an outcome: by itself, or because it
is finished while it waits. -/
inductive HandlerEnds (interval : Number) (handler : IdleHandler) (moves : List (Move Act))
    (outcome : Except Fault Unit) : Prop where
  | alone (h : handler.outcome = some outcome)
  | finished {k : Nat} {before rest : List (Move Act)} (split : moves = before ++ .act k (.finish outcome) :: rest)
      (held : (afterAll (initial interval handler) before).held = true)

theorem HandlerEnds.append {outcome : Except Fault Unit} (h : HandlerEnds interval handler moves outcome)
    (more : List (Move Act)) : HandlerEnds interval handler (moves ++ more) outcome := by
  cases h with
  | alone h => exact .alone h
  | finished split held => exact .finished (by rw [split, List.append_assoc, List.cons_append]) held

namespace Phase

/-- The outcome of the idle handler, once it is done. -/
def outcome? : Phase → Option (Except Fault Unit)
  | handled _ _ _ outcome | ended _ _ _ outcome => some outcome
  | _ => none

theorem outcome?_call (phase : Phase) (c : WatchdogCall) : (phase.call c).outcome? = phase.outcome? := by
  cases c <;> cases phase with
  | unstarted raised running => cases running <;> rfl
  | woken k pinged raised running => cases running <;> rfl
  | _ => rfl

theorem outcome?_start (phase : Phase) (now : Number) (k : Nat) :
    (phase.start interval now k).outcome? = phase.outcome? := by
  cases phase with
  | unstarted raised running => cases raised <;> cases running <;> rfl
  | _ => rfl

theorem outcome?_finish (interval : Number) (handler : IdleHandler) (now : Number) (phase : Phase)
    (finished : Except Fault Unit) :
    (phase.finish finished).outcome? = phase.outcome? ∨
      (phase.toRun interval handler now).held = true ∧ (phase.finish finished).outcome? = some finished := by
  cases phase with
  | held k idle raised => exact .inr ⟨rfl, rfl⟩
  | _ => exact .inl rfl

theorem outcome?_turn (interval : Number) (handler : IdleHandler) (now : Number) (phase : Phase) :
    (phase.turn interval handler now).outcome? = phase.outcome? ∨
      (phase.turn interval handler now).outcome? = handler.outcome := by
  cases phase with
  | woken k pinged raised running =>
    cases pinged <;> cases running
    · exact .inl rfl
    · right
      dsimp only [turn]
      cases handler.outcome <;> rfl
    · exact .inl rfl
    · exact .inl rfl
  | _ => exact .inl rfl

end Phase

/-- An outcome comes up when the handler ends by itself or is finished. -/
theorem Course.outcome?_after (c : Course) (m : Move Act) {outcome : Except Fault Unit}
    (h : (c.after interval handler m).phase.outcome? = some outcome) :
    c.phase.outcome? = some outcome ∨ handler.outcome = some outcome ∨
      ∃ k, m = .act k (.finish outcome) ∧ (c.toRun interval handler).held = true := by
  obtain ⟨now, phase⟩ := c
  cases m with
  | act k a =>
    cases a with
    | start => exact .inl ((phase.outcome?_start now k).symm.trans h)
    | call asked => exact .inl ((phase.outcome?_call asked).symm.trans h)
    | finish finished =>
      obtain same | ⟨held, ends⟩ := phase.outcome?_finish interval handler now finished
      · exact .inl (same.symm.trans h)
      · obtain rfl := Option.some.inj (ends.symm.trans h)
        exact .inr (.inr ⟨k, rfl, held⟩)
  | turn =>
    obtain same | ends := phase.outcome?_turn interval handler now
    · exact .inl (same.symm.trans h)
    · exact .inr (.inl (ends.symm.trans h))
  | fire limit =>
    left
    cases phase with
    | asleep k due =>
      dsimp only [after] at h
      split at h <;> cases h
    | _ => exact h
  | moveTo time => exact .inl h

theorem handlerEnds_of_outcome? {outcome : Except Fault Unit}
    (h : (Course.initial.afterAll interval handler moves).phase.outcome? = some outcome) :
    HandlerEnds interval handler moves outcome := by
  induction moves using List.reverseRecOn with
  | nil => cases h
  | append_singleton moves m ih =>
    rw [Course.afterAll, List.foldl_append] at h
    obtain earlier | alone | ⟨k, rfl, held⟩ := Course.outcome?_after _ m h
    · exact (ih earlier).append [m]
    · exact .alone alone
    · exact .finished rfl (afterAll_initial moves ▸ held)

/-! ## What a phase shows -/

/-- In how many places tasks are: asleep, ready to go on, waiting for the idle handler, or ended. -/
def places (run : WatchdogRun) : Nat :=
  run.agenda.timers.length + run.agenda.ready.length + (if run.held then 1 else 0) + run.settled.length

namespace Phase

variable (phase : Phase) (now : Number)

theorem idles_length_le : (phase.toRun interval handler now).idles.length ≤ 1 := by
  cases phase <;> simp [toRun]

theorem idles_stopped : ∀ idle ∈ (phase.toRun interval handler now).idles, idle.2 = false := by
  cases phase <;> simp [toRun]

theorem same_task (started : (phase.toRun interval handler now).starter ≠ none) (k : Nat) :
    act k .start (phase.toRun interval handler now) = (phase.toRun interval handler now, some .sameTask) := by
  cases phase with
  | unstarted raised running => exact absurd rfl started
  | _ => rfl

theorem one_place : (phase.toRun interval handler now).places =
    if (phase.toRun interval handler now).starter = none then 0 else 1 := by
  cases phase <;> simp [places, toRun]

theorem stopped_of_settled (some : (phase.toRun interval handler now).settled ≠ []) :
    (phase.toRun interval handler now).watchdog.running = false ∧ (phase.toRun interval handler now).agenda.timers = [] := by
  cases phase with
  | stopped | ended => exact ⟨rfl, rfl⟩
  | _ => exact absurd rfl some

theorem settled_spec {ended : Nat × Except Fault Unit} (h : ended ∈ (phase.toRun interval handler now).settled) :
    (phase.toRun interval handler now).starter = some ended.1 ∧
      ((phase.toRun interval handler now).idles = [] ∧ ended.2 = .ok () ∨
        (phase.toRun interval handler now).idles ≠ [] ∧ phase.outcome? = some ended.2) := by
  cases phase with
  | stopped k raised =>
    obtain rfl := List.mem_singleton.1 h
    exact ⟨rfl, .inl ⟨rfl, rfl⟩⟩
  | ended k idle raised outcome =>
    obtain rfl := List.mem_singleton.1 h
    exact ⟨rfl, .inr ⟨List.cons_ne_nil _ _, rfl⟩⟩
  | _ => cases h

end Phase

/-! ## Safety -/

/-- What can be relied on in a run that these moves lead to. -/
structure Safe (interval : Number) (handler : IdleHandler) (moves : List (Move Act)) (run : WatchdogRun) : Prop where
  /-- The idle handler was called once at most. -/
  called_once : run.idles.length ≤ 1
  /-- It was called with the watchdog stopped. -/
  called_stopped : ∀ idle ∈ run.idles, idle.2 = false
  /-- It was not called if the watchdog was stopped while it was running. -/
  not_called {before rest : List (Move Act)} {k : Nat} (stop : moves = before ++ .act k (.call .stop) :: rest)
    (running : (afterAll (initial interval handler) before).watchdog.running = true) : run.idles = []
  /-- The task is that of the first start. -/
  starter : run.starter = moves.findSome? start?
  /-- To start again gives the same task and changes nothing. -/
  same_task (started : run.starter ≠ none) (k : Nat) : act k .start run = (run, some .sameTask)
  /-- There is one task then, and it is in one place. -/
  one_place : run.places = if run.starter = none then 0 else 1
  /-- When the task is over, the watchdog is stopped and no timer is set. -/
  stopped_of_settled (some : run.settled ≠ []) : run.watchdog.running = false ∧ run.agenda.timers = []
  /-- The task ends well without the idle handler, and with it as the handler does. -/
  outcome : ∀ ended ∈ run.settled, run.starter = some ended.1 ∧
    (run.idles = [] ∧ ended.2 = .ok () ∨ run.idles ≠ [] ∧ HandlerEnds interval handler moves ended.2)
  /-- After a stop that comes before the idle handler, no timer is set, and the task is over
  now or with its next turn. -/
  settled_after_stop {before rest : List (Move Act)} {k : Nat} (stop : moves = before ++ .act k (.call .stop) :: rest)
    (uncalled : (afterAll (initial interval handler) before).idles = []) :
    run.idles = [] ∧ run.agenda.timers = [] ∧ ∀ j, run.starter = some j →
      run.settled = [(j, .ok ())] ∨
        (Timed.turn run).settled = [(j, .ok ())] ∧ (Timed.turn run).agenda.now = run.agenda.now

/-- **A watchdog is safe in every run.** -/
theorem safe (interval : Number) (handler : IdleHandler) (moves : List (Move Act)) :
    Safe interval handler moves (afterAll (initial interval handler) moves) := by
  have halted {before rest : List (Move Act)} {k : Nat} := @halted_of_stop interval handler moves before rest k
  have started : (Course.initial.afterAll interval handler moves).phase.starter = moves.findSome? start? :=
    Course.initial.starter_afterAll moves
  have handled {outcome : Except Fault Unit} := @handlerEnds_of_outcome? interval handler moves outcome
  rw [afterAll_initial]
  generalize Course.initial.afterAll interval handler moves = c at halted started handled
  obtain ⟨now, phase⟩ := c
  have uncalled {before : List (Move Act)} (running : (afterAll (initial interval handler) before).watchdog.running = true) :
      (afterAll (initial interval handler) before).idles = [] := by
    rw [afterAll_initial] at running ⊢
    exact Phase.idles_of_running _ running
  exact {
    called_once := phase.idles_length_le now
    called_stopped := phase.idles_stopped now
    not_called := fun stop running => (halted stop (uncalled running)).idles now
    starter := (phase.starter_toRun now).trans started
    same_task := phase.same_task now
    one_place := phase.one_place now
    stopped_of_settled := phase.stopped_of_settled now
    outcome := by
      intro ended h
      obtain ⟨starter, alone | ⟨called, done⟩⟩ := phase.settled_spec now h
      · exact ⟨starter, .inl alone⟩
      · exact ⟨starter, .inr ⟨called, handled done⟩⟩
    settled_after_stop := fun stop uncalled =>
      ⟨(halted stop uncalled).idles now, (halted stop uncalled).timers now, fun j => (halted stop uncalled).ends now⟩ }

/-- A stop between the timer and the turn of the task comes in time; without it the idle
handler is called. -/
example : ((afterAll (initial 1000 ⟨[.ping], none⟩) [.act 0 .start, .fire 1000, .turn]).idles.length,
    (afterAll (initial 1000 ⟨[.ping], none⟩) [.act 0 .start, .fire 1000, .act 1 (.call .stop), .turn]).idles.length) =
      (1, 0) := by
  decide +kernel

end Folio.WatchdogRun
