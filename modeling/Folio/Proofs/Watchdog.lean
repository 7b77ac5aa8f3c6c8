/-
Where a watchdog stands. Its flag, its timer and what is ready to run for it are
three things, kept in three places; but between two operations there are only three
ways in which they go together, the stages. Each operation leads from a stage to a
stage, and concerns no other watchdog.
-/
import Folio.Proofs.Agenda
import Folio.Watchdog

namespace Folio

/-- The stages of a watchdog. -/
inductive Stage where
  /-- It waits, until `due` at the latest. -/
  | asleep (due : Number)
  /-- Its wait is over: it was pinged in time, or not. -/
  | woken (pinged : Bool)
  /-- It has ended. -/
  | finished
deriving DecidableEq

/-- The stage after the flag is raised. -/
def Stage.rung : Stage → Stage
  | asleep _ => woken true
  | stage => stage

namespace Watchdog

variable {κ ρ : Type} [DecidableEq κ] {wake : κ → Bool → ρ} {woken? : ρ → Option (κ × Bool)} {key : κ}
  {w : Watchdog κ} {a : Agenda κ ρ} {stage : Stage}

/-- The watchdog for a key is at a stage. -/
inductive Stands (woken? : ρ → Option (κ × Bool)) (key : κ) (w : Watchdog κ) (a : Agenda κ ρ) : Stage → Prop where
  | asleep {due : Number} (dues : a.dues key = [due]) (wakes : a.wakes woken? key = []) (signal : w.signal = ⟨false, [key]⟩)
      (running : w.running = true) : Stands woken? key w a (.asleep due)
  | woken {pinged : Bool} (dues : a.dues key = []) (wakes : a.wakes woken? key = [pinged])
      (sleepers : w.signal.sleepers = []) : Stands woken? key w a (.woken pinged)
  | finished (dues : a.dues key = []) (wakes : a.wakes woken? key = []) (sleepers : w.signal.sleepers = [])
      (ended : w.running = false) : Stands woken? key w a .finished

/-- What an operation does at its key, and to no other. -/
structure Leads (woken? : ρ → Option (κ × Bool)) (key : κ) (a : Agenda κ ρ) (r : Watchdog κ × Agenda κ ρ)
    (stage : Stage) : Prop where
  stands : Stands woken? key r.1 r.2 stage
  spares : Agenda.Sparing woken? key a r.2

namespace Stands

/-- Only the agenda's part for the key matters. -/
theorem of_eq {b : Agenda κ ρ} (h : Stands woken? key w a stage) (dues : b.dues key = a.dues key)
    (wakes : b.wakes woken? key = a.wakes woken? key) : Stands woken? key w b stage := by
  cases h with
  | asleep hd hw signal running => exact .asleep (dues.trans hd) (wakes.trans hw) signal running
  | woken hd hw sleepers => exact .woken (dues.trans hd) (wakes.trans hw) sleepers
  | finished hd hw sleepers ended => exact .finished (dues.trans hd) (wakes.trans hw) sleepers ended

/-- A watchdog that does not run is not asleep. -/
theorem rung_of_idle (h : Stands woken? key w a stage) (idle : ¬w.running = true) : stage.rung = stage := by
  cases h with
  | asleep _ _ _ running => exact absurd running idle
  | woken | finished => rfl

variable (hwoken : ∀ key pinged, woken? (wake key pinged) = some (key, pinged))
include hwoken

/-- To raise the flag wakes the watchdog if it is asleep. -/
theorem set (h : Stands woken? key w a stage) (running : Bool) (stays : stage = .finished → running = false) :
    Leads woken? key a ({ w with signal := (w.signal.set wake a).1, running }, (w.signal.set wake a).2) stage.rung := by
  cases h with
  | asleep hd hw signal _ =>
    have rings : w.signal.set wake a = (⟨true, []⟩, (a.cancel key).enqueue (wake key true)) := by
      rw [Signal.set, signal]
      rfl
    rw [rings]
    refine ⟨.woken Agenda.dues_cancel_self ?_ rfl, (Agenda.Sparing.cancel a key).trans (.enqueue _ (hwoken key true))⟩
    have waits : (a.cancel key).wakes woken? key = [] := hw
    rw [Agenda.wakes_enqueue_self (hwoken key true), waits]
    rfl
  | woken hd hw sleepers =>
    have rings : w.signal.set wake a = (⟨true, []⟩, a) := by
      rw [Signal.set, sleepers]
      rfl
    rw [rings]
    exact ⟨.woken hd hw rfl, .refl a⟩
  | finished hd hw sleepers _ =>
    have rings : w.signal.set wake a = (⟨true, []⟩, a) := by
      rw [Signal.set, sleepers]
      rfl
    rw [rings]
    exact ⟨.finished hd hw rfl (stays rfl), .refl a⟩

/-- A sign of life, or the lack of one for a watchdog that does not run. -/
theorem ping (h : Stands woken? key w a stage) : Leads woken? key a (w.ping wake a) stage.rung := by
  rw [Watchdog.ping]
  split
  next running =>
    refine h.set hwoken w.running fun finished => ?_
    subst finished
    cases h with
    | finished _ _ _ ended => exact ended
  next idle =>
    rw [h.rung_of_idle idle]
    exact ⟨h, .refl a⟩

theorem stop (h : Stands woken? key w a stage) :
    Leads woken? key a (w.stop wake a) stage.rung ∧ (w.stop wake a).1.running = false := by
  rw [Watchdog.stop]
  split
  · exact ⟨h.set hwoken false fun _ => rfl, rfl⟩
  next idle =>
    rw [h.rung_of_idle idle]
    exact ⟨⟨h, .refl a⟩, Bool.eq_false_of_not_eq_true idle⟩

/-- The timer goes off, and is no longer on the agenda. -/
theorem lapse (signal : w.signal = ⟨false, [key]⟩) (dues : a.dues key = []) (wakes : a.wakes woken? key = []) :
    Leads woken? key a (w.lapse wake key a) (.woken false) := by
  refine ⟨.woken dues ?_ ?_, .enqueue a (hwoken key false)⟩
  · have woke := Agenda.wakes_enqueue_self (a := a) (hwoken key false)
    rw [wakes] at woke
    exact woke
  · simp [Watchdog.lapse, Signal.lapse, signal]

omit hwoken in
/-- A watchdog that runs goes to sleep if its flag is lowered. -/
theorem watch (wake : κ → Bool → ρ) (running : w.running = true) (signal : w.signal = ⟨false, []⟩) (dues : a.dues key = [])
    (wakes : a.wakes woken? key = []) :
    Leads woken? key a ((w.watch wake key a).1, (w.watch wake key a).2.1)
        (.asleep (a.now + (Agenda.delay w.interval : Number))) ∧
      (w.watch wake key a).1.interval = w.interval := by
  have sleeps : w.watch wake key a = ({ w with signal := ⟨false, [key]⟩ }, a.start key w.interval, .asleep) := by
    rw [Watchdog.watch, if_pos running, Signal.wait, signal]
    rfl
  rw [sleeps]
  exact ⟨⟨.asleep (Agenda.dues_start_self w.interval dues) wakes rfl running, .start a key w.interval⟩, rfl⟩

omit hwoken in
/-- After a wait that a ping ended, the watchdog sleeps anew if it runs. -/
theorem resume (wake : κ → Bool → ρ) (sleepers : w.signal.sleepers = []) (dues : a.dues key = []) (wakes : a.wakes woken? key = [])
    (pinged : Bool) :
    Leads woken? key a ((w.resume wake key pinged a).1, (w.resume wake key pinged a).2.1)
        (if pinged && w.running then .asleep (a.now + (Agenda.delay w.interval : Number)) else .finished) ∧
      (w.resume wake key pinged a).1.interval = w.interval ∧
      (w.resume wake key pinged a).1.running = (w.running && pinged) := by
  cases running : w.running with
  | true =>
    cases pinged with
    | true =>
      have lowered : w.signal.clear = ⟨false, []⟩ := by rw [Signal.clear, sleepers]
      obtain ⟨leads, interval⟩ := watch (w := { w with signal := w.signal.clear }) wake running lowered dues wakes
      refine ⟨leads, interval, ?_⟩
      rw [Watchdog.resume, if_pos rfl, Watchdog.watch, if_pos running]
      exact running
    | false =>
      rw [Watchdog.resume, if_neg Bool.false_ne_true, if_pos running]
      exact ⟨⟨.finished dues wakes sleepers rfl, .refl a⟩, rfl, rfl⟩
  | false =>
    have idle : ¬w.running = true := by simp [running]
    have stays : ∀ v : Watchdog κ, v.running = false → v.signal.sleepers = [] → Leads woken? key a (v, a) .finished :=
      fun v ended sleepers => ⟨.finished dues wakes sleepers ended, .refl a⟩
    cases pinged with
    | true =>
      rw [Watchdog.resume, if_pos rfl, Watchdog.watch, if_neg idle]
      exact ⟨stays _ running sleepers, rfl, running⟩
    | false =>
      rw [Watchdog.resume, if_neg Bool.false_ne_true, if_neg idle]
      exact ⟨stays w running sleepers, rfl, running⟩

end Stands

end Watchdog

end Folio
