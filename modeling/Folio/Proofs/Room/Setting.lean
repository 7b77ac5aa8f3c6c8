/-
Rooms in another setting. No operation of a room reads what happened before, what
else is ready or how other steps settled, and of the interactions it reads that of
the press which it answers. `room.within s` is the room with the past and the tasks
of the setting `s` before its own, and without what belongs to the steps that are
gone there. Every operation that works for none of these steps does the same in any
setting: it commutes with `within`. There is one such lemma for each operation, and
they amount to `run_within` for turns and `after_within` for the other moves.
-/
import Folio.Proofs.Room.Run

namespace Folio

/-- The step that a frame works for. -/
@[simp] def Frame.step? : Frame → Option Nat
  | .caller k _ => some k
  | .guard press | .notice press => press.interaction
  | .yield _ | .pass | .fail _ | .fetch .. | .deliver .. | .expire _ => none

/-- Whether a step is among some steps. -/
def concerns (steps : List Nat) (step : Option Nat) : Bool := step.any (· ∈ steps)

/-- Whether one of some frames works for one of some steps. -/
def serve (steps : List Nat) (frames : List Frame) : Bool := frames.any fun f => concerns steps f.step?

/-- Whether a task works for one of some steps. -/
def Task.serves (steps : List Nat) : Task → Bool
  | .woken .. => false
  | .resume frames _ => serve steps frames

/-- The interaction that a call answers. -/
@[simp] def Call.interaction? : Call → Option Nat
  | .acknowledge i | .notify i _ | .replace i _ => i
  | .deliver .. | .edit .. | .post .. | .replyTo .. | .answer .. | .editAnswer .. | .fetchAnswer .. | .followUp .. => none

@[simp] theorem concerns_none (steps : List Nat) : concerns steps none = false := rfl

@[simp] theorem concerns_some (steps : List Nat) (k : Nat) : concerns steps (some k) = decide (k ∈ steps) := rfl

@[simp] theorem concerns_nil (step : Option Nat) : concerns [] step = false := by
  cases step <;> rfl

theorem concerns_of_subset {steps steps' : List Nat} {step : Option Nat} (sub : steps ⊆ steps')
    (h : concerns steps' step = false) : concerns steps step = false := by
  cases step with
  | none => rfl
  | some k =>
    rw [concerns_some, decide_eq_false_iff_not] at h ⊢
    exact fun hk => h (sub hk)

@[simp] theorem serve_nil (steps : List Nat) : serve steps [] = false := rfl

@[simp] theorem serve_cons (steps : List Nat) (f : Frame) (frames : List Frame) :
    serve steps (f :: frames) = (concerns steps f.step? || serve steps frames) := rfl

theorem serve_of_subset {steps steps' : List Nat} {frames : List Frame} (sub : steps ⊆ steps')
    (h : serve steps' frames = false) : serve steps frames = false := by
  induction frames with
  | nil => rfl
  | cons f frames ih =>
    rw [serve_cons, Bool.or_eq_false_iff] at h ⊢
    exact ⟨concerns_of_subset sub h.1, ih h.2⟩

theorem Task.serves_of_subset {steps steps' : List Nat} {t : Task} (sub : steps ⊆ steps') (h : t.serves steps' = false) :
    t.serves steps = false := by
  cases t with
  | woken w pinged => rfl
  | resume frames outcome => exact serve_of_subset sub h

@[simp] theorem Task.serves_nil (t : Task) : t.serves [] = false := by
  cases t with
  | woken w pinged => rfl
  | resume frames outcome =>
    induction frames with
    | nil => rfl
    | cons f frames ih => exact Bool.or_eq_false_iff.2 ⟨concerns_nil _, ih⟩

/-- What was before and what is left out: what happened, what was made ready and what
settled before, the steps that are gone, and those of them whose interactions are
unknown. -/
structure Setting where
  journal : List Event
  ready : List Task
  settled : List (Nat × Outcome)
  gone : List Nat
  unknown : List Nat
  sub : unknown ⊆ gone

variable {s : Setting}

namespace Agenda

variable (s) (a : Agenda Nat Task)

/-- The agenda in a setting. -/
def within : Agenda Nat Task := { a with ready := s.ready ++ a.ready.filter fun t => !t.serves s.gone }

@[simp] theorem timers_within : (a.within s).timers = a.timers := rfl

theorem enqueue_within {t : Task} (free : t.serves s.gone = false) :
    (a.within s).enqueue t = (a.enqueue t).within s := by
  simp [enqueue, within, free]

@[simp] theorem wake_within (w : Nat) (pinged : Bool) :
    (a.within s).enqueue (.woken w pinged) = (a.enqueue (.woken w pinged)).within s := a.enqueue_within s rfl

@[simp] theorem start_within (w : Nat) (ms : Number) : (a.within s).start w ms = (a.start w ms).within s := rfl

end Agenda

/-! ## Watchdogs -/

namespace Signal

variable (s) (signal : Signal Nat) (a : Agenda Nat Task)

@[simp] theorem set_within :
    signal.set .woken (a.within s) = ((signal.set .woken a).1, (signal.set .woken a).2.within s) := by
  have woken : (signal.sleepers.map (Task.woken · true)).filter (fun t => !t.serves s.gone) =
      signal.sleepers.map (Task.woken · true) := List.filter_eq_self.2 (by simp [Task.serves])
  simp only [set_eq, Agenda.within, List.filter_append, woken, List.append_assoc]

@[simp] theorem wait_within (key : Nat) (ms : Number) :
    signal.wait .woken key ms (a.within s) =
      ((signal.wait .woken key ms a).1, (signal.wait .woken key ms a).2.within s) := by
  unfold wait
  split <;> simp

end Signal

namespace Watchdog

variable (s) (w : Watchdog Nat) (a : Agenda Nat Task)

@[simp] theorem ping_within :
    w.ping .woken (a.within s) = ((w.ping .woken a).1, (w.ping .woken a).2.within s) := by
  unfold ping
  split <;> simp

@[simp] theorem stop_within :
    w.stop .woken (a.within s) = ((w.stop .woken a).1, (w.stop .woken a).2.within s) := by
  unfold stop
  split <;> simp

@[simp] theorem lapse_within (key : Nat) :
    w.lapse .woken key (a.within s) = ((w.lapse .woken key a).1, (w.lapse .woken key a).2.within s) := by
  simp [lapse, Signal.lapse]

@[simp] theorem watch_within (key : Nat) :
    w.watch .woken key (a.within s) =
      ((w.watch .woken key a).1, (w.watch .woken key a).2.1.within s, (w.watch .woken key a).2.2) := by
  unfold watch
  split <;> simp

@[simp] theorem resume_within (key : Nat) (pinged : Bool) :
    w.resume .woken key pinged (a.within s) =
      ((w.resume .woken key pinged a).1, (w.resume .woken key pinged a).2.1.within s,
        (w.resume .woken key pinged a).2.2) := by
  unfold resume
  split
  · simp
  · split <;> simp

end Watchdog

/-! ## Interactions -/

namespace Table

variable {κ α : Type} [DecidableEq κ] (t : Table κ α) {ks : List κ} {k : κ}

/-- The table without some keys. -/
def without (ks : List κ) : Table κ α := t.filter fun e => e.1 ∉ ks

@[simp] theorem without_nil : t.without [] = t := by simp [without]

theorem get?_without (known : k ∉ ks) : (t.without ks).get? k = t.get? k := by
  induction t with
  | nil => rfl
  | cons e t ih =>
    simp only [get?, without, List.filter_cons] at ih ⊢
    by_cases hk : e.1 = k
    · subst hk
      simp [known]
    · by_cases he : e.1 ∈ ks <;> simp_all

theorem put_without (a : α) (known : k ∉ ks) : (t.without ks).put k a = (t.put k a).without ks := by
  simp [put, erase, without, known, Bool.and_comm]

/-- What is put under such a key makes no difference. -/
theorem without_put (a : α) (gone : k ∈ ks) : (t.put k a).without ks = t.without ks := by
  simp only [put, erase, without, List.filter_cons, List.filter_filter, gone, not_true_eq_false, decide_false]
  refine List.filter_congr fun e _ => ?_
  by_cases he : e.1 = k <;> simp_all

end Table

namespace Room

/-- The room in a setting. -/
def within (s : Setting) (room : Room) : Room :=
  { room with
    journal := s.journal ++ room.journal
    interactions := room.interactions.without s.unknown
    agenda := room.agenda.within s
    settled := s.settled ++ room.settled.filter fun o => o.1 ∉ s.gone }

variable (s) (room : Room)

@[simp] theorem client_within : (room.within s).client = room.client := rfl

@[simp] theorem environment_within : (room.within s).environment = room.environment := rfl

@[simp] theorem contexts_within : (room.within s).contexts = room.contexts := rfl

@[simp] theorem interactions_within : (room.within s).interactions = room.interactions.without s.unknown := rfl

@[simp] theorem agenda_within : (room.within s).agenda = room.agenda.within s := rfl

@[simp] theorem watchers_within : (room.within s).watchers = room.watchers := rfl

@[simp] theorem router_within : (room.within s).router = room.router := rfl

@[simp] theorem held_within : (room.within s).held = room.held := rfl

@[simp] theorem holding_within : (room.within s).holding = room.holding := rfl

@[simp] theorem failures_within : (room.within s).failures = room.failures := rfl

@[simp] theorem paginator?_within (p : Nat) : (room.within s).paginator? p = room.paginator? p := rfl

@[simp] theorem isService_within : (room.within s).isService = room.isService := rfl

@[simp] theorem authorOf?_within (origin : Origin) : (room.within s).authorOf? origin = room.authorOf? origin := by
  cases origin <;> rfl

@[simp] theorem customIdOf?_within (target : Target) : (room.within s).customIdOf? target = room.customIdOf? target := by
  cases target <;> rfl

/-! ## Parts -/

@[simp] theorem record_within (e : Event) : (room.within s).record e = (room.record e).within s := by
  simp [record, within]

@[simp] theorem log_within (line : LogLine) : (room.within s).log line = (room.log line).within s := record_within s room _

@[simp] theorem takeId_within : (room.within s).takeId = (room.takeId.1, room.takeId.2.within s) := rfl

@[simp] theorem modifyPaginator_within (p : Nat) (f : Paginator → Paginator) :
    (room.within s).modifyPaginator p f = (room.modifyPaginator p f).within s := rfl

@[simp] theorem modifyCommand_within (name : String) (f : Command → Command) :
    (room.within s).modifyCommand name f = (room.modifyCommand name f).within s := by
  simp only [modifyCommand, contexts_within]
  split <;> rfl

theorem modifyInteraction_within {i : Option Nat} (free : concerns s.gone i = false) (f : Interaction → Interaction) :
    (room.within s).modifyInteraction i f = (room.modifyInteraction i f).within s := by
  cases i with
  | none => rfl
  | some i =>
    have known : i ∉ s.unknown := by simpa using concerns_of_subset s.sub free
    simp only [modifyInteraction, interactions_within, Table.get?_without _ known]
    split
    · rw [Table.put_without _ _ known]
      rfl
    · rfl

theorem modifyWatchdog_within (w : Nat) {f : Watchdog Nat → Agenda Nat Task → Watchdog Nat × Agenda Nat Task}
    (hf : ∀ wd a, f wd (a.within s) = ((f wd a).1, (f wd a).2.within s)) :
    (room.within s).modifyWatchdog w f = (room.modifyWatchdog w f).within s := by
  simp only [modifyWatchdog, watchers_within, agenda_within, hf]
  split <;> rfl

@[simp] theorem ping_within (w : Option Nat) : (room.within s).ping w = (room.ping w).within s := by
  cases w with
  | none => rfl
  | some w => exact modifyWatchdog_within s room w (Watchdog.ping_within s)

@[simp] theorem callOff_within (w : Option Nat) : (room.within s).callOff w = (room.callOff w).within s := by
  cases w with
  | none => rfl
  | some w => exact modifyWatchdog_within s room w (Watchdog.stop_within s)

theorem rerouted_within (r : Router Handler) :
    ({ room.within s with router := r } : Room) = { room with router := r }.within s := rfl

@[simp] theorem register_within (session : String) (names : List String) (handler : Handler) :
    (room.within s).register session names handler = (room.register session names handler).within s := by
  simp only [register, router_within, rerouted_within, isService_within, record_within]
  split <;> rfl

@[simp] theorem unregister_within (session : String) :
    Room.unregister (room.within s) session = (Room.unregister room session).within s := by
  simp only [Room.unregister, router_within, rerouted_within, isService_within, record_within]
  split <;> rfl

/-! ## Calls -/

variable {s} {frames : List Frame}

theorem finish_within (free : serve s.gone frames = false) (outcome : Outcome) :
    (room.within s).finish frames outcome = (room.finish frames outcome).within s := by
  unfold finish
  split
  · rfl
  · have made : (room.agenda.within s).enqueue (.resume frames outcome) =
        (room.agenda.enqueue (.resume frames outcome)).within s := room.agenda.enqueue_within s free
    simp only [within, made]

theorem succeed_within {c : Call} (free : serve s.gone frames = false) (stays : concerns s.gone c.interaction? = false) :
    (room.within s).succeed c frames = (room.succeed c frames).within s := by
  cases c with
  | answer name _ _ | editAnswer name _ _ | followUp name _ _ =>
    simp only [succeed, modifyCommand_within, finish_within _ free]
  | acknowledge i | notify i _ | replace i _ =>
    have stays : concerns s.gone i = false := stays
    simp only [succeed, modifyInteraction_within s room stays, finish_within _ free]
  | deliver _ _ _ _ | edit _ _ | post _ _ | replyTo _ _ | fetchAnswer _ _ =>
    simp only [succeed, finish_within _ free]

theorem callWith_within {c : Call} {later : List Frame} (free : serve s.gone frames = false)
    (stays : concerns s.gone c.interaction? = false) :
    (room.within s).callWith c frames later = (room.callWith c frames later).within s := by
  simp only [callWith, record_within, failures_within, holding_within, isService_within]
  split
  · exact finish_within _ free _
  · split
    · rfl
    · exact succeed_within _ free stays

theorem call_within {c : Call} (free : serve s.gone frames = false) (stays : concerns s.gone c.interaction? = false) :
    (room.within s).call c frames = (room.call c frames).within s := room.callWith_within free stays

theorem relay_within {c : Call} (free : serve s.gone frames = false) (stays : concerns s.gone c.interaction? = false) :
    (room.within s).relay c frames = (room.relay c frames).within s := room.callWith_within (by simpa using free) stays

/-! ## Deliveries -/

theorem sendTo_within (name : String) (payload : Payload) (free : serve s.gone frames = false) :
    (room.within s).sendTo name payload frames = (room.sendTo name payload frames).within s := by
  simp only [sendTo, contexts_within, takeId_within]
  split
  next c _ =>
    have fetch : ∀ id : Nat, serve s.gone (.fetch name id :: frames) = false := fun id => by simpa using free
    cases c.answer <;> simp only [modifyCommand_within] <;> split
    · exact call_within _ (fetch _) rfl
    · exact relay_within _ free rfl
    · exact call_within _ (fetch _) rfl
    · exact relay_within _ free rfl
  · split
    · exact relay_within _ free rfl
    · exact finish_within _ free _
  · exact finish_within _ free _

theorem replyTo_within (name : String) (payload : Payload) (free : serve s.gone frames = false) :
    (room.within s).replyTo name payload frames = (room.replyTo name payload frames).within s := by
  simp only [replyTo, contexts_within, takeId_within]
  split
  · split
    · exact sendTo_within _ name payload (by simpa using free)
    · exact relay_within _ free rfl
  · exact relay_within _ free rfl
  · exact finish_within _ free _

theorem deliver_within (via : Via) (origin : Origin) (payload : Payload) (free : serve s.gone frames = false) :
    (room.within s).deliver via origin payload frames = (room.deliver via origin payload frames).within s := by
  cases origin with
  | user user =>
    simp only [deliver, takeId_within]
    exact call_within _ (by simpa using free) rfl
  | context name =>
    cases via with
    | send => exact room.sendTo_within name payload free
    | reply => exact room.replyTo_within name payload free

theorem send_within (p : Nat) (via : Via) (origin : Origin) (free : serve s.gone frames = false) :
    (room.within s).send p via origin frames = (room.send p via origin frames).within s := by
  simp only [send, paginator?_within]
  split
  · exact finish_within _ free _
  split
  · exact finish_within _ free _
  split
  · exact finish_within _ free _
  simp only [modifyPaginator_within]
  split
  · exact finish_within _ free _
  · exact deliver_within _ via origin _ (by simpa using free)

theorem edit_within (h : Handle) (payload : Payload) (free : serve s.gone frames = false) :
    (room.within s).edit h payload frames = (room.edit h payload frames).within s := by
  have longer : serve s.gone (if room.isService then .yield .nothing :: frames else frames) = false := by
    split <;> simpa using free
  exact call_within _ longer rfl

theorem update_within (p : Nat) (free : serve s.gone frames = false) :
    (room.within s).update p frames = (room.update p frames).within s := by
  simp only [update, paginator?_within]
  split
  · exact finish_within _ free _
  split
  · exact finish_within _ free _
  simp only [modifyPaginator_within]
  split
  · exact finish_within _ free _
  · exact edit_within _ _ _ (by simpa using free)

theorem shutDown_within (p : Nat) (h : Handle) (reason : StopReason) (free : serve s.gone frames = false) :
    (room.within s).shutDown p h reason frames = (room.shutDown p h reason frames).within s := by
  simp only [shutDown, paginator?_within]
  split
  · exact finish_within _ free _
  simp only [modifyPaginator_within, callOff_within, unregister_within, log_within]
  split
  · exact finish_within _ free _
  · exact edit_within _ _ _ (by simpa using free)

theorem stop_within (p : Nat) (free : serve s.gone frames = false) :
    (room.within s).stop p frames = (room.stop p frames).within s := by
  simp only [stop, paginator?_within]
  split
  · exact finish_within _ free _
  split
  · exact finish_within _ free _
  split
  · exact finish_within _ free _
  · exact shutDown_within _ p _ .asked (by simpa using free)

/-! ## Idleness -/

variable (s)

@[simp] theorem watchOver_within (p : Nat) (seconds : Rat) :
    (room.within s).watchOver p seconds = (room.watchOver p seconds).within s := by
  simp only [watchOver, agenda_within, watchers_within, Watchdog.watch_within]
  split <;> rfl

@[simp] theorem goLive_within (p : Nat) (origin : Origin) (h : Handle) :
    (room.within s).goLive p origin h = (room.goLive p origin h).within s := by
  simp only [goLive, paginator?_within]
  split
  · rfl
  next pg _ => cases pg.registered <;> simp

theorem expire_within (w : Nat) : (room.within s).expire w = (room.expire w).within s := by
  simp only [expire, watchers_within, paginator?_within]
  split
  · rfl
  split
  · rfl
  split
  · rfl
  split
  · rw [log_within]
    exact shutDown_within _ _ _ .timedOut rfl
  · rfl

theorem wake_within (w : Nat) (pinged : Bool) : (room.within s).wake w pinged = (room.wake w pinged).within s := by
  simp only [wake, watchers_within, agenda_within, Watchdog.resume_within]
  split
  · rfl
  next watcher _ =>
    generalize watcher.watchdog.resume .woken w pinged room.agenda = resumed
    obtain ⟨watchdog, agenda, next⟩ := resumed
    cases next with
    | asleep | ended => rfl
    | idle => exact expire_within s { room with agenda, watchers := room.watchers.set w { watcher with watchdog } } w

/-! ## Presses -/

variable {s}

theorem acknowledge_within {press : Press} (stays : concerns s.gone press.interaction = false)
    (free : serve s.gone frames = false) :
    (room.within s).acknowledge press frames = (room.acknowledge press frames).within s := by
  refine call_within _ ?_ stays
  cases press.interaction <;> simpa using free

theorem notify_within {press : Press} (text : String) (stays : concerns s.gone press.interaction = false)
    (free : serve s.gone frames = false) :
    (room.within s).notify press text frames = (room.notify press text frames).within s := by
  refine call_within _ ?_ stays
  cases press.interaction <;> simpa using free

theorem replace_within (p : Nat) {press : Press} {failed : List Frame} (stays : concerns s.gone press.interaction = false)
    (freeFailed : serve s.gone failed = false) (free : serve s.gone frames = false) :
    (room.within s).replace p press failed frames = (room.replace p press failed frames).within s := by
  simp only [replace, paginator?_within]
  split
  · exact finish_within _ freeFailed _
  simp only [modifyPaginator_within]
  split
  · exact finish_within _ freeFailed _
  · refine call_within _ ?_ stays
    cases press.interaction <;> simpa using free

theorem runCallback_within (p : Nat) (callback : Callback) {press : Press}
    (stays : concerns s.gone press.interaction = false) (free : serve s.gone frames = false) :
    (room.within s).runCallback p callback press frames = (room.runCallback p callback press frames).within s := by
  simp only [runCallback, record_within]
  cases callback with
  | give value => exact finish_within _ free _
  | fail message => exact finish_within _ free _
  | failLater message => exact finish_within _ (by simpa using free) _
  | defer => exact acknowledge_within _ stays (by simpa using free)
  | stop => exact stop_within _ p (by simpa using free)
  | update => exact update_within _ p (by simpa using free)
  | send origin => exact send_within _ p .send origin (by simpa using free)
  | turnTo index =>
    simp only [modifyPaginator_within]
    exact replace_within _ p stays (by simpa using free) (by simpa using free)

theorem receive_within (p : Nat) {press : Press} (stays : concerns s.gone press.interaction = false)
    (free : serve s.gone frames = false) :
    (room.within s).receive p press frames = (room.receive p press frames).within s := by
  simp only [receive, paginator?_within]
  split
  · exact finish_within _ free _
  split
  · simp only [log_within]
    split
    · exact acknowledge_within _ stays (by simpa using free)
    · exact notify_within _ _ stays (by simpa using free)
  split
  · exact acknowledge_within _ stays (by simpa using free)
  simp only [ping_within]
  split
  · exact runCallback_within _ p _ stays free
  · generalize Paginator.pressed _ _ _ _ = moved
    obtain ⟨index, refused⟩ := moved
    cases refused with
    | none =>
      simp only [modifyPaginator_within]
      exact replace_within _ p stays free free
    | some value =>
      simp only [log_within, modifyPaginator_within]
      exact replace_within _ p stays free free

theorem runHandler_within (handler : Handler) {press : Press} (stays : concerns s.gone press.interaction = false)
    (free : serve s.gone frames = false) :
    (room.within s).runHandler handler press frames = (room.runHandler handler press frames).within s := by
  cases handler with
  | paginator p => exact receive_within _ p stays free
  | silent => exact finish_within _ free _
  | scripted name session reaction =>
    simp only [runHandler, record_within]
    cases reaction with
    | succeed | fail => exact finish_within _ free _
    | defer => exact acknowledge_within _ stays (by simpa using free)
    | deferAndFail => exact acknowledge_within _ stays (by simpa using free)
    | greet => exact notify_within _ _ stays (by simpa using free)
    | unregister =>
      simp only [rerouted_within]
      exact finish_within _ free _

theorem dispatch_within {press : Press} (stays : concerns s.gone press.interaction = false)
    (free : serve s.gone frames = false) :
    (room.within s).dispatch press frames = (room.dispatch press frames).within s := by
  simp only [dispatch, router_within]
  split
  · exact runHandler_within _ _ stays (by simpa using free)
  · split
    · exact acknowledge_within _ stays (by simpa using free)
    · exact finish_within _ free _

theorem emit_within {k : Nat} (stays : k ∉ s.gone) (kind : ComponentKind) (user customId : String) (values : List String)
    (state : Interaction) :
    (room.within s).emit k kind user customId values state = (room.emit k kind user customId values state).within s := by
  have noted : ({ room.within s with interactions := (room.interactions.without s.unknown).put k state } : Room) =
      { room with interactions := room.interactions.put k state }.within s := by
    rw [Table.put_without _ _ fun hk => stays (s.sub hk)]
    rfl
  simp only [emit, interactions_within, noted]
  split
  · exact dispatch_within _ (by simpa [pressOf] using stays) (by simpa [pressOf] using stays)
  · rfl

theorem apologize_within {press : Press} (fault : Fault) (stays : concerns s.gone press.interaction = false)
    (free : serve s.gone frames = false) :
    (room.within s).apologize press fault frames = (room.apologize press fault frames).within s := by
  have known : ∀ r : Room, press.interaction.bind (r.within s).interactions.get? =
      press.interaction.bind r.interactions.get? := by
    intro r
    cases hi : press.interaction with
    | none => rfl
    | some i =>
      rw [hi] at stays
      have known : i ∉ s.unknown := by simpa using concerns_of_subset s.sub stays
      exact Table.get?_without _ known
  simp only [apologize, log_within, known]
  split
  · split
    · exact finish_within _ free _
    · exact call_within _ (by simpa [stays] using free) stays
  · exact finish_within _ free _

/-! ## Turns -/

theorem resume_within {frame : Frame} (outcome : Outcome) (free : serve s.gone (frame :: frames) = false) :
    (room.within s).resume frame frames outcome = (room.resume frame frames outcome).within s := by
  rw [serve_cons, Bool.or_eq_false_iff] at free
  obtain ⟨stays, free⟩ := free
  cases frame with
  | yield a => cases outcome <;> exact finish_within _ free _
  | pass => exact finish_within _ free _
  | fail fault => cases outcome <;> exact finish_within _ free _
  | fetch command id =>
    cases outcome with
    | ok a => exact relay_within _ free rfl
    | error fault => exact finish_within _ free _
  | deliver p origin =>
    cases outcome with
    | ok a =>
      cases a with
      | message h =>
        simp only [resume, goLive_within]
        exact finish_within _ free _
      | nothing | flag | value | sent => exact finish_within _ free _
    | error fault => exact finish_within _ free _
  | expire p =>
    cases outcome with
    | ok a => exact finish_within _ free _
    | error fault =>
      simp only [resume, paginator?_within]
      split
      · rw [log_within]
        exact finish_within _ free _
      · exact finish_within _ free _
  | guard press =>
    cases outcome with
    | ok a => exact finish_within _ free _
    | error fault => exact apologize_within _ fault stays free
  | notice press =>
    cases outcome with
    | ok a => exact finish_within _ free _
    | error fault =>
      simp only [resume, log_within]
      exact finish_within _ free _
  | caller k paginator =>
    have stays : k ∉ s.gone := by simpa using stays
    simp [resume, within, stays]
    rfl

theorem run_within {t : Task} (free : t.serves s.gone = false) : run t (room.within s) = (run t room).within s := by
  cases t with
  | woken w pinged => exact wake_within s room w pinged
  | resume frames outcome =>
    cases frames with
    | nil => rfl
    | cons frame frames => exact resume_within _ outcome free

/-! ## Moves -/

theorem create_within (source : Source) (overrides : Value) (callback : Option Callback) :
    (room.within s).create source overrides callback =
      ((room.create source overrides callback).1.within s, (room.create source overrides callback).2) := by
  simp only [create, environment_within]
  split
  · rfl
  · split <;> rfl

/-- An act does the same in any setting in which its step is not gone, and has the
same result. -/
theorem act_within {k : Nat} (stays : k ∉ s.gone) (unheld : room.held = []) (a : Act) :
    act k a (room.within s) = ((act k a room).1.within s, (act k a room).2) := by
  have free : ∀ o, serve s.gone [.caller k o] = false := fun o => by simpa using stays
  cases a with
  | create source overrides callback => simp only [act, create_within]
  | setIndex p index | setCallback p callback =>
    simp only [act, withPaginator, paginator?_within]
    split <;> rfl
  | splice p start removed drafts =>
    simp only [act, withPaginator, paginator?_within]
    split
    · split <;> rfl
    · rfl
  | showPayload p =>
    simp only [act, withPaginator, paginator?_within]
    split <;> rfl
  | send p via origin => simp only [act, send_within _ p via origin (free _)]
  | stop p => simp only [act, stop_within _ p (free _)]
  | update p => simp only [act, update_within _ p (free _)]
  | interact p draft =>
    simp only [act, withPress, customIdOf?_within]
    split
    · rw [receive_within _ p rfl (free _)]
    · rfl
  | dispatch draft =>
    simp only [act, withPress, customIdOf?_within]
    split
    · rw [dispatch_within _ rfl (free _)]
    · rfl
  | emit kind draft state =>
    simp only [act, withPress, customIdOf?_within, client_within]
    split
    · split
      · rw [emit_within _ stays]
      · rfl
    · rfl
  | wrap kind draft =>
    simp only [act, withPress, customIdOf?_within]
    split <;> rfl
  | register session names name reaction | unregister session | has customId | setFailure call message
  | setHolding on => rfl
  | clientRegister session names => simp only [act, register_within]
  | clientUnregister session => simp only [act, unregister_within]
  | author origin => simp only [act, authorOf?_within]
  | release position failure => simp [act, release, unheld]

theorem fire_within (limit : Number) : Timed.fire? limit (room.within s) = (Timed.fire? limit room).map (within s) := by
  have agenda : Timed.agenda (room.within s) = room.agenda.within s := rfl
  have agenda' : Timed.agenda room = room.agenda := rfl
  simp only [Timed.fire?, agenda, agenda', Agenda.timers_within]
  split
  · rfl
  next t rest _ =>
    split
    · exact congrArg some (modifyWatchdog_within s
        { room with agenda := { room.agenda with timers := rest }.moveTo t.due } t.key fun w a => w.lapse_within s a t.key)
    · rfl

/-- What a move returns at once. -/
def result (room : Room) : Move → Returned
  | .act k a => (act k a room).2
  | _ => none

/-- A move other than a turn does the same in any setting in which its step is not gone. -/
theorem after_within {m : Move} (stays : ∀ k a, m = .act k a → k ∉ s.gone) (unheld : room.held = []) (other : m ≠ .turn) :
    (room.within s).after m = (room.after m).within s ∧ (room.within s).result m = room.result m := by
  cases m with
  | act k a => simp only [after, result, act_within room (stays k a rfl) unheld, and_self]
  | turn => exact absurd rfl other
  | fire limit =>
    refine ⟨?_, rfl⟩
    simp only [after, fire_within]
    cases Timed.fire? limit room <;> rfl
  | moveTo time => exact ⟨rfl, rfl⟩

end Room

end Folio
