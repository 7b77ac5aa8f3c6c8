/-
What is under way in a room. A delivery waits as a stack of frames for a call that
was made for its origin, and nothing else ever comes to wait in its place. So the
message that a delivery completes with is one that such a call was answered with, and
its origin has a user (`UnderWay`), whatever else is sent, fails or completes
meanwhile. `Adds a b` says that on the way from `a` to `b` only what is fair in this
sense came to be under way; there is one lemma for each operation, and they amount to
`after_adds` for moves, and so to `IsOpened.underWay` for runs.
-/
import Folio.Proofs.Room.Change
import Folio.Proofs.Room.Outward

namespace Folio

/-- Whether a call delivers to an origin. One that posts in a channel or replies to a
message does not say in answer to what. -/
def Call.deliversTo (origin : Origin) : Call → Bool
  | .deliver _ user _ _ => origin = .user user
  | .editAnswer name _ _ | .fetchAnswer name _ | .followUp name _ _ => origin = .context name
  | .post .. | .replyTo .. =>
    match origin with
    | .context _ => true
    | .user _ => false
  | .edit .. | .answer .. | .acknowledge _ | .notify .. | .replace .. => false

/-- Whether a frame has no part in a delivery. -/
def Frame.isPlain : Frame → Bool
  | .deliver .. | .fetch .. => false
  | .yield _ | .pass | .fail _ | .expire _ | .guard _ | .notice _ | .caller .. => true

/-- Frames that may go on with an outcome: a delivery, only with a message that was
`sent` to its origin. What is fetched for it is the answer to a command that is `known`. -/
def Fair (known : Origin → Prop) (sent : Origin → Handle → Prop) : List Frame → Outcome → Prop
  | [], _ => True
  | frame :: frames, outcome =>
    match frame with
    | .deliver _ origin => frames.all Frame.isPlain = true ∧ ∀ h, outcome = .ok (.message h) → sent origin h
    | .fetch name id => known (.context name) ∧
      Fair known (fun origin h => origin = .context name ∧ h = ⟨id, none⟩) frames (.ok (.message ⟨id, none⟩))
    | .pass => Fair known sent frames outcome
    | .yield _ | .fail _ | .expire _ | .guard _ | .notice _ | .caller .. => frames.all Frame.isPlain = true

section

variable {known known' : Origin → Prop} {sent sent' : Origin → Handle → Prop} {frames : List Frame} {outcome : Outcome}

theorem fair_of_plain (plain : frames.all Frame.isPlain = true) : Fair known sent frames outcome := by
  induction frames with
  | nil => trivial
  | cons frame frames ih =>
    rw [List.all_cons, Bool.and_eq_true] at plain
    cases frame with
    | deliver | fetch => exact absurd plain.1 (by simp [Frame.isPlain])
    | pass => exact ih plain.2
    | yield | fail | expire | guard | notice | caller => exact plain.2

theorem Fair.mono (knows : ∀ o, known o → known' o) (sends : ∀ o h, sent o h → sent' o h)
    (fair : Fair known sent frames outcome) : Fair known' sent' frames outcome := by
  induction frames generalizing sent sent' outcome with
  | nil => trivial
  | cons frame frames ih =>
    cases frame with
    | deliver p origin => exact ⟨fair.1, fun h ok => sends origin h (fair.2 h ok)⟩
    | fetch name id => exact ⟨knows _ fair.1, ih (fun _ _ sent => sent) fair.2⟩
    | pass => exact ih sends fair
    | yield | fail | expire | guard | notice | caller => exact fair

/-- What fails is no message, so it may go on as well. -/
theorem Fair.error (fair : Fair known sent frames outcome) (fault : Fault) : Fair known sent' frames (.error fault) := by
  induction frames generalizing sent outcome with
  | nil => trivial
  | cons frame frames ih =>
    cases frame with
    | deliver p origin => exact ⟨fair.1, fun h ok => by cases ok⟩
    | fetch name id => exact fair
    | pass => exact ih fair
    | yield | fail | expire | guard | notice | caller => exact fair

end

/-- What is ready to go on with an outcome. -/
def Agenda.resumes (a : Agenda Nat Task) : List Task := a.ready.filter fun t => !t.isWoken

/-! ## Watchdogs

They make nothing ready to go on with an outcome. -/

namespace Signal

theorem resumes_set (s : Signal Nat) (a : Agenda Nat Task) : (s.set .woken a).2.resumes = a.resumes := by
  have woken : (s.sleepers.map (Task.woken · true)).filter (fun t => !t.isWoken) = [] := by simp [Task.isWoken]
  rw [set_eq, Agenda.resumes, List.filter_append, woken, List.append_nil, Agenda.resumes]

end Signal

namespace Watchdog

variable (w : Watchdog Nat) (a : Agenda Nat Task) (key : Nat)

theorem resumes_ping : (w.ping .woken a).2.resumes = a.resumes := by
  rw [ping]
  split
  · exact w.signal.resumes_set a
  · rfl

theorem resumes_stop : (w.stop .woken a).2.resumes = a.resumes := by
  rw [stop]
  split
  · exact w.signal.resumes_set a
  · rfl

theorem resumes_lapse : (w.lapse .woken key a).2.resumes = a.resumes := by
  simp [lapse, Signal.lapse, Agenda.resumes, Agenda.enqueue, Task.isWoken]

theorem resumes_watch : (w.watch .woken key a).2.1.resumes = a.resumes := by
  rw [watch]
  split
  · simp only [Signal.wait]
    split
    · simp [Agenda.resumes, Agenda.enqueue, Task.isWoken]
    · rfl
  · rfl

theorem resumes_resume (pinged : Bool) : (w.resume .woken key pinged a).2.1.resumes = a.resumes := by
  rw [resume]
  split
  · exact resumes_watch _ a key
  · split <;> rfl

end Watchdog

namespace Room

variable {a b c room : Room} {p : Nat} {frames : List Frame} {outcome : Outcome}

/-! ## Fair frames -/

/-- A message was delivered to an origin that has a user: a call for it was answered with that message. -/
structure Sent (room : Room) (origin : Origin) (h : Handle) : Prop where
  call : ∃ c, .call c ∈ room.journal ∧ c.deliversTo origin = true ∧ c.answered = .message h
  author : (room.authorOf? origin).isSome = true

/-- In a room, the frames may go on with an outcome. -/
def MayGoOn (room : Room) (frames : List Frame) (outcome : Outcome) : Prop :=
  Fair (fun origin => (room.authorOf? origin).isSome = true) room.Sent frames outcome

/-- All that waits for an outcome, or goes on with one, is fair. -/
structure UnderWay (room : Room) : Prop where
  ready : ∀ {frames outcome}, .resume frames outcome ∈ room.agenda.resumes → room.MayGoOn frames outcome
  held : ∀ {h}, h ∈ room.held → room.MayGoOn h.frames (.ok h.call.answered)

/-- From `a` to `b` only what is fair came to be under way, and nothing that happened
was forgotten. -/
structure Adds (a b : Room) : Prop where
  journal : ∀ e ∈ a.journal, e ∈ b.journal
  authors : ∀ origin, b.authorOf? origin = a.authorOf? origin
  ready : ∀ {frames outcome}, .resume frames outcome ∈ b.agenda.resumes →
    .resume frames outcome ∈ a.agenda.resumes ∨ b.MayGoOn frames outcome
  held : ∀ {h}, h ∈ b.held → h ∈ a.held ∨ b.MayGoOn h.frames (.ok h.call.answered)

theorem mayGoOn_of_plain (room : Room) (plain : frames.all Frame.isPlain = true) (outcome : Outcome) :
    room.MayGoOn frames outcome := fair_of_plain plain

/-- What may go on may do so later. -/
theorem MayGoOn.grow (journal : ∀ e ∈ a.journal, e ∈ b.journal) (authors : ∀ origin, b.authorOf? origin = a.authorOf? origin)
    (fair : a.MayGoOn frames outcome) : b.MayGoOn frames outcome := by
  refine Fair.mono (fun origin known => (authors origin).symm ▸ known) (fun origin h sent => ?_) fair
  obtain ⟨⟨c, made, aimed, answered⟩, author⟩ := sent
  exact ⟨⟨c, journal _ made, aimed, answered⟩, (authors origin).symm ▸ author⟩

namespace Adds

theorem mayGoOn (h : Adds a b) (fair : a.MayGoOn frames outcome) : b.MayGoOn frames outcome :=
  fair.grow h.journal h.authors

theorem refl (room : Room) : Adds room room := ⟨fun _ h => h, fun _ => rfl, .inl, .inl⟩

theorem trans (h : Adds a b) (h' : Adds b c) : Adds a c where
  journal e he := h'.journal e (h.journal e he)
  authors origin := (h'.authors origin).trans (h.authors origin)
  ready ht := (h'.ready ht).elim (fun ht => (h.ready ht).imp_right h'.mayGoOn) .inr
  held hh := (h'.held hh).elim (fun hh => (h.held hh).imp_right h'.mayGoOn) .inr

theorem underWay (h : Adds a b) (u : a.UnderWay) : b.UnderWay where
  ready ht := (h.ready ht).elim (fun ht => h.mayGoOn (u.ready ht)) id
  held hh := (h.held hh).elim (fun hh => h.mayGoOn (u.held hh)) id

theorem of_eq (journal : b.journal = a.journal) (contexts : b.contexts = a.contexts)
    (ready : b.agenda.resumes = a.agenda.resumes) (held : b.held = a.held) : Adds a b where
  journal _ h := journal ▸ h
  authors origin := by
    cases origin with
    | user user => rfl
    | context name => rw [authorOf?, contexts, authorOf?]
  ready h := .inl (ready ▸ h)
  held h := .inl (held ▸ h)

end Adds

theorem record_adds (room : Room) (e : Event) : Adds room (room.record e) :=
  ⟨fun _ h => List.mem_append_left _ h, fun _ => rfl, .inl, .inl⟩

theorem log_adds (room : Room) (line : LogLine) : Adds room (room.log line) := room.record_adds _

theorem finish_adds (fair : room.MayGoOn frames outcome) : Adds room (room.finish frames outcome) := by
  rw [finish]
  split
  · exact .refl room
  · refine ⟨fun _ h => h, fun _ => rfl, fun ht => ?_, .inl⟩
    simp only [Agenda.resumes, Agenda.enqueue, List.filter_append, List.mem_append] at ht
    rcases ht with ht | ht
    · exact .inl ht
    · obtain ⟨rfl, rfl⟩ := Task.resume.inj (List.mem_singleton.1 (List.mem_filter.1 ht).1)
      exact .inr (MayGoOn.grow (a := room) (fun _ h => h) (fun _ => rfl) fair)

theorem finish_plain (plain : frames.all Frame.isPlain = true) (outcome : Outcome) :
    Adds room (room.finish frames outcome) := finish_adds (room.mayGoOn_of_plain plain outcome)

theorem modifyCommand_adds (room : Room) (name : String) {f : Command → Command} (same : ∀ c, (f c).user = c.user) :
    Adds room (room.modifyCommand name f) := by
  rw [modifyCommand]
  split
  next c hc =>
    refine ⟨fun _ h => h, fun origin => ?_, .inl, .inl⟩
    cases origin with
    | user user => rfl
    | context name' =>
      rw [authorOf?, authorOf?]
      by_cases hn : name' = name
      · subst hn
        simp [hc, Context.user, same]
      · rw [Table.get?_put_other _ _ hn]
  · exact .refl room

theorem modifyInteraction_adds (room : Room) (i : Option Nat) (f : Interaction → Interaction) :
    Adds room (room.modifyInteraction i f) := by
  cases i with
  | none => exact .refl room
  | some i =>
    rw [modifyInteraction]
    split
    · exact .of_eq rfl rfl rfl rfl
    · exact .refl room

theorem modifyPaginator_adds (room : Room) (p : Nat) (f : Paginator → Paginator) :
    Adds room (room.modifyPaginator p f) := .of_eq rfl rfl rfl rfl

theorem modifyWatchdog_adds (room : Room) (w : Nat) {f : Watchdog Nat → Agenda Nat Task → Watchdog Nat × Agenda Nat Task}
    (h : ∀ wd a, (f wd a).2.resumes = a.resumes) : Adds room (room.modifyWatchdog w f) := by
  rw [modifyWatchdog]
  split
  · exact .of_eq rfl rfl (h _ _) rfl
  · exact .refl room

theorem ping_adds (room : Room) (w : Option Nat) : Adds room (room.ping w) := by
  cases w with
  | none => exact .refl room
  | some w => exact room.modifyWatchdog_adds w fun wd a => wd.resumes_ping a

theorem callOff_adds (room : Room) (w : Option Nat) : Adds room (room.callOff w) := by
  cases w with
  | none => exact .refl room
  | some w => exact room.modifyWatchdog_adds w fun wd a => wd.resumes_stop a

/-! ## Calls -/

theorem succeed_adds (call : Call) (fair : room.MayGoOn frames (.ok call.answered)) :
    Adds room (room.succeed call frames) := by
  cases call with
  | answer name _ _ | editAnswer name _ _ | followUp name _ _ =>
    have marked := room.modifyCommand_adds name (f := fun c => { c with replied := true }) fun _ => rfl
    exact marked.trans (finish_adds (marked.mayGoOn fair))
  | acknowledge i =>
    have marked := room.modifyInteraction_adds i fun i => { i with deferred := true }
    exact marked.trans (finish_adds (marked.mayGoOn fair))
  | notify i _ | replace i _ =>
    have marked := room.modifyInteraction_adds i fun i => { i with replied := true }
    exact marked.trans (finish_adds (marked.mayGoOn fair))
  | deliver _ _ _ _ | edit _ _ | post _ _ | replyTo _ _ | fetchAnswer _ _ => exact finish_adds fair

theorem callWith_adds (call : Call) {atOnce later : List Frame}
    (fair : (room.record (.call call)).MayGoOn atOnce (.ok call.answered))
    (held : (room.record (.call call)).MayGoOn later (.ok call.answered)) :
    Adds room (room.callWith call atOnce later) := by
  have recorded := room.record_adds (.call call)
  rw [callWith]
  split
  · exact recorded.trans (finish_adds (fair.error _))
  · split
    · refine recorded.trans ⟨fun _ h => h, fun _ => rfl, .inl, fun hh => ?_⟩
      rcases List.mem_append.1 hh with hh | hh
      · exact .inl hh
      · obtain rfl := List.mem_singleton.1 hh
        exact .inr (MayGoOn.grow (a := room.record (.call call)) (fun _ h => h) (fun _ => rfl) held)
    · exact recorded.trans (succeed_adds call fair)

theorem call_adds (call : Call) (fair : (room.record (.call call)).MayGoOn frames (.ok call.answered)) :
    Adds room (room.call call frames) := callWith_adds call fair fair

theorem relay_adds (call : Call) (fair : (room.record (.call call)).MayGoOn frames (.ok call.answered)) :
    Adds room (room.relay call frames) := callWith_adds call fair fair

theorem call_plain (call : Call) (plain : frames.all Frame.isPlain = true) : Adds room (room.call call frames) :=
  call_adds call (mayGoOn_of_plain _ plain _)

theorem takeId_adds (room : Room) : Adds room room.takeId.2 := .of_eq rfl rfl rfl rfl

/-- What a call for an origin is answered with was sent to it. -/
theorem sent_of_call {call : Call} {origin : Origin} {h : Handle} (aimed : call.deliversTo origin = true)
    (answered : call.answered = .message h) (author : (room.authorOf? origin).isSome = true) :
    (room.record (.call call)).Sent origin h :=
  ⟨⟨call, List.mem_append_right _ (List.mem_singleton.2 rfl), aimed, answered⟩, author⟩

/-! ## Deliveries -/

/-- The frames wait for a message to a context. -/
def ForContext (room : Room) (name : String) (frames : List Frame) : Prop :=
  ∀ id, Fair (fun origin => (room.authorOf? origin).isSome = true)
    (fun origin h => origin = .context name ∧ h = ⟨id, none⟩) frames (.ok (.message ⟨id, none⟩))

theorem ForContext.adds (h : Adds a b) {name : String} (fair : a.ForContext name frames) : b.ForContext name frames :=
  fun id => (fair id).mono (fun origin known => (h.authors origin).symm ▸ known) fun _ _ sent => sent

theorem ForContext.mayGoOn {name : String} {call : Call} {id : Nat} (fair : room.ForContext name frames)
    (known : (room.authorOf? (.context name)).isSome = true) (aimed : call.deliversTo (.context name) = true)
    (answered : call.answered = .message ⟨id, none⟩) :
    (room.record (.call call)).MayGoOn frames (.ok call.answered) := by
  rw [answered]
  refine (fair id).mono (fun _ known => known) ?_
  rintro origin h ⟨rfl, rfl⟩
  exact sent_of_call aimed answered known

theorem sendTo_adds {name : String} (payload : Payload) (fair : room.ForContext name frames) :
    Adds room (room.sendTo name payload frames) := by
  rw [sendTo]
  split
  next c hc =>
    have known : (room.authorOf? (.context name)).isSome = true := by simp [authorOf?, hc]
    have call : ∀ (id : Nat) (r : Room), Adds room r → Adds room
        (if c.isFresh then r.call (.answer name id payload) (.fetch name id :: frames)
          else r.relay (.editAnswer name id payload) frames) := by
      intro id r h
      have known' : (r.authorOf? (.context name)).isSome = true := (h.authors _).symm ▸ known
      have fair' := fair.adds h
      split
      · exact h.trans (call_adds _ ⟨known', fair' id⟩)
      · exact h.trans (relay_adds _ (fair'.mayGoOn known' (by simp [Call.deliversTo]) rfl))
    split
    next id room' hid =>
    split at hid
    · cases hid
      exact call _ _ (.refl room)
    · cases hid
      exact call _ _ (room.takeId_adds.trans (modifyCommand_adds _ name fun _ => rfl))
  next hc =>
    split
    · have known : (room.authorOf? (.context name)).isSome = true := by simp [authorOf?, hc]
      exact room.takeId_adds.trans (relay_adds _ ((fair.adds room.takeId_adds).mayGoOn known rfl rfl))
    · exact finish_adds ((fair 0).error _)
  · exact finish_adds ((fair 0).error _)

theorem replyTo_adds {name : String} (payload : Payload) (fair : room.ForContext name frames) :
    Adds room (room.replyTo name payload frames) := by
  rw [replyTo]
  split
  next c hc =>
    have known : (room.authorOf? (.context name)).isSome = true := by simp [authorOf?, hc]
    have passed : room.ForContext name (.pass :: frames) := fair
    split
    · exact sendTo_adds payload passed
    · exact room.takeId_adds.trans
        (relay_adds _ ((fair.adds room.takeId_adds).mayGoOn known (by simp [Call.deliversTo]) rfl))
  next hc =>
    have known : (room.authorOf? (.context name)).isSome = true := by simp [authorOf?, hc]
    exact room.takeId_adds.trans (relay_adds _ ((fair.adds room.takeId_adds).mayGoOn known rfl rfl))
  · exact finish_adds ((fair 0).error _)

/-- A delivery waits for what is sent to its origin. -/
theorem deliver_adds (via : Via) (origin : Origin) (payload : Payload) (plain : frames.all Frame.isPlain = true) :
    Adds room (room.deliver via origin payload (.deliver p origin :: frames)) := by
  cases origin with
  | user user =>
    refine room.takeId_adds.trans (call_adds _ ⟨plain, fun h ok => ?_⟩)
    have answered : Call.answered (.deliver via user room.takeId.1 payload) = .message h := Except.ok.inj ok
    exact sent_of_call (by simp [Call.deliversTo]) answered rfl
  | context name =>
    have fair : room.ForContext name (.deliver p (.context name) :: frames) :=
      fun id => ⟨plain, fun h ok => ⟨rfl, (Answer.message.inj (Except.ok.inj ok)).symm⟩⟩
    cases via with
    | send => exact sendTo_adds payload fair
    | reply => exact replyTo_adds payload fair

theorem send_adds (p : Nat) (via : Via) (origin : Origin) (plain : frames.all Frame.isPlain = true) :
    Adds room (room.send p via origin frames) := by
  have failed : ∀ {r : Room}, Adds room r → ∀ fault, Adds room (r.finish frames (.error fault)) :=
    fun h fault => h.trans (finish_plain plain _)
  rw [send]
  split
  · exact failed (.refl room) _
  split
  · exact failed (.refl room) _
  split
  · exact failed (.refl room) _
  have clamped := room.modifyPaginator_adds p Paginator.clamp
  simp only
  split
  · exact failed clamped _
  · exact clamped.trans (deliver_adds via origin _ plain)

/-! ## Showing anew, and stopping -/

theorem edit_adds (h : Handle) (payload : Payload) (plain : frames.all Frame.isPlain = true) :
    Adds room (room.edit h payload frames) := by
  rw [edit]
  split
  · exact call_plain _ plain
  · exact call_plain _ plain

theorem update_adds (p : Nat) (plain : frames.all Frame.isPlain = true) : Adds room (room.update p frames) := by
  rw [update]
  split
  · exact finish_plain plain _
  split
  · exact finish_plain plain _
  have clamped := room.modifyPaginator_adds p Paginator.clamp
  simp only
  split
  · exact clamped.trans (finish_plain plain _)
  · exact clamped.trans (edit_adds _ _ plain)

theorem unregister_adds (room : Room) (session : String) : Adds room (Room.unregister room session) := by
  rw [Room.unregister]
  split
  · exact .of_eq rfl rfl rfl rfl
  · exact ⟨fun _ h => List.mem_append_left _ h, fun _ => rfl, .inl, .inl⟩

theorem register_adds (room : Room) (session : String) (names : List String) (handler : Handler) :
    Adds room (room.register session names handler) := by
  rw [register]
  split
  · exact .of_eq rfl rfl rfl rfl
  · exact ⟨fun _ h => List.mem_append_left _ h, fun _ => rfl, .inl, .inl⟩

theorem shutDown_adds (p : Nat) (h : Handle) (reason : StopReason) (plain : frames.all Frame.isPlain = true) :
    Adds room (room.shutDown p h reason frames) := by
  rw [shutDown]
  split
  · exact finish_plain plain _
  next pg _ =>
    have stopped := ((room.modifyPaginator_adds p fun pg => { pg with status := .stopped }).trans
      (callOff_adds _ pg.watchdog)).trans (unregister_adds _ pg.session)
    have retired := (stopped.trans (modifyPaginator_adds _ p fun pg => { pg with registered := false })).trans
      (log_adds _ (.stopped pg.session reason))
    simp only
    split
    · exact retired.trans (finish_plain plain _)
    · exact retired.trans (edit_adds h _ plain)

theorem stop_adds (p : Nat) (plain : frames.all Frame.isPlain = true) : Adds room (room.stop p frames) := by
  rw [stop]
  split
  · exact finish_plain plain _
  split
  · exact finish_plain plain _
  split
  · exact finish_plain plain _
  · exact shutDown_adds p _ _ plain

theorem watchOver_adds (room : Room) (p : Nat) (seconds : Rat) : Adds room (room.watchOver p seconds) := by
  have resumes := (Watchdog.fresh (Number.scale (.finite seconds) 1000)).resumes_watch room.agenda room.watchers.length
  rw [watchOver]
  split
  · have started : ∀ watchers, Adds room { room with
        agenda := ((Watchdog.fresh (Number.scale (.finite seconds) 1000)).watch .woken room.watchers.length
          room.agenda).2.1, watchers } := fun watchers => .of_eq rfl rfl resumes rfl
    exact (started _).trans (modifyPaginator_adds _ p _)
  · exact room.modifyPaginator_adds p _

theorem goLive_adds (room : Room) (p : Nat) (origin : Origin) (h : Handle) : Adds room (room.goLive p origin h) := by
  rw [goLive]
  split
  · exact .refl room
  next pg _ =>
    have held := room.modifyPaginator_adds p fun pg =>
      { pg with message := some h, author := room.authorOf? origin, status := .active }
    have started : ∀ {r : Room}, Adds room r → Adds room (((r.callOff pg.watchdog).watchOver p
        pg.config.idleTimeoutSeconds).log (.sent pg.session pg.pages.length pg.config.idleTimeoutSeconds)) :=
      fun h => ((h.trans (callOff_adds _ _)).trans (watchOver_adds _ _ _)).trans (log_adds _ _)
    simp only
    split
    · exact started held
    · exact started ((held.trans (register_adds _ _ _ _)).trans (modifyPaginator_adds _ p _))

theorem wake_adds (room : Room) (w : Nat) (pinged : Bool) : Adds room (room.wake w pinged) := by
  have expired : ∀ {r : Room}, Adds room r → Adds room (r.expire w) := by
    intro r h
    rw [expire]
    split
    · exact h
    split
    · exact h
    split
    · exact h
    split
    · exact (h.trans (log_adds _ _)).trans (shutDown_adds _ _ _ rfl)
    · exact h
  rw [wake]
  split
  · exact .refl room
  next watcher _ =>
    have goneOn : ∀ watchers, Adds room
        { room with agenda := (watcher.watchdog.resume .woken w pinged room.agenda).2.1, watchers } :=
      fun watchers => .of_eq rfl rfl (Watchdog.resumes_resume _ _ _ _) rfl
    simp only
    split
    · exact goneOn _
    · exact goneOn _
    · exact expired (goneOn _)

/-! ## Presses -/

theorem acknowledge_adds (press : Press) (plain : frames.all Frame.isPlain = true) :
    Adds room (room.acknowledge press frames) := by
  rw [acknowledge]
  split
  · exact call_plain _ plain
  · exact call_plain _ plain

theorem notify_adds (press : Press) (text : String) (plain : frames.all Frame.isPlain = true) :
    Adds room (room.notify press text frames) := by
  rw [notify]
  split
  · exact call_plain _ plain
  · exact call_plain _ plain

theorem replace_adds (p : Nat) (press : Press) {failed : List Frame} (plain : failed.all Frame.isPlain = true)
    (plain' : frames.all Frame.isPlain = true) : Adds room (room.replace p press failed frames) := by
  have clamped := room.modifyPaginator_adds p Paginator.clamp
  rw [replace]
  split
  · exact finish_plain plain _
  simp only
  split
  · exact clamped.trans (finish_plain plain _)
  · split
    · exact clamped.trans (call_plain _ plain')
    · exact clamped.trans (call_plain _ plain')

theorem runCallback_adds (p : Nat) (callback : Callback) (press : Press) (plain : frames.all Frame.isPlain = true) :
    Adds room (room.runCallback p callback press frames) := by
  have noted := room.record_adds (.callback press)
  cases callback with
  | give value | fail message => exact noted.trans (finish_plain plain _)
  | failLater message =>
    have later : (Frame.pass :: .pass :: frames).all Frame.isPlain = true := plain
    exact noted.trans (finish_plain later _)
  | defer => exact noted.trans (acknowledge_adds press plain)
  | stop => exact noted.trans (stop_adds p plain)
  | update => exact noted.trans (update_adds p plain)
  | send origin => exact noted.trans (send_adds p .send origin plain)
  | turnTo index => exact (noted.trans (modifyPaginator_adds _ p (·.turnTo index))).trans (replace_adds p press plain plain)

theorem receive_adds (p : Nat) (press : Press) (plain : frames.all Frame.isPlain = true) :
    Adds room (room.receive p press frames) := by
  rw [receive]
  split
  · exact finish_plain plain _
  next pg _ =>
  split
  · have logged := room.log_adds (.stranger pg.session press.user)
    simp only
    split
    · exact logged.trans (acknowledge_adds press plain)
    · exact logged.trans (notify_adds press _ plain)
  split
  · exact acknowledge_adds press plain
  have pinged := room.ping_adds pg.watchdog
  simp only
  split
  · exact pinged.trans (runCallback_adds p _ press plain)
  · generalize Paginator.pressed pg.pages.length pg.index _ press.values = moved
    obtain ⟨index, refused⟩ := moved
    have turned : ∀ {r : Room}, Adds room r →
        Adds room ((r.modifyPaginator p fun pg => { pg with index }).replace p press frames frames) :=
      fun h => (h.trans (modifyPaginator_adds _ p _)).trans (replace_adds p press plain plain)
    cases refused with
    | none => exact turned pinged
    | some value => exact turned (pinged.trans (log_adds _ _))

theorem runHandler_adds (handler : Handler) (press : Press) (plain : frames.all Frame.isPlain = true) :
    Adds room (room.runHandler handler press frames) := by
  cases handler with
  | paginator p => exact receive_adds p press plain
  | silent => exact finish_plain plain _
  | scripted name session reaction =>
    have noted := room.record_adds (.handler name press)
    cases reaction with
    | succeed | fail => exact noted.trans (finish_plain plain _)
    | defer | deferAndFail => exact noted.trans (acknowledge_adds press plain)
    | greet => exact noted.trans (notify_adds press _ plain)
    | unregister =>
      have forgotten : Adds room
          { room.record (.handler name press) with router := room.router.unregister session } :=
        noted.trans (.of_eq rfl rfl rfl rfl)
      exact forgotten.trans (finish_plain plain _)

theorem dispatch_adds (press : Press) (plain : frames.all Frame.isPlain = true) :
    Adds room (room.dispatch press frames) := by
  rw [dispatch]
  split
  · exact runHandler_adds _ press plain
  · split
    · exact acknowledge_adds press plain
    · exact finish_plain plain _

theorem emit_adds (room : Room) (k : Nat) (kind : ComponentKind) (user customId : String) (values : List String)
    (state : Interaction) : Adds room (room.emit k kind user customId values state) := by
  rw [emit]
  split
  · have noted : Adds room { room with interactions := room.interactions.put k state } := .of_eq rfl rfl rfl rfl
    exact noted.trans (dispatch_adds _ rfl)
  · exact .refl room

theorem apologize_adds (press : Press) (fault : Fault) (plain : frames.all Frame.isPlain = true) :
    Adds room (room.apologize press fault frames) := by
  have logged := room.log_adds (.pressFailed press.customId press.user fault)
  rw [apologize]
  split
  · split
    · exact logged.trans (finish_plain plain _)
    · exact logged.trans (call_plain _ plain)
  · exact logged.trans (finish_plain plain _)

/-! ## Moves -/

/-- Frames that may go on do so fairly. -/
theorem resume_adds {frame : Frame} (fair : room.MayGoOn (frame :: frames) outcome) :
    Adds room (room.resume frame frames outcome) := by
  cases frame with
  | pass => exact finish_adds fair
  | caller step paginator => exact .of_eq rfl rfl rfl rfl
  | yield a | fail fault => cases outcome <;> exact finish_plain fair _
  | fetch name id =>
    obtain ⟨known, fair⟩ := fair
    cases outcome with
    | error fault => exact finish_adds (fair.error fault)
    | ok a =>
      refine relay_adds _ (fair.mono (fun _ known => known) ?_)
      rintro origin h ⟨rfl, rfl⟩
      exact sent_of_call (by simp [Call.deliversTo]) rfl known
  | deliver p origin =>
    obtain ⟨plain, -⟩ := fair
    cases outcome with
    | error fault => exact finish_plain plain _
    | ok a =>
      cases a with
      | message m => exact (room.goLive_adds p origin m).trans (finish_plain plain _)
      | nothing | flag b | value v | sent m held => exact finish_plain plain _
  | expire p =>
    cases outcome with
    | ok a => exact finish_plain fair _
    | error fault =>
      rw [resume]
      split
      · exact (room.log_adds _).trans (finish_plain fair _)
      · exact finish_plain fair _
  | guard press =>
    cases outcome with
    | ok a => exact finish_plain fair _
    | error fault => exact apologize_adds press fault fair
  | notice press =>
    cases outcome with
    | ok a => exact finish_plain fair _
    | error fault => exact (room.log_adds _).trans (finish_plain fair _)

theorem popped_adds {t : Task} {rest : List Task} (ready : room.agenda.ready = t :: rest) :
    Adds room (room.popped rest) := by
  refine ⟨fun _ h => h, fun _ => rfl, fun ht => .inl ?_, .inl⟩
  rw [Agenda.resumes, List.mem_filter] at ht ⊢
  exact ⟨ready ▸ List.mem_cons_of_mem t ht.1, ht.2⟩

theorem run_adds (u : room.UnderWay) {t : Task} {rest : List Task} (ready : room.agenda.ready = t :: rest) :
    Adds room (run t (room.popped rest)) := by
  have popped := popped_adds ready
  cases t with
  | woken w pinged => exact popped.trans (wake_adds _ w pinged)
  | resume frames outcome =>
    cases frames with
    | nil => exact popped
    | cons frame frames =>
      have waited : .resume (frame :: frames) outcome ∈ room.agenda.resumes := by
        simp [Agenda.resumes, ready, Task.isWoken]
      exact popped.trans (resume_adds (popped.mayGoOn (u.ready waited)))

theorem fire_adds (room : Room) (limit : Number) : Adds room (room.after (.fire limit)) := by
  rw [after, Timed.fire?]
  split
  · exact .refl room
  next timer rest _ =>
  split
  · have timed : Adds room { room with agenda := { room.agenda with timers := rest }.moveTo timer.due } :=
      .of_eq rfl rfl rfl rfl
    exact timed.trans (modifyWatchdog_adds _ timer.key fun wd a => wd.resumes_lapse a timer.key)
  · exact .refl room

theorem create_adds (room : Room) (source : Source) (overrides : Value) (callback : Option Callback) :
    Adds room (room.create source overrides callback).1 := by
  rw [create]
  simp only
  split
  · exact .of_eq rfl rfl rfl rfl
  · split <;> exact .of_eq rfl rfl rfl rfl

theorem release_adds (u : room.UnderWay) {position : Nat} {failure : Option String}
    (h : room.release position failure = some b) : Adds room b := by
  rw [release, Option.map_eq_some_iff] at h
  obtain ⟨call, hc, rfl⟩ := h
  have erased : Adds room { room with held := room.held.eraseIdx position } :=
    ⟨fun _ h => h, fun _ => rfl, .inl, fun hh => .inl (List.mem_of_mem_eraseIdx hh)⟩
  have fair := erased.mayGoOn (u.held (List.mem_of_getElem? hc))
  split
  · exact erased.trans (finish_adds (fair.error _))
  · exact erased.trans (succeed_adds _ fair)

theorem withPress_adds {draft : PressDraft} {use : String → Room × Returned} (h : ∀ id, Adds room (use id).1) :
    Adds room (room.withPress draft use).1 := by
  rw [withPress]
  split
  · exact h _
  · exact .refl room

theorem withPaginator_adds {use : Paginator → Room × Returned} (h : ∀ pg, Adds room (use pg).1) :
    Adds room (room.withPaginator p use).1 := by
  rw [withPaginator]
  split
  · exact h _
  · exact .refl room

theorem act_adds (u : room.UnderWay) (k : Nat) (a : Act) : Adds room (act k a room).1 := by
  cases a with
  | create source config callback => exact room.create_adds source config callback
  | setIndex p | setCallback p | showPayload p => exact withPaginator_adds fun _ => room.modifyPaginator_adds p _
  | splice p start removed drafts =>
    refine withPaginator_adds fun pg => ?_
    simp only
    split
    · exact .refl room
    · exact room.modifyPaginator_adds p _
  | send p via origin => exact send_adds p via origin rfl
  | stop p => exact stop_adds p rfl
  | update p => exact update_adds p rfl
  | interact p draft => exact withPress_adds fun id => receive_adds p _ rfl
  | dispatch draft => exact withPress_adds fun id => dispatch_adds _ rfl
  | emit kind draft state =>
    rw [act]
    split
    · exact withPress_adds fun id => room.emit_adds k kind draft.user id draft.values state
    · exact .refl room
  | wrap kind draft => exact withPress_adds fun _ => .refl room
  | clientRegister session names => exact room.register_adds session names .silent
  | clientUnregister session => exact room.unregister_adds session
  | register | unregister | setFailure | setHolding => exact .of_eq rfl rfl rfl rfl
  | has | author => exact .refl room
  | release position failure =>
    rw [act]
    split
    next h => exact release_adds u h
    · exact .refl room

/-- Whatever happens, only what is fair comes to be under way. -/
theorem after_adds (u : room.UnderWay) (m : Move) : Adds room (room.after m) := by
  cases m with
  | act k a => exact act_adds u k a
  | fire limit => exact room.fire_adds limit
  | moveTo time => exact .of_eq rfl rfl rfl rfl
  | turn =>
    cases ready : room.agenda.ready with
    | nil =>
      rw [after_turn_nil ready]
      exact .refl room
    | cons t rest =>
      rw [after_turn ready]
      exact run_adds u ready

/-- In every run, all that waits for an outcome is fair. -/
theorem IsOpened.underWay (h : IsOpened room) (moves : List Move) : (room.afterAll moves).UnderWay := by
  refine h.holds (P := UnderWay) (fun ids client environment contexts => ⟨fun ht => ?_, fun hh => ?_⟩)
    (fun _ m u => (after_adds u m).underWay u) moves
  · exact absurd ht List.not_mem_nil
  · exact absurd hh List.not_mem_nil

/-- What is delivered was sent to the origin of the delivery, which has a user. -/
theorem UnderWay.sent (u : room.UnderWay) {origin : Origin} {h : Handle} {rest : List Task}
    (ready : room.agenda.ready = .resume (.deliver p origin :: frames) (.ok (.message h)) :: rest) :
    room.Sent origin h := by
  have waited : .resume (.deliver p origin :: frames) (.ok (.message h)) ∈ room.agenda.resumes := by
    simp [Agenda.resumes, ready, Task.isWoken]
  exact (u.ready waited).2 h rfl

end Room

end Folio
