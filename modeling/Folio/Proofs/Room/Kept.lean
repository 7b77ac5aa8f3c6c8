/-
What an operation of a room keeps. `Kept ds a b` says that on the way from `a` to
`b` nothing changed in how things stand (the status, message, author, watchdog and
registration of each paginator, the router, which watchdogs run), that no message
was edited, and that only the deliveries `ds` came to be waited for. Nearly all
that a room does is of this kind; the few operations that are not are in `Effect`.
-/
import Folio.Proofs.Room.Run
import Folio.Proofs.Room.Standing

namespace Folio

/-- The delivery that a frame waits for: of which paginator, to which origin. -/
@[simp] def Frame.delivery? : Frame → Option (Nat × Origin)
  | .deliver p origin => some (p, origin)
  | _ => none

/-- The deliveries that frames wait for. -/
def deliveries (frames : List Frame) : List (Nat × Origin) := frames.filterMap Frame.delivery?

@[simp] theorem deliveries_nil : deliveries [] = [] := rfl

@[simp] theorem deliveries_cons (f : Frame) (frames : List Frame) :
    deliveries (f :: frames) = f.delivery?.toList ++ deliveries frames := by
  rw [deliveries, List.filterMap_cons]
  cases f.delivery? <;> rfl

/-- The deliveries that a task waits for. -/
def Task.deliveries : Task → List (Nat × Origin)
  | .woken .. => []
  | .resume frames _ => Folio.deliveries frames

/-- The deliveries that what is ready waits for. -/
def Agenda.deliveries (a : Agenda Nat Task) : List (Nat × Origin) := a.ready.flatMap Task.deliveries

/-- The change of a message that an event is, by the id of the message. -/
@[simp] def Event.edit? : Event → Option (Nat × Payload)
  | .call (.edit id payload) => some (id, payload)
  | _ => none

namespace Room

variable {a b c room : Room} {ds ds' : List (Nat × Origin)}

/-- How things stand in a room. -/
def standing (room : Room) : Standing where
  ids := room.ids
  sessions := room.sessions
  lives := room.paginators.map (Option.map Paginator.bare)
  router := room.router
  guards := room.watchers.map fun w => (w.owner, w.watchdog.running)

/-- The deliveries that are waited for. -/
def pending (room : Room) : List (Nat × Origin) :=
  room.held.flatMap (fun h => deliveries h.frames) ++ room.agenda.deliveries

/-- The changes of messages that were asked for, the oldest first. -/
def edits (room : Room) : List (Nat × Payload) := room.journal.filterMap Event.edit?

theorem life?_standing (room : Room) (p : Nat) : room.standing.life? p = (room.paginator? p).map Paginator.bare := by
  rw [Standing.life?, standing, List.getElem?_map, paginator?]
  cases room.paginators[p]? <;> rfl

theorem life?_of_paginator? {p : Nat} {pg : Paginator} (h : room.paginator? p = some pg) :
    room.standing.life? p = some pg.bare := by
  rw [life?_standing, h, Option.map_some]

theorem exists_of_life? {p : Nat} {pg : Paginator} (h : room.standing.life? p = some pg) :
    ∃ pg', room.paginator? p = some pg' ∧ pg'.bare = pg := by
  rw [life?_standing] at h
  exact Option.map_eq_some_iff.1 h

/-- From `a` to `b` nothing changed in how things stand, and no message was
edited; the deliveries that are waited for are old ones or `ds`. -/
structure Kept (ds : List (Nat × Origin)) (a b : Room) : Prop where
  client : b.client = a.client
  standing : b.standing = a.standing
  edits : b.edits = a.edits
  pending : ∀ d ∈ b.pending, d ∈ a.pending ∨ d ∈ ds

namespace Kept

theorem refl (room : Room) : Kept ds room room := ⟨rfl, rfl, rfl, fun _ h => .inl h⟩

theorem trans (h : Kept ds a b) (h' : Kept ds b c) : Kept ds a c where
  client := h'.client.trans h.client
  standing := h'.standing.trans h.standing
  edits := h'.edits.trans h.edits
  pending d hd := (h'.pending d hd).elim (h.pending d) .inr

theorem mono (h : Kept ds a b) (sub : ds ⊆ ds') : Kept ds' a b :=
  { h with pending := fun d hd => (h.pending d hd).imp_right (@sub d) }

theorem weaken (h : Kept [] a b) : Kept ds a b := h.mono (List.nil_subset ds)

theorem andThen (h : Kept [] a b) (h' : Kept ds b c) : Kept ds a c := h.weaken.trans h'

/-- Deliveries that were waited for before are no new ones. -/
theorem absorb (h : Kept ds a b) (old : ∀ d ∈ ds, d ∈ a.pending) : Kept [] a b :=
  { h with pending := fun d hd => .inl ((h.pending d hd).elim id (old d)) }

end Kept

end Room

/-! ## Watchdogs

They make ready only tasks that wait for no delivery. -/

namespace Agenda

@[simp] theorem deliveries_start (a : Agenda Nat Task) (key : Nat) (ms : Number) :
    (a.start key ms).deliveries = a.deliveries := rfl

@[simp] theorem deliveries_enqueue (a : Agenda Nat Task) (t : Task) :
    (a.enqueue t).deliveries = a.deliveries ++ t.deliveries := by
  simp [deliveries, enqueue]

end Agenda

namespace Signal

theorem deliveries_set (s : Signal Nat) (a : Agenda Nat Task) : (s.set .woken a).2.deliveries = a.deliveries := by
  have woken : (s.sleepers.map (Task.woken · true)).flatMap Task.deliveries = [] := by simp [Task.deliveries]
  rw [set_eq, Agenda.deliveries, List.flatMap_append, woken, List.append_nil, Agenda.deliveries]

theorem deliveries_wait (key : Nat) (ms : Number) (s : Signal Nat) (a : Agenda Nat Task) :
    (s.wait .woken key ms a).2.deliveries = a.deliveries := by
  rw [wait]
  split <;> simp [Task.deliveries]

theorem deliveries_lapse (key : Nat) (s : Signal Nat) (a : Agenda Nat Task) :
    (s.lapse .woken key a).2.deliveries = a.deliveries := by
  simp [lapse, Task.deliveries]

end Signal

namespace Watchdog

variable (w : Watchdog Nat) (a : Agenda Nat Task)

theorem ping_spec : (w.ping .woken a).1.running = w.running ∧ (w.ping .woken a).2.deliveries = a.deliveries := by
  rw [ping]
  split
  · exact ⟨rfl, w.signal.deliveries_set a⟩
  · exact ⟨rfl, rfl⟩

theorem stop_spec : (w.stop .woken a).1.running = false ∧ (w.stop .woken a).2.deliveries = a.deliveries := by
  rw [stop]
  split
  · exact ⟨rfl, w.signal.deliveries_set a⟩
  · next h => exact ⟨by simpa using h, rfl⟩

theorem lapse_spec (key : Nat) :
    (w.lapse .woken key a).1.running = w.running ∧ (w.lapse .woken key a).2.deliveries = a.deliveries :=
  ⟨rfl, w.signal.deliveries_lapse key a⟩

theorem watch_spec (key : Nat) :
    (w.watch .woken key a).1.running = w.running ∧ (w.watch .woken key a).2.1.deliveries = a.deliveries ∧
      (w.watch .woken key a).2.2 ≠ .idle := by
  rw [watch]
  split
  · exact ⟨rfl, w.signal.deliveries_wait key w.interval a, by simp⟩
  · exact ⟨rfl, rfl, by simp⟩

/-- A watchdog that goes on after a wait stops, with its owner idle, exactly if it
was running and the wait ran out. -/
theorem resume_spec (key : Nat) (pinged : Bool) :
    ((w.resume .woken key pinged a).2.2 = .idle ↔ pinged = false ∧ w.running = true) ∧
      (w.resume .woken key pinged a).1.running = (w.running && pinged) ∧
      (w.resume .woken key pinged a).2.1.deliveries = a.deliveries := by
  rw [resume]
  cases pinged with
  | true =>
    obtain ⟨running, waits, idle⟩ := watch_spec { w with signal := w.signal.clear } a key
    refine ⟨?_, ?_, waits⟩
    · simpa using idle
    · simpa using running
  | false => cases h : w.running <;> simp [h]

end Watchdog

/-! ## What keeps the standing of things -/

namespace Room

variable {room : Room} {p : Nat} {ds : List (Nat × Origin)}

theorem aside_kept (room : Room) (contexts : Table String Context) (interactions : Table Nat Interaction)
    (holding : Bool) (failures : Table String String) (handles : Nat) (settled : List (Nat × Outcome)) :
    Kept [] room { room with contexts, interactions, holding, failures, handles, settled } :=
  ⟨rfl, rfl, rfl, fun _ h => .inl h⟩

theorem edits_record (room : Room) (e : Event) : (room.record e).edits = room.edits ++ e.edit?.toList := by
  have single : [e].filterMap Event.edit? = e.edit?.toList := by
    rw [List.filterMap_cons]
    cases e.edit? <;> rfl
  rw [edits, edits, record, List.filterMap_append, single]

theorem record_kept (room : Room) {e : Event} (h : e.edit? = none) : Kept [] room (room.record e) where
  client := rfl
  standing := rfl
  edits := by rw [edits_record, h, Option.toList_none, List.append_nil]
  pending _ h := .inl h

theorem log_kept (room : Room) (line : LogLine) : Kept [] room (room.log line) := room.record_kept rfl

theorem finish_kept (room : Room) (frames : List Frame) (outcome : Outcome) :
    Kept (deliveries frames) room (room.finish frames outcome) := by
  rw [finish]
  split
  · exact .refl room
  · refine ⟨rfl, rfl, rfl, fun d hd => ?_⟩
    simp only [pending, Agenda.deliveries_enqueue, List.mem_append] at hd ⊢
    rcases hd with hd | hd | hd
    · exact .inl (.inl hd)
    · exact .inl (.inr hd)
    · exact .inr hd

theorem modifyCommand_kept (room : Room) (name : String) (f : Command → Command) :
    Kept [] room (room.modifyCommand name f) := by
  rw [modifyCommand]
  split
  · exact room.aside_kept _ _ _ _ _ _
  · exact .refl room

theorem modifyInteraction_kept (room : Room) (i : Option Nat) (f : Interaction → Interaction) :
    Kept [] room (room.modifyInteraction i f) := by
  cases i with
  | none => exact .refl room
  | some i =>
    simp only [modifyInteraction]
    split
    · exact room.aside_kept _ _ _ _ _ _
    · exact .refl room

theorem succeed_kept (room : Room) (call : Call) (frames : List Frame) :
    Kept (deliveries frames) room (room.succeed call frames) := by
  cases call with
  | answer name _ _ | editAnswer name _ _ | followUp name _ _ =>
    exact (room.modifyCommand_kept name _).andThen (finish_kept _ frames _)
  | acknowledge i | notify i _ | replace i _ =>
    exact (room.modifyInteraction_kept i _).andThen (finish_kept _ frames _)
  | deliver _ _ _ _ | edit _ _ | post _ _ | replyTo _ _ | fetchAnswer _ _ => exact finish_kept room frames _

/-- A call is recorded, and nothing else is. -/
theorem callWith_kept (room : Room) (call : Call) (atOnce later : List Frame)
    (same : deliveries later = deliveries atOnce) :
    Kept (deliveries atOnce) (room.record (.call call)) (room.callWith call atOnce later) := by
  rw [callWith]
  split
  · exact finish_kept _ atOnce _
  · split
    · refine ⟨rfl, rfl, rfl, fun d hd => ?_⟩
      simp only [pending, List.flatMap_append, List.flatMap_singleton, same, List.mem_append] at hd ⊢
      rcases hd with (hd | hd) | hd
      · exact .inl (.inl hd)
      · exact .inr hd
      · exact .inl (.inr hd)
    · exact succeed_kept _ call atOnce

theorem call_kept (room : Room) (call : Call) (frames : List Frame) (h : (Event.call call).edit? = none) :
    Kept (deliveries frames) room (room.call call frames) :=
  (room.record_kept h).andThen (room.callWith_kept call frames (.pass :: frames) rfl)

theorem relay_kept (room : Room) (call : Call) (frames : List Frame) (h : (Event.call call).edit? = none) :
    Kept (deliveries frames) room (room.relay call frames) :=
  (room.record_kept h).andThen (room.callWith_kept call (.pass :: .pass :: frames) _ rfl)

theorem takeId_kept (room : Room) : Kept [] room room.takeId.2 := room.aside_kept _ _ _ _ _ _

/-! ### Paginators -/

theorem paginator?_modifyPaginator (room : Room) (p q : Nat) (f : Paginator → Paginator) :
    (room.modifyPaginator p f).paginator? q =
      if q = p then (room.paginator? q).map f else room.paginator? q := by
  simp only [paginator?, modifyPaginator, List.getElem?_modify]
  by_cases h : q = p
  · subst h
    cases room.paginators[q]? <;> simp
  · have hp : p ≠ q := fun e => h e.symm
    cases room.paginators[q]? <;> simp [h, hp]

theorem standing_modifyPaginator (room : Room) (p : Nat) {f g : Paginator → Paginator}
    (h : ∀ pg, room.paginator? p = some pg → (f pg).bare = g pg.bare) :
    (room.modifyPaginator p f).standing =
      room.standing.modify p g := by
  rw [standing, standing, Standing.modify, Standing.mk.injEq]
  refine ⟨rfl, rfl, List.ext_getElem? fun q => ?_, rfl, rfl⟩
  simp only [modifyPaginator, List.getElem?_modify, List.getElem?_map]
  by_cases hq : p = q
  · subst hq
    cases hp : room.paginators[p]? with
    | none => rfl
    | some o =>
      cases o with
      | none => simp
      | some pg => simp [h pg (by rw [paginator?, hp]; rfl)]
  · simp [hq]

/-- Turning the pages of a paginator, or changing them, leaves all as it stands. -/
theorem modifyPaginator_kept (room : Room) (p : Nat) {f : Paginator → Paginator}
    (h : ∀ pg, room.paginator? p = some pg → (f pg).bare = pg.bare) : Kept [] room (room.modifyPaginator p f) := by
  refine ⟨rfl, ?_, rfl, fun _ h => .inl h⟩
  rw [room.standing_modifyPaginator p (g := id) h, Standing.modify, Option.map_id, List.modify_id]

theorem clamp_kept (room : Room) (p : Nat) : Kept [] room (room.modifyPaginator p Paginator.clamp) :=
  room.modifyPaginator_kept p fun _ _ => rfl

/-! ### Watchdogs -/

theorem standing_modifyWatchdog (room : Room) (w : Nat)
    (f : Watchdog Nat → Agenda Nat Task → Watchdog Nat × Agenda Nat Task) (g : Bool → Bool)
    (h : ∀ wd a, (f wd a).1.running = g wd.running) :
    (room.modifyWatchdog w f).standing =
      { room.standing with guards := room.standing.guards.modify w fun e => (e.1, g e.2) } := by
  have guards : (room.modifyWatchdog w f).standing.guards = room.standing.guards.modify w fun e => (e.1, g e.2) := by
    apply List.ext_getElem?
    intro v
    rw [modifyWatchdog]
    split
    · next watcher hw =>
      simp only [standing, List.getElem?_modify, List.getElem?_map, List.getElem?_set]
      by_cases hv : w = v
      · subst hv
        obtain ⟨hlt, rfl⟩ := List.getElem?_eq_some_iff.1 hw
        simp [hlt, h]
      · simp [hv]
    · next hw =>
      simp only [standing, List.getElem?_modify, List.getElem?_map]
      by_cases hv : w = v
      · subst hv
        simp [hw]
      · simp [hv]
  rw [← guards, modifyWatchdog]
  split <;> rfl

theorem pending_modifyWatchdog (room : Room) (w : Nat)
    (f : Watchdog Nat → Agenda Nat Task → Watchdog Nat × Agenda Nat Task)
    (h : ∀ wd a, (f wd a).2.deliveries = a.deliveries) : (room.modifyWatchdog w f).pending = room.pending := by
  rw [modifyWatchdog]
  split
  · simp only [pending, h]
  · rfl

theorem modifyWatchdog_kept (room : Room) (w : Nat)
    (f : Watchdog Nat → Agenda Nat Task → Watchdog Nat × Agenda Nat Task)
    (h : ∀ wd a, (f wd a).1.running = wd.running ∧ (f wd a).2.deliveries = a.deliveries) :
    Kept [] room (room.modifyWatchdog w f) := by
  have hs := room.standing_modifyWatchdog w f id fun wd a => (h wd a).1
  have hp := room.pending_modifyWatchdog w f fun wd a => (h wd a).2
  have hid : (fun e : Nat × Bool => (e.1, id e.2)) = id := rfl
  rw [hid, List.modify_id] at hs
  refine ⟨?_, hs, ?_, fun d hd => .inl (hp ▸ hd)⟩
  all_goals
    rw [modifyWatchdog]
    split <;> rfl

theorem paginators_modifyWatchdog (room : Room) (w : Nat)
    (f : Watchdog Nat → Agenda Nat Task → Watchdog Nat × Agenda Nat Task) :
    (room.modifyWatchdog w f).paginators = room.paginators := by
  rw [modifyWatchdog]
  split <;> rfl

theorem paginators_ping (room : Room) (w : Option Nat) : (room.ping w).paginators = room.paginators := by
  cases w with
  | none => rfl
  | some w => exact room.paginators_modifyWatchdog w _

theorem ping_kept (room : Room) (w : Option Nat) : Kept [] room (room.ping w) := by
  cases w with
  | none => exact .refl room
  | some w => exact room.modifyWatchdog_kept w _ fun wd a => wd.ping_spec a

end Room

end Folio
