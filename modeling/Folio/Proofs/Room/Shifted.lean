/-
What changes how things stand. `Shifted s es ds a b` is the general form of `Kept`:
from `a` to `b` things came to stand as `s`, and the messages `es` were edited. A
paginator changes its status in two places only, `goLive` and `shutDown`, and each
of them is one such shift: to `Standing.live` and to `Standing.closed`.
-/
import Folio.Proofs.Room.Kept

namespace Folio.Room

variable {a b c room : Room} {p : Nat} {pg : Paginator} {ds : List (Nat × Origin)} {frames : List Frame}

/-! ## Changes of a message -/

theorem paginators_finish (room : Room) (frames : List Frame) (outcome : Outcome) :
    (room.finish frames outcome).paginators = room.paginators := by
  rw [finish]
  split <;> rfl

theorem paginators_edit (room : Room) (h : Handle) (payload : Payload) (frames : List Frame) :
    (room.edit h payload frames).paginators = room.paginators := by
  rw [edit, call, callWith]
  split
  · exact paginators_finish _ _ _
  · split
    · rfl
    · exact paginators_finish _ _ _

/-- A change of a message is recorded, and nothing else is. -/
theorem edit_kept (room : Room) (h : Handle) (payload : Payload) (frames : List Frame) :
    Kept (deliveries frames) (room.record (.call (.edit h.id payload))) (room.edit h payload frames) := by
  rw [edit, call]
  split
  · exact room.callWith_kept (.edit h.id payload) (.yield .nothing :: frames) _ rfl
  · exact room.callWith_kept (.edit h.id payload) frames _ rfl

/-! ## Going live and being over -/

/-- From `a` to `b` things came to stand as `s` and the messages `es` were edited;
the deliveries that are waited for are old ones or `ds`. -/
structure Shifted (s : Standing) (es : List (Nat × Payload)) (ds : List (Nat × Origin)) (a b : Room) : Prop where
  client : b.client = a.client
  standing : b.standing = s
  edits : b.edits = a.edits ++ es
  pending : ∀ d ∈ b.pending, d ∈ a.pending ∨ d ∈ ds

theorem Kept.shifted (h : Kept ds a b) : Shifted a.standing [] ds a b :=
  ⟨h.client, h.standing, h.edits.trans (List.append_nil _).symm, h.pending⟩

namespace Shifted

variable {s : Standing} {es : List (Nat × Payload)}

theorem trans {s' : Standing} {es' : List (Nat × Payload)} (h : Shifted s es ds a b) (h' : Shifted s' es' ds b c) :
    Shifted s' (es ++ es') ds a c where
  client := h'.client.trans h.client
  standing := h'.standing
  edits := by rw [h'.edits, h.edits, List.append_assoc]
  pending d hd := (h'.pending d hd).elim (h.pending d) .inr

theorem edits_eq (h : Shifted s [] ds a b) : b.edits = a.edits := h.edits.trans (List.append_nil _)

/-- What is kept before a shift makes no difference. -/
theorem after (h : Shifted s es ds b c) (k : Kept [] a b) : Shifted s es ds a c := k.weaken.shifted.trans h

/-- What is kept after a shift makes no difference. -/
theorem kept (h : Shifted s es ds a b) (k : Kept ds b c) : Shifted s es ds a c where
  client := k.client.trans h.client
  standing := k.standing.trans h.standing
  edits := k.edits.trans h.edits
  pending d hd := (k.pending d hd).elim (h.pending d) .inr

theorem weaken (h : Shifted s es [] a b) : Shifted s es ds a b :=
  { h with pending := fun d hd => .inl ((h.pending d hd).resolve_right List.not_mem_nil) }

/-- Deliveries that were waited for before are no new ones. -/
theorem absorb (h : Shifted s es ds a b) (old : ∀ d ∈ ds, d ∈ a.pending) : Shifted s es [] a b :=
  { h with pending := fun d hd => .inl ((h.pending d hd).elim id (old d)) }

theorem edit (h : Shifted s [] ds a b) (id : Nat) (payload : Payload) :
    Shifted s [(id, payload)] ds a (b.record (.call (.edit id payload))) :=
  { h with edits := by rw [edits_record, h.edits, List.append_nil]; rfl }

theorem log (h : Shifted s es ds a b) (line : LogLine) : Shifted s es ds a (b.log line) :=
  h.kept (b.log_kept line).weaken

theorem modify (h : Shifted s es ds a b) (p : Nat) {f g : Paginator → Paginator}
    (hf : ∀ pg, b.paginator? p = some pg → (f pg).bare = g pg.bare) :
    Shifted (s.modify p g) es ds a (b.modifyPaginator p f) := by
  refine ⟨h.client, ?_, h.edits, h.pending⟩
  rw [b.standing_modifyPaginator p hf, h.standing]

theorem callOff (h : Shifted s es ds a b) (w : Option Nat) : Shifted (s.dozed w) es ds a (b.callOff w) := by
  cases w with
  | none => exact h
  | some w =>
    have hs := b.standing_modifyWatchdog w (Watchdog.stop .woken) (fun _ => false) fun wd a => (wd.stop_spec a).1
    have hp := b.pending_modifyWatchdog w (Watchdog.stop .woken) fun wd a => (wd.stop_spec a).2
    rw [h.standing] at hs
    have same : (b.callOff (some w)).client = b.client ∧ (b.callOff (some w)).edits = b.edits := by
      rw [Room.callOff, modifyWatchdog]
      split <;> exact ⟨rfl, rfl⟩
    exact ⟨same.1.trans h.client, hs, same.2.trans h.edits, fun d hd => h.pending d (hp ▸ hd)⟩

theorem rerouted (h : Shifted s es ds a b) (r : Router Handler) :
    Shifted { s with router := r } es ds a { b with router := r } := by
  obtain ⟨client, rfl, edits, pending⟩ := h
  exact ⟨client, rfl, edits, pending⟩

theorem unregister (h : Shifted s es ds a b) (session : String) :
    Shifted { s with router := s.router.unregister session } es ds a (Room.unregister b session) := by
  have rerouted := h.rerouted (b.router.unregister session)
  rw [← h.standing] at rerouted ⊢
  rw [Room.unregister]
  split
  · exact rerouted
  · exact rerouted.kept (record_kept _ rfl).weaken

theorem register (h : Shifted s es ds a b) (session : String) (names : List String) (handler : Handler) :
    Shifted { s with router := s.router.register session names handler } es ds a
      (b.register session names handler) := by
  have rerouted := h.rerouted (b.router.register session names handler)
  rw [← h.standing] at rerouted ⊢
  rw [Room.register]
  split
  · exact rerouted
  · exact rerouted.kept (record_kept _ rfl).weaken

end Shifted

theorem paginator?_callOff (room : Room) (w : Option Nat) (q : Nat) :
    (room.callOff w).paginator? q = room.paginator? q := by
  cases w with
  | none => rfl
  | some w => rw [callOff, paginator?, paginators_modifyWatchdog, paginator?]

theorem paginator?_unregister (room : Room) (session : String) (q : Nat) :
    (Room.unregister room session).paginator? q = room.paginator? q := by
  rw [Room.unregister]
  split <;> rfl

/-- The room once a paginator is over, with its message as it was. -/
def retire (room : Room) (p : Nat) (pg : Paginator) (reason : StopReason) : Room :=
  ((((room.modifyPaginator p fun pg => { pg with status := .stopped }).callOff pg.watchdog).unregister
    pg.session).modifyPaginator p fun pg => { pg with registered := false }).log (.stopped pg.session reason)

theorem shutDown_eq {h : Handle} {reason : StopReason} (hp : room.paginator? p = some pg) :
    room.shutDown p h reason frames = match pg.offControls with
      | .error fault => (room.retire p pg reason).finish frames (.error fault)
      | .ok payload => (room.retire p pg reason).edit h payload (.yield .nothing :: frames) := by
  rw [shutDown, hp]
  rfl

theorem paginator?_retire (hp : room.paginator? p = some pg) (reason : StopReason) :
    (room.retire p pg reason).paginator? p = some (Standing.ended pg) := by
  have stopped := room.paginator?_modifyPaginator p p fun pg => { pg with status := .stopped }
  have forgotten := paginator?_modifyPaginator (Room.unregister
    ((room.modifyPaginator p fun pg => { pg with status := .stopped }).callOff pg.watchdog) pg.session) p p
    fun pg => { pg with registered := false }
  rw [if_pos rfl, hp, Option.map_some] at stopped
  rw [if_pos rfl, paginator?_unregister, paginator?_callOff, stopped] at forgotten
  exact forgotten

theorem retire_shifted (room : Room) (p : Nat) (pg : Paginator) (reason : StopReason) :
    Shifted (room.standing.closed p pg) [] [] room (room.retire p pg reason) := by
  have stopped : Shifted (room.standing.modify p fun pg => { pg with status := .stopped }) [] [] room
      (room.modifyPaginator p fun pg => { pg with status := .stopped }) :=
    (Kept.refl room).shifted.modify p fun _ _ => rfl
  have forgotten := (stopped.callOff pg.watchdog).unregister pg.session
  rw [Standing.dozed_router, Standing.dozed_modify] at forgotten
  have closed : room.standing.closed p pg = { ((room.standing.dozed pg.watchdog).modify p fun pg =>
      { pg with status := .stopped }).modify p (fun pg => { pg with registered := false }) with
      router := room.standing.router.unregister pg.session } := by
    rw [Standing.modify_modify]
    rfl
  rw [closed]
  exact (forgotten.modify p (f := fun pg => { pg with registered := false })
    (g := fun pg => { pg with registered := false }) fun _ _ => rfl).log (.stopped pg.session reason)

theorem Shifted.watchOver {s : Standing} {es : List (Nat × Payload)} (h : Shifted s es ds a b) (p : Nat)
    (seconds : Rat) : Shifted (s.watched p seconds) es ds a (b.watchOver p seconds) := by
  rw [Room.watchOver, Standing.watched]
  by_cases hs : 0 < seconds
  · obtain ⟨client, rfl, edits, pending⟩ := h
    obtain ⟨running, waits, -⟩ := (Watchdog.fresh (Number.scale (.finite seconds) 1000)).watch_spec b.agenda
      b.watchers.length
    simp only [if_pos hs]
    generalize (Watchdog.fresh (Number.scale (.finite seconds) 1000)).watch .woken b.watchers.length b.agenda =
      started at running waits ⊢
    have grown : Shifted { b.standing with guards := b.standing.guards ++ [(p, true)] } es ds a
        { b with agenda := started.2.1, watchers := b.watchers ++ [⟨p, started.1⟩] } := by
      refine ⟨client, ?_, edits, ?_⟩
      · rw [Room.standing, Room.standing, Standing.mk.injEq, List.map_append, List.map_singleton, running]
        exact ⟨rfl, rfl, rfl, rfl, rfl⟩
      · rw [Room.pending] at pending ⊢
        rw [waits]
        exact pending
    have length : b.standing.guards.length = b.watchers.length := List.length_map _
    rw [length]
    exact grown.modify p fun _ _ => rfl
  · simp only [if_neg hs, List.append_nil]
    exact h.modify p fun _ _ => rfl

/-- A paginator that goes live. -/
theorem goLive_shifted (hp : room.paginator? p = some pg) (origin : Origin) (h : Handle) :
    Shifted (room.standing.live p pg (room.authorOf? origin) h) [] [] room (room.goLive p origin h) := by
  rw [goLive, hp, Standing.live, ← Standing.watched_with_router, ← Standing.dozed_modify,
    ← Standing.dozed_with_router]
  refine (Shifted.callOff ?_ pg.watchdog |>.watchOver p pg.config.idleTimeoutSeconds).log _
  by_cases hr : pg.registered = true
  · simp only [if_pos hr]
    refine (Kept.refl room).shifted.modify p fun pg' hp' => ?_
    obtain rfl : pg = pg' := Option.some.inj (hp.symm.trans hp')
    simp [Standing.alive, Paginator.bare, hr]
  · simp only [if_neg hr]
    have delivered : Shifted (room.standing.modify p fun pg =>
          { pg with message := some h, author := room.authorOf? origin, status := .active }) [] [] room
        (room.modifyPaginator p fun pg =>
          { pg with message := some h, author := room.authorOf? origin, status := .active }) :=
      (Kept.refl room).shifted.modify p fun _ _ => rfl
    have known := (delivered.register pg.session (Role.all.map Role.name) (.paginator p)).modify p
      (f := fun pg => { pg with registered := true }) (g := fun pg => { pg with registered := true }) fun _ _ => rfl
    have alive : room.standing.modify p (Standing.alive (room.authorOf? origin) h) = (room.standing.modify p fun pg =>
        { pg with message := some h, author := room.authorOf? origin, status := .active }).modify p
          fun pg => { pg with registered := true } := by
      rw [Standing.modify_modify]
      rfl
    rw [alive]
    exact known

/-- The change of its message that a paginator asks for when it is over: none if
its controls cannot be rendered. -/
def offEdit (pg : Paginator) (h : Handle) : List (Nat × Payload) :=
  match pg.offControls with
  | .ok payload => [(h.id, payload)]
  | .error _ => []

theorem shutDown_shifted {h : Handle} (hp : room.paginator? p = some pg) (reason : StopReason) (frames : List Frame) :
    (room.shutDown p h reason frames).paginator? p = some (Standing.ended pg) ∧
      Shifted (room.standing.closed p pg) (offEdit pg h) (deliveries frames) room
        (room.shutDown p h reason frames) := by
  have retired := room.retire_shifted p pg reason
  have ended := paginator?_retire hp reason
  rw [shutDown_eq hp, offEdit]
  split
  next hoff =>
    simp only [hoff]
    refine ⟨?_, retired.weaken.kept (finish_kept _ frames _)⟩
    rw [paginator?, paginators_finish]
    exact ended
  next payload hoff =>
    simp only [hoff]
    refine ⟨?_, (retired.edit h.id payload).weaken.kept (edit_kept _ h payload (.yield .nothing :: frames))⟩
    rw [paginator?, paginators_edit]
    exact ended

end Folio.Room
