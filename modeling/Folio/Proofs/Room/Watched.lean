/-
What a room that is reached can rely on when a paginator ends. One that was ever
live has a message, and the watchdog of a live one is its own and is running
(`Standing.Watched`); and its buttons can be rendered, since it was sent with them
(`Room.Drawn`).
-/
import Folio.Proofs.Rendering
import Folio.Proofs.Room.Step

namespace Folio

namespace Standing

variable {s : Standing} {p : Nat} {pg : Paginator}

/-- Who was sent has a message, and who is live is watched by a watchdog of its
own, if by any. -/
structure Watched (s : Standing) : Prop where
  held : ∀ {p pg}, s.life? p = some pg → (pg.message.isSome = true ↔ pg.status ≠ .unsent)
  guarded : ∀ {p pg w}, s.life? p = some pg → pg.watchdog = some w →
    ∃ running, s.guards[w]? = some (p, running) ∧ (pg.status = .active → running = true)

theorem getElem?_dozed {w v : Nat} (s : Standing) (h : w ≠ v) : (s.dozed (some w)).guards[v]? = s.guards[v]? := by
  simp [dozed, h]

theorem getElem?_dozed_self {w : Nat} {running : Bool} (h : s.guards[w]? = some (p, running)) :
    (s.dozed (some w)).guards[w]? = some (p, false) := by
  simp [dozed, h]

namespace Watched

/-- The watchdog of one paginator is not that of another. -/
theorem guarded_dozed (h : s.Watched) (life : s.life? p = some pg) {q w : Nat} {pg' : Paginator} (hq : q ≠ p)
    (life' : s.life? q = some pg') (hw : pg'.watchdog = some w) :
    ∃ running, (s.dozed pg.watchdog).guards[w]? = some (q, running) ∧ (pg'.status = .active → running = true) := by
  obtain ⟨running, hg, runs⟩ := h.guarded life' hw
  refine ⟨running, ?_, runs⟩
  cases hv : pg.watchdog with
  | none => exact hg
  | some v =>
    have other : v ≠ w := by
      rintro rfl
      obtain ⟨running', hg', -⟩ := h.guarded life hv
      rw [hg, Option.some.injEq, Prod.mk.injEq] at hg'
      exact hq hg'.1
    rw [s.getElem?_dozed other, hg]

theorem born (h : s.Watched) {n : Nat} {o : Option Paginator} (new : s.Newborn n o) : (s.born n o).Watched := by
  refine ⟨fun life => ?_, fun life hw => ?_⟩
  · rw [life?_born] at life
    split at life
    · obtain ⟨-, config, rfl⟩ := new _ life
      simp [Paginator.create]
    · exact h.held life
  · rw [life?_born] at life
    split at life
    · obtain ⟨-, config, rfl⟩ := new _ life
      cases hw
    · exact h.guarded life hw

theorem closed (h : s.Watched) (life : s.life? p = some pg) (sent : pg.message.isSome = true) :
    (s.closed p pg).Watched := by
  refine ⟨fun life' => ?_, fun life' hw => ?_⟩
  · rw [life?_closed life] at life'
    split at life'
    · obtain rfl := Option.some.inj life'
      simp [ended, sent]
    · exact h.held life'
  · rw [life?_closed life] at life'
    split at life'
    next hq =>
      subst hq
      obtain rfl := Option.some.inj life'
      have own : pg.watchdog = some _ := hw
      obtain ⟨running, hg, -⟩ := h.guarded life own
      refine ⟨false, ?_, by simp [ended]⟩
      rw [Standing.closed, own]
      exact getElem?_dozed_self hg
    next hq => exact h.guarded_dozed life hq life' hw

theorem live (h : s.Watched) (life : s.life? p = some pg) (author : Option String) (handle : Handle) :
    (s.live p pg author handle).Watched := by
  have grown : (s.live p pg author handle).guards =
      (s.dozed pg.watchdog).guards ++ if 0 < pg.config.idleTimeoutSeconds then [(p, true)] else [] := rfl
  refine ⟨fun life' => ?_, fun life' hw => ?_⟩
  · rw [life?_live life] at life'
    split at life'
    · obtain rfl := Option.some.inj life'
      simp [begun, alive]
    · exact h.held life'
  · rw [life?_live life] at life'
    rw [grown]
    split at life'
    next hq =>
      subst hq
      obtain rfl := Option.some.inj life'
      simp only [begun] at hw
      split at hw
      next hs =>
        obtain rfl := Option.some.inj hw
        refine ⟨true, ?_, fun _ => rfl⟩
        rw [if_pos hs, List.getElem?_append_right (by simp), dozed_length]
        simp
      · cases hw
    next hq =>
      obtain ⟨running, hg, runs⟩ := h.guarded_dozed life hq life' hw
      refine ⟨running, ?_, runs⟩
      rw [List.getElem?_append_left (List.getElem?_eq_some_iff.1 hg).1, hg]

/-- A watchdog that spares its owner is not the one of a live paginator. -/
theorem dozed (h : s.Watched) {w : Nat} (spared : Room.Spared s w) : (s.dozed (some w)).Watched := by
  refine ⟨fun life => ?_, fun {p pg v} life hv => ?_⟩
  · rw [life?_dozed] at life
    exact h.held life
  · rw [life?_dozed] at life
    obtain ⟨running, hg, runs⟩ := h.guarded life hv
    by_cases hw : w = v
    · subst hw
      refine ⟨false, getElem?_dozed_self hg, fun active => ?_⟩
      have sent : pg.message.isSome = true := (h.held life).2 (by simp [active])
      exact absurd ⟨hv, active⟩ (spared p running pg hg life sent)
    · exact ⟨running, (s.getElem?_dozed hw).trans hg, runs⟩

end Watched

end Standing

namespace Room

variable {room : Room} {p : Nat} {pg : Paginator}

theorem opened_watched (ids : SessionIds) (client : Client) (environment : Environment)
    (contexts : Table String Context) : (openedWith ids client environment contexts).standing.Watched := by
  refine ⟨fun life => ?_, fun life => ?_⟩
  · cases life
  · cases life

theorem after_watched (room : Room) (m : Move) (h : room.standing.Watched) : (room.after m).standing.Watched := by
  cases room.step_after m with
  | same same => exact same ▸ h
  | born _ new born => exact born ▸ h.born new
  | live _ life live => exact live ▸ h.live life _ _
  | closed life sent closed => exact closed ▸ h.closed life sent
  | dozed spared dozed => exact dozed ▸ h.dozed spared
  | rerouted _ rerouted =>
    obtain ⟨held, guarded⟩ := h
    exact rerouted ▸ ⟨held, guarded⟩

theorem Reached.watched (h : Reached room) : room.standing.Watched :=
  h.holds opened_watched fun room m _ => room.after_watched m

/-- Who was sent, or is on the way, has buttons that can be rendered. -/
structure Drawn (room : Room) : Prop where
  sent : ∀ {p pg}, room.standing.life? p = some pg → pg.status ≠ .unsent → Layout.HasButtons pg.session pg.config
  waiting : ∀ {d : Nat × Origin}, d ∈ room.pending →
    ∃ pg, room.standing.life? d.1 = some pg ∧ Layout.HasButtons pg.session pg.config

theorem opened_drawn (ids : SessionIds) (client : Client) (environment : Environment)
    (contexts : Table String Context) : (openedWith ids client environment contexts).Drawn := by
  refine ⟨fun life => ?_, fun hd => ?_⟩
  · cases life
  · exact absurd hd List.not_mem_nil

theorem after_drawn (m : Move) (watched : room.standing.Watched) (h : room.Drawn) : (room.after m).Drawn := by
  refine ⟨fun {p pg} life sent => ?_, fun {d} hd => ?_⟩
  · cases room.fate m p with
    | same same => exact h.sent (same.symm.trans life) sent
    | born new born =>
      obtain rfl := Option.some.inj (life.symm.trans born)
      exact absurd rfl sent
    | closed was held closed =>
      obtain rfl := Option.some.inj (life.symm.trans closed)
      have buttons := h.sent was ((watched.held was).1 held)
      exact buttons
    | live was completed live =>
      obtain rfl := Option.some.inj (life.symm.trans live)
      obtain ⟨origin, hd⟩ := completed.pending
      obtain ⟨pg', life', buttons⟩ := h.waiting hd
      obtain rfl := Option.some.inj (life'.symm.trans was)
      exact buttons
  · have known : ∃ pg, room.standing.life? d.1 = some pg ∧ Layout.HasButtons pg.session pg.config := by
      rcases pending_after room m hd with old | ⟨pg, payload, life, -, drawn⟩
      · exact h.waiting old
      · have buttons := Layout.hasButtons_of_render (Layout.render_of_payload drawn)
        exact ⟨pg.bare, life, buttons⟩
    obtain ⟨pg, life, buttons⟩ := known
    obtain ⟨pg', life', session, config⟩ := life_after m life
    exact ⟨pg', life', by rwa [session, config]⟩

theorem Reached.drawn (h : Reached room) : room.Drawn := by
  have both : room.standing.Watched ∧ room.Drawn := by
    refine h.holds (P := fun room => room.standing.Watched ∧ room.Drawn) (fun ids client environment contexts => ?_)
      fun room m _ h => ?_
    · exact ⟨opened_watched ids client environment contexts, opened_drawn ids client environment contexts⟩
    · exact ⟨room.after_watched m h.1, after_drawn m h.1 h.2⟩
  exact both.2

end Room

end Folio
