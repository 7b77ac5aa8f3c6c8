/-
What stopping does to the message. A paginator that ends asks for one change of
its message, with nothing but its controls, all disabled; nothing else that is
stopped asks for any but such a change, and nothing asks for more than one
(`disabling`). This holds of every room, whether it can be reached or not.

That the change is asked for at all is less certain. The controls are rendered at
the index as it is, after the paginator is stopped. In a room that is reached
they can be rendered unless there is a menu and the index lies outside of the
pages, as it may once pages were taken out in place (`Reached.disabled_iff`).
-/
import Folio.Proofs.Room.Stopped
import Folio.Proofs.Room.Watched

namespace Folio.Room

variable {a b room : Room} {p w : Nat} {pg pg' : Paginator} {m : Move} {h : Handle} {payload : Payload}

/-! ## What is off -/

/-- The controls in their rows, all of them disabled. -/
def turnedOff (rows : ComponentRows) : ComponentRows := rows.map (List.map Component.turnedOff)

theorem offControls_eq (pg : Paginator) :
    pg.offControls = (pg.layout.render false).map fun rows => .controls (turnedOff rows) := by
  rw [Paginator.offControls, pg.layout.render_turnedOff false]
  cases pg.layout.render false <;> rfl

theorem isOff_of_offControls (drawn : pg.offControls = .ok payload) : payload.IsOff := by
  rw [offControls_eq] at drawn
  obtain ⟨rows, -, rfl⟩ := map_eq_ok_iff.1 drawn
  exact fun k hk => isDisabled_turnedOff_rows hk

/-- The page of a paginator that is stopped has its controls off. -/
theorem isOff_of_payload (stopped : pg.status = .stopped) (drawn : pg.payload = .ok payload) : payload.IsOff := by
  rw [Paginator.payload, decide_eq_true stopped] at drawn
  exact fun k hk => Layout.isDisabled_of_render (Layout.render_of_payload drawn) hk

theorem offEdit_eq (pg : Paginator) (h : Handle) :
    offEdit pg h = [] ∨ ∃ rows, pg.layout.render false = .ok rows ∧
      offEdit pg h = [(h.id, .controls (turnedOff rows))] := by
  rw [offEdit, offControls_eq]
  cases hr : pg.layout.render false with
  | error fault => exact .inl rfl
  | ok rows => exact .inr ⟨rows, rfl, rfl⟩

/-! ## One move -/

/-- When a paginator comes to be stopped, its message is changed at most once, to
its controls as they are, all disabled. -/
theorem edits_of_stopped (hp : room.paginator? p = some pg) (active : pg.status = .active)
    (hp' : (room.after m).paginator? p = some pg') (stopped : pg'.status = .stopped) :
    (room.after m).edits = room.edits ∨ ∃ h rows, pg.message = some h ∧ pg.layout.render false = .ok rows ∧
      (room.after m).edits = room.edits ++ [(h.id, .controls (turnedOff rows))] := by
  have changed : (room.after m).standing.life? p ≠ room.standing.life? p := by
    intro same
    rw [life?_of_paginator? hp, life?_of_paginator? hp', Option.some.injEq] at same
    have status : pg'.bare.status = pg.bare.status := by rw [same]
    exact absurd (stopped.symm.trans (status.trans active)) (by decide)
  cases room.change_after m with
  | effect effect =>
    cases effect with
    | kept kept => exact .inl kept.edits
    | sending _ _ _ kept => exact .inl kept.edits
    | showing _ _ _ shift => exact absurd (by rw [shift.standing]) changed
    | @stopping q r h was message _ _ shift =>
      by_cases hq : p = q
      · subst hq
        obtain rfl := Option.some.inj (hp.symm.trans was)
        have edits := shift.edits
        rcases offEdit_eq pg h with off | ⟨rows, hr, off⟩
        · rw [off, List.append_nil] at edits
          exact .inl edits
        · rw [off] at edits
          exact .inr ⟨h, rows, message, hr, edits⟩
      · refine absurd ?_ changed
        have closed := Standing.life?_closed (life?_of_paginator? was) p
        rw [if_neg hq] at closed
        rw [shift.standing]
        exact closed
    | forgetting _ shift => exact .inl shift.edits_eq
  | created _ _ shift | live _ _ _ shift | dozing _ shift | rerouted _ shift => exact .inl shift.edits_eq

/-- A change of a message is asked for by a paginator that holds it, and shows
what that looks like: off, if it is stopped. -/
theorem edits_after (room : Room) (m : Move) :
    (room.after m).edits = room.edits ∨ ∃ p pg h payload, (room.after m).paginator? p = some pg ∧
      pg.message = some h ∧ (pg.payload = .ok payload ∨ pg.offControls = .ok payload) ∧
      (room.after m).edits = room.edits ++ [(h.id, payload)] ∧ (pg.status = .stopped → payload.IsOff) := by
  cases room.change_after m with
  | effect effect =>
    cases effect with
    | kept kept => exact .inl kept.edits
    | sending _ _ _ kept => exact .inl kept.edits
    | @showing p pg h payload paginator message drawn shift =>
      exact .inr ⟨p, pg, h, payload, paginator, message, .inl drawn, shift.edits,
        fun stopped => isOff_of_payload stopped drawn⟩
    | @stopping p pg h _ message _ ended shift =>
      have edits := shift.edits
      cases drawn : pg.offControls with
      | error fault =>
        rw [offEdit, drawn] at edits
        exact .inl (edits.trans (List.append_nil _))
      | ok payload =>
        rw [offEdit, drawn] at edits
        exact .inr ⟨p, _, h, payload, ended, message, .inr drawn, edits, fun _ => isOff_of_offControls drawn⟩
    | forgetting _ shift => exact .inl shift.edits_eq
  | created _ _ shift | live _ _ _ shift | dozing _ shift | rerouted _ shift => exact .inl shift.edits_eq

/-- Controls alone are put in a message only by a move that ends its paginator. They are its
live ones, all disabled. -/
theorem ends_of_controls {id : Nat} {rows : ComponentRows}
    (edits : (room.after m).edits = room.edits ++ [(id, .controls rows)]) :
    ∃ p pg pg' h live, room.paginator? p = some pg ∧ pg.status ≠ .stopped ∧
      (room.after m).paginator? p = some pg' ∧ pg'.status = .stopped ∧ pg.message = some h ∧ h.id = id ∧
      pg.layout.render false = .ok live ∧ rows = turnedOff live := by
  have changed : (room.after m).edits ≠ room.edits := by
    rw [edits]
    exact fun same => List.cons_ne_nil _ _ (List.self_eq_append_right.1 same.symm)
  cases room.change_after m with
  | effect effect =>
    cases effect with
    | kept kept => exact absurd kept.edits changed
    | sending _ _ _ kept => exact absurd kept.edits changed
    | showing _ _ drawn shift =>
      have same := List.append_cancel_left (shift.edits.symm.trans edits)
      obtain ⟨embed, page, rfl⟩ := Layout.exists_page_of_payload drawn
      cases same
    | @stopping p pg h was message going ended shift =>
      have same := List.append_cancel_left (shift.edits.symm.trans edits)
      rcases offEdit_eq pg h with off | ⟨live, hr, off⟩
      · rw [off] at same
        cases same
      · rw [off] at same
        obtain ⟨⟨⟩, -⟩ := List.cons.inj same
        exact ⟨p, pg, _, h, live, was, going, ended, rfl, message, rfl, hr, rfl⟩
    | forgetting _ shift => exact absurd shift.edits_eq changed
  | created _ _ shift | live _ _ _ shift | dozing _ shift | rerouted _ shift => exact absurd shift.edits_eq changed

/-- To stop what is stopped changes no message. -/
theorem edits_stop_stopped (hp : room.paginator? p = some pg) (stopped : pg.status = .stopped) (frames : List Frame) :
    (room.stop p frames).edits = room.edits := by
  rw [stop, hp]
  simp only
  split
  · exact (room.finish_kept frames _).edits
  · rw [if_pos stopped]
    exact (room.finish_kept frames _).edits

/-- A watchdog that is stopped, or that is no longer the owner's, changes no message. -/
theorem edits_wake_idle {watcher : Watcher} (hw : room.watchers[w]? = some watcher)
    (idle : watcher.watchdog.running = false ∨
      ∀ pg, room.paginator? watcher.owner = some pg → pg.watchdog ≠ some w) (pinged : Bool) :
    (room.wake w pinged).edits = room.edits := by
  by_cases ranOut : pinged = false ∧ watcher.watchdog.running = true
  · obtain ⟨rfl, running⟩ := ranOut
    rcases idle with stopped | replaced
    · rw [running] at stopped
      cases stopped
    · have spared := wake_spares hw running fun pg hp _ current => replaced pg hp current.1
      exact spared.edits_eq
  · refine (room.wake_kept w fun watcher' hw' hpinged => ?_).edits
    obtain rfl := Option.some.inj (hw.symm.trans hw')
    cases running : watcher.watchdog.running with
    | false => rfl
    | true => exact absurd ⟨hpinged, running⟩ ranOut

/-- **One change of its message for an end.** Whatever the room and the move: a
paginator that comes to be stopped has its message changed at most once, to its
live controls, all disabled; stopping once more, and watchdogs that are stopped
or replaced, change no message; what a stopped paginator asks for is off; and no
move but one that ends a paginator changes a message to controls alone. -/
theorem disabling (room : Room) :
    (∀ m p pg pg', room.paginator? p = some pg → pg.status = .active → (room.after m).paginator? p = some pg' →
      pg'.status = .stopped →
        (room.after m).edits = room.edits ∨ ∃ h rows, pg.message = some h ∧ pg.layout.render false = .ok rows ∧
          (room.after m).edits = room.edits ++ [(h.id, .controls (turnedOff rows))]) ∧
    (∀ p pg frames, room.paginator? p = some pg → pg.status = .stopped →
      (room.stop p frames).edits = room.edits) ∧
    (∀ w pinged watcher, room.watchers[w]? = some watcher →
      (watcher.watchdog.running = false ∨ ∀ pg, room.paginator? watcher.owner = some pg → pg.watchdog ≠ some w) →
        (room.wake w pinged).edits = room.edits) ∧
    (∀ m, (room.after m).edits = room.edits ∨ ∃ p pg h payload, (room.after m).paginator? p = some pg ∧
      pg.message = some h ∧ (pg.payload = .ok payload ∨ pg.offControls = .ok payload) ∧
      (room.after m).edits = room.edits ++ [(h.id, payload)] ∧ (pg.status = .stopped → payload.IsOff)) ∧
    (∀ m id rows, (room.after m).edits = room.edits ++ [(id, .controls rows)] →
      ∃ p pg pg' h live, room.paginator? p = some pg ∧ pg.status ≠ .stopped ∧
        (room.after m).paginator? p = some pg' ∧ pg'.status = .stopped ∧ pg.message = some h ∧ h.id = id ∧
        pg.layout.render false = .ok live ∧ rows = turnedOff live) :=
  ⟨fun _ _ _ _ hp active hp' stopped => edits_of_stopped hp active hp' stopped,
    fun _ _ frames hp stopped => edits_stop_stopped hp stopped frames,
    fun _ pinged _ hw idle => edits_wake_idle hw idle pinged, room.edits_after, fun _ _ _ => ends_of_controls⟩

/-- A paginator that is sent and stopped has its message changed. -/
theorem disabling_sent :
    let moves : List Move := [.act 0 (.create (.pages [.text "hello" "" "" ""]) (.record []) none),
      .act 1 (.send 0 .send (.user "ada")), .turn]
    let room := (opened .plain [] []).afterAll moves
    ∃ h rows, (room.after (.act 2 (.stop 0))).edits = room.edits ++ [(h, .controls (turnedOff rows))] := by
  intro moves room
  have before : (room.paginator? 0).map (·.status) = some .active := by decide +kernel
  have after : ((room.after (.act 2 (.stop 0))).paginator? 0).map (·.status) = some .stopped := by decide +kernel
  have more : (room.after (.act 2 (.stop 0))).edits.length = room.edits.length + 1 := by decide +kernel
  obtain ⟨pg, hp, active⟩ := Option.map_eq_some_iff.1 before
  obtain ⟨pg', hp', stopped⟩ := Option.map_eq_some_iff.1 after
  rcases room.disabling.1 _ 0 pg pg' hp active hp' stopped with same | ⟨h, rows, -, -, edits⟩
  · rw [same] at more
    omega
  · exact ⟨h.id, rows, edits⟩

/-! ## Whether the message is changed -/

/-- The ways in which a live paginator comes to its end: it is asked to, or the
wait of its watchdog ran out. -/
inductive Ends (room : Room) (p : Nat) (pg : Paginator) : Room → Prop where
  | asked (frames : List Frame) : Ends room p pg (room.stop p frames)
  | idle {w : Nat} {rest : List Task} (own : pg.watchdog = some w)
      (ready : room.agenda.ready = .woken w false :: rest) : Ends room p pg (room.after .turn)

/-- However a live paginator ends: it is stopped, and its message is changed if
its controls can be rendered. -/
theorem Ends.shifted (ends : Ends room p pg b) (watched : room.standing.Watched) (hp : room.paginator? p = some pg)
    (active : pg.status = .active) :
    ∃ h ds, pg.message = some h ∧ b.paginator? p = some (Standing.ended pg) ∧
      Shifted (room.standing.closed p pg) (offEdit pg h) ds room b := by
  have sent : pg.message.isSome = true := (watched.held (life?_of_paginator? hp)).2 (by simp [Paginator.bare, active])
  obtain ⟨h, message⟩ := Option.isSome_iff_exists.1 sent
  cases ends with
  | asked frames =>
    have stops : room.stop p frames = room.shutDown p h .asked (.yield .nothing :: frames) := by
      rw [stop, hp]
      simp only [message]
      rw [if_neg (by simp [active])]
    rw [stops]
    exact ⟨h, _, message, shutDown_shifted hp .asked _⟩
  | @idle w rest own ready =>
    have turned : room.after .turn = (room.popped rest).wake w false := after_turn ready
    obtain ⟨running, guard, runs⟩ := watched.guarded (life?_of_paginator? hp) own
    rw [standing, List.getElem?_map, Option.map_eq_some_iff] at guard
    obtain ⟨watcher, hw, guard⟩ := guard
    obtain ⟨rfl, rfl⟩ := Prod.mk.inj guard
    have hw' : (room.popped rest).watchers[w]? = some watcher := hw
    obtain ⟨ended, shift⟩ := wake_shifted hw' (runs active) hp message own active
    rw [turned]
    exact ⟨h, _, message, ended, shift.after (popped_kept ready)⟩

/-- Each page of a paginator can be rendered in its place. -/
def PagesRender (pg : Paginator) : Prop := ∀ i < pg.pages.length, { pg with index := i }.payload.isOk = true

instance (pg : Paginator) : Decidable (PagesRender pg) :=
  inferInstanceAs (Decidable (∀ i < pg.pages.length, { pg with index := i }.payload.isOk = true))

/-- The menu, if one is shown for any pages, has a page to name. -/
def MenuNamed (pg : Paginator) : Prop :=
  pg.config.showSelectMenu = true → pg.pages = [] ∨ pg.index < pg.pages.length

/-- The controls of a paginator can be rendered if its menu has a page to name. -/
theorem exists_render (buttons : Layout.HasButtons pg.session pg.config) (pages : PagesRender pg)
    (named : MenuNamed pg) : ∃ rows, pg.layout.render false = .ok rows := by
  by_cases inside : pg.index < pg.pages.length
  · have drawn : pg.payload.isOk = true := pages pg.index inside
    cases hd : pg.payload with
    | error fault =>
      rw [hd] at drawn
      cases drawn
    | ok payload => exact Layout.exists_render (Layout.render_of_payload hd) false
  · exact Layout.render_of_hasButtons (l := pg.layout) buttons (fun shown => (named shown).resolve_right inside) false

/-- They cannot be rendered if it has none. -/
theorem render_of_not_named (unnamed : ¬MenuNamed pg) : pg.layout.render false = .error .missing := by
  simp only [MenuNamed, Classical.not_imp, not_or, Nat.not_lt] at unnamed
  obtain ⟨shown, pages, outside⟩ := unnamed
  exact Layout.render_eq_missing shown pages outside false

/-- **When the message of a paginator that ends is changed.** In a room that is
reached, a live paginator whose pages can each be rendered is over once it ends,
by being stopped or by being idle. Its message is changed, to controls that are
all disabled, exactly if the menu has a page to name; if not, rendering fails
after all that, and the message stays as it was. -/
theorem Reached.disabled_iff (h : Reached room) (hp : room.paginator? p = some pg) (active : pg.status = .active)
    (pages : PagesRender pg) (ends : Ends room p pg b) :
    Over b p ∧
    ((∃ h rows, pg.message = some h ∧ b.edits = room.edits ++ [(h.id, .controls rows)] ∧
        ∀ k ∈ rows.flatten, k.isDisabled = true) ↔ MenuNamed pg) ∧
    (¬MenuNamed pg → pg.offControls = .error .missing ∧ b.edits = room.edits) := by
  have life := life?_of_paginator? hp
  obtain ⟨handle, ds, message, ended, shift⟩ := ends.shifted h.watched hp active
  have routed : b.standing.Routed := by
    have closed := h.routed.closed life
    rw [shift.standing]
    exact closed
  have failed : ¬MenuNamed pg → pg.offControls = .error .missing ∧ b.edits = room.edits := by
    intro unnamed
    have off : pg.offControls = .error .missing := by
      rw [offControls_eq, render_of_not_named unnamed]
      rfl
    refine ⟨off, ?_⟩
    rw [shift.edits, offEdit, off, List.append_nil]
  refine ⟨over_of_routed routed ended rfl, ⟨?_, fun named => ?_⟩, failed⟩
  · rintro ⟨h', rows, -, edits, -⟩
    by_contra unnamed
    rw [(failed unnamed).2] at edits
    exact List.cons_ne_nil _ _ (List.self_eq_append_right.1 edits)
  · have buttons := h.drawn.sent life (by simp [Paginator.bare, active])
    have drawn : ∃ rows, pg.layout.render false = .ok rows := exists_render buttons pages named
    obtain ⟨rows, hr⟩ := drawn
    refine ⟨handle, turnedOff rows, message, ?_, fun k hk => isDisabled_turnedOff_rows hk⟩
    rw [shift.edits, offEdit, offControls_eq, hr]
    rfl

/-- A paginator with a menu whose pages were all taken out still has its message changed. -/
theorem disabled_iff_emptied :
    let moves : List Move :=
      [.act 0 (.create (.pages [.text "one" "" "" "", .text "two" "" "" ""])
        (.record [("showSelectMenu", .bool true)]) none),
      .act 1 (.send 0 .send (.user "ada")), .turn, .act 2 (.setIndex 0 (.number 1)), .act 3 (.splice 0 0 2 [])]
    let room := (opened .plain [] []).afterAll moves
    ∃ h rows, (room.after (.act 4 (.stop 0))).edits = room.edits ++ [(h, .controls rows)] := by
  intro moves room
  have reached : Reached room := ⟨.numbered, .plain, [], [], moves, by decide, rfl⟩
  have live : (room.paginator? 0).map (fun pg => decide (pg.status = .active ∧ PagesRender pg ∧ pg.pages = [])) =
      some true := by decide +kernel
  obtain ⟨pg, hp, hd⟩ := Option.map_eq_some_iff.1 live
  obtain ⟨active, pages, empty⟩ := of_decide_eq_true hd
  have ends : Ends room 0 pg (room.after (.act 4 (.stop 0))) := .asked [.caller 4 none]
  obtain ⟨h, rows, -, edits, -⟩ := (reached.disabled_iff hp active pages ends).2.1.2 fun _ => .inl empty
  exact ⟨h.id, rows, edits⟩

/-- With the pages behind the first taken out under an index behind them, a stop
does not change the message. -/
theorem not_always_disabled : ¬∀ (room b : Room) (p : Nat) (pg : Paginator), Reached room →
    room.paginator? p = some pg → pg.status = .active → PagesRender pg → Ends room p pg b →
      ∃ h rows, pg.message = some h ∧ b.edits = room.edits ++ [(h.id, .controls rows)] ∧
        ∀ k ∈ rows.flatten, k.isDisabled = true := by
  intro claim
  let moves : List Move :=
    [.act 0 (.create (.pages [.text "one" "" "" "", .text "two" "" "" "", .text "three" "" "" ""])
      (.record [("showSelectMenu", .bool true)]) none),
    .act 1 (.send 0 .send (.user "ada")), .turn, .act 2 (.setIndex 0 (.number 2)), .act 3 (.splice 0 1 2 [])]
  let room := (opened .plain [] []).afterAll moves
  have reached : Reached room := ⟨.numbered, .plain, [], [], moves, by decide, rfl⟩
  have live : (room.paginator? 0).map (fun pg => decide (pg.status = .active ∧ PagesRender pg)) = some true := by
    decide +kernel
  obtain ⟨pg, hp, hd⟩ := Option.map_eq_some_iff.1 live
  obtain ⟨active, pages⟩ := of_decide_eq_true hd
  obtain ⟨h, rows, -, edits, -⟩ := claim room _ 0 pg reached hp active pages (.asked [.caller 4 none])
  have same : (room.stop 0 [.caller 4 none]).edits.length = room.edits.length := by decide +kernel
  rw [edits, List.length_append] at same
  simp at same

end Folio.Room
