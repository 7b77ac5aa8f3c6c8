/-
Controls that do what they look like. What a layout says of a control, that it has
nothing to do, and what a press of it does are written down in two places. They
agree (`Layout.isIdle_iff`), so under a page of a live paginator a button that
turns pages is enabled exactly if it turns the page, and the others always are
(`live_controls`). This is about the page as it is shown: a press of a button of
an older page is answered as the paginator is now.
-/
import Folio.Proofs.Layout
import Folio.Proofs.Room.Navigation

namespace Folio.Room

variable {room : Room} {p : Nat} {pg : Paginator} {press : Press} {m : Move} {role : Role}

/-! ## Sessions -/

/-- Every paginator has a session id that is not empty. -/
def Named (s : Standing) : Prop := ∀ {p pg}, s.life? p = some pg → pg.session ≠ ""

theorem after_named (m : Move) (h : Named room.standing) : Named (room.after m).standing := by
  intro p pg life
  cases room.step_after m with
  | same same => exact h (same ▸ life)
  | born _ new born =>
    rw [born, Standing.life?_born] at life
    split at life
    · obtain ⟨-, config, rfl⟩ := new _ life
      exact room.standing.ids.nonempty _
    · exact h life
  | live _ was live =>
    rw [live, Standing.life?_live was] at life
    split at life
    · obtain rfl := Option.some.inj life
      have session := h was
      exact session
    · exact h life
  | closed was _ closed =>
    rw [closed, Standing.life?_closed was] at life
    split at life
    · obtain rfl := Option.some.inj life
      have session := h was
      exact session
    · exact h life
  | dozed _ dozed =>
    rw [dozed, Standing.life?_dozed] at life
    exact h life
  | rerouted _ rerouted => exact h (rerouted ▸ life)

/-- In every run, paginators have session ids that are not empty. -/
theorem session_ne_empty (ids : SessionIds) (client : Client) (environment : Environment)
    (contexts : Table String Context) (moves : List Move)
    (hp : ((openedWith ids client environment contexts).afterAll moves).paginator? p = some pg) : pg.session ≠ "" := by
  have none : Named (openedWith ids client environment contexts).standing := by
    intro p pg life
    cases life
  have named : Named ((openedWith ids client environment contexts).afterAll moves).standing :=
    afterAll_keeps (P := fun room => Named room.standing) (fun room m h => after_named m h) none moves
  have own : pg.bare.session ≠ "" := named (life?_of_paginator? hp)
  exact own

/-- A press of the custom id of a role is one in that role. -/
theorem role_of_customId (named : pg.session ≠ "") (id : press.customId = customId pg.session role) :
    press.role = some role := by
  rw [Press.role, id, parseCustomId?_customId named, Option.map_some]

/-! ## Controls -/

/-- The control of a role under the page of a paginator, which was sent out as
`payload`, does what it looks like: one that turns pages is enabled exactly if a
press of the author moves the index; others are enabled; and a press of one that
is disabled shows the same page again. -/
structure Honest (room : Room) (p : Nat) (pg : Paginator) (payload : Payload) (role : Role) (k : Component) : Prop where
  customId : k.customId = Folio.customId pg.session role
  turns : role.turns = true → ∀ m press, room.received? m = some (p, press) → pg.author = some press.user →
    press.customId = k.customId →
      ∃ pg', (room.after m).paginator? p = some pg' ∧ (k.isDisabled = false ↔ pg'.index ≠ pg.index)
  enabled : role.turns = false → k.isDisabled = false
  repeats : k.isDisabled = true → ∀ m press, room.received? m = some (p, press) → pg.author = some press.user →
    press.customId = k.customId →
      (room.after m).paginator? p = some pg ∧
        (room.after m).calls = room.calls ++ [.replace press.interaction payload]

theorem honest {payload : Payload} {k : Component} (hp : room.paginator? p = some pg) (active : pg.status = .active)
    (named : pg.session ≠ "") (inside : pg.index < pg.pages.length) (drawn : pg.payload = .ok payload)
    (control : pg.layout.IsControlOf false role k) : Honest room p pg payload role k := by
  have own : ∀ press : Press, press.customId = k.customId → press.role = some role := fun press id =>
    role_of_customId named (id.trans control.customId)
  have disabled : k.isDisabled = pg.layout.isIdle role := control.isDisabled
  have moves : role.turns = true → ∀ m press, room.received? m = some (p, press) → pg.author = some press.user →
      press.customId = k.customId →
        Turned room m p { pg with index := Cursor.move pg.pages.length pg.index (some role) press.values } press := by
    intro turns m press received author id
    have plain : press.role = some .callback → pg.callback = none := by
      intro callback
      obtain rfl := Option.some.inj ((own press id).symm.trans callback)
      cases turns
    have turned := turned hp author active inside plain received
    rw [own press id] at turned
    exact turned
  refine ⟨control.customId, fun turns m press received author id => ?_, fun other => ?_,
    fun off m press received author id => ?_⟩
  · refine ⟨_, (moves turns m press received author id).paginator?, ?_⟩
    have idle := Layout.isIdle_iff (l := pg.layout) inside turns press.values
    rw [disabled, ← Bool.not_eq_true]
    exact not_congr idle
  · rw [disabled, Layout.isIdle_of_not_turns other]
  · have turns : role.turns = true := by
      by_contra other
      rw [disabled, Layout.isIdle_of_not_turns (Bool.not_eq_true _ ▸ other)] at off
      cases off
    -- A move that leads nowhere leaves all of the paginator as it is.
    have stays : Cursor.move pg.pages.length pg.index (some role) press.values = pg.index :=
      (Layout.isIdle_iff (l := pg.layout) inside turns press.values).1 (disabled ▸ off)
    have turned := moves turns m press received author id
    rw [stays] at turned
    cases turned with
    | shown now drawn' calls =>
      obtain rfl := Except.ok.inj (drawn.symm.trans drawn')
      exact ⟨now, calls⟩
    | failed _ failed _ _ _ => cases drawn.symm.trans failed

/-- **A control is live exactly if it does something.** In every run, what is
rendered under the page of a live paginator is the controls of the roles that its
configuration shows, in the order of the roles, and each does what it looks like. -/
theorem live_controls (ids : SessionIds) (client : Client) (environment : Environment)
    (contexts : Table String Context) (moves : List Move) (p : Nat) (pg : Paginator) (payload : Payload)
    (hp : ((openedWith ids client environment contexts).afterAll moves).paginator? p = some pg)
    (active : pg.status = .active) (drawn : pg.payload = .ok payload) :
    List.Forall₂ (Honest ((openedWith ids client environment contexts).afterAll moves) p pg payload)
      (Role.all.filter pg.config.shows) payload.rows.flatten := by
  have named := session_ne_empty ids client environment contexts moves hp
  obtain ⟨embed, rows, rfl⟩ := Layout.exists_page_of_payload drawn
  have shows := showsPage_of_payload drawn
  have rendered := shows.controls
  rw [active, decide_eq_false (by decide)] at rendered
  have pages : pg.layout.pages ≠ [] := List.ne_nil_of_length_pos (Nat.zero_lt_of_lt shows.inside)
  exact (Layout.forall₂_render rendered pages).imp fun role k control =>
    honest hp active named shows.inside drawn control

/-- On the first of three pages, with all controls shown, the first two buttons are disabled. -/
theorem live_controls_first :
    let moves : List Move := [.act 0 (.create (.pages [.text "one" "" "" "", .text "two" "" "" "",
        .text "three" "" "" ""]) (.record [("showSelectMenu", .bool true), ("showCallback", .bool true)]) none),
      .act 1 (.send 0 .send (.user "ada")), .turn]
    let room := (openedWith .numbered .plain [] []).afterAll moves
    ∃ pg payload, room.paginator? 0 = some pg ∧
      payload.rows.flatten.map Component.isDisabled = [false, true, true, false, false, false] ∧
      List.Forall₂ (Honest room 0 pg payload) Role.all payload.rows.flatten := by
  intro moves room
  have state : (room.paginator? 0).any (fun pg => decide (pg.status = .active ∧
      (Role.all.filter pg.config.shows) = Role.all ∧ (pg.payload.toOption.map fun payload =>
        payload.rows.flatten.map Component.isDisabled) = some [false, true, true, false, false, false])) = true := by
    decide +kernel
  obtain ⟨pg, hp, hpg⟩ := (Option.any_eq_true _ _).1 state
  obtain ⟨active, all, off⟩ := of_decide_eq_true hpg
  obtain ⟨payload, drawn, off⟩ := Option.map_eq_some_iff.1 off
  have drawn : pg.payload = .ok payload := by
    cases h : pg.payload with
    | error fault =>
      rw [h] at drawn
      cases drawn
    | ok payload' =>
      rw [h] at drawn
      obtain rfl := Option.some.inj drawn
      rfl
  have honest := live_controls .numbered .plain [] [] moves 0 pg payload hp active drawn
  rw [all] at honest
  exact ⟨pg, payload, hp, off, honest⟩

end Folio.Room
