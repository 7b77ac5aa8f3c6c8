/-
Navigation by the menu alone. Under a page of a live paginator the menu offers the
pages of a window around it, and to select what is offered leads there (`selected`).
The window is centred anew after each selection and reaches twelve pages to either
side, unless an end comes first. So any page can be reached from any other twelve
pages at a time (`exists_selecting`), whether or not there are buttons.
-/
import Folio.Proofs.Room.Controls

namespace Folio

/-- The values that the menu of a custom id offers under a page. -/
def Payload.offers (payload : Payload) (id : String) : List String :=
  payload.rows.flatten.flatMap (Component.offers id)

namespace Room

variable {room : Room} {p : Nat} {pg : Paginator} {press : Press} {m : Move} {payload : Payload}

/-! ## One selection -/

/-- The menu under a page offers the indices of a window around that page. -/
theorem offers_of_payload (active : pg.status = .active) (shown : pg.config.showSelectMenu = true)
    (drawn : pg.payload = .ok payload) :
    pg.index < pg.pages.length ∧ payload.offers (customId pg.session .select) =
      (menuWindow id pg.index pg.pages.length).map toString := by
  obtain ⟨embed, rows, rfl⟩ := Layout.exists_page_of_payload drawn
  have shows := showsPage_of_payload drawn
  have rendered := shows.controls
  rw [active, decide_eq_false (by decide)] at rendered
  have pages : pg.layout.pages ≠ [] := List.ne_nil_of_length_pos (Nat.zero_lt_of_lt shows.inside)
  exact ⟨shows.inside, Layout.offers_of_render rendered shown pages⟩

/-- To select an index leads to it. -/
theorem selected {j : Nat} (hp : room.paginator? p = some pg) (active : pg.status = .active)
    (named : pg.session ≠ "") (inside : pg.index < pg.pages.length) (hj : j < pg.pages.length)
    (received : room.received? m = some (p, press)) (author : pg.author = some press.user)
    (id : press.customId = customId pg.session .select) (value : press.values.head? = some (toString j)) :
    (room.after m).paginator? p = some { pg with index := j } := by
  have role := role_of_customId named id
  obtain ⟨values, hv⟩ := List.head?_eq_some_iff.1 value
  have turned := turned hp author active inside (by simp [role]) received
  rw [role, hv, Cursor.move_select hj] at turned
  exact turned.paginator?

/-! ## Selection after selection -/

/-- Moves each of which is a selection of the author, of an entry that the menu
offers under the page at that point. -/
inductive Selecting (p : Nat) : Room → List Move → Prop where
  | done (room : Room) : Selecting p room []
  | select {room : Room} {m : Move} {moves : List Move} {pg : Paginator} {payload : Payload} {press : Press}
      {value : String} (paginator : room.paginator? p = some pg) (drawn : pg.payload = .ok payload)
      (offered : value ∈ payload.offers (customId pg.session .select))
      (received : room.received? m = some (p, press)) (author : pg.author = some press.user)
      (id : press.customId = customId pg.session .select) (values : press.values = [value])
      (rest : Selecting p (room.after m) moves) : Selecting p room (m :: moves)

/-- Where each page can be rendered, `n` selections lead twelve times as far. -/
theorem exists_selecting {user : String} (active : pg.status = .active) (author : pg.author = some user)
    (named : pg.session ≠ "") (shown : pg.config.showSelectMenu = true) (render : PagesRender pg) {b : Nat}
    (hb : b < pg.pages.length) (n : Nat) {room : Room} {a : Nat} (ha : a < pg.pages.length)
    (near : (a - b) + (b - a) ≤ 12 * n) (hp : room.paginator? p = some { pg with index := a }) :
    ∃ moves, Selecting p room moves ∧ moves.length ≤ n ∧
      (room.afterAll moves).paginator? p = some { pg with index := b } := by
  induction n generalizing room a with
  | zero =>
    have same : a = b := by omega
    exact ⟨[], .done room, Nat.le_refl 0, same ▸ hp⟩
  | succ n ih =>
    -- As far towards `b` as the menu reaches.
    obtain ⟨j, low, high, left⟩ : ∃ j, a ≤ j + 12 ∧ j ≤ a + 12 ∧ j < pg.pages.length ∧ (j - b) + (b - j) ≤ 12 * n := by
      rcases Nat.le_total a b with h | h
      · exact ⟨min b (a + 12), by omega⟩
      · exact ⟨max b (a - 12), by omega⟩
    obtain ⟨hj, near'⟩ := left
    obtain ⟨payload, drawn⟩ : ∃ payload, { pg with index := a }.payload = .ok payload := by
      have ok := render a ha
      cases hd : { pg with index := a }.payload with
      | error fault =>
        rw [hd] at ok
        cases ok
      | ok payload => exact ⟨payload, rfl⟩
    have offered : toString j ∈ payload.offers (customId pg.session .select) := by
      obtain ⟨-, offers⟩ := @offers_of_payload { pg with index := a } payload active shown drawn
      obtain ⟨start, window, -, around⟩ := menuWindow_spec ha
      rw [offers, window]
      exact List.mem_map_of_mem (List.mem_range'_1.2 (around j hj high low))
    have received : room.received? (.act 0 (.interact p ⟨user, .control p "select", [toString j]⟩)) =
        some (p, ⟨user, customId pg.session .select, [toString j], none⟩) := by
      rw [received?, customIdOf?, hp]
      rfl
    have now := selected hp active named ha hj received author rfl rfl
    obtain ⟨moves, selecting, length, arrives⟩ := ih hj near' now
    exact ⟨_ :: moves, .select hp drawn offered received author rfl rfl selecting, Nat.succ_le_succ length, arrives⟩

/-- **The menu leads everywhere.** In every run, where a live paginator shows its
menu: the menu under a page offers the indices of as many pages in a row as it
takes, with all pages up to twelve away; to select what is offered leads to just
that index, which is also the number that the text is read as; and, if each page
can be rendered, any page is reached from the one at hand with a selection for each
twelve pages in between, rounded up. Nothing is said of buttons: there may be none. -/
theorem menu_leads_everywhere (ids : SessionIds) (client : Client) (environment : Environment)
    (contexts : Table String Context) (before : List Move) (p : Nat) (pg : Paginator)
    (hp : ((openedWith ids client environment contexts).afterAll before).paginator? p = some pg)
    (active : pg.status = .active) (shown : pg.config.showSelectMenu = true) :
    (∀ payload, pg.payload = .ok payload →
      (∃ start, payload.offers (customId pg.session .select) =
          (List.range' start (min pg.pages.length 25)).map toString ∧
        start + min pg.pages.length 25 ≤ pg.pages.length ∧
        ∀ j < pg.pages.length, j ≤ pg.index + 12 → pg.index ≤ j + 12 →
          start ≤ j ∧ j < start + min pg.pages.length 25) ∧
      ∀ value ∈ payload.offers (customId pg.session .select), ∃ j < pg.pages.length, value = toString j ∧
        (pg.pages.length ≤ 2 ^ 53 → Cursor.picked value = (j : Number)) ∧
        ∀ m press, ((openedWith ids client environment contexts).afterAll before).received? m = some (p, press) →
          pg.author = some press.user → press.customId = customId pg.session .select →
          press.values.head? = some value →
            (((openedWith ids client environment contexts).afterAll before).after m).paginator? p =
              some { pg with index := j }) ∧
    (∀ user, pg.author = some user → PagesRender pg → pg.index < pg.pages.length → ∀ b < pg.pages.length,
      ∃ moves, Selecting p ((openedWith ids client environment contexts).afterAll before) moves ∧
        moves.length ≤ ((pg.index - b) + (b - pg.index) + 11) / 12 ∧
        (((openedWith ids client environment contexts).afterAll before).afterAll moves).paginator? p =
          some { pg with index := b }) := by
  have named := session_ne_empty ids client environment contexts before hp
  refine ⟨fun payload drawn => ?_, fun user author render inside b hb => ?_⟩
  · obtain ⟨inside, offers⟩ := offers_of_payload active shown drawn
    obtain ⟨start, window, fits, around⟩ := menuWindow_spec inside
    rw [window] at offers
    refine ⟨⟨start, offers, fits, around⟩, fun value offered => ?_⟩
    rw [offers] at offered
    obtain ⟨j, hj, rfl⟩ := List.mem_map.1 offered
    have within : j < pg.pages.length := (List.mem_range'_1.1 hj).2.trans_le fits
    exact ⟨j, within, rfl, fun small => Cursor.picked_toString small within, fun m press received author id value =>
      selected hp active named inside within received author id value⟩
  · exact exists_selecting active author named shown render hb _ inside (by omega) hp

/-- Fourteen pages without any buttons: from the first to the last in two selections. -/
theorem menu_leads_everywhere_bare :
    let before : List Move := [.act 0 (.create (.pages ((List.range 14).map fun i => .text (toString i) "" "" ""))
        (.record [("showSelectMenu", .bool true), ("showFirst", .bool false), ("showBack", .bool false),
          ("showNext", .bool false), ("showLast", .bool false)]) none),
      .act 1 (.send 0 .send (.user "ada")), .turn]
    let room := (openedWith .numbered .plain [] []).afterAll before
    ∃ moves pg', Selecting 0 room moves ∧ moves.length ≤ 2 ∧
      (room.afterAll moves).paginator? 0 = some pg' ∧ pg'.index = 13 := by
  intro before room
  have state : (room.paginator? 0).any (fun pg => decide (pg.status = .active ∧ pg.config.showSelectMenu = true ∧
      pg.author = some "ada" ∧ pg.index = 0 ∧ pg.pages.length = 14 ∧ PagesRender pg)) = true := by decide +kernel
  obtain ⟨pg, hp, hpg⟩ := (Option.any_eq_true _ _).1 state
  obtain ⟨active, shown, author, index, count, render⟩ := of_decide_eq_true hpg
  obtain ⟨moves, selecting, length, arrives⟩ :=
    (menu_leads_everywhere .numbered .plain [] [] before 0 pg hp active shown).2 "ada" author render (by omega) 13
      (by omega)
  exact ⟨moves, _, selecting, by omega, arrives, rfl⟩

end Room

end Folio
