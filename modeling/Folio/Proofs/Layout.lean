/-
What a layout offers. It has a control for each role that its configuration shows,
in the order of the roles, and rendering keeps them (`IsControlOf`). A button that
turns pages has nothing to do exactly where a press of it would not move the index
(`isIdle_iff`): the layout and the cursor say so each in its own way. The menu has
an entry for each index of its window (`menuWindow_spec`), and an entry leads to the
index that it was made for (`move_select`).
-/
import Folio.Proofs.Cursor
import Folio.Proofs.Rendering

namespace Folio

/-! ## Lists side by side -/

theorem forall₂_comp {α β γ : Type} {R : α → β → Prop} {S : β → γ → Prop} {T : α → γ → Prop}
    (h : ∀ x y z, R x y → S y z → T x z) {xs : List α} {ys : List β} {zs : List γ} (first : List.Forall₂ R xs ys)
    (second : List.Forall₂ S ys zs) : List.Forall₂ T xs zs := by
  induction first generalizing zs with
  | nil =>
    cases second
    exact .nil
  | cons hxy _ ih =>
    cases second with
    | cons hyz rest => exact .cons (h _ _ _ hxy hyz) (ih rest)

/-! ## Controls -/

/-- Whether a control is disabled. -/
def Control.isDisabled : Control → Bool
  | .menu _ _ _ disabled | .button _ _ _ _ disabled => disabled

/-- Rendering a control leaves it as enabled as it was. -/
theorem Component.isDisabled_ofControl {c : Control} {k : Component} (h : ofControl c = .ok k) :
    k.isDisabled = c.isDisabled := by
  cases c with
  | menu id placeholder options off =>
    obtain ⟨options', -, rfl⟩ := exists_of_menu h
    rfl
  | button role id emoji style off =>
    obtain ⟨style', emoji', rfl⟩ := exists_of_button h
    rfl

/-- The rows hold each of the controls, rendered, in their order. -/
theorem Component.forall₂_rows {cs : List Control} {rendered : ComponentRows}
    (h : rows (cs.map Control.toRecord) = .ok rendered) :
    List.Forall₂ (fun c k => ofControl c = .ok k) cs rendered.flatten := by
  rw [rows_toRecord] at h
  have each := (forall₂_of_mapM h).imp fun row rendered hr => forall₂_of_mapM hr
  have all := List.rel_flatten each
  rw [flatten_spread] at all
  exact all

/-- Whether the control of a role turns pages by itself. -/
def Role.turns : Role → Bool
  | .first | .back | .next | .last => true
  | .select | .callback => false

namespace Layout

variable {l : Layout} {off : Bool} {cs : List Control} {rows : ComponentRows}

/-- Whether the control of a role has nothing to do at a layout's position. -/
def isIdle (l : Layout) (role : Role) : Bool := idleAt (l.index = 0) (l.pages.length ≤ l.index + 1) role

/-- A rendered control is that of a role: it is bound to it, and disabled if all
are or if it has nothing to do. -/
structure IsControlOf (l : Layout) (off : Bool) (role : Role) (k : Component) : Prop where
  customId : k.customId = Folio.customId l.session role
  isDisabled : k.isDisabled = (off || l.isIdle role)

/-- The buttons are those of the roles that are shown. -/
theorem forall₂_buttons (session : String) (config : Config) (idle : Role → Bool) (off : Bool) :
    List.Forall₂ (fun role c => c.customId = Folio.customId session role ∧ c.isDisabled = (off || idle role))
      (Role.all.tail.filter config.shows) (buttons session config idle off) := by
  -- The menu, first of all roles, has no emoji and so is no button.
  have tail : buttons session config idle off = Role.all.tail.filterMap fun role =>
      if config.shows role then (config.emoji? role).map fun emoji =>
        Control.button role (Folio.customId session role) emoji config.buttonStyle (off || idle role) else none := by
    have none : (if config.shows .select then (config.emoji? .select).map fun emoji =>
        Control.button .select (Folio.customId session .select) emoji config.buttonStyle (off || idle .select)
        else none) = none := by
      split <;> rfl
    exact List.filterMap_cons_none none
  have same : List.Forall₂ (fun role role' => role = role' ∧ role ≠ Role.select) Role.all.tail Role.all.tail :=
    List.forall₂_same.2 (by decide)
  rw [tail, ← List.filterMap_eq_filter]
  refine List.rel_filterMap (fun role role' => ?_) same
  rintro ⟨rfl, button⟩
  cases shown : config.shows role with
  | false => simp only [Option.guard, shown, Bool.false_eq_true, if_false]; exact .none
  | true =>
    obtain ⟨emoji, he⟩ : ∃ emoji, config.emoji? role = some emoji := by
      cases role <;> first | exact absurd rfl button | exact ⟨_, rfl⟩
    simp only [Option.guard, shown, if_true, he, Option.map_some]
    exact .some ⟨rfl, rfl⟩

/-- The controls are those of the roles that are shown. -/
theorem forall₂_controls (h : l.controls off = .ok cs) (pages : l.pages ≠ []) :
    List.Forall₂ (fun role c => c.customId = Folio.customId l.session role ∧ c.isDisabled = (off || l.isIdle role))
      (Role.all.filter l.config.shows) cs := by
  have row := forall₂_buttons l.session l.config l.isIdle off
  have roles : Role.all = .select :: Role.all.tail := rfl
  have some : l.pages.isEmpty = false := List.isEmpty_eq_false_iff.2 pages
  rw [controls, some, Bool.not_false, Bool.and_true] at h
  rw [roles]
  cases shown : l.config.showSelectMenu with
  | false =>
    rw [shown, if_neg (by simp)] at h
    cases h
    rw [List.filter_cons_of_neg (by simp [Config.shows, shown])]
    exact row
  | true =>
    rw [shown, if_pos rfl] at h
    obtain ⟨menu, hm, rfl⟩ := map_eq_ok_iff.1 h
    obtain ⟨placeholder, options, rfl⟩ := exists_of_menu hm
    rw [List.filter_cons_of_pos (by simp [Config.shows, shown])]
    exact .cons ⟨rfl, by simp [Control.isDisabled, isIdle, idleAt]⟩ row

/-- What is rendered under a page is a control for each role that is shown, in the
order of the roles. -/
theorem forall₂_render (h : l.render off = .ok rows) (pages : l.pages ≠ []) :
    List.Forall₂ (l.IsControlOf off) (Role.all.filter l.config.shows) rows.flatten := by
  rw [render] at h
  obtain ⟨cs, hcs, h⟩ := bind_eq_ok_iff.1 h
  refine forall₂_comp (fun role c k hc hk => ?_) (forall₂_controls hcs pages) (Component.forall₂_rows h)
  exact ⟨(Component.customId_ofControl hk).trans hc.1, (Component.isDisabled_ofControl hk).trans hc.2⟩

/-- A button that turns pages has nothing to do where a press of it leads nowhere else. -/
theorem isIdle_iff (inside : l.index < l.pages.length) {role : Role} (turns : role.turns = true)
    (values : List String) :
    l.isIdle role = true ↔ Cursor.move l.pages.length l.index (some role) values = l.index := by
  cases role with
  | first | back | next | last =>
    simp only [isIdle, idleAt, Cursor.move, decide_eq_true_eq]
    omega
  | select | callback => cases turns

theorem isIdle_of_not_turns {role : Role} (h : role.turns = false) : l.isIdle role = false := by
  cases role with
  | first | back | next | last => cases h
  | select | callback => rfl

end Layout

/-! ## The menu -/

/-- The window of a menu: so many indices in a row, all of pages, with each page
within half a window of the index. -/
theorem menuWindow_spec {index count : Nat} (inside : index < count) :
    ∃ start, menuWindow id index count = List.range' start (min count 25) ∧ start + min count 25 ≤ count ∧
      ∀ j < count, j ≤ index + 12 → index ≤ j + 12 → start ≤ j ∧ j < start + min count 25 := by
  refine ⟨min (max (index - 12) 0) (count - min count 25), ?_, by omega, by omega⟩
  rw [List.range'_eq_map_range]
  rfl

/-- Digits that were written are read back. -/
theorem Paginator.choice?_toString {count j : Nat} (h : j < count) : Paginator.choice? count (toString j) = some j := by
  have read : Number.whole? 10 (toString j).toList = some j := by
    have digits : (toString j).toList = Nat.toDigits 10 j := String.toList_ofList
    rw [digits]
    exact Number.whole?_toDigits (by decide) (by decide) 0 j
  simp only [Paginator.choice?, read, if_pos h]

/-- The entry of an index leads to it. -/
theorem Cursor.move_select {count j : Nat} (h : j < count) (index : Nat) (values : List String) :
    Cursor.move count index (some .select) (toString j :: values) = j := by
  have move : Cursor.move count index (some .select) (toString j :: values) =
      (Paginator.choice? count (toString j)).getD index := by
    rw [Cursor.choice?_eq, Cursor.move, List.headD_cons]
    split <;> rfl
  rw [move, Paginator.choice?_toString h, Option.getD_some]

/-- That entry is read as the number. -/
theorem Cursor.picked_toString {count j : Nat} (small : count ≤ 2 ^ 53) (h : j < count) :
    Cursor.picked (toString j) = (j : Number) := by
  have picks := Cursor.picked_lt small (toString j)
  rw [Paginator.choice?_toString h] at picks
  exact picks.2

namespace Component

theorem checkOption_toRecord (o : MenuOption) :
    checkOption (.record o.toRecord) = (checkText 1 maxText (.text o.label)).bind fun label =>
      (checkText 1 maxText (.text o.value)).map fun value => ⟨label, value⟩ := rfl

/-- Rendering the entries of a menu leaves them as they are. -/
theorem checkOptions_eq_ok {options options' : List MenuOption}
    (h : checkOptions (.list (options.map fun o => .record o.toRecord)) = .ok options') : options' = options := by
  rw [checkOptions, bind_eq_ok_iff] at h
  obtain ⟨checked, hc, h⟩ := h
  split at h
  · obtain rfl := Except.ok.inj h
    rw [List.mapM_map] at hc
    have same : List.Forall₂ (· = ·) options checked := (forall₂_of_mapM hc).imp fun o o' ho => by
      rw [Function.comp_apply, checkOption_toRecord] at ho
      obtain ⟨label, hl, ho⟩ := bind_eq_ok_iff.1 ho
      obtain ⟨value, hv, rfl⟩ := map_eq_ok_iff.1 ho
      rw [checkText_eq_ok hl, checkText_eq_ok hv]
    rw [List.forall₂_eq_eq_eq] at same
    exact same.symm
  · cases h

/-- The values that a rendered control offers, if it is an enabled menu of this custom id. -/
def offers (id : String) : Component → List String
  | .menu id' _ options disabled => if id' = id ∧ disabled = false then options.map MenuOption.value else []
  | .button .. => []

end Component

namespace Layout

variable {l : Layout} {off : Bool} {rows : ComponentRows} {options : List MenuOption}

theorem map_value_menuOptions (h : l.menuOptions = .ok options) :
    options.map MenuOption.value = (menuWindow id l.index l.pages.length).map toString := by
  have same : List.Forall₂ (· = ·) ((menuWindow id l.index l.pages.length).map toString) (options.map MenuOption.value) := by
    rw [List.forall₂_map_left_iff, List.forall₂_map_right_iff]
    refine (forall₂_of_mapM h).imp fun i o ho => ?_
    obtain ⟨label, -, rfl⟩ := map_eq_ok_iff.1 ho
    rfl
  rw [List.forall₂_eq_eq_eq] at same
  exact same.symm

/-- The menu of live controls offers the indices of its window, and it is the only one. -/
theorem offers_of_render (h : l.render false = .ok rows) (shown : l.config.showSelectMenu = true) (pages : l.pages ≠ []) :
    rows.flatten.flatMap (Component.offers (Folio.customId l.session .select)) =
      (menuWindow id l.index l.pages.length).map toString := by
  have some : (l.config.showSelectMenu && !l.pages.isEmpty) = true := by simp [shown, pages]
  rw [render] at h
  obtain ⟨cs, hcs, h⟩ := bind_eq_ok_iff.1 h
  rw [controls, if_pos some] at hcs
  obtain ⟨menu, hm, rfl⟩ := map_eq_ok_iff.1 hcs
  rw [Layout.menu] at hm
  obtain ⟨placeholder, -, hm⟩ := bind_eq_ok_iff.1 hm
  obtain ⟨options, ho, hm⟩ := bind_eq_ok_iff.1 hm
  cases hm
  rw [Component.rows_menu_cons rfl] at h
  obtain ⟨k, hk, h⟩ := bind_eq_ok_iff.1 h
  obtain ⟨options', ho', rfl⟩ := Component.exists_of_menu hk
  obtain ⟨row, hrow, rfl⟩ := map_eq_ok_iff.1 h
  have others : row.flatten.flatMap (Component.offers (Folio.customId l.session .select)) = [] := by
    rw [List.flatMap_eq_nil_iff]
    intro k hk
    obtain ⟨c, hc, hk⟩ := Component.mem_rows hrow hk
    obtain ⟨role, emoji, -, rfl⟩ := exists_of_mem_buttons hc
    obtain ⟨style', emoji', rfl⟩ := Component.exists_of_button hk
    rfl
  have own : Component.offers (Folio.customId l.session .select)
      (.menu (Folio.customId l.session .select) placeholder options' false) = options'.map MenuOption.value :=
    if_pos ⟨rfl, rfl⟩
  rw [List.flatten_cons, List.flatMap_append, others, List.append_nil, List.flatMap_singleton, own,
    Component.checkOptions_eq_ok ho', map_value_menuOptions ho]

end Layout

end Folio
