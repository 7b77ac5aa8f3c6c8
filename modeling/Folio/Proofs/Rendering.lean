/-
Rendering does not look at whether a control is enabled. So turning every control
off commutes with rendering: the controls of a stopped paginator are the live ones
with each flag set, and they can be rendered exactly when the live ones can.
-/
import Folio.Payload
import Folio.Proofs.Rows
import Mathlib.Data.List.Forall2

namespace Folio

/-! ## Steps that can fail -/

theorem bind_eq_ok_iff {ε α β : Type} {x : Except ε α} {f : α → Except ε β} {b : β} :
    (x >>= f) = .ok b ↔ ∃ a, x = .ok a ∧ f a = .ok b := by
  cases x with
  | error e => simp [bind, Except.bind]
  | ok a => simp [bind, Except.bind]

theorem map_eq_ok_iff {ε α β : Type} {x : Except ε α} {f : α → β} {b : β} :
    x.map f = .ok b ↔ ∃ a, x = .ok a ∧ f a = b := by
  cases x with
  | error e => simp [Except.map]
  | ok a => simp [Except.map]

theorem mapM_map_comm {ε α α' β β' : Type} {f : α → Except ε β} {f' : α' → Except ε β'} {g : α → α'}
    {k : β → β'} (h : ∀ x, f' (g x) = (f x).map k) (xs : List α) :
    (xs.map g).mapM f' = (xs.mapM f).map (List.map k) := by
  induction xs with
  | nil => rfl
  | cons x xs ih =>
    rw [List.map_cons, List.mapM_cons, List.mapM_cons, ih, h]
    cases f x with
    | error e => rfl
    | ok y =>
      cases xs.mapM f with
      | error e => rfl
      | ok ys => rfl

theorem forall₂_of_mapM {ε α β : Type} {f : α → Except ε β} : ∀ {xs : List α} {ys : List β},
    xs.mapM f = .ok ys → List.Forall₂ (fun x y => f x = .ok y) xs ys
  | [], ys, h => by
    rw [List.mapM_nil] at h
    cases h
    exact .nil
  | x :: xs, ys, h => by
    rw [List.mapM_cons, bind_eq_ok_iff] at h
    obtain ⟨y, hy, h⟩ := h
    rw [bind_eq_ok_iff] at h
    obtain ⟨ys', hys, h⟩ := h
    cases h
    exact .cons hy (forall₂_of_mapM hys)

theorem mem_mapM {ε α β : Type} {f : α → Except ε β} {xs : List α} {ys : List β} {y : β} (h : xs.mapM f = .ok ys)
    (hy : y ∈ ys) : ∃ x ∈ xs, f x = .ok y := by
  replace h := forall₂_of_mapM h
  induction h with
  | nil => cases hy
  | cons hf _ ih =>
    rcases List.mem_cons.1 hy with rfl | hy
    · exact ⟨_, by simp, hf⟩
    · obtain ⟨x, hx, hf⟩ := ih hy
      exact ⟨x, List.mem_cons_of_mem _ hx, hf⟩

theorem exists_mapM {ε α β : Type} {f : α → Except ε β} {xs : List α} (h : ∀ x ∈ xs, ∃ y, f x = .ok y) :
    ∃ ys, xs.mapM f = .ok ys := by
  induction xs with
  | nil => exact ⟨[], rfl⟩
  | cons x xs ih =>
    obtain ⟨y, hy⟩ := h x (List.mem_cons_self ..)
    obtain ⟨ys, hys⟩ := ih fun x hx => h x (List.mem_cons_of_mem _ hx)
    refine ⟨y :: ys, ?_⟩
    rw [List.mapM_cons, hy, hys]
    rfl

/-- A check of each item, which fails in one way only. -/
theorem mapM_ite {ε α β : Type} {f : α → Except ε β} {g : α → β} {P : α → Prop} [DecidablePred P] {e : ε}
    (h : ∀ x, f x = if P x then .ok (g x) else .error e) (xs : List α) :
    xs.mapM f = if ∀ x ∈ xs, P x then .ok (xs.map g) else .error e := by
  induction xs with
  | nil => rfl
  | cons x xs ih =>
    rw [List.mapM_cons, h, ih]
    by_cases first : P x
    · by_cases rest : ∀ y ∈ xs, P y
      · rw [if_pos first, if_pos rest, if_pos (List.forall_mem_cons.2 ⟨first, rest⟩)]
        rfl
      · rw [if_pos first, if_neg rest, if_neg fun all => rest (List.forall_mem_cons.1 all).2]
        rfl
    · rw [if_neg first, if_neg fun all => first (List.forall_mem_cons.1 all).1]
      rfl

/-! ## Rows -/

theorem spreadOnto_map {α β : Type} {alone : α → Bool} {alone' : β → Bool} {g : α → β}
    (h : ∀ c, alone' (g c) = alone c) (cs pending : List α) :
    spreadOnto alone' (pending.map g) (cs.map g) = (spreadOnto alone pending cs).map (List.map g) := by
  have hflush : ∀ pending : List α, flush (pending.map g) = (flush pending).map (List.map g) := by
    intro pending
    cases pending <;> rfl
  induction cs generalizing pending with
  | nil => exact hflush pending
  | cons c cs ih =>
    have nil := ih []
    have single := ih [c]
    have more := ih (pending ++ [c])
    simp only [List.map_nil, List.map_cons, List.map_append] at nil single more
    simp only [List.map_cons, spreadOnto, h, List.length_map, hflush]
    split
    · rw [nil, List.map_append, List.map_cons, List.map_cons, List.map_nil]
    · split
      · rw [single, List.map_cons]
      · exact more

theorem spread_map {α β : Type} {alone : α → Bool} {alone' : β → Bool} {g : α → β}
    (h : ∀ c, alone' (g c) = alone c) (cs : List α) :
    spread alone' (cs.map g) = (spread alone cs).map (List.map g) := spreadOnto_map h cs []

/-! ## Controls that are turned off -/

/-- The control, disabled. -/
def Control.turnedOff : Control → Control
  | .menu customId placeholder options _ => .menu customId placeholder options true
  | .button role customId emoji style _ => .button role customId emoji style true

/-- The rendered control, disabled. -/
def Component.turnedOff : Component → Component
  | .menu customId placeholder options _ => .menu customId placeholder options true
  | .button customId style emoji _ => .button customId style emoji true

@[simp] theorem Component.isDisabled_turnedOff (k : Component) : k.turnedOff.isDisabled = true := by
  cases k <;> rfl

/-- Whether a control takes a row of its own. -/
def Control.isMenu : Control → Bool
  | .menu .. => true
  | .button .. => false

theorem Record.isMenu_toRecord (c : Control) : Record.isMenu c.toRecord = c.isMenu := by
  cases c <;> simp [Record.isMenu, Control.toRecord, Record.member, Table.get?, Control.isMenu]

@[simp] theorem Control.isMenu_turnedOff (c : Control) : c.turnedOff.isMenu = c.isMenu := by
  cases c <;> rfl

namespace Component

/-- The control, rendered. -/
def ofControl (c : Control) : Except Fault Component := ofRecord c.toRecord

theorem ofControl_menu (customId placeholder : String) (options : List MenuOption) (off : Bool) :
    ofControl (.menu customId placeholder options off) =
      (checkText 1 maxText (.text customId)).bind fun customId =>
        (checkText 0 maxPlaceholder (.text placeholder)).bind fun placeholder =>
          (checkOptions (.list (options.map fun o => .record o.toRecord))).map fun options =>
            .menu customId placeholder options off := rfl

theorem ofControl_button (role : Role) (customId : String) (emoji : Emoji) (style : Style) (off : Bool) :
    ofControl (.button role customId emoji style off) =
      (checkText 1 maxText (.text customId)).bind fun customId =>
        (checkStyle (.number style.number)).bind fun style =>
          (EmojiParts.ofValue emoji.toValue).map fun emoji => .button customId style emoji off := rfl

theorem ofControl_turnedOff (c : Control) : ofControl c.turnedOff = (ofControl c).map turnedOff := by
  cases c with
  | menu customId placeholder options off =>
    rw [Control.turnedOff, ofControl_menu, ofControl_menu]
    cases checkText 1 maxText (.text customId) with
    | error e => rfl
    | ok customId =>
      cases checkText 0 maxPlaceholder (.text placeholder) with
      | error e => rfl
      | ok placeholder => cases checkOptions (.list (options.map fun o => .record o.toRecord)) <;> rfl
  | button role customId emoji style off =>
    rw [Control.turnedOff, ofControl_button, ofControl_button]
    cases checkText 1 maxText (.text customId) with
    | error e => rfl
    | ok customId =>
      cases checkStyle (.number style.number) with
      | error e => rfl
      | ok style => cases EmojiParts.ofValue emoji.toValue <;> rfl

/-- The rows of controls, without the detour over records. -/
theorem rows_toRecord (cs : List Control) :
    rows (cs.map Control.toRecord) =
      (spread Control.isMenu cs).mapM fun row => row.mapM ofControl := by
  rw [rows, spread_map Record.isMenu_toRecord, List.mapM_map]
  congr 1
  funext row
  exact List.mapM_map

theorem rows_turnedOff (cs : List Control) :
    rows ((cs.map Control.turnedOff).map Control.toRecord) =
      (rows (cs.map Control.toRecord)).map (List.map (List.map turnedOff)) := by
  have row : ∀ row : List Control, ((row.map Control.turnedOff).mapM ofControl) =
      (row.mapM ofControl).map (List.map turnedOff) :=
    fun row => mapM_map_comm ofControl_turnedOff row
  rw [rows_toRecord, rows_toRecord, spread_map Control.isMenu_turnedOff]
  exact mapM_map_comm row _

/-- What is rendered in rows is each of the controls. -/
theorem mem_rows {cs : List Control} {rendered : ComponentRows} (h : rows (cs.map Control.toRecord) = .ok rendered)
    {k : Component} (hk : k ∈ rendered.flatten) : ∃ c ∈ cs, ofControl c = .ok k := by
  rw [rows_toRecord] at h
  obtain ⟨row, hrow, hk⟩ := List.mem_flatten.1 hk
  obtain ⟨controls, hc, hm⟩ := mem_mapM h hrow
  obtain ⟨c, hcc, hr⟩ := mem_mapM hm hk
  refine ⟨c, ?_, hr⟩
  rw [← flatten_spread Control.isMenu cs]
  exact List.mem_flatten.2 ⟨controls, hc, hcc⟩

/-- The menu has a row to itself, and those of the other controls are rendered as
they are without it. -/
theorem rows_menu_cons {c : Control} (hc : c.isMenu = true) (cs : List Control) :
    rows ((c :: cs).map Control.toRecord) =
      (ofControl c).bind fun k => (rows (cs.map Control.toRecord)).map ([k] :: ·) := by
  have hs : spread Control.isMenu (c :: cs) = [c] :: spread Control.isMenu cs := by
    simp [spread, spreadOnto, hc, flush]
  rw [rows_toRecord, rows_toRecord, hs, List.mapM_cons, List.mapM_cons, List.mapM_nil]
  cases ofControl c with
  | error e => rfl
  | ok k => cases (spread Control.isMenu cs).mapM fun row => row.mapM ofControl <;> rfl

end Component

namespace Layout

theorem exists_of_menu {l : Layout} {off : Bool} {c : Control} (h : l.menu off = .ok c) :
    ∃ placeholder options, c = .menu (customId l.session .select) placeholder options off := by
  rw [menu] at h
  obtain ⟨placeholder, -, h⟩ := bind_eq_ok_iff.1 h
  obtain ⟨options, -, h⟩ := bind_eq_ok_iff.1 h
  cases h
  exact ⟨placeholder, options, rfl⟩

/-- Buttons that are turned off no longer tell which of them had nothing to do. -/
theorem buttons_turnedOff (session : String) (config : Config) (idle idle' : Role → Bool) (off : Bool) :
    (buttons session config idle off).map Control.turnedOff = buttons session config idle' true := by
  rw [buttons, buttons, List.map_filterMap]
  congr 1
  funext role
  cases config.shows role with
  | false => rfl
  | true => cases config.emoji? role <;> rfl

theorem menu_turnedOff (l : Layout) (off : Bool) : l.menu true = (l.menu off).map Control.turnedOff := by
  rw [menu, menu]
  cases l.labelAt l.index maxPlaceholder with
  | error e => rfl
  | ok placeholder => cases l.menuOptions <;> rfl

/-- The controls that are off are the live ones, turned off. -/
theorem controls_turnedOff (l : Layout) (off : Bool) :
    l.controls true = (l.controls off).map (List.map Control.turnedOff) := by
  simp only [controls]
  rw [l.menu_turnedOff off, ← buttons_turnedOff l.session l.config _ _ off]
  split
  · cases l.menu off <;> rfl
  · rfl

/-- Rendering the controls that are off gives the live ones, turned off. -/
theorem render_turnedOff (l : Layout) (off : Bool) :
    l.render true = (l.render off).map (List.map (List.map Component.turnedOff)) := by
  rw [render, render, l.controls_turnedOff off]
  cases l.controls off with
  | error e => rfl
  | ok cs => exact Component.rows_turnedOff cs

end Layout

/-! ## When controls can be rendered

The buttons of a configuration can be rendered everywhere or nowhere. The menu
needs a page at the index, if there are any pages.
-/

namespace Layout

variable {l : Layout} {off : Bool} {rows : ComponentRows}

/-- The buttons of a configuration can be rendered. -/
def HasButtons (session : String) (config : Config) : Prop :=
  ∃ rows, Component.rows ((buttons session config (fun _ => false) false).map Control.toRecord) = .ok rows

theorem hasButtons_iff (session : String) (config : Config) (idle : Role → Bool) (off : Bool) :
    HasButtons session config ↔
      ∃ rows, Component.rows ((buttons session config idle off).map Control.toRecord) = .ok rows := by
  have live := Component.rows_turnedOff (buttons session config (fun _ => false) false)
  have same := Component.rows_turnedOff (buttons session config idle off)
  rw [buttons_turnedOff session config _ idle] at live same
  rw [live] at same
  rw [HasButtons]
  constructor
  · rintro ⟨rows, h⟩
    rw [h] at same
    obtain ⟨rows', h', -⟩ := map_eq_ok_iff.1 same.symm
    exact ⟨rows', h'⟩
  · rintro ⟨rows, h⟩
    rw [h] at same
    obtain ⟨rows', h', -⟩ := map_eq_ok_iff.1 same
    exact ⟨rows', h'⟩

/-- Controls can be rendered off if they can be rendered live, and the other way around. -/
theorem exists_render (h : l.render off = .ok rows) (off' : Bool) : ∃ rows', l.render off' = .ok rows' := by
  have turned := l.render_turnedOff off'
  rw [l.render_turnedOff off, h] at turned
  obtain ⟨rows', h', -⟩ := map_eq_ok_iff.1 turned.symm
  exact ⟨rows', h'⟩

theorem hasButtons_of_render (h : l.render off = .ok rows) : HasButtons l.session l.config := by
  rw [hasButtons_iff _ _ (idleAt (l.index = 0) (l.pages.length ≤ l.index + 1)) off]
  rw [render] at h
  obtain ⟨cs, hcs, h⟩ := bind_eq_ok_iff.1 h
  rw [controls] at hcs
  split at hcs
  · obtain ⟨menu, hm, rfl⟩ := map_eq_ok_iff.1 hcs
    obtain ⟨placeholder, options, rfl⟩ := exists_of_menu hm
    rw [Component.rows_menu_cons rfl] at h
    obtain ⟨k, -, h⟩ := bind_eq_ok_iff.1 h
    obtain ⟨rows', h', -⟩ := map_eq_ok_iff.1 h
    exact ⟨rows', h'⟩
  · cases hcs
    exact ⟨rows, h⟩

/-- Without a menu, the controls are the buttons. -/
theorem render_of_hasButtons (h : HasButtons l.session l.config)
    (bare : l.config.showSelectMenu = true → l.pages = []) (off : Bool) : ∃ rows, l.render off = .ok rows := by
  obtain ⟨rows, hr⟩ := (hasButtons_iff _ _ (idleAt (l.index = 0) (l.pages.length ≤ l.index + 1)) off).1 h
  have none : (l.config.showSelectMenu && !l.pages.isEmpty) = false := by
    cases hm : l.config.showSelectMenu with
    | false => rfl
    | true => simp [bare hm]
  refine ⟨rows, ?_⟩
  rw [render, controls, none]
  exact hr

/-- A menu names the page at the index, so there has to be one. -/
theorem render_eq_missing (shown : l.config.showSelectMenu = true) (pages : l.pages ≠ [])
    (outside : l.pages.length ≤ l.index) (off : Bool) : l.render off = .error .missing := by
  have some : (l.config.showSelectMenu && !l.pages.isEmpty) = true := by simp [shown, pages]
  have label : l.labelAt l.index maxPlaceholder = .error .missing := by
    rw [labelAt, List.getElem?_eq_none outside]
  simp only [render, controls, some, menu, label]
  rfl

end Layout

/-! ## Custom ids -/

/-- The custom id of a control. -/
def Control.customId : Control → String
  | .menu customId .. | .button _ customId .. => customId

/-- The role of a control. -/
def Control.role : Control → Role
  | .menu .. => .select
  | .button role .. => role

/-- The custom id of a rendered control. -/
def Component.customId : Component → String
  | .menu customId .. | .button customId .. => customId

theorem Component.checkText_eq_ok {least most : Nat} {text text' : String}
    (h : checkText least most (.text text) = .ok text') : text' = text := by
  rw [checkText] at h
  split at h
  · exact (Except.ok.inj h).symm
  · cases h

/-- A menu is rendered as it is, with its entries checked. -/
theorem Component.exists_of_menu {id placeholder : String} {options : List MenuOption} {off : Bool} {k : Component}
    (h : ofControl (.menu id placeholder options off) = .ok k) :
    ∃ options', checkOptions (.list (options.map fun o => .record o.toRecord)) = .ok options' ∧
      k = .menu id placeholder options' off := by
  rw [ofControl_menu] at h
  obtain ⟨id', hid, checked⟩ := bind_eq_ok_iff.1 h
  obtain ⟨placeholder', hp, checked⟩ := bind_eq_ok_iff.1 checked
  obtain ⟨options', ho, rfl⟩ := map_eq_ok_iff.1 checked
  rw [checkText_eq_ok hid, checkText_eq_ok hp]
  exact ⟨options', ho, rfl⟩

/-- A button is rendered with its style and emoji as the chat service takes them. -/
theorem Component.exists_of_button {role : Role} {id : String} {emoji : Emoji} {style : Style} {off : Bool} {k : Component}
    (h : ofControl (.button role id emoji style off) = .ok k) : ∃ style' emoji', k = .button id style' emoji' off := by
  rw [ofControl_button] at h
  obtain ⟨id', hid, checked⟩ := bind_eq_ok_iff.1 h
  obtain ⟨style', -, checked⟩ := bind_eq_ok_iff.1 checked
  obtain ⟨emoji', -, rfl⟩ := map_eq_ok_iff.1 checked
  rw [checkText_eq_ok hid]
  exact ⟨style', emoji', rfl⟩

/-- Rendering a control leaves its custom id as it is. -/
theorem Component.customId_ofControl {c : Control} {k : Component} (h : ofControl c = .ok k) :
    k.customId = c.customId := by
  cases c with
  | menu id placeholder options off =>
    obtain ⟨options', -, rfl⟩ := exists_of_menu h
    rfl
  | button role id emoji style off =>
    obtain ⟨style', emoji', rfl⟩ := exists_of_button h
    rfl

namespace Layout

variable {l : Layout} {off : Bool} {cs : List Control} {c : Control}

/-- The buttons are those of roles that have an emoji. -/
theorem exists_of_mem_buttons {session : String} {config : Config} {idle : Role → Bool}
    (h : c ∈ buttons session config idle off) : ∃ role emoji, config.emoji? role = some emoji ∧
      c = .button role (Folio.customId session role) emoji config.buttonStyle (off || idle role) := by
  rw [buttons, List.mem_filterMap] at h
  obtain ⟨role, -, h⟩ := h
  split at h
  · obtain ⟨emoji, he, rfl⟩ := Option.map_eq_some_iff.1 h
    exact ⟨role, emoji, he, rfl⟩
  · cases h

theorem customId_buttons {session : String} {config : Config} {idle : Role → Bool}
    (h : c ∈ buttons session config idle off) : c.customId = Folio.customId session c.role := by
  obtain ⟨role, emoji, -, rfl⟩ := exists_of_mem_buttons h
  rfl

/-- The custom id of a control is that of its role in the session. -/
theorem customId_controls (h : l.controls off = .ok cs) (hc : c ∈ cs) :
    c.customId = Folio.customId l.session c.role := by
  rw [controls] at h
  split at h
  · obtain ⟨menu, hm, rfl⟩ := map_eq_ok_iff.1 h
    rcases List.mem_cons.1 hc with rfl | hc
    · obtain ⟨placeholder, options, rfl⟩ := exists_of_menu hm
      rfl
    · exact customId_buttons hc
  · cases h
    exact customId_buttons hc

/-- What is rendered is each of the controls. -/
theorem mem_render {rows : ComponentRows} (h : l.render off = .ok rows) {k : Component} (hk : k ∈ rows.flatten) :
    ∃ cs, l.controls off = .ok cs ∧ ∃ c ∈ cs, Component.ofControl c = .ok k := by
  rw [render] at h
  obtain ⟨cs, hc, h⟩ := bind_eq_ok_iff.1 h
  exact ⟨cs, hc, Component.mem_rows h hk⟩

end Layout

/-! ## Payloads -/

/-- The controls of a payload. -/
def Payload.rows : Payload → ComponentRows
  | .page _ rows | .controls rows => rows
  | .notice _ => []

/-- All controls of a payload are disabled. -/
def Payload.IsOff (payload : Payload) : Prop := ∀ k ∈ payload.rows.flatten, k.isDisabled = true

theorem isDisabled_turnedOff_rows {rows : ComponentRows} {k : Component}
    (h : k ∈ (rows.map (List.map Component.turnedOff)).flatten) : k.isDisabled = true := by
  rw [← List.map_flatten] at h
  obtain ⟨k', -, rfl⟩ := List.mem_map.1 h
  exact k'.isDisabled_turnedOff

/-- What is rendered off is off. -/
theorem Layout.isDisabled_of_render {l : Layout} {rows : ComponentRows} (h : l.render true = .ok rows)
    {k : Component} (hk : k ∈ rows.flatten) : k.isDisabled = true := by
  rw [l.render_turnedOff false] at h
  obtain ⟨live, -, rfl⟩ := map_eq_ok_iff.1 h
  exact isDisabled_turnedOff_rows hk

theorem Layout.render_of_payload {l : Layout} {off : Bool} {payload : Payload} (h : l.payload off = .ok payload) :
    l.render off = .ok payload.rows := by
  rw [Layout.payload] at h
  split at h
  · cases h
  · obtain ⟨embed, -, h⟩ := bind_eq_ok_iff.1 h
    obtain ⟨rows, hr, h⟩ := bind_eq_ok_iff.1 h
    cases h
    exact hr

/-- What is rendered is a page. -/
theorem Layout.exists_page_of_payload {l : Layout} {off : Bool} {payload : Payload} (h : l.payload off = .ok payload) :
    ∃ embed rows, payload = .page embed rows := by
  rw [Layout.payload] at h
  split at h
  · cases h
  · obtain ⟨embed, -, h⟩ := bind_eq_ok_iff.1 h
    obtain ⟨rows, -, h⟩ := bind_eq_ok_iff.1 h
    exact ⟨embed, rows, (Except.ok.inj h).symm⟩

end Folio
