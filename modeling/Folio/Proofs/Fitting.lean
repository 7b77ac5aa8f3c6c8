/-
Which controls can be rendered. A menu can, just if its texts and those of its entries
are within the limits of the chat service (`ofControl_menu_eq`); a button can if its
custom id is and its emoji is one. Rows can be rendered if each of their controls can,
so above buttons that can be rendered all depends on the menu (`Layout.render_iff_fits`).
-/
import Folio.Proofs.Layout
import Folio.Proofs.Text.Wide

namespace Folio

open Text

/-! ## Menus -/

/-- A text that is not empty and within the limit of a custom id, a label or a value. -/
def Fits (text : String) : Prop := 1 ≤ unitLength text ∧ unitLength text ≤ Component.maxText

instance (text : String) : Decidable (Fits text) := inferInstanceAs (Decidable (_ ∧ _))

/-- An entry that a menu takes. -/
def MenuOption.Fits (o : MenuOption) : Prop := Folio.Fits o.label ∧ Folio.Fits o.value

instance (o : MenuOption) : Decidable o.Fits := inferInstanceAs (Decidable (_ ∧ _))

namespace Component

theorem checkText_of_fits {text : String} (h : Fits text) : checkText 1 maxText (.text text) = .ok text := if_pos h

theorem checkOption_eq (o : MenuOption) :
    checkOption (.record o.toRecord) = if o.Fits then .ok o else .error (.part .badLength) := by
  have label : checkText 1 maxText (.text o.label) = if Folio.Fits o.label then .ok o.label else .error (.part .badLength) := rfl
  have value : checkText 1 maxText (.text o.value) = if Folio.Fits o.value then .ok o.value else .error (.part .badLength) := rfl
  rw [checkOption_toRecord, label, value]
  by_cases hl : Folio.Fits o.label
  · by_cases hv : Folio.Fits o.value
    · rw [if_pos hl, if_pos hv, if_pos ⟨hl, hv⟩]
      rfl
    · have unfit : ¬o.Fits := fun h => hv h.2
      rw [if_pos hl, if_neg hv, if_neg unfit]
      rfl
  · have unfit : ¬o.Fits := fun h => hl h.1
    rw [if_neg hl, if_neg unfit]
    rfl

theorem checkOptions_eq {options : List MenuOption} (few : options.length ≤ maxMenuOptions) :
    checkOptions (.list (options.map fun o => .record o.toRecord)) =
      if ∀ o ∈ options, o.Fits then .ok options else .error (.part .badLength) := by
  rw [checkOptions, List.mapM_map]
  have each := mapM_ite (g := id) checkOption_eq options
  rw [List.map_id] at each
  have same : (options.mapM (checkOption ∘ fun o => .record o.toRecord)) =
      if ∀ o ∈ options, o.Fits then .ok options else .error (.part .badLength) := each
  rw [same]
  split
  · show (if options.length ≤ maxMenuOptions then _ else _) = _
    rw [if_pos few]
  · rfl

/-- A menu that is bound can be rendered just if its texts fit. -/
theorem ofControl_menu_eq {id placeholder : String} {options : List MenuOption} (bound : Fits id)
    (few : options.length ≤ maxMenuOptions) (off : Bool) :
    ofControl (.menu id placeholder options off) =
      if unitLength placeholder ≤ maxPlaceholder ∧ ∀ o ∈ options, o.Fits
        then .ok (.menu id placeholder options off) else .error (.part .badLength) := by
  rw [ofControl_menu, checkText_of_fits bound, checkOptions_eq few, checkText]
  by_cases room : unitLength placeholder ≤ maxPlaceholder
  · have within : 0 ≤ unitLength placeholder ∧ unitLength placeholder ≤ maxPlaceholder := ⟨Nat.zero_le _, room⟩
    rw [if_pos within]
    by_cases all : ∀ o ∈ options, o.Fits
    · rw [if_pos all, if_pos ⟨room, all⟩]
      rfl
    · have unfit : ¬(unitLength placeholder ≤ maxPlaceholder ∧ ∀ o ∈ options, o.Fits) := fun h => all h.2
      rw [if_neg all, if_neg unfit]
      rfl
  · have beyond : ¬(0 ≤ unitLength placeholder ∧ unitLength placeholder ≤ maxPlaceholder) := fun h => room h.2
    have unfit : ¬(unitLength placeholder ≤ maxPlaceholder ∧ ∀ o ∈ options, o.Fits) := fun h => room h.1
    rw [if_neg beyond, if_neg unfit]
    rfl

/-! ## Buttons -/

theorem checkStyle_number (style : Style) : checkStyle (.number style.number) = .ok style.number := by
  cases style <;> decide +kernel

/-- A button that is bound can be rendered if it has an emoji. -/
theorem exists_ofControl_button {role : Role} {id : String} {emoji : Emoji} {style : Style} (bound : Fits id)
    (drawn : ∃ parts, EmojiParts.ofValue emoji.toValue = .ok parts) (off : Bool) :
    ∃ k, ofControl (.button role id emoji style off) = .ok k := by
  obtain ⟨parts, hp⟩ := drawn
  rw [ofControl_button, checkText_of_fits bound, checkStyle_number, hp]
  exact ⟨_, rfl⟩

/-- Rows can be rendered if each of their controls can. -/
theorem exists_rows {cs : List Control} (h : ∀ c ∈ cs, ∃ k, ofControl c = .ok k) :
    ∃ rendered, rows (cs.map Control.toRecord) = .ok rendered := by
  rw [rows_toRecord]
  refine exists_mapM fun row hrow => exists_mapM fun c hc => h c ?_
  rw [← flatten_spread Control.isMenu cs]
  exact List.mem_flatten.2 ⟨row, hrow, hc⟩

end Component

/-- The custom ids of a session are as long as the names of its roles let them. -/
theorem fits_customId {session : String} (short : unitLength session + 9 ≤ Component.maxText) (role : Role) :
    Fits (customId session role) := by
  have name : 1 ≤ unitLength (String.ofList (bar :: role.name.toList)) ∧
      unitLength (String.ofList (bar :: role.name.toList)) ≤ 9 := by
    cases role <;> decide
  rw [Fits, customId, boundId, unitLength_append]
  omega

namespace Layout

variable {l : Layout} {off : Bool} {session : String} {config : Config}

/-- The buttons of a configuration whose emoji are emoji. -/
theorem hasButtons_of_drawn (short : unitLength session + 9 ≤ Component.maxText)
    (drawn : ∀ role emoji, config.emoji? role = some emoji → ∃ parts, EmojiParts.ofValue emoji.toValue = .ok parts) :
    HasButtons session config := by
  refine Component.exists_rows fun c hc => ?_
  obtain ⟨role, emoji, he, rfl⟩ := exists_of_mem_buttons hc
  exact Component.exists_ofControl_button (fits_customId short role) (drawn role emoji he) _

theorem drawn_default (role : Role) (emoji : Emoji) (h : Config.default.emoji? role = some emoji) :
    ∃ parts, EmojiParts.ofValue emoji.toValue = .ok parts := by
  cases role with
  | select => cases h
  | first | back | callback | next | last =>
    obtain rfl := Option.some.inj h
    exact ⟨_, rfl⟩

/-! ## A menu above buttons -/

variable {placeholder : String} {options : List MenuOption}

/-- The controls where a menu is shown. -/
theorem controls_eq (pages : l.pages ≠ []) (shown : l.config.showSelectMenu = true)
    (named : l.labelAt l.index maxPlaceholder = .ok placeholder) (made : l.menuOptions = .ok options) (off : Bool) :
    l.controls off = .ok (.menu (Folio.customId l.session .select) placeholder options off ::
      buttons l.session l.config l.isIdle off) := by
  have some : (l.config.showSelectMenu && !l.pages.isEmpty) = true := by simp [shown, pages]
  rw [controls, if_pos some, menu, named, made]
  rfl

/-- A menu fails alone, before the buttons. -/
theorem render_eq {c : Control} (menu : c.isMenu = true) (made : l.controls off = .ok (c :: buttons l.session l.config l.isIdle off))
    (ready : HasButtons l.session l.config) : ∃ row, l.render off = (Component.ofControl c).map ([·] :: row) := by
  obtain ⟨row, hr⟩ := (hasButtons_iff _ _ l.isIdle off).1 ready
  refine ⟨row, ?_⟩
  rw [render, made]
  show Component.rows ((c :: buttons l.session l.config l.isIdle off).map Control.toRecord) = _
  rw [Component.rows_menu_cons menu, hr]
  cases Component.ofControl c <;> rfl

/-- A menu beside buttons that can be rendered can be as well, just if its texts fit. -/
theorem render_iff_fits (pages : l.pages ≠ []) (shown : l.config.showSelectMenu = true)
    (short : unitLength l.session + 9 ≤ Component.maxText) (ready : HasButtons l.session l.config)
    (named : l.labelAt l.index maxPlaceholder = .ok placeholder) (made : l.menuOptions = .ok options)
    (count : options.length ≤ maxMenuOptions) (off : Bool) :
    if unitLength placeholder ≤ maxPlaceholder ∧ ∀ o ∈ options, o.Fits
      then ∃ rows, l.render off = .ok rows else l.render off = .error (.part .badLength) := by
  obtain ⟨row, rendered⟩ := render_eq rfl (controls_eq pages shown named made off) ready
  rw [Component.ofControl_menu_eq (fits_customId short .select) count] at rendered
  split
  next fits => exact ⟨_, by rw [rendered, if_pos fits]; rfl⟩
  next unfit => rw [rendered, if_neg unfit]; rfl

end Layout

end Folio
