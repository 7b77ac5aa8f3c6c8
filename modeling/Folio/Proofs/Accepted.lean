/-
Whether a configuration that was accepted can be rendered. Its style and flags are those of
a button, and short titles make a menu that fits. What is left are the emoji: any text that
is not empty is accepted, but not every one is read. So rendering goes as reading the emoji
of the buttons does, one after the other (`Layout.render_accepted`).
-/
import Folio.Proofs.Config.Schema
import Folio.Proofs.Emoji
import Folio.Proofs.MenuLimits

namespace Folio

open Text

/-! ## Emoji -/

/-- Whether an emoji of a configuration stands for one, as parts always do. -/
def Emoji.Resolves : Emoji → Prop
  | .text s => EmojiParts.IsEmoji s.toList
  | .parts _ => True

instance (e : Emoji) : Decidable e.Resolves :=
  match e with
  | .text s => inferInstanceAs (Decidable (EmojiParts.IsEmoji s.toList))
  | .parts _ => inferInstanceAs (Decidable True)

theorem EmojiParts.ofValue_parts (p : EmojiParts) : ofValue (.record p.toRecord) = .ok p := by
  have read := (Config.ofKnown?_iff_same p.toRecord_known).2 fun _ => rfl
  have none := Config.unknown_eq_nil_iff.2 p.toRecord_known
  simp only [ofValue, read, none, if_pos]

theorem Emoji.ofValue_spec {e : Emoji} (given : e ≠ .text "") :
    (e.Resolves ∧ ∃ parts, EmojiParts.ofValue e.toValue = .ok parts) ∨
      (¬e.Resolves ∧ ∃ s, e = .text s ∧
        EmojiParts.ofValue e.toValue = .error (EmojiParts.textFault s.toList)) := by
  cases e with
  | parts p => exact .inl ⟨trivial, p, p.ofValue_parts⟩
  | text s =>
    have some : s.toList ≠ [] := fun none => given (congrArg Emoji.text (String.toList_inj.1 none))
    exact (EmojiParts.ofText_spec some).imp_right fun ⟨other, fault⟩ => ⟨other, s, rfl, fault⟩

namespace Config

variable {r : Record} {c : Config} {role : Role} {e : Emoji}

/-- The emoji that are read are not empty. -/
theorem Reads.given (h : Reads r c) (its : c.emoji? role = some e) : e ≠ .text "" := by
  have given : ∀ {v : Value} {e : Emoji}, checkEmoji v = .ok e → e ≠ .text "" := by
    rintro v e checked rfl
    exact nomatch checkEmoji_toValue checked
  cases role with
  | select => cases its
  | first => exact Option.some.inj its ▸ given h.firstEmoji
  | back => exact Option.some.inj its ▸ given h.backEmoji
  | callback => exact Option.some.inj its ▸ given h.callbackEmoji
  | next => exact Option.some.inj its ▸ given h.nextEmoji
  | last => exact Option.some.inj its ▸ given h.lastEmoji

/-- The buttons that a configuration shows, by their roles and emoji. -/
def shownButtons (c : Config) : List (Role × Emoji) :=
  Role.all.filterMap fun role => if c.shows role then (c.emoji? role).map (Prod.mk role) else none

theorem emoji?_of_mem {b : Role × Emoji} (h : b ∈ c.shownButtons) : c.emoji? b.1 = some b.2 := by
  obtain ⟨role, -, its⟩ := List.mem_filterMap.1 h
  split at its
  · obtain ⟨e, found, rfl⟩ := Option.map_eq_some_iff.1 its
    exact found
  · cases its

end Config

/-! ## Rows -/

section

variable {ε α β γ : Type}

/-- The first item that fails. -/
theorem mapM_eq_error {f : α → Except ε β} {before after : List α} {x : α} {fault : ε}
    (ready : ∀ y ∈ before, ∃ z, f y = .ok z) (fails : f x = .error fault) :
    (before ++ x :: after).mapM f = .error fault := by
  obtain ⟨zs, made⟩ := exists_mapM ready
  rw [List.mapM_append, made, List.mapM_cons, fails]
  rfl

theorem exists_of_mapM {f : α → Except ε β} {xs : List α} {ys : List β} {x : α}
    (h : xs.mapM f = .ok ys) (hx : x ∈ xs) : ∃ y, f x = .ok y := by
  replace h := forall₂_of_mapM h
  induction h with
  | nil => cases hx
  | cons hf _ ih =>
    rcases List.mem_cons.1 hx with rfl | hx
    · exact ⟨_, hf⟩
    · exact ih hx

theorem exists_mapM_iff {f : α → Except ε β} {xs : List α} :
    (∃ ys, xs.mapM f = .ok ys) ↔ ∀ x ∈ xs, ∃ y, f x = .ok y :=
  ⟨fun h _ hx => h.elim fun _ made => exists_of_mapM made hx, exists_mapM⟩

variable {x : Except ε α} {y : Except ε β} {f : α → γ} {g : β → γ}

/-- Of two that come to the same, both succeed or none. -/
theorem exists_ok_iff_of_map (same : x.map f = y.map g) : (∃ a, x = .ok a) ↔ ∃ b, y = .ok b := by
  cases x <;> cases y <;> simp_all [Except.map]

theorem eq_error_iff_of_map (same : x.map f = y.map g) {fault : ε} : x = .error fault ↔ y = .error fault := by
  cases x <;> cases y <;> simp_all [Except.map]

/-- Rows go as their items do, in order. -/
theorem mapM_flatten (f : α → Except ε β) (rows : List (List α)) :
    rows.flatten.mapM f = (rows.mapM fun row : List α => row.mapM f).map List.flatten := by
  induction rows with
  | nil => rfl
  | cons row rows ih =>
    rw [List.flatten_cons, List.mapM_append, List.mapM_cons, ih]
    cases row.mapM f with
    | error fault => rfl
    | ok made => cases rows.mapM fun row : List α => row.mapM f <;> rfl

end

namespace Component

/-- A button that is bound can be rendered just if its emoji can be read. -/
theorem ofControl_button_eq {role : Role} {id : String} {emoji : Emoji} {style : Style} (bound : Fits id) (off : Bool) :
    ofControl (.button role id emoji style off) =
      (EmojiParts.ofValue emoji.toValue).map fun parts => .button id style.number parts off := by
  rw [ofControl_button, checkText_of_fits bound, checkStyle_number]
  rfl

theorem map_flatten_rows (cs : List Control) : (rows (cs.map Control.toRecord)).map List.flatten = cs.mapM ofControl := by
  rw [rows_toRecord, ← mapM_flatten, flatten_spread]

end Component

namespace Layout

variable {l : Layout} {off : Bool}

/-- The button of a role that a configuration shows. -/
def shownButton (l : Layout) (off : Bool) (b : Role × Emoji) : Control :=
  .button b.1 (Folio.customId l.session b.1) b.2 l.config.buttonStyle (off || l.isIdle b.1)

theorem buttons_eq (l : Layout) (off : Bool) :
    buttons l.session l.config l.isIdle off = l.config.shownButtons.map (l.shownButton off) := by
  rw [buttons, Config.shownButtons, List.map_filterMap]
  congr 1
  funext role
  split
  · rw [Option.map_map]
    rfl
  · rfl

/-- A button that is shown can be rendered, or its emoji is none and that is the fault. -/
theorem shownButton_spec {r : Record} {b : Role × Emoji} (reads : Config.Reads r l.config)
    (short : unitLength l.session + 9 ≤ Component.maxText) (off : Bool) (hb : b ∈ l.config.shownButtons) :
    (b.2.Resolves ∧ ∃ k, Component.ofControl (l.shownButton off b) = .ok k) ∨
      (¬b.2.Resolves ∧ ∃ s, b.2 = .text s ∧
        Component.ofControl (l.shownButton off b) = .error (EmojiParts.textFault s.toList)) := by
  have made : Component.ofControl (l.shownButton off b) = _ :=
    Component.ofControl_button_eq (fits_customId short b.1) _
  rw [made]
  refine (Emoji.ofValue_spec (reads.given (Config.emoji?_of_mem hb))).imp ?_ ?_
  · rintro ⟨resolves, parts, read⟩
    rw [read]
    exact ⟨resolves, _, rfl⟩
  · rintro ⟨other, s, its, fault⟩
    rw [fault]
    exact ⟨other, s, its, rfl⟩

/-- Below a menu that fits all depends on the buttons. -/
theorem render_eq_buttons (inside : l.index < l.pages.length) (few : l.pages.length ≤ 2 ^ 53)
    (written : ∀ page ∈ l.pages, page.IsWritten) (narrow : l.HasNarrowTitles)
    (short : unitLength l.session + 9 ≤ Component.maxText) (off : Bool) :
    ∃ top, l.render off =
      (Component.rows ((buttons l.session l.config l.isIdle off).map Control.toRecord)).map (top ++ ·) := by
  have pages : l.pages ≠ [] := List.ne_nil_of_length_pos (Nat.zero_lt_of_lt inside)
  cases shown : l.config.showSelectMenu with
  | false =>
    refine ⟨[], ?_⟩
    have bare : l.controls off = .ok (buttons l.session l.config l.isIdle off) := by
      rw [controls, shown]
      rfl
    rw [render, bare]
    show Component.rows _ = _
    cases Component.rows ((buttons l.session l.config l.isIdle off).map Control.toRecord) <;> rfl
  | true =>
    obtain ⟨placeholder, named, front⟩ := labelAt_spec inside few written maxPlaceholder
    obtain ⟨options, made, count, each⟩ := menuOptions_spec inside few written
    have room : unitLength placeholder ≤ maxPlaceholder := front.unitLength_le (by omega) (by decide) narrow
    have fit : ∀ o ∈ options, o.Fits := fun o ho => by
      obtain ⟨i, hi, label, value⟩ := each o ho
      exact (label.fits_iff (by omega) value).2 (label.unitLength_le (by omega) (by decide) narrow)
    let menu : Control := .menu (Folio.customId l.session .select) placeholder options off
    obtain ⟨k, rendered⟩ : ∃ k, Component.ofControl menu = .ok k :=
      ⟨_, (Component.ofControl_menu_eq (fits_customId short .select) count off).trans (if_pos ⟨room, fit⟩)⟩
    refine ⟨[[k]], ?_⟩
    rw [render, controls_eq pages shown named made off]
    show Component.rows ((menu :: buttons l.session l.config l.isIdle off).map Control.toRecord) = _
    rw [Component.rows_menu_cons rfl, rendered]
    rfl

/-- Below a menu that fits the buttons are rendered one after the other. -/
theorem map_flatten_render (inside : l.index < l.pages.length) (few : l.pages.length ≤ 2 ^ 53)
    (written : ∀ page ∈ l.pages, page.IsWritten) (narrow : l.HasNarrowTitles)
    (short : unitLength l.session + 9 ≤ Component.maxText) (off : Bool) :
    ∃ menu, (l.render off).map List.flatten =
      (l.config.shownButtons.mapM fun b => Component.ofControl (l.shownButton off b)).map (menu ++ ·) := by
  obtain ⟨top, rendered⟩ := render_eq_buttons inside few written narrow short off
  have same : l.config.shownButtons.mapM (fun b => Component.ofControl (l.shownButton off b)) =
      (Component.rows ((buttons l.session l.config l.isIdle off).map Control.toRecord)).map List.flatten := by
    rw [Component.map_flatten_rows, buttons_eq, List.mapM_map]
    rfl
  refine ⟨top.flatten, ?_⟩
  rw [rendered, same]
  cases Component.rows ((buttons l.session l.config l.isIdle off).map Control.toRecord) with
  | error fault => rfl
  | ok rows => exact congrArg Except.ok List.flatten_append

/-- **An accepted configuration can be rendered, just if its emoji can be read.** At any page,
among pages with short titles, the controls of a configuration that was accepted can be
rendered exactly if the emoji of each button that is shown stands for one. If not, the first
that does not is the fault, so that it shows only now. Texts with neither an escape nor a
colon stand for themselves, so with those, and with parts, rendering succeeds. -/
theorem render_accepted {env : Environment} {overrides : Value} (accepted : Config.resolveValue env overrides = .ok l.config)
    (inside : l.index < l.pages.length) (few : l.pages.length ≤ 2 ^ 53) (written : ∀ page ∈ l.pages, page.IsWritten)
    (titles : ∀ page ∈ l.pages, ∀ title, page.heading = some title → unitLength title ≤ 60)
    (short : unitLength l.session + 9 ≤ Component.maxText) (off : Bool) :
    ((∃ rows, l.render off = .ok rows) ↔ ∀ b ∈ l.config.shownButtons, b.2.Resolves) ∧
    (∀ before b after, l.config.shownButtons = before ++ b :: after →
      (∀ b' ∈ before, b'.2.Resolves) → ¬b.2.Resolves →
        ∃ s, b.2 = .text s ∧ l.render off = .error (EmojiParts.textFault s.toList)) ∧
    ((∀ b ∈ l.config.shownButtons, ∀ s, b.2 = .text s → '%' ∉ s.toList ∧ ':' ∉ s.toList) →
      ∃ rows, l.render off = .ok rows) := by
  obtain ⟨r, reads⟩ := Config.reads_of_resolveValue accepted
  have narrow : l.HasNarrowTitles := fun page hp title ht => .inr (Nat.le_trans (titles page hp title ht) (by decide))
  obtain ⟨menu, rendered⟩ := map_flatten_render inside few written narrow short off
  have ready : ∀ b ∈ l.config.shownButtons,
      (∃ k, Component.ofControl (l.shownButton off b) = .ok k) ↔ b.2.Resolves := by
    intro b hb
    rcases shownButton_spec reads short off hb with ⟨resolves, made⟩ | ⟨other, s, -, fault⟩
    · exact iff_of_true made resolves
    · exact iff_of_false (by simp [fault]) other
  have renders : (∃ rows, l.render off = .ok rows) ↔ ∀ b ∈ l.config.shownButtons, b.2.Resolves := by
    rw [exists_ok_iff_of_map rendered, exists_mapM_iff]
    exact forall₂_congr ready
  refine ⟨renders, fun before b after split resolve other => ?_, fun plain => renders.2 fun b hb => ?_⟩
  · have mem : ∀ b' ∈ before ++ [b], b' ∈ l.config.shownButtons := fun b' hb' => by
      rw [split, List.append_cons]
      exact List.mem_append_left after hb'
    obtain ⟨resolves, -⟩ | ⟨-, s, its, fault⟩ := shownButton_spec reads short off (mem b (by simp))
    · exact absurd resolves other
    · refine ⟨s, its, (eq_error_iff_of_map rendered).2 ?_⟩
      rw [split]
      exact mapM_eq_error (fun b' hb' => (ready b' (mem b' (by simp [hb']))).2 (resolve b' hb')) fault
  · obtain ⟨role, e⟩ := b
    cases e with
    | parts p => trivial
    | text s => exact EmojiParts.isEmoji_of_plain (plain _ hb s rfl).1 (plain _ hb s rfl).2

/-- One page under the controls of a configuration. -/
def plain (config : Config) : Layout where
  session := "s"
  pages := [Page.ofText "hello" "" "" ""]
  index := 0
  config := config

/-- A mention under a menu. -/
theorem render_accepted_mention :
    let env := [("PAGINATOR_DEFAULT_COLOR", "#ff0000")]
    let overrides : Value := .record [("showSelectMenu", .bool true), ("nextEmoji", .text ":soon:")]
    ∃ config, Config.resolveValue env overrides = .ok config ∧ (∀ b ∈ config.shownButtons, b.2.Resolves) ∧
      ∃ rows, (plain config).render false = .ok rows := by
  intro env overrides
  let config : Config :=
    { Config.default with showSelectMenu := true, nextEmoji := .text ":soon:", defaultColor := 0xff0000 }
  have accepted : Config.resolveValue env overrides = .ok (plain config).config := rfl
  have written : ∀ page ∈ (plain config).pages, page.IsWritten := fun page hp => by
    obtain rfl := List.mem_singleton.1 hp
    trivial
  have titles : ∀ page ∈ (plain config).pages, ∀ title, page.heading = some title → unitLength title ≤ 60 := by
    intro page hp title ht
    obtain rfl := List.mem_singleton.1 hp
    cases ht
  have resolve : ∀ b ∈ config.shownButtons, b.2.Resolves := by decide +kernel
  obtain ⟨renders, -, -⟩ := render_accepted accepted (by decide) (by decide) written titles (by decide) false
  exact ⟨config, accepted, resolve, renders.2 resolve⟩

/-- A colon is accepted as an emoji, but it is none. -/
theorem accepted_not_always_rendered : ∃ config,
    Config.resolveValue [] (.record [("nextEmoji", .text ":")]) = .ok config ∧
      (plain config).render false = .error (.part .notEmoji) :=
  ⟨{ Config.default with nextEmoji := .text ":" }, rfl, rfl⟩

end Layout

end Folio
