/-
The menu against the limits of the chat service. Labels and the placeholder are clipped
to those limits in characters, but the service counts units. So a menu can be rendered
just if no label or placeholder has too many wide characters (`Layout.menu_limits`).
Only titles can bring so many: the names that are made up for pages without one are
short (`Page.summary_spec`).
-/
import Folio.Proofs.Fitting
import Folio.Proofs.Text.Shorten

namespace Folio

open Text

/-! ## Clipping -/

theorem length_clip_le {most : Nat} (pos : 0 < most) (text : String) : (clip most text).length ≤ most := by
  rw [clip]
  split
  next short => exact short
  next long =>
    rw [String.length_ofList, List.length_append, List.length_take]
    have one : ['…'].length = 1 := rfl
    omega

theorem length_clip_pos {most : Nat} {text : String} (h : 0 < text.length) : 0 < (clip most text).length := by
  rw [clip]
  split
  next => exact h
  next =>
    rw [String.length_ofList, List.length_append]
    exact Nat.succ_pos _

theorem wideCount_clip_le (most : Nat) (text : String) : wideCount (clip most text) ≤ wideCount text := by
  rw [clip]
  split
  · exact le_refl _
  · rw [wideCount, String.toList_ofList, List.countP_append]
    exact (List.take_sublist _ _).countP_le

/-- Clipping to a limit in characters meets it in units as well, for texts without wide
characters and for those that are not clipped. -/
theorem unitLength_clip_le {most : Nat} (pos : 0 < most) {text : String}
    (h : wideCount text = 0 ∨ unitLength text ≤ most) : unitLength (clip most text) ≤ most := by
  rcases h with narrow | short
  · have length := length_clip_le pos text
    have wide := wideCount_clip_le most text
    rw [unitLength_eq]
    omega
  · have fits : text.length ≤ most := by
      rw [unitLength_eq] at short
      omega
    rw [clip, if_pos fits]
    exact short

/-! ## Names -/

/-- A number that is one in double precision as well has few digits. -/
theorem unitLength_toString_le {n : Nat} (few : n ≤ 2 ^ 53) : unitLength (toString n) ≤ 16 := by
  have digits : (Nat.toDigits 10 n).length ≤ 16 := (Nat.length_toDigits_le_iff (by decide) (by decide)).2 (by omega)
  have chars : (toString n).toList = Nat.toDigits 10 n := String.toList_ofList
  rw [unitLength_eq, wideCount_toString, ← String.length_toList, chars]
  exact digits

namespace Page

/-- The title that a menu shows for a page. -/
def heading : Page → Option String
  | .text page => page.title
  | .embed e => if e.title.isGiven then some e.title.display else none

/-- If an embed has a description in place of a title, it is a text. -/
def IsWritten : Page → Prop
  | .text _ => True
  | .embed e => e.title.isGiven = false → e.description.isGiven = true → ∃ s, e.description = .text s

/-- The units that the name of a page without a title may have. -/
theorem unitLength_summary_le (text : List Char) :
    unitLength (String.ofList (shorten summaryWidth text)) ≤ 2 * summaryWidth := by
  have width := length_shorten_le summaryWidth text
  have wide := wideCount_le_length (String.ofList (shorten summaryWidth text))
  have forty : summaryWidth = 40 := rfl
  rw [unitLength_eq]
  rw [String.length_ofList] at wide ⊢
  omega

/-- A page is named by its title, or shortly. -/
theorem summary_spec {page : Page} (written : page.IsWritten) {index : Nat} (few : index < 2 ^ 53) :
    ∃ name, page.summary index = .ok name ∧
      (page.heading = some name.display ∨ page.heading = none ∧ unitLength name.display ≤ 2 * summaryWidth) := by
  cases page with
  | text t =>
    cases ht : t.title with
    | some title => exact ⟨.text title, by rw [summary, summaryOr, ht], .inl ht⟩
    | none =>
      refine ⟨.text (String.ofList (shorten summaryWidth t.content.toList)), ?_, .inr ⟨ht, ?_⟩⟩
      · rw [summary, summaryOr, ht]
      · exact unitLength_summary_le _
  | embed e =>
    cases titled : e.title.isGiven with
    | true => exact ⟨e.title, by rw [summary, summaryOr, if_pos titled], .inl (if_pos titled)⟩
    | false =>
      have untitled : heading (.embed e) = none := by rw [heading, titled]; rfl
      cases described : e.description.isGiven with
      | true =>
        obtain ⟨s, hs⟩ := written titled described
        refine ⟨.text (String.ofList (shorten summaryWidth s.toList)), ?_, .inr ⟨untitled, ?_⟩⟩
        · rw [summary, summaryOr, titled, described, hs]
          rfl
        · exact unitLength_summary_le _
      | false =>
        refine ⟨.text (defaultSummary index), ?_, .inr ⟨untitled, ?_⟩⟩
        · rw [summary, summaryOr, titled, described]
          rfl
        · have digits : unitLength (toString (index + 1)) ≤ 16 := unitLength_toString_le (by omega)
          have front : unitLength "Page " = 5 := rfl
          have width : summaryWidth = 40 := rfl
          rw [Value.display, defaultSummary, unitLength_append]
          omega

end Page

/-! ## Labels -/

namespace Layout

variable {l : Layout} {off : Bool} {most i : Nat} {text : String}

/-- A text is what an index is called: its number and the name of a page, clipped. -/
def IsLabel (l : Layout) (most i : Nat) (text : String) : Prop :=
  ∃ name, text = clip most (toString (i + 1) ++ " " ++ name) ∧
    ∃ page ∈ l.pages, page.heading = some name ∨ unitLength name ≤ 2 * summaryWidth

/-- Only short titles have wide characters. -/
def HasNarrowTitles (l : Layout) : Prop :=
  ∀ page ∈ l.pages, ∀ title, page.heading = some title → wideCount title = 0 ∨ unitLength title ≤ 2 * summaryWidth

namespace IsLabel

theorem length_le (h : l.IsLabel most i text) (pos : 0 < most) : text.length ≤ most := by
  obtain ⟨name, rfl, -⟩ := h
  exact length_clip_le pos _

theorem length_pos (h : l.IsLabel most i text) : 0 < text.length := by
  obtain ⟨name, rfl, -⟩ := h
  refine length_clip_pos ?_
  have space : " ".length = 1 := rfl
  rw [String.length_append, String.length_append, space]
  omega

/-- What is cut off a label is more than its number and a short name. -/
theorem unitLength_le (h : l.IsLabel most i text) (few : i < 2 ^ 53) (room : 97 ≤ most) (narrow : l.HasNarrowTitles) :
    unitLength text ≤ most := by
  obtain ⟨name, rfl, page, hp, named⟩ := h
  have space : wideCount " " = 0 ∧ unitLength " " = 1 := ⟨rfl, rfl⟩
  have short : wideCount name = 0 ∨ unitLength name ≤ 2 * summaryWidth := named.elim (narrow page hp name) .inr
  refine unitLength_clip_le (by omega) (short.imp (fun narrow => ?_) fun short => ?_)
  · rw [wideCount_append, wideCount_append, wideCount_toString, space.1, narrow]
  · have digits : unitLength (toString (i + 1)) ≤ 16 := unitLength_toString_le (by omega)
    have width : summaryWidth = 40 := rfl
    rw [unitLength_append, unitLength_append, space.2]
    omega

end IsLabel

theorem labelAt_spec (inside : i < l.pages.length) (few : l.pages.length ≤ 2 ^ 53)
    (written : ∀ page ∈ l.pages, page.IsWritten) (most : Nat) :
    ∃ text, l.labelAt i most = .ok text ∧ l.IsLabel most i text := by
  have mem := List.getElem_mem inside
  obtain ⟨name, named, short⟩ := Page.summary_spec (written _ mem) (Nat.lt_of_lt_of_le inside few)
  refine ⟨clip most (toString (i + 1) ++ " " ++ name.display), ?_, name.display, rfl, _, mem, short.imp_right And.right⟩
  rw [labelAt, List.getElem?_eq_getElem inside]
  show ((l.pages[i].summary i).map _).map _ = _
  rw [named]
  rfl

/-- The menu has an entry for each index of its window, called by that index. -/
theorem menuOptions_spec (inside : l.index < l.pages.length) (few : l.pages.length ≤ 2 ^ 53)
    (written : ∀ page ∈ l.pages, page.IsWritten) :
    ∃ options, l.menuOptions = .ok options ∧ options.length ≤ maxMenuOptions ∧
      ∀ o ∈ options, ∃ i < l.pages.length, l.IsLabel maxLabel i o.label ∧ o.value = toString i := by
  obtain ⟨start, window, within, -⟩ := menuWindow_spec inside
  have entry : ∀ i ∈ menuWindow id l.index l.pages.length,
      ∃ text, l.labelAt i maxLabel = .ok text ∧ i < l.pages.length ∧ l.IsLabel maxLabel i text := by
    intro i hi
    rw [window, List.mem_range'_1] at hi
    have bound : i < l.pages.length := by omega
    obtain ⟨text, called, label⟩ := labelAt_spec bound few written maxLabel
    exact ⟨text, called, bound, label⟩
  obtain ⟨options, made⟩ : ∃ options, l.menuOptions = .ok options := by
    refine exists_mapM fun i hi => ?_
    obtain ⟨text, called, -⟩ := entry i hi
    rw [called]
    exact ⟨_, rfl⟩
  refine ⟨options, made, ?_, fun o ho => ?_⟩
  · rw [← (forall₂_of_mapM made).length_eq, window, List.length_range']
    exact Nat.min_le_right _ _
  · obtain ⟨i, hi, ho⟩ := mem_mapM made ho
    obtain ⟨text, called, bound, label⟩ := entry i hi
    rw [called] at ho
    obtain rfl := Except.ok.inj ho
    exact ⟨i, bound, label, rfl⟩

/-- An entry can fail only by its label. -/
theorem IsLabel.fits_iff {o : MenuOption} (label : l.IsLabel most i o.label) (few : i ≤ 2 ^ 53) (value : o.value = toString i) :
    o.Fits ↔ unitLength o.label ≤ Component.maxText := by
  have limit : Component.maxText = 100 := rfl
  have digits : unitLength o.value ≤ 16 := value ▸ unitLength_toString_le few
  have some : 0 < o.value.length := by
    have chars : o.value.toList = Nat.toDigits 10 i := value ▸ String.toList_ofList
    rw [← String.length_toList, chars]
    exact List.length_pos_iff.2 Nat.toDigits_ne_nil
  have named := label.length_pos
  rw [MenuOption.Fits, Fits, Fits, unitLength_eq o.label, unitLength_eq o.value]
  rw [unitLength_eq] at digits
  omega

/-- **The menu against its limits.** At any page, a menu beside the emoji by default has
labels and a placeholder within the limits in characters. It can be rendered just if they
are in units, which they are unless a title of more than 80 units has wide characters. -/
theorem menu_limits (inside : l.index < l.pages.length) (few : l.pages.length ≤ 2 ^ 53)
    (written : ∀ page ∈ l.pages, page.IsWritten) (shown : l.config.showSelectMenu = true)
    (plain : l.config.emoji? = Config.default.emoji?) (short : unitLength l.session + 9 ≤ Component.maxText) (off : Bool) :
    ∃ placeholder options,
      l.controls off = .ok (.menu (Folio.customId l.session .select) placeholder options off ::
        buttons l.session l.config l.isIdle off) ∧
      (placeholder.length ≤ maxPlaceholder ∧ ∀ o ∈ options, 1 ≤ o.label.length ∧ o.label.length ≤ maxLabel) ∧
      (if unitLength placeholder ≤ maxPlaceholder ∧ ∀ o ∈ options, unitLength o.label ≤ Component.maxText
        then ∃ rows, l.render off = .ok rows else l.render off = .error (.part .badLength)) ∧
      (l.HasNarrowTitles → ∃ rows, l.render off = .ok rows) := by
  have pages : l.pages ≠ [] := List.ne_nil_of_length_pos (Nat.zero_lt_of_lt inside)
  obtain ⟨placeholder, named, front⟩ := labelAt_spec inside few written maxPlaceholder
  obtain ⟨options, made, count, each⟩ := menuOptions_spec inside few written
  have fit : (∀ o ∈ options, o.Fits) ↔ ∀ o ∈ options, unitLength o.label ≤ Component.maxText := by
    refine forall₂_congr fun o ho => ?_
    obtain ⟨i, hi, label, value⟩ := each o ho
    exact label.fits_iff (by omega) value
  have ready : HasButtons l.session l.config := hasButtons_of_drawn short (plain ▸ drawn_default)
  have renders := render_iff_fits pages shown short ready named made count off
  simp only [fit] at renders
  refine ⟨placeholder, options, controls_eq pages shown named made off, ⟨front.length_le (by decide), fun o ho => ?_⟩,
    renders, fun narrow => ?_⟩
  · obtain ⟨i, hi, label, -⟩ := each o ho
    exact ⟨label.length_pos, label.length_le (by decide)⟩
  · have room := front.unitLength_le (by omega) (by decide) narrow
    have labels : ∀ o ∈ options, unitLength o.label ≤ Component.maxText := by
      intro o ho
      obtain ⟨i, hi, label, -⟩ := each o ho
      exact label.unitLength_le (by omega) (by decide) narrow
    rwa [if_pos ⟨room, labels⟩] at renders

/-- One page with a title, under a menu. -/
def titled (title : String) : Layout where
  session := "s"
  pages := [Page.ofText "body" "" "" title]
  index := 0
  config := { Config.default with showSelectMenu := true }

/-- With a title of few wide characters. -/
theorem menu_limits_short :
    (titled "Smile 😀").index < (titled "Smile 😀").pages.length ∧ (titled "Smile 😀").pages.length ≤ 2 ^ 53 ∧
      (∀ page ∈ (titled "Smile 😀").pages, page.IsWritten) ∧ (titled "Smile 😀").HasNarrowTitles ∧
      ∃ rows, (titled "Smile 😀").render false = .ok rows := by
  have written : ∀ page ∈ (titled "Smile 😀").pages, page.IsWritten := fun page hp => by
    obtain rfl := List.mem_singleton.1 hp
    trivial
  have narrow : (titled "Smile 😀").HasNarrowTitles := fun page hp title ht => by
    obtain rfl := List.mem_singleton.1 hp
    obtain rfl := Option.some.inj ht
    right
    decide
  obtain ⟨_, _, -, -, -, renders⟩ := menu_limits (l := titled "Smile 😀") (by decide) (by decide) written rfl rfl (by decide) false
  exact ⟨by decide, by decide, written, narrow, renders narrow⟩

/-- A title that is not clipped can still be too long for a label. -/
theorem render_titled {title : String} (some : title ≠ "") (short : title.length + 2 ≤ maxLabel)
    (wide : Component.maxText < unitLength title + 2) : (titled title).render false = .error (.part .badLength) := by
  have called : ∀ most, title.length + 2 ≤ most → (titled title).labelAt 0 most = .ok ("1 " ++ title) := by
    intro most fits
    have length : ("1 " ++ title).length ≤ most := by
      have number : "1 ".length = 2 := rfl
      rw [String.length_append, number]
      omega
    have name : (titled title).labelAt 0 most = .ok (clip most ("1 " ++ (Value.text title).display)) := by
      rw [labelAt, titled, Page.ofText, if_neg some]
      rfl
    rw [name, Value.display, clip, if_pos length]
  have made : (titled title).menuOptions = .ok [⟨"1 " ++ title, "0"⟩] := by
    have one : menuWindow id (titled title).index (titled title).pages.length = [0] := rfl
    rw [menuOptions, one, List.mapM_cons, called maxLabel short]
    rfl
  have long : maxLabel ≤ maxPlaceholder := by decide
  have own : unitLength "s" + 9 ≤ Component.maxText := by decide
  have renders := render_iff_fits (List.cons_ne_nil _ _) rfl own (hasButtons_of_drawn own drawn_default)
    (called maxPlaceholder (by omega)) made (Nat.le_add_left 1 24) false
  rwa [if_neg] at renders
  rintro ⟨-, fits⟩
  have label := (fits _ (List.mem_singleton_self _)).1.2
  have number : unitLength "1 " = 2 := rfl
  rw [unitLength_append, number] at label
  omega

/-- A title that an embed takes, with more wide characters than fit in a label. -/
theorem not_always_rendered :
    Embed.fits Embed.titleLimit (String.ofList (List.replicate 60 '😀')) = true ∧
      (titled (String.ofList (List.replicate 60 '😀'))).render false = .error (.part .badLength) := by
  have units : unitLength (String.ofList (List.replicate 60 '😀')) = 120 := by
    rw [unitLength, String.toList_ofList, units_replicate]
    rfl
  have length : (String.ofList (List.replicate 60 '😀')).length = 60 := by
    rw [String.length_ofList, List.length_replicate]
  constructor
  · rw [Embed.fits, units]
    rfl
  · refine render_titled (fun empty => ?_) (by rw [length]; decide) (by rw [units]; decide)
    rw [empty] at length
    cases length

end Layout

end Folio
