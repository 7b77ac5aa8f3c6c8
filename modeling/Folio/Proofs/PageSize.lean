/-
Pages of wrapped text against the limit of an embed. The size of a page is in characters
and bounds the content and the lines around it (`mem_ofContent`). A page shows two
characters more than that, its line ends, and an embed counts in units: at the default
size there is room for 94 more. So a page can be shown if it has no more wide characters
than that, and with more it may not be (`ofContent_defaultSize`).
-/
import Folio.Proofs.Number.Rounding
import Folio.Proofs.Rendering
import Folio.Proofs.Text.Wide
import Folio.Proofs.Text.Wrapping

namespace Folio

open Text

namespace TextPage

theorem length_description (t : TextPage) :
    t.description.length = t.before.length + t.content.length + t.after.length + 2 := by
  have line : "\n".length = 1 := rfl
  simp only [description, String.length_append, line]
  omega

theorem wideCount_description (t : TextPage) :
    wideCount t.description = wideCount t.before + wideCount t.content + wideCount t.after := by
  have line : wideCount "\n" = 0 := rfl
  simp only [description, wideCount_append, line]
  omega

end TextPage

namespace Page

variable {size : Nat} {before after content : String} {pages : List Page} {page : Page}

/-- A page without a title can be shown just if its text fits in an embed. -/
theorem toEmbed_text {t : TextPage} (untitled : t.title = none) :
    (text t).toEmbed = if unitLength t.description ≤ Embed.descriptionLimit
      then .ok (Embed.empty.set "description" (.text t.description)) else .error (.part .badEmbedText) := by
  have some : 1 ≤ unitLength t.description := by
    rw [unitLength_eq, t.length_description]
    omega
  rw [toEmbed, Embed.withDescription, Embed.fits, decide_eq_true some, Bool.true_and, untitled]
  by_cases fits : unitLength t.description ≤ Embed.descriptionLimit
  · rw [if_pos (decide_eq_true fits), if_pos fits]
    rfl
  · rw [if_neg (by simpa using fits), if_neg fits]
    rfl

/-! ## Cutting content -/

/-- Content is wrapped to what the lines around it leave of a page. -/
theorem ofContent_natCast (small : size ≤ 2 ^ 53) (room : 0 < size - (before.length + after.length)) :
    ofContent (size : Number) before after content =
      .ok ((Text.wrap _ room content.toList).map fun chunk => ofText (String.ofList chunk) before after "") := by
  rw [ofContent, Number.natCast_sub (by omega) small, wrap_natCast room, Except.map, List.map_map]
  rfl

/-- It is cut just if they leave something. -/
theorem exists_ofContent_iff (small : size ≤ 2 ^ 53) :
    (∃ pages, ofContent (size : Number) before after content = .ok pages) ↔ before.length + after.length < size := by
  constructor
  · rintro ⟨pages, made⟩
    by_contra none
    have diff : (size : Number) - ((before.length + after.length : Nat) : Number) =
        .ofRat ((size : Rat) + -((before.length + after.length : Nat) : Rat)) := rfl
    have nonpos : (size : Rat) + -((before.length + after.length : Nat) : Rat) ≤ 0 := by
      rw [← sub_eq_add_neg, sub_nonpos]
      exact_mod_cast Nat.not_lt.1 none
    have narrow := Number.toNat?_ofRat_of_nonpos nonpos
    rw [← diff] at narrow
    rw [ofContent, wrap] at made
    split at made
    next n h => exact narrow n h
    · cases made
  · intro room
    exact ⟨_, ofContent_natCast small (Nat.sub_pos_of_lt room)⟩

/-- What is cut from content: pages that are within the size, each with a part of the
content between the two lines. -/
theorem mem_ofContent (small : size ≤ 2 ^ 53) (made : ofContent (size : Number) before after content = .ok pages)
    (hp : page ∈ pages) : ∃ t : TextPage, page = .text t ∧ t.before = before ∧ t.after = after ∧ t.title = none ∧
      t.content.toList <:+: content.toList ∧ t.before.length + t.content.length + t.after.length ≤ size := by
  have room : 0 < size - (before.length + after.length) := Nat.sub_pos_of_lt ((exists_ofContent_iff small).1 ⟨_, made⟩)
  rw [ofContent_natCast small room] at made
  obtain rfl := Except.ok.inj made
  obtain ⟨chunk, hc, rfl⟩ := List.mem_map.1 hp
  obtain ⟨fits, part⟩ := mem_wrap room hc
  refine ⟨⟨String.ofList chunk, before, after, none⟩, rfl, rfl, rfl, rfl, ?_, ?_⟩
  · rw [String.toList_ofList]
    exact part
  · have length : (String.ofList chunk).length = chunk.length := String.length_ofList
    simp only [length]
    omega

/-- A word that fits is a page by itself. -/
theorem ofContent_of_isSolid (small : size ≤ 2 ^ 53) (some : content.toList ≠ []) (solid : IsSolid content.toList)
    (fits : before.length + content.length + after.length ≤ size) :
    ofContent (size : Number) before after content = .ok [ofText content before after ""] := by
  have length : content.toList.length = content.length := String.length_toList
  have pos : 0 < content.toList.length := List.length_pos_iff.2 some
  rw [ofContent_natCast small (by omega), wrap_of_isSolid _ some solid (by omega), List.map_singleton,
    String.ofList_toList]

/-! ## The default size -/

/-- **Pages of the default size.** A page has at most two characters more than the size.
It can be shown just if that is within an embed in units, as it is if the content and
the lines around it do not have too many wide characters. -/
theorem ofContent_defaultSize (made : ofContent (defaultSize : Number) before after content = .ok pages) :
    (∀ page ∈ pages, ∃ t : TextPage, page = .text t ∧ t.before = before ∧ t.after = after ∧
      t.content.toList <:+: content.toList ∧ t.description.length ≤ defaultSize + 2 ∧
      page.toEmbed = if unitLength t.description ≤ Embed.descriptionLimit
        then .ok (Embed.empty.set "description" (.text t.description)) else .error (.part .badEmbedText)) ∧
    (defaultSize + 2 + (wideCount before + wideCount content + wideCount after) ≤ Embed.descriptionLimit →
      ∀ page ∈ pages, ∃ e, page.toEmbed = .ok e) := by
  have small : defaultSize ≤ 2 ^ 53 := by decide
  constructor
  · intro page hp
    obtain ⟨t, rfl, front, back, untitled, part, fits⟩ := mem_ofContent small made hp
    refine ⟨t, rfl, front, back, part, ?_, toEmbed_text untitled⟩
    rw [t.length_description]
    omega
  · intro narrow page hp
    obtain ⟨t, rfl, rfl, rfl, untitled, part, fits⟩ := mem_ofContent small made hp
    have wide : wideCount t.content ≤ wideCount content := wideCount_le_of_infix part
    have units : unitLength t.description ≤ Embed.descriptionLimit := by
      rw [unitLength_eq, t.length_description, t.wideCount_description]
      omega
    rw [toEmbed_text untitled, if_pos units]
    exact ⟨_, rfl⟩

/-- With a wide character, and lines around it. -/
theorem ofContent_defaultSize_word :
    ofContent (defaultSize : Number) "<" ">" "smile😀" = .ok [ofText "smile😀" "<" ">" ""] ∧
      ∀ page ∈ [ofText "smile😀" "<" ">" ""], ∃ e, page.toEmbed = .ok e := by
  have made : ofContent (defaultSize : Number) "<" ">" "smile😀" = .ok [ofText "smile😀" "<" ">" ""] :=
    ofContent_of_isSolid (by decide) (by decide) (by decide) (by decide)
  exact ⟨made, (ofContent_defaultSize made).2 (by decide)⟩

/-- A word of one character over and over is a page up to the size, and can be shown just
if an embed holds that many of it and two line ends. -/
theorem toEmbed_replicate {c : Char} (solid : isBreak c = false) {n : Nat} (some : 0 < n) (fits : n ≤ defaultSize) :
    ∃ page, ofContent (defaultSize : Number) "" "" (String.ofList (List.replicate n c)) = .ok [page] ∧
      ((∃ e, page.toEmbed = .ok e) ↔ n * charUnits c + 2 ≤ Embed.descriptionLimit) := by
  generalize word : String.ofList (List.replicate n c) = text
  have chars : text.toList = List.replicate n c := word ▸ String.toList_ofList
  have length : text.length = n := by rw [← String.length_toList, chars, List.length_replicate]
  have units : unitLength text = n * charUnits c := by rw [unitLength, chars, units_replicate]
  refine ⟨ofText text "" "" "", ofContent_of_isSolid (by decide) ?_ ?_ ?_, ?_⟩
  · rw [chars]
    exact List.length_pos_iff.1 (by rwa [List.length_replicate])
  · rw [chars]
    exact fun d hd => List.eq_of_mem_replicate hd ▸ solid
  · rw [length]
    simpa using fits
  · have total : unitLength (TextPage.description ⟨text, "", "", none⟩) = n * charUnits c + 2 := by
      have line : unitLength "\n" = 1 := rfl
      have empty : unitLength "" = 0 := rfl
      simp only [TextPage.description, unitLength_append, units, line, empty]
      omega
    rw [ofText, if_pos rfl, toEmbed_text rfl, total]
    by_cases room : n * charUnits c + 2 ≤ Embed.descriptionLimit
    · rw [if_pos room]
      exact iff_of_true ⟨_, rfl⟩ room
    · rw [if_neg room]
      refine iff_of_false ?_ room
      rintro ⟨e, he⟩
      cases he

/-- A page of wide characters takes two units for each. -/
theorem not_always_shown :
    ∃ pages, ofContent (defaultSize : Number) "" "" (String.ofList (List.replicate 2048 '😀')) = .ok pages ∧
      ¬ ∀ page ∈ pages, ∃ e, page.toEmbed = .ok e := by
  obtain ⟨page, made, iff⟩ := toEmbed_replicate (c := '😀') (n := 2048) (by decide) (by decide) (by decide)
  have beyond : ¬2048 * charUnits '😀' + 2 ≤ Embed.descriptionLimit := by decide
  exact ⟨[page], made, fun shown => beyond (iff.1 (shown page (List.mem_singleton_self page)))⟩

end Page

end Folio
