/-
Which texts are emoji. A text in which no colon is left once its escapes are decoded is the
emoji itself. With a colon it has to hold a mention, and it does exactly if two letters of a
name stand before some colon: what a mention may have in front of them, and more letters of
the name, make no difference (`isSome_mention?_iff`).
-/
import Folio.Emoji

namespace Folio

namespace EmojiParts

variable {text : List Char}

/-! ## Mentions -/

/-- A text holds a mention: a colon after two letters of a name. -/
def HasMention (text : List Char) : Prop :=
  ∃ before x y after, text = before ++ x :: y :: ':' :: after ∧ isNameChar x = true ∧ isNameChar y = true

theorem HasMention.append (h : HasMention text) (front : List Char) : HasMention (front ++ text) := by
  obtain ⟨before, x, y, after, rfl, hx, hy⟩ := h
  exact ⟨front ++ before, x, y, after, (List.append_assoc ..).symm, hx, hy⟩

theorem hasMention_of_named? {animated : Bool} (h : (named? animated text).isSome = true) : HasMention text := by
  rw [named?] at h
  have split := List.takeWhile_append_dropWhile (p := isNameChar) (l := text)
  have letters : ∀ c ∈ text.takeWhile isNameChar, isNameChar c = true := List.all_eq_true.1 List.all_takeWhile
  generalize text.takeWhile isNameChar = name at h split letters
  split at h
  next rest colon =>
    rw [colon] at split
    split at h
    next enough =>
      rcases last : name.reverse with _ | ⟨y, _ | ⟨x, front⟩⟩
      · have none := congrArg List.length last
        rw [List.length_reverse, List.length_nil] at none
        omega
      · have one := congrArg List.length last
        rw [List.length_reverse, List.length_singleton] at one
        omega
      · have ends : name = front.reverse ++ [x, y] := by
          rw [← List.reverse_reverse name, last]
          simp
        subst ends
        exact ⟨front.reverse, x, y, rest, by simpa using split.symm, letters x (by simp), letters y (by simp)⟩
    · cases h
  · cases h

theorem hasMention_of_mentionAt? (h : (mentionAt? text).isSome = true) : HasMention text := by
  have opened : ∃ front, text = front ++ if text.head? = some '<' then text.tail else text := by
    split
    next opened =>
      cases text with
      | nil => cases opened
      | cons c cs => exact ⟨[c], rfl⟩
    · exact ⟨[], rfl⟩
  obtain ⟨front, split⟩ := opened
  rw [mentionAt?] at h
  generalize (if text.head? = some '<' then text.tail else text) = rest at h split
  rw [split]
  refine HasMention.append ?_ front
  split at h
  next rest => exact (hasMention_of_named? h).append ['a', ':']
  · exact hasMention_of_named? h

theorem isSome_mentionAt? {x y : Char} (hx : isNameChar x = true) (hy : isNameChar y = true) (after : List Char) :
    (mentionAt? (x :: y :: ':' :: after)).isSome = true := by
  have colon : isNameChar ':' = false := by decide
  have named : (named? false (x :: y :: ':' :: after)).isSome = true := by
    simp [named?, hx, hy, colon]
  have unopened : (x :: y :: ':' :: after).head? ≠ some '<' := by
    rintro ⟨⟩
    cases hx
  have unmarked : y ≠ ':' := by
    rintro rfl
    cases hy
  rw [mentionAt?, if_neg unopened]
  split
  next its =>
    injection its with _ its
    injection its with its _
    exact absurd its unmarked
  · exact named

theorem isSome_mention?_iff : (mention? text).isSome = true ↔ HasMention text := by
  constructor
  · intro h
    induction text with
    | nil => cases h
    | cons c cs ih =>
      rw [mention?] at h
      split at h
      next parts found => exact hasMention_of_mentionAt? (by rw [found]; rfl)
      next none => exact (ih h).append [c]
  · rintro ⟨before, x, y, after, rfl, hx, hy⟩
    induction before with
    | nil =>
      obtain ⟨parts, found⟩ := Option.isSome_iff_exists.1 (isSome_mentionAt? hx hy after)
      rw [List.nil_append, mention?, found]
      rfl
    | cons c before ih =>
      rw [List.cons_append, mention?]
      split
      · rfl
      · exact ih

/-! ## Texts -/

/-- The text with its escapes decoded, if that can be done. -/
def unescaped? (text : List Char) : Option (List Char) := if '%' ∈ text then Text.percentDecode? text else some text

/-- A text that stands for an emoji: an id, or a text that holds a mention if it has a colon
once its escapes are decoded. -/
def IsEmoji (text : List Char) : Prop :=
  isId text = true ∨ ∃ decoded, unescaped? text = some decoded ∧ (':' ∈ decoded → HasMention decoded)

instance (text : List Char) : Decidable (HasMention text) := decidable_of_iff _ isSome_mention?_iff

instance (text : List Char) : Decidable (IsEmoji text) :=
  match h : unescaped? text with
  | none => decidable_of_iff (isId text = true) (by simp [IsEmoji, h])
  | some decoded =>
    decidable_of_iff (isId text = true ∨ (':' ∈ decoded → HasMention decoded)) (by simp [IsEmoji, h])

/-- What is wrong with a text that stands for none. -/
def textFault (text : List Char) : Fault := if (unescaped? text).isNone then .badEscape else .part .notEmoji

example : IsEmoji "100%25".toList ∧ IsEmoji ":soon:".toList ∧ ¬IsEmoji "100%".toList ∧ ¬IsEmoji ":".toList := by
  decide +kernel

theorem ofText_of_not_id (given : text ≠ []) (other : isId text = false) :
    ofText text = match unescaped? text with
      | none => .error .badEscape
      | some decoded =>
        if ':' ∈ decoded then
          match mention? decoded with
          | some parts => .ok parts
          | none => .error (.part .notEmoji)
        else .ok ⟨none, some (String.ofList decoded), some false⟩ := by
  rw [ofText, read?, if_neg given, other, if_neg Bool.false_ne_true, ← unescaped?]
  cases unescaped? text with
  | none => rfl
  | some decoded =>
    by_cases colon : ':' ∈ decoded
    · simp only [if_pos colon]
      cases mention? decoded <;> rfl
    · simp only [if_neg colon]
      rfl

/-- A text that is not empty is read, just if it stands for an emoji. -/
theorem ofText_spec (given : text ≠ []) :
    (IsEmoji text ∧ ∃ parts, ofText text = .ok parts) ∨ (¬IsEmoji text ∧ ofText text = .error (textFault text)) := by
  cases id : isId text with
  | true =>
    refine .inl ⟨.inl id, ⟨some (String.ofList text), none, none⟩, ?_⟩
    rw [ofText, read?, if_neg given, if_pos id]
    rfl
  | false =>
    have kind : IsEmoji text ↔ ∃ decoded, unescaped? text = some decoded ∧ (':' ∈ decoded → HasMention decoded) := by
      simp [IsEmoji, id]
    rw [ofText_of_not_id given id, kind, textFault]
    cases unescaped? text with
    | none => exact .inr ⟨by simp, rfl⟩
    | some decoded =>
      simp only [Option.some.injEq, exists_eq_left']
      by_cases colon : ':' ∈ decoded
      · rw [if_pos colon, ← isSome_mention?_iff]
        cases mention? decoded with
        | none => exact .inr ⟨by simp [colon], rfl⟩
        | some parts => exact .inl ⟨fun _ => rfl, parts, rfl⟩
      · rw [if_neg colon]
        exact .inl ⟨fun its => absurd its colon, _, rfl⟩

/-- A text without escapes and colons stands for itself. -/
theorem isEmoji_of_plain (escapes : '%' ∉ text) (colons : ':' ∉ text) : IsEmoji text :=
  .inr ⟨text, if_neg escapes, fun its => absurd its colons⟩

end EmojiParts

end Folio
