/-
Words and where a text is cut. A word is a maximal run of characters other than
ASCII white space. A cut in two leaves the front of a word at the end of the one
part and its rest at the start of the other (`wordBefore`, `wordAfter`); where
either is empty, the cut is between words.
-/
import Folio.Text.Blank
import Mathlib.Data.List.DropRight

namespace Folio.Text

variable {width : Nat} {a b cs gap word : List Char}

/-- All of it is ASCII white space. -/
def IsGap (cs : List Char) : Prop := ∀ c ∈ cs, isBreak c = true

/-- None of it is ASCII white space. -/
def IsSolid (cs : List Char) : Prop := ∀ c ∈ cs, isBreak c = false

/-- It does not start with ASCII white space. -/
def OpensSolid (cs : List Char) : Prop := ∀ c ∈ cs.head?, isBreak c = false

/-- It does not end with ASCII white space. -/
def EndsSolid (cs : List Char) : Prop := ∀ c ∈ cs.getLast?, isBreak c = false

-- The instances are named: characters can be listed, so a search could go through all of them.
instance (cs : List Char) : Decidable (IsGap cs) := List.decidableBAll (fun c => isBreak c = true) cs

instance (cs : List Char) : Decidable (IsSolid cs) := List.decidableBAll (fun c => isBreak c = false) cs

instance (cs : List Char) : Decidable (OpensSolid cs) := Option.decidableForallMem cs.head?

instance (cs : List Char) : Decidable (EndsSolid cs) := Option.decidableForallMem cs.getLast?

theorem IsGap.nil : IsGap [] := fun _ h => nomatch h

theorem IsGap.append (ha : IsGap a) (hb : IsGap b) : IsGap (a ++ b) :=
  fun c hc => (List.mem_append.1 hc).elim (ha c) (hb c)

theorem OpensSolid.nil : OpensSolid [] := fun _ h => nomatch h

theorem EndsSolid.nil : EndsSolid [] := fun _ h => nomatch h

theorem IsSolid.endsSolid (h : IsSolid cs) : EndsSolid cs := fun c hc => h c (List.mem_of_getLast? hc)

/-- White space is no part of what starts with a word. -/
theorem IsGap.eq_nil_of_opensSolid (h : IsGap gap) (opens : OpensSolid (gap ++ b)) : gap = [] := by
  cases gap with
  | nil => rfl
  | cons c gap =>
    have solid := opens c rfl
    rw [h c (List.mem_cons_self ..)] at solid
    cases solid

/-- Text that starts with one part of it starts as that part does. -/
theorem OpensSolid.of_append (h : OpensSolid (a ++ b)) : OpensSolid a := by
  cases a with
  | nil => exact .nil
  | cons c a => exact h

theorem OpensSolid.append (h : OpensSolid a) (ne : a ≠ []) : OpensSolid (a ++ b) := by
  cases a with
  | nil => exact absurd rfl ne
  | cons c a => exact h

theorem EndsSolid.append (h : EndsSolid b) (ne : b ≠ []) : EndsSolid (a ++ b) := by
  intro c hc
  rw [List.getLast?_append_of_ne_nil a ne] at hc
  exact h c hc

/-! ## The word at a cut -/

/-- What a text ends with of a word. -/
def wordBefore (a : List Char) : List Char := a.rtakeWhile fun c => !isBreak c

/-- What a text starts with of a word. -/
def wordAfter (b : List Char) : List Char := b.takeWhile fun c => !isBreak c

theorem wordBefore_append_solid (h : IsSolid word) : wordBefore (a ++ word) = wordBefore a ++ word := by
  have all : ∀ c ∈ word.reverse, (!isBreak c) = true := fun c hc => by rw [h c (List.mem_reverse.1 hc)]; rfl
  rw [wordBefore, List.rtakeWhile, List.reverse_append, List.takeWhile_append_of_pos all, List.reverse_append,
    List.reverse_reverse]
  rfl

theorem wordBefore_gap (h : IsGap gap) : wordBefore gap = [] := by
  rw [wordBefore, List.rtakeWhile_eq_nil_iff]
  intro ne
  rw [h _ (List.getLast_mem ne)]
  decide

theorem wordBefore_append_gap (h : IsGap gap) (ne : gap ≠ []) : wordBefore (a ++ gap) = [] := by
  obtain ⟨front, c, rfl⟩ := (List.eq_nil_or_concat gap).resolve_left ne
  have last : isBreak c = true := h c (by simp)
  rw [wordBefore, List.concat_eq_append, ← List.append_assoc]
  exact List.rtakeWhile_concat_neg _ _ _ (by simp [last])

/-- With more text before it, a word is not shorter. -/
theorem length_wordBefore_le (front a : List Char) :
    (wordBefore a).length ≤ (wordBefore (front ++ a)).length := by
  simp only [wordBefore, List.rtakeWhile, List.length_reverse, List.reverse_append, List.takeWhile_append]
  split
  next full => rw [full, List.length_append, List.length_reverse]; omega
  · exact Nat.le_refl _

theorem wordAfter_append_solid (h : IsSolid word) : wordAfter (word ++ b) = word ++ wordAfter b :=
  List.takeWhile_append_of_pos fun c hc => by rw [h c hc]; rfl

theorem wordAfter_append_gap (h : IsGap gap) (ne : gap ≠ []) : wordAfter (gap ++ b) = [] := by
  cases gap with
  | nil => exact absurd rfl ne
  | cons c gap => exact List.takeWhile_cons_of_neg (by simp [h c (List.mem_cons_self ..)])

theorem isSolid_wordAfter (b : List Char) : IsSolid (wordAfter b) := fun c hc => by
  simpa using List.mem_takeWhile_imp hc

/-- The cut of a text into these two parts is inside a word that is longer than `width`. -/
structure InLongWord (width : Nat) (a b : List Char) : Prop where
  before : wordBefore a ≠ []
  after : wordAfter b ≠ []
  long : width < (wordBefore a ++ wordAfter b).length

instance (width : Nat) (a b : List Char) : Decidable (InLongWord width a b) :=
  decidable_of_iff (wordBefore a ≠ [] ∧ wordAfter b ≠ [] ∧ width < (wordBefore a ++ wordAfter b).length)
    ⟨fun h => ⟨h.1, h.2.1, h.2.2⟩, fun h => ⟨h.before, h.after, h.long⟩⟩

/-- The cut of a text into these two parts does not separate two characters of a word
of at most `width` characters. -/
def SparesWords (width : Nat) (a b : List Char) : Prop :=
  wordBefore a ≠ [] → wordAfter b ≠ [] → InLongWord width a b

instance (width : Nat) (a b : List Char) : Decidable (SparesWords width a b) :=
  inferInstanceAs (Decidable (wordBefore a ≠ [] → wordAfter b ≠ [] → InLongWord width a b))

/-- A cut into a word behind white space spares it only if it is long. -/
theorem SparesWords.lt_length {front rest : List Char} (h : SparesWords width (a ++ gap ++ front) rest) (isGap : IsGap gap)
    (ne : gap ≠ []) (solid : IsSolid front) (some : front ≠ []) (more : wordAfter rest ≠ []) :
    width < (wordAfter (front ++ rest)).length := by
  have word : wordBefore (a ++ gap ++ front) = front := by
    rw [wordBefore_append_solid solid, wordBefore_append_gap isGap ne, List.nil_append]
  have long := (h (by rw [word]; exact some) more).long
  rwa [word, ← wordAfter_append_solid solid] at long

/-- With more text before it, the cut is still inside a long word. -/
theorem InLongWord.after_append (h : InLongWord width a b) (front : List Char) : InLongWord width (front ++ a) b := by
  have more := length_wordBefore_le front a
  have long := h.long
  refine ⟨fun none => h.before ?_, h.after, ?_⟩
  · rw [none] at more
    exact List.length_eq_zero_iff.1 (Nat.le_zero.1 more)
  · rw [List.length_append] at long ⊢
    omega

/-- A word that is cut into two parts, with more of it before or after perhaps. -/
theorem inLongWord_of_solid {p q : List Char} (hp : IsSolid p) (hq : IsSolid q) (pne : p ≠ []) (qne : q ≠ [])
    (long : width < (p ++ q).length) (a b : List Char) : InLongWord width (a ++ p) (q ++ b) := by
  have before : wordBefore (a ++ p) = wordBefore a ++ p := wordBefore_append_solid hp
  have after : wordAfter (q ++ b) = q ++ wordAfter b := wordAfter_append_solid hq
  refine ⟨by simp [before, pne], by simp [after, qne], ?_⟩
  rw [before, after]
  simp only [List.length_append] at long ⊢
  omega

/-- No word is cut next to white space. -/
theorem sparesWords_of_gap (h : IsGap gap) (ne : gap ≠ []) : SparesWords width (a ++ gap) b :=
  fun before => absurd (wordBefore_append_gap h ne) before

end Folio.Text
