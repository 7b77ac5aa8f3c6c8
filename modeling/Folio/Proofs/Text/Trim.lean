/-
What trimming leaves. A text without the white space around it is the part of it that
begins and ends with other characters and has nothing but white space before and after it
(`Trims`). There is exactly one such part, and trimming finds it (`trim_eq_iff`).
-/
import Folio.Text.Blank
import Mathlib.Data.List.DropRight

namespace Folio.Text

variable {raw text : String} {c : Char} {cs : List Char}

/-- The characters that are white space: those of ASCII, the space separators of Unicode,
its line and paragraph separators, and the byte order mark. -/
def spaces : List Char :=
  ['\t', '\n', '\x0b', '\x0c', '\r', ' ', '\u00a0', '\u1680', '\u2000', '\u2001', '\u2002', '\u2003', '\u2004',
    '\u2005', '\u2006', '\u2007', '\u2008', '\u2009', '\u200a', '\u2028', '\u2029', '\u202f', '\u205f', '\u3000',
    '\ufeff']

theorem isBlank_iff_mem : isBlank c = true ↔ c ∈ spaces := by
  constructor
  · intro blank
    simp only [isBlank, isBreak, Bool.or_eq_true, Bool.and_eq_true, beq_iff_eq, decide_eq_true_eq] at blank
    by_cases spacing : '\u2000' ≤ c ∧ c ≤ '\u200a'
    · obtain ⟨low, high⟩ := spacing
      have low' : 0x2000 ≤ c.toNat := low
      have high' : c.toNat ≤ 0x200a := high
      have all : ∀ d < 11, Char.ofNat (0x2000 + d) ∈ spaces := by decide
      have its := all (c.toNat - 0x2000) (by omega)
      rwa [Nat.add_sub_cancel' low', Char.ofNat_toNat] at its
    · simp only [spacing, or_false] at blank
      simp only [spaces, List.mem_cons]
      tauto
  · have all : spaces.all isBlank = true := by decide
    exact List.all_eq_true.1 all c

/-- `text` is what is left of `raw` without the white space at either end. -/
structure Trims (raw text : String) : Prop where
  around : ∃ front back, raw.toList = front ++ text.toList ++ back ∧ (∀ c ∈ front, c ∈ spaces) ∧ ∀ c ∈ back, c ∈ spaces
  first : ∀ c ∈ text.toList.head?, c ∉ spaces
  last : ∀ c ∈ text.toList.getLast?, c ∉ spaces

/-- White space is dropped from the front as far as it goes. -/
theorem dropWhile_isBlank_spec (cs : List Char) : ∃ front, cs = front ++ cs.dropWhile isBlank ∧
    (∀ c ∈ front, c ∈ spaces) ∧ ∀ c ∈ (cs.dropWhile isBlank).head?, c ∉ spaces := by
  refine ⟨cs.takeWhile isBlank, List.takeWhile_append_dropWhile.symm, fun c hc => ?_, fun c hc space => ?_⟩
  · exact isBlank_iff_mem.1 (List.mem_takeWhile_imp hc)
  · have first := List.head?_dropWhile_not isBlank cs
    rw [Option.mem_def.1 hc] at first
    have other : isBlank c = false := first
    rw [isBlank_iff_mem.2 space] at other
    cases other

/-- No more than white space is dropped. -/
theorem dropWhile_isBlank_append {front : List Char} (blank : ∀ c ∈ front, c ∈ spaces)
    (opens : ∀ c ∈ cs.head?, c ∉ spaces) : (front ++ cs).dropWhile isBlank = cs := by
  rw [List.dropWhile_append_of_pos fun c hc => isBlank_iff_mem.2 (blank c hc)]
  cases cs with
  | nil => rfl
  | cons c cs => exact List.dropWhile_cons_of_neg fun blank => opens c rfl (isBlank_iff_mem.1 blank)

theorem trims_trim (raw : String) : Trims raw (trim raw) := by
  obtain ⟨front, start, blank, opens⟩ := dropWhile_isBlank_spec raw.toList
  obtain ⟨back, rest, blank', ends⟩ := dropWhile_isBlank_spec (raw.toList.dropWhile isBlank).reverse
  have trimmed : (trim raw).toList = ((raw.toList.dropWhile isBlank).reverse.dropWhile isBlank).reverse :=
    String.toList_ofList
  have split : raw.toList.dropWhile isBlank = (trim raw).toList ++ back.reverse := by
    rw [trimmed, ← List.reverse_append, ← rest, List.reverse_reverse]
  refine ⟨⟨front, back.reverse, ?_, blank, fun c hc => blank' c (List.mem_reverse.1 hc)⟩, fun c hc => ?_, fun c hc => ?_⟩
  · rw [List.append_assoc, ← split]
    exact start
  · refine opens c ?_
    rw [split, List.head?_append, Option.mem_def.1 hc]
    rfl
  · refine ends c ?_
    rwa [trimmed, List.getLast?_reverse] at hc

/-- What is left without the white space at either end is what trimming leaves. -/
theorem Trims.trim_eq (h : Trims raw text) : trim raw = text := by
  obtain ⟨front, back, whole, blank, blank'⟩ := h.around
  have behind : ∀ c ∈ back.reverse, c ∈ spaces := fun c hc => blank' c (List.mem_reverse.1 hc)
  have ends : ∀ c ∈ text.toList.reverse.head?, c ∉ spaces := by
    rw [List.head?_reverse]
    exact h.last
  have dropped : raw.toList.dropWhile isBlank = text.toList ++ back ∨ text.toList = [] ∧
      raw.toList.dropWhile isBlank = [] := by
    cases hc : text.toList with
    | nil =>
      refine .inr ⟨rfl, ?_⟩
      rw [whole, hc, List.append_nil, List.dropWhile_eq_nil_iff]
      exact fun c hc => isBlank_iff_mem.2 ((List.mem_append.1 hc).elim (blank c) (blank' c))
    | cons c cs =>
      left
      rw [whole, hc, List.append_assoc]
      refine dropWhile_isBlank_append blank fun d hd => h.first d ?_
      rw [hc]
      exact hd
  rw [← String.toList_inj, trim, String.toList_ofList]
  rcases dropped with some | ⟨none, nothing⟩
  · rw [some, List.reverse_append, dropWhile_isBlank_append behind ends, List.reverse_reverse]
  · rw [nothing, none]
    rfl

/-- Trimming leaves the one text there is without the white space at either end. -/
theorem trim_eq_iff : trim raw = text ↔ Trims raw text :=
  ⟨fun its => its ▸ trims_trim raw, Trims.trim_eq⟩

/-- What was trimmed is not trimmed any further. -/
theorem Trims.again (h : Trims raw text) : trim text = text :=
  Trims.trim_eq ⟨⟨[], [], by simp, by simp, by simp⟩, h.first, h.last⟩

end Folio.Text
