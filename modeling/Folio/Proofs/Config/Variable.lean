/-
What the environment sets, said of its variables as they are. The text of a variable is
trimmed, and one that is blank is as good as unset, but for the message to strangers, which
is taken as it is. Where a number is asked for a text that writes none is kept, for the check
of the configuration to refuse.

`Contributes` says all this without a look at how a variable is read, and the record of the
environment has exactly the values that are contributed (`get?_fromEnvironment`).
-/
import Folio.Config.Resolve
import Folio.Proofs.Number.Numeral

namespace Folio

/-- In a table with one value for each key, the value of a key is the one that is listed. -/
theorem Table.get?_eq_some_iff {κ α : Type} [DecidableEq κ] {t : Table κ α} {k : κ} {a : α}
    (distinct : t.Pairwise fun e e' => e.1 ≠ e'.1) : t.get? k = some a ↔ (k, a) ∈ t := by
  induction t with
  | nil => simp
  | cons e t ih =>
    obtain ⟨others, distinct⟩ := List.pairwise_cons.1 distinct
    have step : Table.get? (e :: t) k = if e.1 = k then some e.2 else Table.get? t k := by
      rw [Table.get?, List.find?_cons]
      by_cases its : e.1 = k <;> simp [its, Table.get?]
    rw [step, List.mem_cons]
    by_cases its : e.1 = k
    · have foreign : (k, a) ∉ t := fun mem => others _ mem its
      simp [its, foreign, Prod.ext_iff, eq_comm]
    · simp [its, ih distinct, Prod.ext_iff, Ne.symm its]

theorem Environment.read?_eq_some_iff {env : Environment} {name text : String} :
    env.read? name = some text ↔ ∃ raw, env.get? name = some raw ∧ Text.Trims raw text ∧ text ≠ "" := by
  rw [read?]
  cases env.get? name with
  | none => simp
  | some raw =>
    simp only [Option.some.injEq, exists_eq_left', ← Text.trim_eq_iff]
    split
    next blank => simp [blank, eq_comm]
    next given =>
      rw [Option.some.injEq]
      exact ⟨fun its => ⟨its, its ▸ given⟩, And.left⟩

namespace Config

variable {env : Environment} {key text : String} {v : Value} {writes : Number → Prop}

/-! ## Texts for numbers -/

/-- What a text counts as where a number is asked for: the number that it writes, or else the
text as it is. -/
inductive Means (writes : Number → Prop) (text : String) : Value → Prop where
  | number {n : Number} (written : writes n) : Means writes text (.number n)
  | text (none : ∀ n, ¬writes n) : Means writes text (.text text)

/-- A text writes a colour: up to six hexadecimal digits, with or without a mark before them. -/
inductive WritesColor (text : String) : Number → Prop where
  | marked {mark : String} {ds : List Char} {color : Nat} (mark_mem : mark ∈ ["", "#", "0x", "0X"])
      (its : text.toList = mark.toList ++ ds) (few : ds.length ≤ 6) (digits : Number.Digits 16 ds color) :
      WritesColor text color

/-- A reader that finds the number that is written, if one is, makes of a text what it means. -/
theorem Means.iff_of_reader {found : Option Number} (reads : ∀ n, found = some n ↔ writes n) :
    found.elim (.text text) .number = v ↔ Means writes text v := by
  constructor
  · rintro rfl
    cases found with
    | none => exact .text fun n written => nomatch (reads n).2 written
    | some n => exact .number ((reads n).1 rfl)
  · rintro (⟨written⟩ | ⟨none⟩)
    · rw [(reads _).2 written]
      rfl
    · cases found with
      | none => rfl
      | some n => exact absurd ((reads n).1 rfl) (none n)

theorem readSeconds_eq_iff (trimmed : Text.trim text = text) (given : text ≠ "") :
    readSeconds text = v ↔ Means (Number.Writes text.toList) text v := by
  have reads : ∀ n, (if Number.read text = .nan then none else some (Number.read text)) = some n ↔
      Number.Writes text.toList n := by
    intro n
    rw [← Number.read_eq_iff trimmed given]
    split
    next none => simp [none, eq_comm]
    next some => exact ⟨fun its => Option.some.inj its ▸ ⟨rfl, some⟩, fun its => congrArg _ its.1⟩
  rw [← Means.iff_of_reader reads, readSeconds]
  cases Number.read text <;> rfl

theorem exists_mark (cs : List Char) : ∃ mark ∈ ["", "#", "0x", "0X"], cs = mark.toList ++ colorDigits cs := by
  unfold colorDigits
  split
  · exact ⟨"#", by simp, rfl⟩
  · exact ⟨"0x", by simp, rfl⟩
  · exact ⟨"0X", by simp, rfl⟩
  · exact ⟨"", by simp, rfl⟩

/-- No mark is part of the digits behind it. -/
theorem colorDigits_append {mark : String} {ds : List Char} {color : Nat} (marked : mark ∈ ["", "#", "0x", "0X"])
    (digits : Number.Digits 16 ds color) : colorDigits (mark.toList ++ ds) = ds := by
  have other : ∀ c ∈ ['#', 'x', 'X'], c ∉ ds := by
    intro c hc mem
    have none : ['#', 'x', 'X'].all (fun c => (Number.digit? 16 c).isNone) = true := by decide
    obtain ⟨d, digit⟩ := digits.exists_isDigit c mem
    rw [← Number.digit?_eq_some_iff (by decide), Option.isNone_iff_eq_none.1 (List.all_eq_true.1 none c hc)] at digit
    cases digit
  simp only [List.mem_cons, List.not_mem_nil, or_false] at marked
  rcases marked with rfl | rfl | rfl | rfl
  · show colorDigits ds = ds
    unfold colorDigits
    split
    · exact absurd (List.mem_cons_self ..) (other '#' (by simp))
    · exact absurd (List.mem_cons_of_mem _ (List.mem_cons_self ..)) (other 'x' (by simp))
    · exact absurd (List.mem_cons_of_mem _ (List.mem_cons_self ..)) (other 'X' (by simp))
    · rfl
  all_goals rfl

theorem readColor_eq_iff : readColor text = v ↔ Means (WritesColor text) text v := by
  have reads : ∀ n, (if (colorDigits text.toList).length ≤ 6 then
      (Number.whole? 16 (colorDigits text.toList)).map fun color : Nat => (color : Number) else none) = some n ↔
      WritesColor text n := by
    intro n
    simp only [Option.ite_none_right_eq_some, Option.map_eq_some_iff, Number.whole?_eq_some_iff (by decide : 16 ≤ 16)]
    constructor
    · rintro ⟨few, color, digits, rfl⟩
      obtain ⟨mark, marked, its⟩ := exists_mark text.toList
      exact .marked marked its few digits
    · rintro ⟨marked, its, few, digits⟩
      rw [its, colorDigits_append marked digits]
      exact ⟨few, _, digits, rfl⟩
  rw [← Means.iff_of_reader reads, readColor]
  cases Number.whole? 16 (colorDigits text.toList) <;> by_cases few : (colorDigits text.toList).length ≤ 6 <;> simp [few]

/-! ## Variables -/

/-- What a variable of the environment sets a key to. -/
inductive Contributes (env : Environment) : String → Value → Prop where
  | seconds {raw text : String} {v : Value} (set : env.get? "PAGINATOR_IDLE_TIMEOUT_SECONDS" = some raw)
      (trims : Text.Trims raw text) (given : text ≠ "") (means : Means (Number.Writes text.toList) text v) :
      Contributes env "idleTimeoutSeconds" v
  /-- A message that is set to nothing counts. -/
  | message {raw : String} (set : env.get? "PAGINATOR_WRONG_USER_MESSAGE" = some raw) :
      Contributes env "wrongUserMessage" (.text raw)
  | color {raw text : String} {v : Value} (set : env.get? "PAGINATOR_DEFAULT_COLOR" = some raw)
      (trims : Text.Trims raw text) (given : text ≠ "") (means : Means (WritesColor text) text v) :
      Contributes env "defaultColor" v

theorem mem_fromEnvironment : (key, v) ∈ fromEnvironment env ↔
    (∃ s, env.read? "PAGINATOR_IDLE_TIMEOUT_SECONDS" = some s ∧ "idleTimeoutSeconds" = key ∧ readSeconds s = v) ∨
    (∃ s, env.get? "PAGINATOR_WRONG_USER_MESSAGE" = some s ∧ "wrongUserMessage" = key ∧ Value.text s = v) ∨
    ∃ s, env.read? "PAGINATOR_DEFAULT_COLOR" = some s ∧ "defaultColor" = key ∧ readColor s = v := by
  simp [fromEnvironment]

/-- No key is set by two variables. -/
theorem fromEnvironment_distinct (env : Environment) : (fromEnvironment env).Pairwise fun e e' => e.1 ≠ e'.1 := by
  rw [fromEnvironment]
  cases env.read? "PAGINATOR_IDLE_TIMEOUT_SECONDS" <;> cases env.get? "PAGINATOR_WRONG_USER_MESSAGE" <;>
    cases env.read? "PAGINATOR_DEFAULT_COLOR" <;> simp

/-- **The environment sets what its variables contribute.** -/
theorem get?_fromEnvironment : (fromEnvironment env).get? key = some v ↔ Contributes env key v := by
  rw [Table.get?_eq_some_iff (fromEnvironment_distinct env), mem_fromEnvironment]
  simp only [Environment.read?_eq_some_iff]
  constructor
  · rintro (⟨s, ⟨raw, set, trims, given⟩, rfl, means⟩ | ⟨s, set, rfl, rfl⟩ | ⟨s, ⟨raw, set, trims, given⟩, rfl, means⟩)
    · exact .seconds set trims given ((readSeconds_eq_iff trims.again given).1 means)
    · exact .message set
    · exact .color set trims given (readColor_eq_iff.1 means)
  · intro sets
    cases sets with
    | seconds set trims given means =>
      exact .inl ⟨_, ⟨_, set, trims, given⟩, rfl, (readSeconds_eq_iff trims.again given).2 means⟩
    | message set => exact .inr (.inl ⟨_, set, rfl, rfl⟩)
    | color set trims given means => exact .inr (.inr ⟨_, ⟨_, set, trims, given⟩, rfl, readColor_eq_iff.2 means⟩)

/-- The keys that a variable can set. -/
theorem Contributes.mem (h : Contributes env key v) :
    key ∈ ["idleTimeoutSeconds", "wrongUserMessage", "defaultColor"] := by
  cases h <;> simp

theorem Contributes.mem_keys (h : Contributes env key v) : key ∈ keys := by
  have all : ∀ key ∈ ["idleTimeoutSeconds", "wrongUserMessage", "defaultColor"], key ∈ keys := by decide
  exact all key h.mem

end Config

end Folio
