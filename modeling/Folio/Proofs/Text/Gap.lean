/-
What becomes of a run of white space when text is wrapped. A run behind a word is kept
whole inside one chunk or dropped whole: chunks end with a word, and all but the first
start with one, so nothing of a run can be left at the edge of a chunk
(`keeps_or_drops`).

A run at the start of the text has no word before it, and no chunk that white space is
dropped behind. If it is wider than a chunk, passes take off as much as a chunk holds
and drop it, over and over (`fill_gap`), and what is then left may open the first chunk
(`wrap_leading`). So that run can lose a part.
-/
import Folio.Proofs.Text.Wrapping

namespace Folio.Text

variable {width : Nat} {text lead before gap after : List Char} {segs : List Segment}

/-- `gap` is a maximal run of white space in a text, and this is what is before and after it. -/
structure IsGapOf (text before gap after : List Char) : Prop where
  spells : before ++ gap ++ after = text
  some : gap ≠ []
  isGap : IsGap gap
  ends : EndsSolid before
  opens : OpensSolid after

/-- A run stands in full inside one chunk, at its place in the text. -/
def Keeps (lead : List Char) (segs : List Segment) (before gap after : List Char) : Prop :=
  ∃ xs s ys p q, segs = xs ++ s :: ys ∧ s.chunk = p ++ gap ++ q ∧ before = lead ++ spell xs ++ p ∧
    after = q ++ s.gap ++ spell ys

/-- No character of a run is in a chunk. -/
def Drops (lead : List Char) (segs : List Segment) (before gap after : List Char) : Prop :=
  (∃ p q, lead = p ++ gap ++ q ∧ before = p ∧ after = q ++ spell segs) ∨
    ∃ xs s ys p q, segs = xs ++ s :: ys ∧ s.gap = p ++ gap ++ q ∧ before = lead ++ spell xs ++ s.chunk ++ p ∧
      after = q ++ spell ys

/-! ## Edges -/

/-- Text that ends with a word is no white space, unless it is empty. -/
theorem IsGap.eq_nil_of_endsSolid (h : IsGap gap) (ends : EndsSolid gap) : gap = [] := by
  rcases List.eq_nil_or_concat gap with rfl | ⟨front, c, rfl⟩
  · rfl
  · have solid := ends c (by simp)
    rw [h c (by simp)] at solid
    cases solid

/-- A part of a text ends as the text does. -/
theorem EndsSolid.of_append {a b : List Char} (h : EndsSolid (a ++ b)) : EndsSolid b := by
  intro c hc
  refine h c ?_
  rw [List.getLast?_append_of_ne_nil a (List.ne_nil_of_mem (List.mem_of_getLast? hc))]
  exact hc

/-- Where the white space in front of a word ends is clear. -/
theorem takeWhile_gap_append {b : List Char} (h : IsGap gap) (opens : OpensSolid b) :
    (gap ++ b).takeWhile isBreak = gap := by
  rw [List.takeWhile_append_of_pos h]
  cases b with
  | nil => simp
  | cons c b => simp [opens c rfl]

/-- Text starts with a word if it does not start with white space, unless it is empty. -/
theorem wordAfter_ne_nil_iff {b : List Char} : wordAfter b ≠ [] ↔ b ≠ [] ∧ OpensSolid b := by
  cases b with
  | nil => simp [wordAfter]
  | cons c b => cases h : isBreak c <;> simp [wordAfter, OpensSolid, h]

theorem gap_unique {gap' a b : List Char} (h : IsGap gap) (h' : IsGap gap') (opens : OpensSolid a) (opens' : OpensSolid b)
    (same : gap ++ a = gap' ++ b) : gap = gap' ∧ a = b := by
  have front : gap = gap' := by rw [← takeWhile_gap_append h opens, same, takeWhile_gap_append h' opens']
  subst front
  exact ⟨rfl, List.append_cancel_left same⟩

/-- A run ends before a word does that it starts before. -/
theorem IsGap.exists_of_endsSolid {a b : List Char} (h : IsGap gap) (ne : a ≠ []) (ends : EndsSolid a)
    (same : gap ++ after = a ++ b) : ∃ q, q ≠ [] ∧ a = gap ++ q ∧ after = q ++ b := by
  rcases List.append_eq_append_iff.1 same with ⟨q, rfl, rfl⟩ | ⟨p, rfl, rfl⟩
  · refine ⟨q, ?_, rfl, rfl⟩
    rintro rfl
    rw [List.append_nil] at ne ends
    exact ne (h.eq_nil_of_endsSolid ends)
  · have blank : IsGap a := fun c hc => h c (List.mem_append_left p hc)
    exact absurd (blank.eq_nil_of_endsSolid ends) ne

/-- Where the first part of a text ends that is cut in two ways. -/
theorem append_cases {a b c d : List Char} (same : a ++ b = c ++ d) :
    (∃ rest, a = c ++ rest ∧ rest ++ b = d) ∨ ∃ t, t ≠ [] ∧ c = a ++ t ∧ b = t ++ d := by
  rcases List.append_eq_append_iff.1 same with ⟨t, rfl, rfl⟩ | ⟨rest, rfl, rfl⟩
  · by_cases none : t = []
    · subst none
      exact .inl ⟨[], by simp, rfl⟩
    · exact .inr ⟨t, none, rfl, rfl⟩
  · exact .inl ⟨rest, rfl, rfl⟩

/-! ## A run behind a word -/

theorem Keeps.cons {s : Segment} {rest : List Char} (h : Keeps s.gap segs rest gap after) (lead : List Char) :
    Keeps lead (s :: segs) (lead ++ s.chunk ++ rest) gap after := by
  obtain ⟨xs, t, ys, p, q, rfl, chunk, rfl, rfl⟩ := h
  refine ⟨s :: xs, t, ys, p, q, rfl, chunk, ?_, rfl⟩
  rw [spell_cons]
  simp only [List.append_assoc]

theorem Drops.cons {s : Segment} {rest : List Char} (h : Drops s.gap segs rest gap after) (lead : List Char) :
    Drops lead (s :: segs) (lead ++ s.chunk ++ rest) gap after := by
  rcases h with ⟨p, q, front, rfl, rfl⟩ | ⟨xs, t, ys, p, q, rfl, behind, rfl, rfl⟩
  · refine .inr ⟨[], s, segs, rest, q, rfl, front, ?_, rfl⟩
    simp [spell]
  · refine .inr ⟨s :: xs, t, ys, p, q, rfl, behind, ?_, rfl⟩
    rw [spell_cons]
    simp only [List.append_assoc]

/-- The edges of chunks decide it: a run that no chunk has a part of at its edge is kept
or dropped. -/
theorem keeps_or_drops (some : ∀ s ∈ segs, s.chunk ≠ []) (gaps : ∀ s ∈ segs, IsGap s.gap)
    (ends : ∀ s ∈ segs, EndsSolid s.chunk) (opens : ∀ s ∈ segs.tail, OpensSolid s.chunk) (leading : IsGap lead)
    (edge : before ≠ [] ∨ lead = [] ∨ ∀ s ∈ segs.head?, OpensSolid s.chunk)
    (run : IsGapOf (lead ++ spell segs) before gap after) :
    Keeps lead segs before gap after ∨ Drops lead segs before gap after := by
  induction segs generalizing lead before with
  | nil =>
    have whole : before ++ gap ++ after = lead := by rw [run.spells]; simp [spell]
    exact .inr (.inl ⟨before, after, whole.symm, rfl, by simp [spell]⟩)
  | cons s segs ih =>
    rw [List.forall_mem_cons] at some gaps ends
    have spells := run.spells
    rw [spell_cons] at spells
    have spelled : before ++ (gap ++ after) = (lead ++ s.chunk) ++ (s.gap ++ spell segs) := by
      simpa only [List.append_assoc] using spells
    rcases append_cases spelled with ⟨rest, rfl, tail⟩ | ⟨t, ne, reaches, tail⟩
    · -- It starts behind the first chunk.
      have inner : IsGapOf (s.gap ++ spell segs) rest gap after :=
        ⟨by rw [List.append_assoc]; exact tail, run.some, run.isGap, run.ends.of_append, run.opens⟩
      have next : ∀ t ∈ segs.head?, OpensSolid t.chunk := fun t ht => opens t (List.mem_of_mem_head? ht)
      rcases ih some.2 gaps.2 ends.2 (fun t ht => opens t (List.mem_of_mem_tail ht)) gaps.1 (.inr (.inr next)) inner with
        keeps | drops
      · exact .inl (keeps.cons lead)
      · exact .inr (drops.cons lead)
    · -- It starts before the first chunk ends, and ends before it does.
      have solid : EndsSolid t := by
        refine EndsSolid.of_append (a := before) ?_
        rw [← reaches]
        exact ends.1.append some.1
      obtain ⟨q, more, rfl, rfl⟩ := run.isGap.exists_of_endsSolid ne solid tail
      rcases append_cases reaches.symm with ⟨p, rfl, inside⟩ | ⟨u, some', rfl, across⟩
      · refine .inl ⟨[], s, segs, p, q, rfl, ?_, ?_, ?_⟩
        · rw [← inside, List.append_assoc]
        · simp [spell]
        · rw [List.append_assoc]
      · -- It starts in front of the chunk, so all of it is there.
        have front : before = [] := IsGap.eq_nil_of_endsSolid (fun c hc => leading c (by simp [hc])) run.ends
        subst front
        have opens' : OpensSolid s.chunk := by
          rcases edge with no | no | first
          · exact absurd rfl no
          · exact absurd no some'
          · exact first s rfl
        have qOpens : OpensSolid q := run.opens.of_append
        obtain ⟨rfl, rfl⟩ := gap_unique run.isGap leading qOpens opens' across
        refine .inr (.inl ⟨[], [], by simp, rfl, ?_⟩)
        rw [spell_cons]
        simp only [List.nil_append, List.append_assoc]

/-- Of the run at the start of a text nothing is in front of the chunks, or all of it is. -/
theorem keeps_or_drops_front (some : ∀ s ∈ segs, s.chunk ≠ []) (gaps : ∀ s ∈ segs, IsGap s.gap)
    (ends : ∀ s ∈ segs, EndsSolid s.chunk) (opens : ∀ s ∈ segs.tail, OpensSolid s.chunk) (leading : IsGap lead)
    (run : IsGapOf (lead ++ spell segs) [] gap after) :
    Keeps lead segs [] gap after ∨ Drops lead segs [] gap after ↔ lead = [] ∨ lead = gap := by
  constructor
  · rintro (⟨xs, s, ys, p, q, -, -, front, -⟩ | ⟨p, q, rfl, rfl, rfl⟩ | ⟨xs, s, ys, p, q, rfl, -, front, -⟩)
    · exact .inl (List.append_eq_nil_iff.1 (List.append_eq_nil_iff.1 front.symm).1).1
    · have none : q = [] := IsGap.eq_nil_of_opensSolid (fun c hc => leading c (by simp [hc])) run.opens
      exact .inr (by simp [none])
    · have none := (List.append_eq_nil_iff.1 (List.append_eq_nil_iff.1 front.symm).1).2
      exact absurd none (some s (by simp))
  · rintro (none | rfl)
    · exact keeps_or_drops some gaps ends opens leading (.inr (.inl none)) run
    · refine .inr (.inl ⟨[], [], by simp, rfl, ?_⟩)
      have spells := run.spells
      rw [List.nil_append] at spells
      exact List.append_cancel_left spells

/-! ## A run at the start -/

/-- What is left of so many characters when a chunk of them is taken off as long as more
than that are there. -/
def leftover (width n : Nat) : Nat := (n - 1) % width + 1

theorem leftover_of_le {n : Nat} (pos : 0 < n) (fits : n ≤ width) : leftover width n = n := by
  rw [leftover, Nat.mod_eq_of_lt (by omega)]
  omega

theorem leftover_sub {n : Nat} (wide : width < n) : leftover width (n - width) = leftover width n := by
  have split : n - 1 = (n - width - 1) + width := by omega
  rw [leftover, leftover, split, Nat.add_mod_right]

theorem leftover_le (width : Nat) {n : Nat} (pos : 0 < n) : leftover width n ≤ n := by
  have := Nat.mod_le (n - 1) width
  rw [leftover]
  omega

theorem leftover_le_width (pos : 0 < width) (n : Nat) : leftover width n ≤ width := Nat.mod_lt _ pos

/-- A pass over a run that is wider than a chunk takes off as much as a chunk holds. -/
theorem fill_wide_gap (pos : 0 < width) (rs : List Run) (isGap : IsGap gap) (wide : width < gap.length) :
    fill width pos false (gap :: rs) = fill width pos false (gap.drop width :: rs) := by
  have taken : fitting width (gap :: rs) = ([], gap :: rs) := if_neg (Nat.not_le.2 wide)
  have piece : Run.isGap (gap.take width) = true :=
    List.all_eq_true.2 fun c hc => isGap c (List.mem_of_mem_take hc)
  have same : opening false (gap :: rs) = gap :: rs := rfl
  have split : cut width (gap :: rs) = ([gap.take width], gap.drop width :: rs) := by
    rw [cut, taken]
    simp [wide, pos]
  have none : (dropGapAtEnd [gap.take width]).flatten = [] := by simp [dropGapAtEnd, piece]
  rw [fill, dif_neg (List.cons_ne_nil _ _)]
  simp only [same, split, none, if_true]

/-- Passes over the run at the start leave what is left over of it. -/
theorem fill_gap (pos : 0 < width) (rs : List Run) (isGap : IsGap gap) (some : gap ≠ []) :
    fill width pos false (gap :: rs) =
      fill width pos false (gap.drop (gap.length - leftover width gap.length) :: rs) := by
  generalize size : gap.length = n
  induction n using Nat.strongRecOn generalizing gap with
  | ind n ih =>
    have length : 0 < n := size ▸ List.length_pos_iff.2 some
    by_cases fits : n ≤ width
    · rw [leftover_of_le length fits, Nat.sub_self, List.drop_zero]
    · have wide : width < n := Nat.not_le.1 fits
      have less : (gap.drop width).length = n - width := by rw [List.length_drop, size]
      have rest := ih (n - width) (by omega) (fun c hc => isGap c (List.mem_of_mem_drop hc))
        (List.length_pos_iff.1 (by omega)) less
      have bound := leftover_le width (n := n - width) (by omega)
      rw [leftover_sub wide] at rest bound
      rw [fill_wide_gap pos rs isGap (by omega), rest, List.drop_drop]
      congr 3
      omega

/-- So many white space characters and the start of what is behind them open a chunk: the
next word fits behind them, or is wider than a chunk and is split there. -/
def OpensChunk (width n : Nat) (after : List Char) : Prop :=
  after ≠ [] ∧ (n + (wordAfter after).length ≤ width ∨ n < width ∧ width < (wordAfter after).length)

instance (width n : Nat) (after : List Char) : Decidable (OpensChunk width n after) :=
  inferInstanceAs (Decidable (_ ∧ _))

/-- A chunk at the start of a text has all of the white space there and a part of the next
word, unless it is empty. -/
theorem Pass.front {chunk dropped rest : List Char} (h : Pass width (gap ++ after) chunk dropped rest) (isGap : IsGap gap)
    (opens : OpensSolid after) (some : chunk ≠ []) :
    ∃ t, t ≠ [] ∧ chunk = gap ++ t ∧ after = t ++ (dropped ++ rest) ∧ OpensSolid t := by
  have spells := h.spells
  rw [List.append_assoc] at spells
  obtain ⟨t, ne, rfl, rfl⟩ := isGap.exists_of_endsSolid some h.ends spells.symm
  exact ⟨t, ne, rfl, rfl, opens.of_append⟩

/-- Whether the chunk of a pass is empty that has taken the white space at the start. -/
theorem Pass.opens_iff {chunk dropped rest : List Char} (h : Pass width (gap ++ after) chunk dropped rest) (isGap : IsGap gap)
    (opens : OpensSolid after) (took : chunk = [] → dropped = gap ∧ rest = after) :
    chunk ≠ [] ↔ OpensChunk width gap.length after := by
  constructor
  · intro some
    obtain ⟨t, ne, rfl, rfl, first⟩ := h.front isGap opens some
    have fits := h.fits
    have pos : 0 < t.length := List.length_pos_iff.2 ne
    rw [List.length_append] at fits
    refine ⟨by simp [ne], ?_⟩
    by_cases whole : gap.length + (wordAfter (t ++ (dropped ++ rest))).length ≤ width
    · exact .inl whole
    · -- The word does not fit, so the chunk ends inside it.
      have inWord : t <+: wordAfter (t ++ (dropped ++ rest)) :=
        List.prefix_of_prefix_length_le (List.prefix_append _ _) (List.takeWhile_prefix _) (by omega)
      have solid : IsSolid t := fun c hc => isSolid_wordAfter _ c (inWord.subset hc)
      have word : wordAfter (t ++ (dropped ++ rest)) = t ++ wordAfter (dropped ++ rest) := wordAfter_append_solid solid
      rw [word, List.length_append] at whole ⊢
      have goesOn : wordAfter (dropped ++ rest) ≠ [] := List.length_pos_iff.1 (by omega)
      have none : dropped = [] := h.isGap.eq_nil_of_opensSolid (wordAfter_ne_nil_iff.1 goesOn).2
      subst none
      obtain ⟨more, starts⟩ := wordAfter_ne_nil_iff.1 goesOn
      obtain ⟨full, inside⟩ := h.cuts rfl more starts
      have long := inside.long
      rw [wordBefore_append_solid solid, wordBefore_gap isGap, List.nil_append, List.length_append] at long
      exact .inr ⟨by omega, long⟩
  · rintro ⟨some, room⟩ rfl
    obtain ⟨rfl, rfl⟩ := took rfl
    have word : 0 < (wordAfter rest).length := List.length_pos_iff.2 (wordAfter_ne_nil_iff.2 ⟨some, opens⟩)
    rcases h.full with none | wide | ⟨-, narrow, beyond⟩
    · exact some none
    · have start : rest.takeWhile isBreak = [] := takeWhile_gap_append .nil opens
      simp only [start, List.nil_append, List.append_nil] at wide
      omega
    · simp only [List.nil_append, List.length_append] at beyond
      omega

/-- A pass takes a run at the start whole if it is no wider than a chunk. -/
theorem cut_narrow (rs : List Run) (fits : gap.length ≤ width) : ∃ taken, (cut width (gap :: rs)).1 = gap :: taken := by
  have first : fitting width (gap :: rs) =
      (gap :: (fitting (width - gap.length) rs).1, (fitting (width - gap.length) rs).2) := if_pos fits
  rw [cut, first]
  cases (fitting (width - gap.length) rs).2 with
  | nil => exact ⟨_, rfl⟩
  | cons r more =>
    dsimp only
    split
    · exact ⟨_, rfl⟩
    · exact ⟨_, rfl⟩

theorem flatten_cut (width : Nat) (rs : List Run) : (cut width rs).1.flatten ++ (cut width rs).2.flatten = rs.flatten := by
  have spec := cut_spec width rs
  generalize (cut width rs).1 = taken at spec ⊢
  generalize (cut width rs).2 = rest at spec ⊢
  cases spec <;> simp

/-- A pass over runs of which the first is white space no wider than a chunk: if it makes
no chunk, it has dropped the white space and nothing else. -/
theorem pass_narrow (pos : 0 < width) {rs : List Run} (alt : Alternating true (gap :: rs)) (fits : gap.length ≤ width) :
    ∃ dropped, Pass width (gap ++ rs.flatten) (dropGapAtEnd (cut width (gap :: rs)).1).flatten dropped
        (cut width (gap :: rs)).2.flatten ∧
      ((dropGapAtEnd (cut width (gap :: rs)).1).flatten = [] →
        dropped = gap ∧ (cut width (gap :: rs)).2.flatten = rs.flatten) := by
  obtain ⟨dropped, pass⟩ := pass_spec pos alt
  obtain ⟨taken, first⟩ := cut_narrow rs fits
  have split := flatten_cut width (gap :: rs)
  refine ⟨dropped, pass, fun none => ?_⟩
  have spells := pass.spells
  rw [none, List.nil_append, ← split] at spells
  have all : dropped = gap ++ taken.flatten := by
    rw [List.append_cancel_right spells, first, List.flatten_cons]
  rw [first, List.flatten_cons, List.flatten_cons, List.append_assoc] at split
  have behind := List.append_cancel_left split
  have opens : OpensSolid (taken.flatten ++ (cut width (gap :: rs)).2.flatten) := by
    rw [behind]
    cases alt with
    | cons _ _ words => exact words.opensSolid
  have nothing : taken.flatten = [] :=
    IsGap.eq_nil_of_opensSolid (fun c hc => pass.isGap c (all ▸ List.mem_append_right gap hc)) opens
  rw [nothing] at all behind
  exact ⟨all.trans (List.append_nil gap), behind⟩

/-- Passes over such runs drop the white space in front, or leave all of it to the first chunk. -/
theorem fill_narrow (pos : 0 < width) {rs : List Run} (alt : Alternating true (gap :: rs)) (fits : gap.length ≤ width) :
    ∃ segs, segs.map Segment.chunk = fill width pos false (gap :: rs) ∧
      Passes width (gap ++ rs.flatten) (if OpensChunk width gap.length rs.flatten then [] else gap) segs := by
  obtain ⟨isGap, opens⟩ : IsGap gap ∧ OpensSolid rs.flatten := by
    cases alt with
    | cons _ all words => exact ⟨all, words.opensSolid⟩
  obtain ⟨dropped, pass, took⟩ := pass_narrow pos alt fits
  obtain ⟨kind, left⟩ := alternating_cut width alt
  have unfolded : fill width pos false (gap :: rs) =
      if (dropGapAtEnd (cut width (gap :: rs)).1).flatten = [] then fill width pos false (cut width (gap :: rs)).2
      else (dropGapAtEnd (cut width (gap :: rs)).1).flatten :: fill width pos true (cut width (gap :: rs)).2 := by
    rw [fill, dif_neg (List.cons_ne_nil _ _)]
    rfl
  rw [unfolded]
  generalize (dropGapAtEnd (cut width (gap :: rs)).1).flatten = chunk at pass took ⊢
  generalize (cut width (gap :: rs)).2 = rest at pass took left ⊢
  have makes := pass.opens_iff isGap opens took
  by_cases none : chunk = []
  · obtain ⟨rfl, same⟩ := took none
    obtain ⟨lead, segs, chunks, passes, -⟩ := fill_passes pos false left
    have spells := passes.spells
    have front : lead = [] := passes.leading.eq_nil_of_opensSolid (by rw [spells, same]; exact opens)
    subst front
    refine ⟨segs, by rw [if_pos none, chunks], ?_⟩
    rw [if_neg fun h => makes.2 h none, ← same, ← List.append_nil dropped, List.append_assoc]
    exact .drop isGap passes
  · obtain ⟨lead, segs, chunks, passes, solid⟩ := fill_passes pos true left
    refine ⟨⟨chunk, dropped ++ lead⟩ :: segs, by rw [if_neg none, List.map_cons, chunks], ?_⟩
    rw [if_pos (makes.1 none)]
    exact .take pass none (solid rfl) passes

/-- Of a run at the start, passes drop all, or all but what is left over and opens the first
chunk. -/
theorem fill_leading (pos : 0 < width) {rs : List Run} (alt : Alternating true (gap :: rs)) :
    ∃ segs, segs.map Segment.chunk = fill width pos false (gap :: rs) ∧
      Passes width (gap ++ rs.flatten)
        (if OpensChunk width (leftover width gap.length) rs.flatten then gap.take (gap.length - leftover width gap.length)
          else gap) segs := by
  cases alt with
  | cons some isGap words =>
    have length : 0 < gap.length := List.length_pos_iff.2 some
    have bound := leftover_le width length
    generalize least : gap.length - leftover width gap.length = n
    have rest : (gap.drop n).length = leftover width gap.length := by
      rw [List.length_drop]
      omega
    have alt : Alternating true (gap.drop n :: rs) := by
      refine .cons ?_ (fun c hc => isGap c (List.mem_of_mem_drop hc)) words
      exact List.length_pos_iff.1 (rest ▸ Nat.succ_pos _)
    obtain ⟨segs, chunks, passes⟩ := fill_narrow pos alt (rest ▸ leftover_le_width pos _)
    refine ⟨segs, ?_, ?_⟩
    · rw [chunks, fill_gap pos rs isGap some, least]
    · have front : IsGap (gap.take n) := fun c hc => isGap c (List.mem_of_mem_take hc)
      have taken := Passes.drop front passes
      rw [← List.append_assoc, List.take_append_drop, rest] at taken
      split
      next stays => rwa [if_pos stays, List.append_nil] at taken
      next no => rwa [if_neg no, List.take_append_drop] at taken

/-- Wrapping, and what of the run at the start of the text is in front of the first chunk. -/
theorem wrap_leading (pos : 0 < width) (text : List Char) :
    ∃ lead segs, segs.map Segment.chunk = wrap width pos text ∧ Passes width text lead segs ∧
      ∀ gap after, IsGapOf text [] gap after →
        lead = if OpensChunk width (leftover width gap.length) after then gap.take (gap.length - leftover width gap.length)
          else gap := by
  obtain ⟨kind, alt⟩ := alternating_runs text
  have whole := flatten_runs text
  by_cases starts : ∃ gap rs, runs text = gap :: rs ∧ kind = true
  · obtain ⟨gap, rs, split, rfl⟩ := starts
    rw [split] at alt whole
    rw [List.flatten_cons] at whole
    obtain ⟨segs, chunks, passes⟩ := fill_leading pos alt
    rw [whole] at passes
    refine ⟨_, segs, by rw [wrap, split, chunks], passes, fun gap' after run => ?_⟩
    cases alt with
    | cons some isGap words =>
      have spells := run.spells
      rw [← whole, List.nil_append] at spells
      obtain ⟨rfl, rfl⟩ := gap_unique run.isGap isGap run.opens words.opensSolid spells
      rfl
  · have opens : OpensSolid text := by
      rw [← whole]
      generalize runs text = all at alt starts ⊢
      cases kind with
      | false => exact alt.opensSolid
      | true =>
        cases alt with
        | nil => exact .nil
        | @cons _ gap rs some isGap words => exact absurd ⟨gap, rs, rfl, rfl⟩ starts
    obtain ⟨lead, segs, chunks, passes⟩ := wrap_passes pos text
    refine ⟨lead, segs, chunks, passes, fun gap after run => ?_⟩
    have spells := run.spells
    rw [List.nil_append] at spells
    exact absurd (run.isGap.eq_nil_of_opensSolid (spells ▸ opens)) run.some

end Folio.Text

namespace Folio.Page

open Text

variable {width : Nat}

/-- **White space is kept whole or dropped whole, but for a wide run at the start.** Of a
wrapped text, each run of white space stands in full in one chunk or in none at all, except
one at the start that is wider than a chunk: if the next word fits behind what is left over
of it, or is to be split, the rest of the run is dropped and what is left over opens the
first chunk. -/
theorem wrap_gaps (pos : 0 < width) (text : String) :
    ∃ chunks lead segs, wrap (width : Number) text = .ok chunks ∧ chunks = segs.map (fun s => String.ofList s.chunk) ∧
      Wrapped width text.toList lead segs ∧ ∀ before gap after, IsGapOf text.toList before gap after →
        (Keeps lead segs before gap after ∨ Drops lead segs before gap after ↔
          ¬(before = [] ∧ width < gap.length ∧ OpensChunk width (leftover width gap.length) after)) ∧
        (before = [] → OpensChunk width (leftover width gap.length) after →
          lead = gap.take (gap.length - leftover width gap.length)) := by
  obtain ⟨lead, segs, chunks, passes, leading⟩ := wrap_leading pos text.toList
  have spells := passes.spells
  refine ⟨_, lead, segs, wrap_natCast pos text, ?_, passes.wrapped, fun before gap after run => ?_⟩
  · rw [← chunks, List.map_map]
    rfl
  have some : ∀ s ∈ segs, s.chunk ≠ [] := fun s hs => List.length_pos_iff.1 (passes.sized s hs).1
  by_cases start : before = []
  · subst start
    have front := leading gap after run
    rw [← spells] at run
    have length : 0 < gap.length := List.length_pos_iff.2 run.some
    refine ⟨?_, fun _ opens => by rw [front, if_pos opens]⟩
    rw [keeps_or_drops_front some passes.gaps passes.ends passes.opens passes.leading run]
    by_cases opens : OpensChunk width (leftover width gap.length) after
    · rw [if_pos opens] at front
      by_cases wide : width < gap.length
      · -- Some of it is in front of the chunk and some is not.
        have left := leftover_le_width pos gap.length
        have least : 0 < leftover width gap.length := Nat.succ_pos _
        have part : lead.length = gap.length - leftover width gap.length := by
          rw [front, List.length_take]
          omega
        refine iff_of_false ?_ fun h => h ⟨rfl, wide, opens⟩
        rintro (rfl | rfl)
        · rw [List.length_nil] at part
          omega
        · omega
      · rw [leftover_of_le length (Nat.not_lt.1 wide), Nat.sub_self, List.take_zero] at front
        exact iff_of_true (.inl front) fun h => wide h.2.1
    · rw [if_neg opens] at front
      exact iff_of_true (.inr front) fun h => opens h.2.2
  · rw [← spells] at run
    have whole := keeps_or_drops some passes.gaps passes.ends passes.opens passes.leading (.inl start) run
    exact ⟨iff_of_true whole fun h => start h.1, fun h => absurd h start⟩

/-- With a wide run at the start of which a part opens the first chunk, and one that is dropped. -/
theorem wrap_gaps_leading :
    0 < 3 ∧ ∃ chunks lead segs, wrap ((3 : Nat) : Number) "     a  b" = .ok chunks ∧
      chunks = segs.map (fun s => String.ofList s.chunk) ∧ lead = [' ', ' ', ' '] ∧
      (Keeps lead segs "     a".toList [' ', ' '] ['b'] ∨ Drops lead segs "     a".toList [' ', ' '] ['b']) := by
  have pos : 0 < 3 := by decide
  obtain ⟨chunks, lead, segs, made, same, -, each⟩ := wrap_gaps pos "     a  b"
  refine ⟨pos, chunks, lead, segs, made, same, ?_, ?_⟩
  · exact (each [] [' ', ' ', ' ', ' ', ' '] ['a', ' ', ' ', 'b'] ⟨by decide, by decide, by decide, .nil, by decide⟩).2 rfl
      (by decide)
  · exact (each "     a".toList [' ', ' '] ['b'] ⟨by decide, by decide, by decide, by decide, by decide⟩).1.2 (by decide)

/-- Of five blanks in front of a word, a chunk of three characters has two. -/
theorem not_always_whole :
    wrap ((3 : Nat) : Number) "     a" = .ok ["  a"] ∧
      ∀ lead segs, segs.map (fun s => String.ofList s.chunk) = ["  a"] → lead ++ spell segs = "     a".toList →
        ¬∀ before gap after, IsGapOf "     a".toList before gap after →
          Keeps lead segs before gap after ∨ Drops lead segs before gap after := by
  have made : Text.wrap 3 (by decide) "     a".toList = ["  a".toList] := by decide +kernel
  refine ⟨?_, fun lead segs chunks spells whole => ?_⟩
  · rw [wrap_natCast (by decide), made]
    rfl
  · obtain ⟨s, rfl⟩ : ∃ s, segs = [s] := List.length_eq_one_iff.1 (by simpa using congrArg List.length chunks)
    have spelt : String.ofList s.chunk = "  a" := (List.cons.inj chunks).1
    have chunk : s.chunk = "  a".toList := by rw [← spelt, String.toList_ofList]
    have three : s.chunk.length = 3 := by rw [chunk]; rfl
    have six := congrArg List.length spells
    have total : "     a".toList.length = 6 := rfl
    rw [spell_singleton, List.length_append, List.length_append, three, total] at six
    have run : IsGapOf "     a".toList [] [' ', ' ', ' ', ' ', ' '] ['a'] :=
      ⟨by decide, by decide, by decide, .nil, by decide⟩
    -- Five characters have no place in the chunk, and none beside it.
    rcases whole _ _ _ run with ⟨xs, t, ys, p, q, only, inside, -⟩ | ⟨p, q, front, -⟩ | ⟨xs, t, ys, p, q, only, behind, -⟩
    · obtain rfl : t = s := List.mem_singleton.1 (only ▸ by simp)
      have five := congrArg List.length inside
      simp only [List.length_append, List.length_cons, List.length_nil] at five
      omega
    · have five := congrArg List.length front
      simp only [List.length_append, List.length_cons, List.length_nil] at five
      omega
    · obtain rfl : t = s := List.mem_singleton.1 (only ▸ by simp)
      have five := congrArg List.length behind
      simp only [List.length_append, List.length_cons, List.length_nil] at five
      omega

end Folio.Page
