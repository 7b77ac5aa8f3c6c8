/-
Wrapping makes as few chunks as can be. Each pass takes as much as a chunk there could
hold (`Filled`), so no other way to chunk a text that is not ahead before a chunk is
ahead after it (`Filled.catches_up`), and the chunks that wrapping makes run out first.

That needs a text which does not start with white space: in front of it, passes can drop
a part of what is too wide for a chunk and keep the rest in the first one.
-/
import Folio.Proofs.Text.Wrapping

namespace Folio.Text

variable {width : Nat} {text lead rest before ahead later : List Char} {s o : Segment} {segs others : List Segment}

/-- With `rest` behind it, a segment is wide enough, or its chunk ended since the next
word would not fit. -/
def Filled (width : Nat) (s : Segment) (rest : List Char) : Prop :=
  width ≤ (s.chunk ++ s.gap).length ∨
    s.gap ≠ [] ∧ (wordAfter rest).length ≤ width ∧ width < (s.chunk ++ s.gap ++ wordAfter rest).length

theorem takeWhile_of_opensSolid {b : List Char} (h : OpensSolid b) : b.takeWhile isBreak = [] := by
  cases b with
  | nil => rfl
  | cons c b => exact List.takeWhile_cons_of_neg (by simp [h c rfl])

/-- All segments but the last are filled. -/
theorem Passes.filled (h : Passes width text lead segs) :
    ∀ a s b, segs = a ++ s :: b → b ≠ [] → Filled width s (spell b) := by
  induction h with
  | done => exact fun a s b eq => absurd eq (by simp)
  | drop gap more ih => exact ih
  | @take text chunk gap rest lead segs pass some opens more ih =>
    intro a s b eq ne
    cases a with
    | cons t a => exact ih a s b (List.cons.inj eq).2 ne
    | nil =>
      obtain ⟨rfl, rfl⟩ := List.cons.inj eq
      have sized := fun s hs => (more.sized s hs).1
      have spells := more.spells
      have next := opensSolid_spell sized opens
      rcases pass.full with none | wide | ⟨gapNe, fits, beyond⟩
      · rw [none, List.append_eq_nil_iff] at spells
        exact absurd spells.2 (spell_ne_nil sized ne)
      · rw [← spells, List.takeWhile_append_of_pos more.leading, takeWhile_of_opensSolid next, List.append_nil,
          List.append_assoc] at wide
        exact .inl wide
      · by_cases leadNe : lead = []
        · subst leadNe
          rw [List.nil_append] at spells
          rw [← spells] at fits beyond
          refine .inr ⟨?_, fits, ?_⟩
          · rw [List.append_nil]
            exact gapNe
          · rw [List.append_nil]
            exact beyond
        · rw [← spells, wordAfter_append_gap more.leading leadNe, List.append_nil] at beyond
          simp only [List.length_append] at beyond
          refine .inl ?_
          simp only [List.length_append]
          omega

/-- Nothing that a chunk of another kind starts before a filled segment can get it past
the white space behind that segment: it would have to end inside the next word. -/
theorem Filled.catches_up (filled : Filled width s rest) (isGap : IsGap s.gap) (opens : OpensSolid rest)
    (fits : o.chunk.length ≤ width) (gap : IsGap o.gap)
    (behind : o.chunk ++ o.gap ++ later = ahead ++ (s.chunk ++ s.gap ++ rest))
    (spares : SparesWords width (before ++ (o.chunk ++ o.gap)) later) : ∃ ahead', later = ahead' ++ rest := by
  rw [← List.append_assoc ahead] at behind
  rcases List.append_eq_append_iff.1 behind with ⟨ahead', -, split⟩ | ⟨past, reached, split⟩
  · exact ⟨ahead', split⟩
  -- It got past by `past`, which starts as the next word does.
  have opensPast : OpensSolid past := (split ▸ opens).of_append
  suffices none : past = [] by
    rw [none, List.nil_append] at split
    exact ⟨[], split.symm⟩
  rcases List.append_eq_append_iff.1 reached with ⟨some, -, tail⟩ | ⟨front, chunk, tail⟩
  · -- All of it is white space.
    have blank : IsGap past := fun c hc => gap c (tail ▸ List.mem_append_right some hc)
    exact blank.eq_nil_of_opensSolid (b := []) (by rwa [List.append_nil])
  · -- The chunk itself got past, by `front`.
    by_cases none : front = []
    · rw [none, List.nil_append] at tail
      rw [tail] at opensPast ⊢
      exact gap.eq_nil_of_opensSolid (b := []) (by rwa [List.append_nil])
    exfalso
    have pos : 0 < front.length := List.length_pos_iff.2 none
    have length := congrArg List.length chunk
    simp only [List.length_append] at length
    rcases filled with wide | ⟨gapNe, word, beyond⟩
    · simp only [List.length_append] at wide
      omega
    · simp only [List.length_append] at beyond
      have starts : rest = front ++ (o.gap ++ later) := by rw [split, tail, List.append_assoc]
      have inWord : front <+: wordAfter rest :=
        List.prefix_of_prefix_length_le ⟨_, starts.symm⟩ (List.takeWhile_prefix _) (by omega)
      have solid : IsSolid front := fun c hc => isSolid_wordAfter rest c (inWord.subset hc)
      have whole : wordAfter rest = front ++ wordAfter (o.gap ++ later) := by
        rw [starts, wordAfter_append_solid solid]
      have more : wordAfter (o.gap ++ later) ≠ [] := by
        intro no
        rw [whole, no, List.append_nil] at beyond
        omega
      have noGap : o.gap = [] := by
        by_contra ne
        exact more (wordAfter_append_gap gap ne)
      have cut : before ++ (o.chunk ++ o.gap) = (before ++ ahead ++ s.chunk) ++ s.gap ++ front := by
        rw [noGap, chunk]
        simp only [List.append_assoc, List.append_nil]
      rw [noGap, List.nil_append] at starts more
      rw [cut] at spares
      have long := spares.lt_length isGap gapNe solid none more
      rw [← starts] at long
      omega

/-- What is behind filled segments needs at least as many. -/
theorem length_le_of_behind (before ahead : List Char)
    (filled : ∀ a s b, segs = a ++ s :: b → b ≠ [] → Filled width s (spell b))
    (gaps : ∀ s ∈ segs, IsGap s.gap) (some : ∀ s ∈ segs, 1 ≤ s.chunk.length)
    (opens : ∀ s ∈ segs, OpensSolid s.chunk) (fits : ∀ s ∈ others, s.chunk.length ≤ width)
    (gaps' : ∀ s ∈ others, IsGap s.gap)
    (spares : ∀ a b, others = a ++ b → SparesWords width (before ++ spell a) (spell b))
    (behind : spell others = ahead ++ spell segs) : segs.length ≤ others.length := by
  induction segs generalizing others before ahead with
  | nil => exact Nat.zero_le _
  | cons s segs ih =>
    cases others with
    | nil =>
      have none : spell (s :: segs) = [] := (List.append_eq_nil_iff.1 behind.symm).2
      exact absurd none (spell_ne_nil some (List.cons_ne_nil _ _))
    | cons o others =>
      rw [List.length_cons, List.length_cons, Nat.succ_le_succ_iff]
      by_cases last : segs = []
      · rw [last]
        exact Nat.zero_le _
      rw [List.forall_mem_cons] at gaps some opens fits gaps'
      have cut := spares [o] others rfl
      rw [spell_singleton] at cut
      rw [spell_cons, spell_cons] at behind
      obtain ⟨ahead', later⟩ := (filled [] s segs rfl last).catches_up gaps.1 (opensSolid_spell some.2 opens.2)
        fits.1 gaps'.1 behind cut
      refine ih (before ++ spell [o]) ahead' (fun a t b eq => filled (s :: a) t b (congrArg (s :: ·) eq)) gaps.2
        some.2 opens.2 fits.2 gaps'.2 (fun a b eq => ?_) later
      have next := spares (o :: a) b (congrArg (o :: ·) eq)
      rw [spell_cons] at next
      rw [spell_singleton, List.append_assoc]
      exact next

end Folio.Text

namespace Folio.Page

open Text

variable {width : Nat}

/-- **Wrapping makes as few chunks as can be.** Of a text that does not start with white
space, it makes the chunks of one way to chunk it, and no way has fewer. -/
theorem wrap_fewest (pos : 0 < width) {text : String} (opens : OpensSolid text.toList) :
    ∃ chunks segs, wrap (width : Number) text = .ok chunks ∧ chunks = segs.map (fun s => String.ofList s.chunk) ∧
      Chunked width text.toList [] segs ∧
      ∀ others, Chunked width text.toList [] others → chunks.length ≤ others.length := by
  obtain ⟨lead, segs, chunks, passes⟩ := wrap_passes pos text.toList
  have spells := passes.spells
  obtain rfl : lead = [] := passes.leading.eq_nil_of_opensSolid (spells ▸ opens)
  rw [List.nil_append] at spells
  have sized := fun s hs => (passes.sized s hs).1
  -- The first chunk starts as the text does.
  have solid : ∀ s ∈ segs, OpensSolid s.chunk := by
    intro s hs
    cases segs with
    | nil => cases hs
    | cons t segs =>
      rcases List.mem_cons.1 hs with rfl | hs
      · rw [← spells, spell_cons, List.append_assoc] at opens
        exact opens.of_append
      · exact passes.opens s hs
  refine ⟨_, segs, wrap_natCast pos text, ?_, passes.wrapped.toChunked, fun others chunked => ?_⟩
  · rw [← chunks, List.map_map]
    rfl
  · rw [List.length_map, ← chunks, List.length_map]
    refine length_le_of_behind [] [] passes.filled passes.gaps sized solid
      (fun s hs => (chunked.sized s hs).2) chunked.gaps chunked.spares ?_
    rw [List.nil_append, spells]
    exact chunked.spells

/-- Of a text with a long word, against a way to chunk it that splits the word elsewhere. -/
theorem wrap_fewest_split :
    let others : List Segment := [⟨['a'], [' ']⟩, ⟨['b', 'c'], [' ', ' ']⟩, ⟨['d', 'e'], []⟩,
      ⟨['f', 'g', 'h', 'i'], []⟩, ⟨['j', 'k', ' ', 'l'], []⟩]
    0 < 4 ∧ OpensSolid "a bc  defghijk l".toList ∧ Chunked 4 "a bc  defghijk l".toList [] others ∧
      ∃ chunks, wrap ((4 : Nat) : Number) "a bc  defghijk l" = .ok chunks ∧ chunks.length ≤ others.length := by
  intro others
  have pos : 0 < 4 := by decide
  have opens : OpensSolid "a bc  defghijk l".toList := by decide
  have chunked : Chunked 4 "a bc  defghijk l".toList [] others := by decide
  obtain ⟨chunks, -, made, -, -, fewest⟩ := wrap_fewest pos opens
  exact ⟨pos, opens, chunked, chunks, made, fewest others chunked⟩

end Folio.Page
