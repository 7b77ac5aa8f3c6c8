/-
What one pass of wrapping does. It takes whole runs as long as they fit, and splits a
run that is wider than a chunk to fill what room is left (`Cut`). Seen on the text and
not on its runs, it takes a chunk off the front and drops the white space behind it,
and it takes as much as any chunk there could hold (`Pass`).
-/
import Folio.Proofs.Text.Word
import Folio.Text.Wrap

namespace Folio.Text

variable {width : Nat} {gap : Bool} {r : Run} {rs taken rest : List Run}

/-! ## Runs -/

/-- Runs that are in turn white space and not, the first of them white space if `gap`. -/
inductive Alternating : Bool → List Run → Prop where
  | nil (gap : Bool) : Alternating gap []
  | cons {gap : Bool} {r : Run} {rs : List Run} (ne : r ≠ []) (all : ∀ c ∈ r, isBreak c = gap)
    (rest : Alternating (!gap) rs) : Alternating gap (r :: rs)

theorem flatten_runs (cs : List Char) : (runs cs).flatten = cs := by
  induction cs with
  | nil => rfl
  | cons c cs ih =>
    rw [runs]
    split
    next d r rs h =>
      rw [h] at ih
      split <;> simp [← ih]
    · simp [ih]

theorem alternating_runs (cs : List Char) : ∃ gap, Alternating gap (runs cs) := by
  induction cs with
  | nil => exact ⟨false, .nil _⟩
  | cons c cs ih =>
    obtain ⟨gap, alt⟩ := ih
    have single : ∀ d ∈ [c], isBreak d = isBreak c := fun d hd => by rw [List.mem_singleton.1 hd]
    rw [runs]
    cases h : runs cs with
    | nil => exact ⟨isBreak c, .cons (List.cons_ne_nil _ _) single (.nil _)⟩
    | cons r rs =>
      rw [h] at alt
      cases alt with
      | cons ne all rest =>
        obtain ⟨d, r, rfl⟩ := List.exists_cons_of_ne_nil ne
        have first : isBreak d = gap := all d (List.mem_cons_self ..)
        dsimp only
        split
        next same =>
          have kind : isBreak c = gap := (beq_iff_eq.1 same).trans first
          exact ⟨gap, .cons (List.cons_ne_nil _ _) (List.forall_mem_cons.2 ⟨kind, all⟩) rest⟩
        next differ =>
          have kind : gap = !isBreak c := by
            rw [first] at differ
            revert differ
            cases isBreak c <;> cases gap <;> decide
          subst kind
          exact ⟨isBreak c, .cons (List.cons_ne_nil _ _) single (.cons (List.cons_ne_nil _ _) all rest)⟩

theorem isGap_run (ne : r ≠ []) (all : ∀ c ∈ r, isBreak c = gap) : r.isGap = gap := by
  cases gap with
  | true => exact List.all_eq_true.2 all
  | false =>
    obtain ⟨c, r, rfl⟩ := List.exists_cons_of_ne_nil ne
    rw [Run.isGap, List.all_cons, all c (List.mem_cons_self ..), Bool.false_and]

namespace Alternating

/-- The parts of alternating runs alternate, and the last run of the first part is of
another kind than the first run of the second. -/
theorem of_append {xs ys : List Run} (h : Alternating gap (xs ++ ys)) : Alternating gap xs ∧
    ∃ gap', Alternating gap' ys ∧ ∀ r ∈ xs.getLast?, r ≠ [] ∧ ∀ c ∈ r, isBreak c = !gap' := by
  induction xs generalizing gap with
  | nil => exact ⟨.nil _, gap, h, fun _ hr => nomatch hr⟩
  | cons x xs ih =>
    cases h with
    | cons ne all rest =>
      cases xs with
      | nil =>
        refine ⟨.cons ne all (.nil _), !gap, rest, fun r hr => ?_⟩
        obtain rfl := Option.some.inj hr
        exact ⟨ne, by simpa using all⟩
      | cons y xs =>
        obtain ⟨left, gap', right, last⟩ := ih rest
        exact ⟨.cons ne all left, gap', right, by simpa using last⟩

/-- A run that is split leaves a last run in front and a first run behind, both of its kind. -/
theorem of_split {xs more : List Run} {p q : Run} (h : Alternating gap (xs ++ (p ++ q) :: more)) (pne : p ≠ [])
    (qne : q ≠ []) : Alternating gap (xs ++ [p]) ∧
      ∃ kind, Alternating kind (q :: more) ∧ ∀ c ∈ p, isBreak c = kind := by
  induction xs generalizing gap with
  | nil =>
    cases h with
    | cons ne all rest =>
      have allP : ∀ c ∈ p, isBreak c = gap := fun c hc => all c (List.mem_append_left q hc)
      have allQ : ∀ c ∈ q, isBreak c = gap := fun c hc => all c (List.mem_append_right p hc)
      exact ⟨.cons pne allP (.nil _), gap, .cons qne allQ rest, allP⟩
  | cons x xs ih =>
    cases h with
    | cons ne all rest =>
      obtain ⟨front, split⟩ := ih rest
      exact ⟨.cons ne all front, split⟩

theorem opensSolid (h : Alternating false rs) : OpensSolid rs.flatten := by
  cases h with
  | nil => exact .nil
  | cons ne all rest =>
    obtain ⟨c, r, rfl⟩ := List.exists_cons_of_ne_nil ne
    intro d hd
    obtain rfl := Option.some.inj hd
    exact all _ (List.mem_cons_self ..)

/-- A word run is the whole word that its runs start with. -/
theorem wordAfter_cons (h : Alternating false (r :: rs)) : wordAfter (r :: rs).flatten = r := by
  cases h with
  | cons ne all rest =>
    rw [List.flatten_cons, wordAfter_append_solid all]
    cases rest with
    | nil => exact List.append_nil r
    | cons ne all rest => rw [List.flatten_cons, wordAfter_append_gap all ne, List.append_nil]

end Alternating

theorem endsSolid_flatten (h : ∀ r ∈ rs.getLast?, r ≠ [] ∧ IsSolid r) : EndsSolid rs.flatten := by
  rcases List.eq_nil_or_concat rs with rfl | ⟨front, r, rfl⟩
  · exact .nil
  · obtain ⟨ne, solid⟩ := h r (by simp)
    rw [List.concat_eq_append, List.flatten_append, List.flatten_singleton]
    exact solid.endsSolid.append ne

/-- What a chunk after the first does not open with is white space. -/
theorem opening_spec (started : Bool) (h : Alternating gap rs) :
    ∃ front gap', IsGap front ∧ front ++ (opening started rs).flatten = rs.flatten ∧
      Alternating gap' (opening started rs) ∧ (started = true → OpensSolid (opening started rs).flatten) := by
  cases started with
  | false => exact ⟨[], gap, .nil, rfl, h, fun no => nomatch no⟩
  | true =>
    cases h with
    | nil => exact ⟨[], gap, .nil, rfl, .nil _, fun _ => .nil⟩
    | @cons gap r rs ne all rest =>
      have kind := isGap_run ne all
      have opens : opening true (r :: rs) = if Run.isGap r then rs else r :: rs := rfl
      rw [opens, kind]
      cases gap with
      | true => exact ⟨r, false, all, rfl, rest, fun _ => rest.opensSolid⟩
      | false => exact ⟨[], false, .nil, rfl, .cons ne all rest, fun _ => (Alternating.cons ne all rest).opensSolid⟩

/-- What a chunk does not end with is white space, and all of it is dropped. -/
theorem dropGapAtEnd_spec (h : Alternating gap taken) :
    ∃ dropped, IsGap dropped ∧ (dropGapAtEnd taken).flatten ++ dropped = taken.flatten ∧
      EndsSolid (dropGapAtEnd taken).flatten ∧ ∀ r ∈ taken.getLast?, r.isGap = true → dropped ≠ [] := by
  rcases List.eq_nil_or_concat taken with rfl | ⟨front, r, rfl⟩
  · exact ⟨[], .nil, rfl, .nil, fun _ hr => nomatch hr⟩
  · rw [List.concat_eq_append] at h ⊢
    obtain ⟨-, gap', last, before⟩ := h.of_append
    cases last with
    | cons ne all rest =>
      have kind := isGap_run ne all
      have drops : dropGapAtEnd (front ++ [r]) = if r.isGap then front else front ++ [r] := by
        rw [dropGapAtEnd, List.getLast?_concat, List.dropLast_concat]
      rw [drops, kind]
      cases gap' with
      | true =>
        refine ⟨r, all, by simp, endsSolid_flatten before, fun s hs _ => ?_⟩
        obtain rfl := Option.some.inj (List.getLast?_concat.symm.trans hs)
        exact ne
      | false =>
        refine ⟨[], .nil, by simp, endsSolid_flatten fun s hs => ?_, fun s hs gap => ?_⟩
        · obtain rfl := Option.some.inj (List.getLast?_concat.symm.trans hs)
          exact ⟨ne, all⟩
        · obtain rfl := Option.some.inj (List.getLast?_concat.symm.trans hs)
          rw [kind] at gap
          cases gap

/-! ## One pass -/

theorem fitting_spec (room : Nat) (rs : List Run) : (fitting room rs).1.flatten.length ≤ room ∧
    ∀ r ∈ (fitting room rs).2.head?, room < (fitting room rs).1.flatten.length + r.length := by
  induction rs generalizing room with
  | nil => exact ⟨Nat.zero_le _, fun _ hr => nomatch hr⟩
  | cons r rs ih =>
    rw [fitting]
    split
    · obtain ⟨within, full⟩ := ih (room - r.length)
      rw [List.flatten_cons, List.length_append]
      refine ⟨by omega, fun s hs => ?_⟩
      have := full s hs
      omega
    · refine ⟨Nat.zero_le _, fun s hs => ?_⟩
      obtain rfl := Option.some.inj hs
      rw [List.flatten_nil, List.length_nil]
      omega

/-- How runs are cut for a chunk: all of them fit; or the next does not, and it is no
wider than a chunk or there is no room; or the next is wider and is split. -/
inductive Cut (width : Nat) : List Run → List Run → List Run → Prop where
  | all {rs : List Run} (fits : rs.flatten.length ≤ width) : Cut width rs rs []
  | between {taken more : List Run} {r : Run} (fits : taken.flatten.length ≤ width)
    (full : width < taken.flatten.length + r.length) (whole : r.length ≤ width ∨ taken.flatten.length = width) :
    Cut width (taken ++ r :: more) taken (r :: more)
  | inside {taken more : List Run} {p q : Run} (pne : p ≠ []) (qne : q ≠ [])
    (full : taken.flatten.length + p.length = width) (wide : width < (p ++ q).length) :
    Cut width (taken ++ (p ++ q) :: more) (taken ++ [p]) (q :: more)

theorem cut_spec (width : Nat) (rs : List Run) : Cut width rs (cut width rs).1 (cut width rs).2 := by
  have split := fitting_append width rs
  obtain ⟨fits, full⟩ := fitting_spec width rs
  unfold cut
  generalize fitting width rs = parts at split fits full
  obtain ⟨taken, left⟩ := parts
  cases left with
  | nil =>
    obtain rfl : taken = rs := by simpa using split
    exact .all fits
  | cons r more =>
    have full : width < taken.flatten.length + r.length := full r rfl
    dsimp only at split fits ⊢
    split
    next splits =>
      obtain ⟨wide, room⟩ := splits
      have inside : Cut width (taken ++ (r.take (width - taken.flatten.length) ++
          r.drop (width - taken.flatten.length)) :: more) (taken ++ [r.take (width - taken.flatten.length)])
          (r.drop (width - taken.flatten.length) :: more) := by
        refine .inside ?_ ?_ ?_ ?_
        · rw [← List.length_pos_iff, List.length_take]
          omega
        · rw [← List.length_pos_iff, List.length_drop]
          omega
        · rw [List.length_take]
          omega
        · rw [List.take_append_drop]
          exact wide
      rw [List.take_append_drop, split] at inside
      exact inside
    next stays =>
      rw [← split]
      exact .between fits full (by omega)

/-- What a pass takes off the front of a text: a chunk, and white space behind it that
is dropped. -/
structure Pass (width : Nat) (text chunk gap rest : List Char) : Prop where
  spells : chunk ++ gap ++ rest = text
  isGap : IsGap gap
  fits : chunk.length ≤ width
  ends : EndsSolid chunk
  /-- With nothing dropped, a word that is wider than a chunk was cut to fill this one. -/
  cuts : gap = [] → rest ≠ [] → OpensSolid rest → chunk.length = width ∧ InLongWord width chunk rest
  /-- No chunk there could hold more: this one is full, perhaps with the white space
  behind it, or the next word does not fit. -/
  full : rest = [] ∨ width ≤ (chunk ++ gap ++ rest.takeWhile isBreak).length ∨
    gap ≠ [] ∧ (wordAfter rest).length ≤ width ∧ width < (chunk ++ gap ++ wordAfter rest).length

/-- A pass over all runs leaves nothing. -/
theorem pass_all (alt : Alternating gap rs) (fits : rs.flatten.length ≤ width) :
    ∃ dropped, Pass width rs.flatten (dropGapAtEnd rs).flatten dropped [] := by
  obtain ⟨dropped, isGap, spells, ends, -⟩ := dropGapAtEnd_spec alt
  have length := congrArg List.length spells
  rw [List.length_append] at length
  exact ⟨dropped, by rw [List.append_nil, spells], isGap, by omega, ends, fun _ ne => absurd rfl ne, .inl rfl⟩

/-- A pass that ends between two runs, of which the second did not fit. -/
theorem pass_between {more : List Run} (pos : 0 < width) (alt : Alternating gap (taken ++ r :: more))
    (fits : taken.flatten.length ≤ width) (full : width < taken.flatten.length + r.length)
    (whole : r.length ≤ width ∨ taken.flatten.length = width) :
    ∃ dropped, Pass width (taken ++ r :: more).flatten (dropGapAtEnd taken).flatten dropped (r :: more).flatten := by
  obtain ⟨front, kind, next, before⟩ := alt.of_append
  obtain ⟨dropped, isGap, spells, ends, drops⟩ := dropGapAtEnd_spec front
  have length := congrArg List.length spells
  rw [List.length_append] at length
  have whole' : (dropGapAtEnd taken).flatten ++ dropped ++ (r :: more).flatten = (taken ++ r :: more).flatten := by
    rw [spells, List.flatten_append]
  cases kind with
  | true =>
    cases next with
    | cons ne all rest =>
      refine ⟨dropped, whole', isGap, by omega, ends,
        fun _ _ opens => absurd (IsGap.eq_nil_of_opensSolid all opens) ne, .inr (.inl ?_)⟩
      rw [List.flatten_cons, List.takeWhile_append_of_pos all]
      simp only [List.length_append]
      omega
  | false =>
    -- The run that did not fit is a word, so the last one before it is dropped.
    have some : taken ≠ [] := by
      rintro rfl
      rw [List.flatten_nil, List.length_nil] at full whole
      omega
    have last := List.getLast?_eq_some_getLast some
    obtain ⟨ne, all⟩ := before _ last
    have dropsLast : dropped ≠ [] := drops _ last (isGap_run ne all)
    refine ⟨dropped, whole', isGap, by omega, ends, fun none => absurd none dropsLast, .inr ?_⟩
    rw [next.wordAfter_cons]
    simp only [List.length_append]
    rcases whole with narrow | filled
    · exact .inr ⟨dropsLast, narrow, by omega⟩
    · exact .inl (by omega)

/-- A pass that ends inside a run that is wider than a chunk. -/
theorem pass_inside {more : List Run} {p q : Run} (alt : Alternating gap (taken ++ (p ++ q) :: more))
    (pne : p ≠ []) (qne : q ≠ []) (full : taken.flatten.length + p.length = width) (wide : width < (p ++ q).length) :
    ∃ dropped, Pass width (taken ++ (p ++ q) :: more).flatten (dropGapAtEnd (taken ++ [p])).flatten dropped
      (q :: more).flatten := by
  obtain ⟨front, kind, next, all⟩ := alt.of_split pne qne
  obtain ⟨dropped, isGap, spells, ends, -⟩ := dropGapAtEnd_spec front
  have piece : (taken ++ [p]).flatten = taken.flatten ++ p := by rw [List.flatten_append, List.flatten_singleton]
  rw [piece] at spells
  have length := congrArg List.length spells
  rw [List.length_append, List.length_append] at length
  refine ⟨dropped, ?_, isGap, by omega, ends, fun none _ opens => ?_, .inr (.inl ?_)⟩
  · rw [spells, List.flatten_append, List.flatten_cons, List.flatten_cons]
    simp only [List.append_assoc]
  · cases next with
    | cons ne allQ rest =>
      cases kind with
      | true => exact absurd (IsGap.eq_nil_of_opensSolid allQ opens) ne
      | false =>
        rw [none, List.append_nil] at spells
        rw [none, List.length_nil] at length
        refine ⟨by omega, ?_⟩
        rw [spells, List.flatten_cons]
        exact inLongWord_of_solid all allQ pne qne wide _ _
  · simp only [List.length_append]
    omega

/-- What a pass over runs does to their text. -/
theorem pass_spec (pos : 0 < width) (alt : Alternating gap rs) :
    ∃ dropped, Pass width rs.flatten (dropGapAtEnd (cut width rs).1).flatten dropped (cut width rs).2.flatten := by
  have spec := cut_spec width rs
  generalize (cut width rs).1 = taken at spec ⊢
  generalize (cut width rs).2 = rest at spec ⊢
  cases spec with
  | all fits => exact pass_all alt fits
  | between fits full whole => exact pass_between pos alt fits full whole
  | inside pne qne full wide => exact pass_inside alt pne qne full wide

/-- The runs that a pass leaves alternate. -/
theorem alternating_cut (width : Nat) (alt : Alternating gap rs) : ∃ kind, Alternating kind (cut width rs).2 := by
  have spec := cut_spec width rs
  generalize (cut width rs).1 = taken at spec
  generalize (cut width rs).2 = rest at spec ⊢
  cases spec with
  | all fits => exact ⟨gap, .nil _⟩
  | between fits full whole =>
    obtain ⟨-, kind, next, -⟩ := alt.of_append
    exact ⟨kind, next⟩
  | inside pne qne full wide =>
    obtain ⟨-, kind, next, -⟩ := alt.of_split pne qne
    exact ⟨kind, next⟩

end Folio.Text
