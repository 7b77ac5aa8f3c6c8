/-
Wrapping loses nothing but white space between chunks, and keeps words whole. The text
is its chunks with a gap of white space in front, behind and between them (`Chunked`),
no chunk has white space at an end where a gap could be, and a gap is empty only where
a word wider than a chunk was split (`Wrapped`).

Wrapping is a sequence of passes (`Passes`); each of these facts is read off the passes
by an induction of its own, and `fill_passes` is where the loop comes in.
-/
import Folio.Page
import Folio.Proofs.Text.Pass

namespace Folio.Text

/-- A chunk of a text, and the white space behind it that is in no chunk. -/
structure Segment where
  chunk : List Char
  gap : List Char

variable {width : Nat} {text lead : List Char} {segs : List Segment}

/-- The text that segments make up. -/
def spell (segs : List Segment) : List Char := segs.flatMap fun s => s.chunk ++ s.gap

theorem spell_cons (s : Segment) (segs : List Segment) : spell (s :: segs) = s.chunk ++ s.gap ++ spell segs :=
  List.flatMap_cons

theorem spell_append (a b : List Segment) : spell (a ++ b) = spell a ++ spell b := List.flatMap_append

theorem spell_singleton (s : Segment) : spell [s] = s.chunk ++ s.gap := List.append_nil _

/-- A text as chunks of at most `width` characters, with white space in front and
behind each that may be nothing, and with no cut through a word that would fit in a
chunk. -/
structure Chunked (width : Nat) (text lead : List Char) (segs : List Segment) : Prop where
  spells : lead ++ spell segs = text
  leading : IsGap lead
  gaps : ∀ s ∈ segs, IsGap s.gap
  sized : ∀ s ∈ segs, 1 ≤ s.chunk.length ∧ s.chunk.length ≤ width
  spares : ∀ a b, segs = a ++ b → SparesWords width (lead ++ spell a) (spell b)

theorem forall_append_iff {α : Type} {xs : List α} {P : List α → List α → Prop} :
    (∀ a b, xs = a ++ b → P a b) ↔ ∀ n ≤ xs.length, P (xs.take n) (xs.drop n) := by
  constructor
  · exact fun h n _ => h _ _ (List.take_append_drop n xs).symm
  · rintro h a b rfl
    have cut := h a.length (by simp)
    rwa [List.take_left, List.drop_left] at cut

instance (width : Nat) (text lead : List Char) (segs : List Segment) : Decidable (Chunked width text lead segs) :=
  decidable_of_iff (lead ++ spell segs = text ∧ IsGap lead ∧ (∀ s ∈ segs, IsGap s.gap) ∧
      (∀ s ∈ segs, 1 ≤ s.chunk.length ∧ s.chunk.length ≤ width) ∧
      ∀ n ≤ segs.length, SparesWords width (lead ++ spell (segs.take n)) (spell (segs.drop n)))
    ⟨fun h => ⟨h.1, h.2.1, h.2.2.1, h.2.2.2.1, forall_append_iff.2 h.2.2.2.2⟩,
      fun h => ⟨h.spells, h.leading, h.gaps, h.sized, forall_append_iff.1 h.spares⟩⟩

/-- A text in chunks as wrapping makes them: white space at the ends of a chunk is left
to the gaps, but for the start of the first; and between two chunks there is none only
where a long word was split to fill the first of them. -/
structure Wrapped (width : Nat) (text lead : List Char) (segs : List Segment) : Prop
    extends Chunked width text lead segs where
  ends : ∀ s ∈ segs, EndsSolid s.chunk
  opens : ∀ s ∈ segs.tail, OpensSolid s.chunk
  splits : ∀ a s b, segs = a ++ s :: b → b ≠ [] → s.gap = [] →
    s.chunk.length = width ∧ InLongWord width (lead ++ spell (a ++ [s])) (spell b)

/-! ## Passes -/

/-- What passes over a text make of it: each takes a chunk off the front, or drops white
space. No chunk after the first starts with white space. -/
inductive Passes (width : Nat) : List Char → List Char → List Segment → Prop where
  | done : Passes width [] [] []
  | drop {front rest lead : List Char} {segs : List Segment} (gap : IsGap front) (more : Passes width rest lead segs) :
    Passes width (front ++ rest) (front ++ lead) segs
  | take {text chunk gap rest lead : List Char} {segs : List Segment} (pass : Pass width text chunk gap rest)
    (some : chunk ≠ []) (opens : ∀ s ∈ segs, OpensSolid s.chunk) (more : Passes width rest lead segs) :
    Passes width text [] (⟨chunk, gap ++ lead⟩ :: segs)

namespace Passes

theorem spells (h : Passes width text lead segs) : lead ++ spell segs = text := by
  induction h with
  | done => rfl
  | drop gap more ih => rw [List.append_assoc, ih]
  | take pass some opens more ih =>
    rw [List.nil_append, spell_cons, ← pass.spells, ← ih]
    simp only [List.append_assoc]

theorem leading (h : Passes width text lead segs) : IsGap lead := by
  induction h with
  | done => exact .nil
  | drop gap more ih => exact gap.append ih
  | take => exact .nil

theorem gaps (h : Passes width text lead segs) : ∀ s ∈ segs, IsGap s.gap := by
  induction h with
  | done => exact fun _ hs => nomatch hs
  | drop gap more ih => exact ih
  | take pass some opens more ih => exact List.forall_mem_cons.2 ⟨pass.isGap.append more.leading, ih⟩

theorem sized (h : Passes width text lead segs) : ∀ s ∈ segs, 1 ≤ s.chunk.length ∧ s.chunk.length ≤ width := by
  induction h with
  | done => exact fun _ hs => nomatch hs
  | drop gap more ih => exact ih
  | take pass some opens more ih => exact List.forall_mem_cons.2 ⟨⟨List.length_pos_iff.2 some, pass.fits⟩, ih⟩

theorem ends (h : Passes width text lead segs) : ∀ s ∈ segs, EndsSolid s.chunk := by
  induction h with
  | done => exact fun _ hs => nomatch hs
  | drop gap more ih => exact ih
  | take pass some opens more ih => exact List.forall_mem_cons.2 ⟨pass.ends, ih⟩

theorem opens (h : Passes width text lead segs) : ∀ s ∈ segs.tail, OpensSolid s.chunk := by
  induction h with
  | done => exact fun _ hs => nomatch hs
  | drop gap more ih => exact ih
  | take pass some opens more ih => exact opens

end Passes

/-- Chunks that start with a word make up a text that does. -/
theorem opensSolid_spell (sized : ∀ s ∈ segs, 1 ≤ s.chunk.length) (opens : ∀ s ∈ segs, OpensSolid s.chunk) :
    OpensSolid (spell segs) := by
  cases segs with
  | nil => exact .nil
  | cons s segs =>
    have some : s.chunk ≠ [] := List.length_pos_iff.1 (sized s (List.mem_cons_self ..))
    rw [spell_cons, List.append_assoc]
    exact (opens s (List.mem_cons_self ..)).append some

theorem spell_ne_nil (sized : ∀ s ∈ segs, 1 ≤ s.chunk.length) (ne : segs ≠ []) : spell segs ≠ [] := by
  obtain ⟨s, segs, rfl⟩ := List.exists_cons_of_ne_nil ne
  have some : s.chunk ≠ [] := List.length_pos_iff.1 (sized s (List.mem_cons_self ..))
  rw [spell_cons]
  simp [some]

namespace Passes

/-- Where nothing lies between two chunks, a long word was split. -/
theorem splits (h : Passes width text lead segs) : ∀ a s b, segs = a ++ s :: b → b ≠ [] → s.gap = [] →
    s.chunk.length = width ∧ InLongWord width (lead ++ spell (a ++ [s])) (spell b) := by
  induction h with
  | done => exact fun a s b eq => absurd eq (by simp)
  | drop gap more ih =>
    intro a s b eq ne none
    obtain ⟨full, long⟩ := ih a s b eq ne none
    refine ⟨full, ?_⟩
    rw [List.append_assoc]
    exact long.after_append _
  | @take text chunk gap rest lead segs pass some opens more ih =>
    intro a s b eq ne none
    cases a with
    | nil =>
      obtain ⟨rfl, rfl⟩ := List.cons.inj eq
      obtain ⟨rfl, rfl⟩ := List.append_eq_nil_iff.1 none
      have sized := fun s hs => (more.sized s hs).1
      have next : spell segs = rest := more.spells
      obtain ⟨full, long⟩ := pass.cuts rfl (next ▸ spell_ne_nil sized ne) (next ▸ opensSolid_spell sized opens)
      refine ⟨full, ?_⟩
      rw [next, List.nil_append, List.nil_append, spell_singleton, List.append_nil, List.append_nil]
      exact long
    | cons t a =>
      obtain ⟨rfl, rfl⟩ := List.cons.inj eq
      obtain ⟨full, long⟩ := ih a s b rfl ne none
      refine ⟨full, ?_⟩
      have front := long.after_append (chunk ++ gap)
      rw [List.nil_append, List.cons_append, spell_cons]
      simpa only [List.append_assoc] using front

theorem spares (h : Passes width text lead segs) (a b : List Segment) (eq : segs = a ++ b) :
    SparesWords width (lead ++ spell a) (spell b) := by
  rcases List.eq_nil_or_concat a with rfl | ⟨a, s, rfl⟩
  · rw [spell, List.flatMap_nil, List.append_nil]
    exact fun before => absurd (wordBefore_gap h.leading) before
  · rw [List.concat_eq_append] at eq ⊢
    by_cases none : s.gap = []
    · by_cases last : b = []
      · subst last
        exact fun _ after => absurd rfl after
      · rw [List.append_assoc] at eq
        exact fun _ _ => (h.splits a s b eq last none).2
    · have isGap : IsGap s.gap := h.gaps s (by simp [eq])
      have spelled : lead ++ spell (a ++ [s]) = (lead ++ spell a ++ s.chunk) ++ s.gap := by
        rw [spell_append, spell_singleton]
        simp only [List.append_assoc]
      rw [spelled]
      exact sparesWords_of_gap isGap none

theorem wrapped (h : Passes width text lead segs) : Wrapped width text lead segs where
  spells := h.spells
  leading := h.leading
  gaps := h.gaps
  sized := h.sized
  spares := h.spares
  ends := h.ends
  opens := h.opens
  splits := h.splits

end Passes

/-! ## The loop -/

/-- The chunks of runs are those of passes over their text. -/
theorem fill_passes (pos : 0 < width) (started : Bool) {gap : Bool} {rs : List Run} (alt : Alternating gap rs) :
    ∃ lead segs, segs.map Segment.chunk = fill width pos started rs ∧ Passes width rs.flatten lead segs ∧
      (started = true → ∀ s ∈ segs, OpensSolid s.chunk) := by
  fun_induction fill width pos started rs generalizing gap with
  | case1 started => exact ⟨[], [], rfl, .done, fun _ _ hs => nomatch hs⟩
  | case2 started rs ne next chunk empty =>
    rename_i ih
    obtain ⟨front, gap', isGap, split, alt', -⟩ := opening_spec started alt
    obtain ⟨dropped, pass⟩ := pass_spec pos alt'
    obtain ⟨kind, left⟩ := alternating_cut width alt'
    obtain ⟨lead, segs, chunks, passes, opens⟩ := ih left
    refine ⟨front ++ (dropped ++ lead), segs, chunks, ?_, opens⟩
    have spells := pass.spells
    rw [show (dropGapAtEnd (cut width (opening started rs)).1).flatten = [] from empty, List.nil_append] at spells
    rw [← split, ← spells]
    exact .drop isGap (.drop pass.isGap passes)
  | case3 started rs ne next chunk some =>
    rename_i ih
    obtain ⟨front, gap', isGap, split, alt', opens⟩ := opening_spec started alt
    obtain ⟨dropped, pass⟩ := pass_spec pos alt'
    obtain ⟨kind, left⟩ := alternating_cut width alt'
    obtain ⟨lead, segs, chunks, passes, solid⟩ := ih left
    refine ⟨front ++ [], ⟨chunk, dropped ++ lead⟩ :: segs, ?_, ?_, fun on => ?_⟩
    · rw [List.map_cons, chunks]
    · rw [← split]
      exact .drop isGap (.take pass some (solid rfl) passes)
    · have first : OpensSolid (chunk ++ dropped ++ next.2.flatten) := by
        rw [pass.spells]
        exact opens on
      rw [List.append_assoc] at first
      exact List.forall_mem_cons.2 ⟨first.of_append, solid rfl⟩

theorem wrap_passes (pos : 0 < width) (text : List Char) :
    ∃ lead segs, segs.map Segment.chunk = wrap width pos text ∧ Passes width text lead segs := by
  obtain ⟨gap, alt⟩ := alternating_runs text
  obtain ⟨lead, segs, chunks, passes, -⟩ := fill_passes pos false alt
  rw [flatten_runs] at passes
  exact ⟨lead, segs, chunks, passes⟩

/-- A chunk is a part of the text. -/
theorem Chunked.infix {s : Segment} (h : Chunked width text lead segs) (hs : s ∈ segs) : s.chunk <:+: text := by
  obtain ⟨a, b, rfl⟩ := List.append_of_mem hs
  refine ⟨lead ++ spell a, s.gap ++ spell b, ?_⟩
  rw [← h.spells, spell_append, spell_cons]
  simp only [List.append_assoc]

/-- What a chunk of a wrapped text is. -/
theorem mem_wrap {chunk : List Char} (pos : 0 < width) (h : chunk ∈ wrap width pos text) :
    chunk.length ≤ width ∧ chunk <:+: text := by
  obtain ⟨lead, segs, chunks, passes⟩ := wrap_passes pos text
  rw [← chunks] at h
  obtain ⟨s, hs, rfl⟩ := List.mem_map.1 h
  exact ⟨(passes.sized s hs).2, passes.wrapped.toChunked.infix hs⟩

theorem runs_of_isSolid (ne : text ≠ []) (solid : IsSolid text) : runs text = [text] := by
  induction text with
  | nil => exact absurd rfl ne
  | cons c cs ih =>
    cases cs with
    | nil => rfl
    | cons d cs =>
      have tail := ih (List.cons_ne_nil d cs) fun c hc => solid c (List.mem_cons_of_mem _ hc)
      have same : (isBreak c == isBreak d) = true := by
        rw [solid c (by simp), solid d (by simp)]
        rfl
      rw [runs, tail]
      exact if_pos same

/-- A word that fits in a chunk is one. -/
theorem wrap_of_isSolid (pos : 0 < width) (ne : text ≠ []) (solid : IsSolid text) (fits : text.length ≤ width) :
    wrap width pos text = [text] := by
  have word : Run.isGap text = false := isGap_run ne solid
  have all : cut width (opening false [text]) = ([text], []) := by
    have taken : fitting width [text] = ([text], []) := if_pos fits
    have same : opening false [text] = [text] := rfl
    rw [same, cut, taken]
  have chunk : (dropGapAtEnd [text]).flatten = text := by
    have last : [text].getLast? = some text := rfl
    rw [dropGapAtEnd, last]
    simp only [word, Bool.false_eq_true, if_false, List.flatten_cons, List.flatten_nil, List.append_nil]
  rw [wrap, runs_of_isSolid ne solid, fill, dif_neg (List.cons_ne_nil _ _)]
  simp only [all, chunk, if_neg ne]
  rw [fill, dif_pos rfl]

/-- There are no chunks just if the text is blank. -/
theorem Chunked.eq_nil_iff (h : Chunked width text lead segs) (ends : ∀ s ∈ segs, EndsSolid s.chunk) :
    segs = [] ↔ IsGap text := by
  constructor
  · rintro rfl
    have spells : lead ++ [] = text := h.spells
    rw [← spells, List.append_nil]
    exact h.leading
  · intro blank
    cases segs with
    | nil => rfl
    | cons s segs =>
      have some : s.chunk ≠ [] := List.length_pos_iff.1 (h.sized s (List.mem_cons_self ..)).1
      have last := List.getLast?_eq_some_getLast some
      have solid := ends s (List.mem_cons_self ..) _ last
      have mem : s.chunk.getLast some ∈ text := by
        rw [← h.spells, spell_cons]
        simp
      rw [blank _ mem] at solid
      cases solid

end Folio.Text

namespace Folio.Page

open Text

variable {width : Nat}

/-- A width that is a positive whole number is one to wrap to. -/
theorem wrap_natCast (pos : 0 < width) (text : String) :
    wrap (width : Number) text = .ok ((Text.wrap width pos text.toList).map String.ofList) := by
  obtain ⟨n, rfl⟩ := Nat.exists_eq_succ_of_ne_zero pos.ne'
  rw [wrap, Number.toNat?_natCast]

/-- **Wrapping loses nothing but white space, and cuts no word that fits.** To any
positive width, wrapping gives the chunks of a text that is `Wrapped`; there are none
just if the text is blank; and the loop ends, since each pass leaves less than it found. -/
theorem wrap_lossless (pos : 0 < width) (text : String) :
    (∃ chunks lead segs, wrap (width : Number) text = .ok chunks ∧
      chunks = segs.map (fun s => String.ofList s.chunk) ∧ Wrapped width text.toList lead segs ∧
      (chunks = [] ↔ IsGap text.toList)) ∧
    ∀ started rs, rs ≠ [] → weight (cut width (opening started rs)).2 < weight rs := by
  refine ⟨?_, fun started rs ne => weight_cut_opening_lt pos started ne⟩
  obtain ⟨lead, segs, chunks, passes⟩ := wrap_passes pos text.toList
  have wrapped := passes.wrapped
  refine ⟨_, lead, segs, wrap_natCast pos text, ?_, wrapped, ?_⟩
  · rw [← chunks, List.map_map]
    rfl
  · rw [← chunks, List.map_eq_nil_iff, List.map_eq_nil_iff]
    exact wrapped.toChunked.eq_nil_iff wrapped.ends

/-- With white space in front, a gap that is dropped and a word that is split. -/
theorem wrap_lossless_split :
    0 < 4 ∧ ∃ chunks lead segs, wrap ((4 : Nat) : Number) " a  longish word" = .ok chunks ∧
      chunks = segs.map (fun s => String.ofList s.chunk) ∧ Wrapped 4 " a  longish word".toList lead segs ∧
      (chunks = [] ↔ IsGap " a  longish word".toList) :=
  ⟨by decide, (wrap_lossless (by decide) " a  longish word").1⟩

example : Text.wrap 4 (by decide) " a  longish word".toList =
    [" a".toList, "long".toList, "ish".toList, "word".toList] := by cbv

end Folio.Page
