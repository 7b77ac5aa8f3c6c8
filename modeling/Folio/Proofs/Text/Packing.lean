/-
Packing keeps entries whole and in order, fills pages as far as the size lets it, and
makes as few of them as can be. A page may be over the size only if it has a single
entry, and that holds of a part of a page if it holds of the page; so it is best to put
as many entries on each page as fit (`IsGreedyGrouping`), which is what the loop does
(`packOnto_spec`).

The size bounds the entries alone. What stands before and after them on a page comes on
top, so a page is within the size only up to those (`ofEntries_size`).
-/
import Folio.Page
import Folio.Proofs.Grouping
import Folio.Proofs.Text.Wide

namespace Folio.Text

variable {limit : Limit} {current rest : List (List Char)}

/-- Entries may share a page: there is only one, or their lines are within the limit. -/
def MayShare (limit : Limit) (entries : List (List Char)) : Prop :=
  1 < entries.length → limit.admits (units (pageText entries)) = true

theorem Limit.admits_of_le {m n : Nat} (h : limit.admits n = true) (le : m ≤ n) : limit.admits m = true := by
  cases limit with
  | none => rfl
  | some most =>
    simp only [Limit.admits, decide_eq_true_eq] at h ⊢
    omega

theorem pageText_append (a b : List (List Char)) : pageText (a ++ b) = pageText a ++ pageText b := by
  simp [pageText]

theorem pageText_singleton (entry : List Char) : pageText [entry] = entryLine entry := List.append_nil _

/-- A part of a page is a page. -/
theorem MayShare.part (a b c : List (List Char)) (h : MayShare limit (a ++ b ++ c)) : MayShare limit b := by
  intro more
  have whole : limit.admits (units (pageText (a ++ b ++ c))) = true := by
    refine h ?_
    simp only [List.length_append]
    omega
  refine Limit.admits_of_le whole ?_
  simp only [pageText_append, units_append]
  omega

/-- One more entry may share a page just if its line is within what is left of the limit. -/
theorem mayShare_concat_iff (some : current ≠ []) (entry : List Char) : MayShare limit (current ++ [entry]) ↔
    limit.admits (units (pageText current) + units (entryLine entry)) = true := by
  have pos : 0 < current.length := List.length_pos_iff.2 some
  have two : 1 < (current ++ [entry]).length := by
    rw [List.length_append, List.length_singleton]
    omega
  rw [MayShare, pageText_append, pageText_singleton, units_append]
  exact ⟨fun h => h two, fun h _ => h⟩

theorem mayShare_singleton (entry : List Char) : MayShare limit [entry] := fun more => absurd more (by simp)

/-- The pages from the one under way on: what each holds, and that it could hold no more. -/
theorem packOnto_spec (limit : Limit) (current rest : List (List Char)) (share : MayShare limit current) :
    IsGreedyGrouping (MayShare limit) (current ++ rest) (packOnto limit current rest) := by
  fun_induction packOnto limit current rest with
  | case1 => exact .nil
  | case2 current some =>
    exact IsGreedyGrouping.nil.cons some share (by simp)
  | case3 current entry rest full ih =>
    obtain ⟨some, full⟩ := full
    refine (ih (mayShare_singleton entry)).cons some share fun x first => ?_
    obtain rfl := Option.some.inj first
    rw [mayShare_concat_iff some, full]
    exact Bool.false_ne_true
  | case4 current entry rest room ih =>
    have grown : MayShare limit (current ++ [entry]) := by
      by_cases none : current = []
      · rw [none]
        exact mayShare_singleton entry
      · rw [mayShare_concat_iff none]
        simpa [none] using room
    have grouped := ih grown
    rwa [List.append_assoc] at grouped

/-- Packing groups the entries, and no other way to group them has fewer pages. -/
theorem packGroups_spec (limit : Limit) (entries : List (List Char)) :
    IsGrouping (MayShare limit) entries (packGroups limit entries) ∧
      ∀ others, IsGrouping (MayShare limit) entries others → (packGroups limit entries).length ≤ others.length := by
  have cut := packOnto_spec limit [] entries (fun more => absurd more (by simp))
  exact ⟨cut.toIsGrouping, fun others other => cut.length_le (fun a b c _ => MayShare.part a b c) other⟩

end Folio.Text

namespace Folio.Page

open Text

/-- The text of a page with these entries: each with a line end behind it. -/
def body (group : List String) : String := String.join (group.map (· ++ "\n"))

/-- Only a page of one entry may be longer than the size. -/
def WithinSize (size : Int) (group : List String) : Prop :=
  1 < group.length → (unitLength (body group) : Int) ≤ size

instance (size : Int) (group : List String) : Decidable (WithinSize size group) :=
  inferInstanceAs (Decidable (_ → _))

/-- The entries by the page that they are packed on. -/
def groups (size : Number) (entries : List String) : List (List String) :=
  (Text.packGroups (limit size) (entries.map String.toList)).map (List.map String.ofList)

theorem toList_body (group : List String) : (body group).toList = pageText (group.map String.toList) := by
  simp [body, pageText, entryLine, String.toList_join, List.flatMap_def, Function.comp_def]

theorem limit_intCast (size : Int) : limit (size : Number) = some size := by
  show some (size : Rat).floor = some size
  simp

theorem mayShare_iff (size : Int) (group : List String) :
    MayShare (some size) (group.map String.toList) ↔ WithinSize size group := by
  rw [MayShare, WithinSize, List.length_map, Limit.admits, decide_eq_true_eq, unitLength, toList_body]

theorem map_ofList_toList (group : List String) : (group.map String.toList).map String.ofList = group := by
  simp [Function.comp_def]

theorem map_toList_ofList (group : List (List Char)) : (group.map String.ofList).map String.toList = group := by
  simp [Function.comp_def]

/-- The pages are the texts of the groups. -/
theorem pack_eq (size : Number) (entries : List String) : pack size entries = (groups size entries).map body := by
  rw [pack, groups, Text.pack, List.map_map, List.map_map]
  refine List.map_congr_left fun group _ => ?_
  apply String.toList_injective
  show (String.ofList (pageText group)).toList = (body (group.map String.ofList)).toList
  rw [toList_body, map_toList_ofList, String.toList_ofList]

/-- The groups of a size that is a whole number. -/
theorem groups_spec (size : Int) (entries : List String) :
    IsGrouping (WithinSize size) entries (groups (size : Number) entries) ∧
      ∀ others, IsGrouping (WithinSize size) entries others →
        (groups (size : Number) entries).length ≤ others.length := by
  obtain ⟨cut, fewest⟩ := packGroups_spec (some size) (entries.map String.toList)
  rw [groups, limit_intCast]
  constructor
  · have keeps : ∀ g, MayShare (some size) g → WithinSize size (g.map String.ofList) := by
      intro g share
      rwa [← mayShare_iff, map_toList_ofList]
    have back := cut.map String.ofList keeps
    rwa [map_ofList_toList] at back
  · intro others other
    have chars := other.map String.toList fun g within => (mayShare_iff size g).2 within
    have least := fewest _ chars
    rwa [List.length_map] at least ⊢

/-- **Packing keeps entries whole and in order, and makes as few pages as can be.** For any
size, also zero or less, the pages are those of groups of the entries, of which only one
with a single entry may be longer than the size, and no such groups are fewer. -/
theorem pack_fewest (size : Int) (entries : List String) :
    ∃ groups, pack (size : Number) entries = groups.map body ∧ IsGrouping (WithinSize size) entries groups ∧
      ∀ others, IsGrouping (WithinSize size) entries others → (pack (size : Number) entries).length ≤ others.length := by
  obtain ⟨cut, fewest⟩ := groups_spec size entries
  refine ⟨_, pack_eq _ entries, cut, fun others other => ?_⟩
  rw [pack_eq, List.length_map]
  exact fewest others other

/-- Against another way to group the entries. -/
theorem pack_fewest_other :
    IsGrouping (WithinSize 8) ["aaa", "bbb", "cc"] [["aaa"], ["bbb", "cc"]] ∧
      (pack ((8 : Int) : Number) ["aaa", "bbb", "cc"]).length ≤ [["aaa"], ["bbb", "cc"]].length := by
  have other : IsGrouping (WithinSize 8) ["aaa", "bbb", "cc"] [["aaa"], ["bbb", "cc"]] :=
    ⟨rfl, by decide, by decide⟩
  obtain ⟨-, -, -, fewest⟩ := pack_fewest 8 ["aaa", "bbb", "cc"]
  exact ⟨other, fewest _ other⟩

/-! ## With a line before and after -/

/-- Every page with more than one entry is within the size, with what stands before and
after its entries. -/
def CountsAll (size : Int) (before after : String) (entries : List String) : Prop :=
  ∀ group ∈ groups (size : Number) entries, 1 < group.length →
    (unitLength before + unitLength (body group) + unitLength after : Int) ≤ size

theorem unitLength_body_cons (entry : String) (group : List String) :
    unitLength (body (entry :: group)) = unitLength entry + 1 + unitLength (body group) := by
  have line : unitLength "\n" = 1 := rfl
  rw [body, List.map_cons, String.join_cons, unitLength_append, unitLength_append, line]
  rfl

/-- A page has a line end for each entry. -/
theorem length_le_unitLength_body (group : List String) : group.length ≤ unitLength (body group) := by
  induction group with
  | nil => exact Nat.zero_le _
  | cons entry group ih =>
    rw [unitLength_body_cons, List.length_cons]
    omega

/-- Entries that may share a page are packed on one. -/
theorem groups_pair {size : Int} {a b : String} (fits : (unitLength (body [a, b]) : Int) ≤ size) :
    groups (size : Number) [a, b] = [[a, b]] := by
  obtain ⟨cut, fewest⟩ := groups_spec size [a, b]
  have one : (groups (size : Number) [a, b]).length ≤ 1 :=
    fewest [[a, b]] ⟨rfl, by simp, by simpa [WithinSize] using fits⟩
  have flatten := cut.flatten
  generalize groups (size : Number) [a, b] = gs at one flatten ⊢
  match gs with
  | [] => simp at flatten
  | [g] => simpa using flatten
  | g :: h :: gs => simp at one

/-- **What stands before and after the entries comes on top of the size.** Pages of
entries are within the size up to that, for any entries; and they are within it with all
that stands on them, for any entries, just if nothing stands before and after them or the
size lets no two entries share a page. -/
theorem ofEntries_size (size : Int) (before after : String) :
    (∀ entries, ofEntries (size : Number) before after entries =
        (groups (size : Number) entries).map (fun group => ofText (body group) before after "") ∧
      IsGrouping (WithinSize size) entries (groups (size : Number) entries)) ∧
    ((∀ entries, CountsAll size before after entries) ↔ size < 2 ∨ before = "" ∧ after = "") := by
  refine ⟨fun entries => ⟨?_, (groups_spec size entries).1⟩, fun counts => ?_, fun spare entries group hg more => ?_⟩
  · rw [ofEntries, pack_eq, List.map_map]
    rfl
  · by_contra no
    rw [not_or] at no
    obtain ⟨room, some⟩ := no
    -- An empty entry, and one that fills the page behind it.
    generalize word : String.ofList (List.replicate (size.toNat - 2) 'x') = filler
    have units : unitLength filler = size.toNat - 2 := by
      rw [← word, unitLength, String.toList_ofList, units_replicate]
      exact Nat.mul_one _
    have full : unitLength (body ["", filler]) = size.toNat := by
      have empty : unitLength "" = 0 := rfl
      have nothing : unitLength (body []) = 0 := rfl
      rw [unitLength_body_cons, unitLength_body_cons, units, empty, nothing]
      omega
    have page := counts ["", filler] ["", filler] (by rw [groups_pair (by omega)]; simp) (by simp)
    rw [full] at page
    exact some ⟨unitLength_eq_zero_iff.1 (by omega), unitLength_eq_zero_iff.1 (by omega)⟩
  · have within := (groups_spec size entries).1.fits group hg more
    rcases spare with small | ⟨rfl, rfl⟩
    · have lines := length_le_unitLength_body group
      omega
    · have empty : unitLength "" = 0 := rfl
      omega

/-- A page that its two entries fill has no room for a line before them. -/
theorem not_always_counted :
    ofEntries ((10 : Int) : Number) ">" "" ["aaaa", "bbbb"] = [ofText "aaaa\nbbbb\n" ">" "" ""] ∧
      ¬CountsAll 10 ">" "" ["aaaa", "bbbb"] := by
  have one : groups ((10 : Int) : Number) ["aaaa", "bbbb"] = [["aaaa", "bbbb"]] := groups_pair (by decide)
  refine ⟨?_, fun counts => ?_⟩
  · rw [ofEntries, pack_eq, one]
    rfl
  · have page := counts ["aaaa", "bbbb"] (by rw [one]; simp) (by decide)
    revert page
    decide

end Folio.Page
