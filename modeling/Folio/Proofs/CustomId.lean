/-
Custom ids name one session and one role. A role has no bar in its name, so the
last bar of a custom id is the one that was put between the two, whatever the
session id looks like. Reading is therefore the inverse of writing on all texts
(`parseCustomId?_eq_some_iff`), but for a session without a name, which can be written
and is not read.
-/
import Folio.CustomId

namespace Folio

/-- A name that can follow the bar of a custom id. -/
def IsBarFree (name : String) : Prop := bar ∉ name.toList

instance (name : String) : Decidable (IsBarFree name) := inferInstanceAs (Decidable (bar ∉ name.toList))

theorem Role.name_isBarFree (r : Role) : IsBarFree r.name := by cases r <;> decide

theorem Role.name_inj {r s : Role} (h : r.name = s.name) : r = s := by
  revert h
  cases r <;> cases s <;> decide

theorem Role.ofName?_name (r : Role) : Role.ofName? r.name = some r := by cases r <;> decide

/-- A role is found by its own name only. -/
theorem Role.ofName?_eq_some_iff {name : String} {r : Role} : Role.ofName? name = some r ↔ name = r.name := by
  refine ⟨fun h => ?_, fun h => h ▸ r.ofName?_name⟩
  have found := List.find?_some h
  exact (of_decide_eq_true found).symm

theorem Role.names_isBarFree : ∀ name ∈ Role.all.map Role.name, IsBarFree name := by
  intro name h
  obtain ⟨r, -, rfl⟩ := List.mem_map.1 h
  exact r.name_isBarFree

/-! ## The last bar -/

theorem splitAtBar?_of_not_mem : ∀ {cs : List Char}, bar ∉ cs → splitAtBar? cs = none
  | [], _ => rfl
  | c :: cs, h => by
    have hc : c ≠ bar := fun he => h (by simp [he])
    have hcs : bar ∉ cs := fun hm => h (List.mem_cons_of_mem c hm)
    simp only [splitAtBar?, splitAtBar?_of_not_mem hcs, if_neg hc]

/-- What is split falls apart at its last bar. -/
theorem eq_of_splitAtBar? {cs before after : List Char} (h : splitAtBar? cs = some (before, after)) :
    cs = before ++ bar :: after := by
  induction cs generalizing before with
  | nil => cases h
  | cons c cs ih =>
    rw [splitAtBar?] at h
    split at h
    next front back split =>
      obtain ⟨rfl, rfl⟩ := Prod.mk.inj (Option.some.inj h)
      rw [ih split, List.cons_append]
    next =>
      split at h
      next isBar =>
        obtain ⟨rfl, rfl⟩ := Prod.mk.inj (Option.some.inj h)
        rw [isBar, List.nil_append]
      · cases h

theorem splitAtBar?_append (before : List Char) {after : List Char} (h : bar ∉ after) :
    splitAtBar? (before ++ bar :: after) = some (before, after) := by
  induction before with
  | nil => simp [splitAtBar?, splitAtBar?_of_not_mem h]
  | cons c before ih => simp only [List.cons_append, splitAtBar?, ih]

theorem toList_boundId (session name : String) :
    (boundId session name).toList = session.toList ++ bar :: name.toList := by
  rw [boundId, String.toList_append, String.toList_ofList]

theorem splitAtBar?_boundId (session : String) {name : String} (h : IsBarFree name) :
    splitAtBar? (boundId session name).toList = some (session.toList, name.toList) := by
  rw [toList_boundId, splitAtBar?_append _ h]

/-- The two parts of a custom id can be told from it. -/
theorem boundId_inj {session session' name name' : String} (h : IsBarFree name) (h' : IsBarFree name')
    (eq : boundId session name = boundId session' name') : session = session' ∧ name = name' := by
  have hs := splitAtBar?_boundId session h
  rw [eq, splitAtBar?_boundId session' h', Option.some.injEq, Prod.mk.injEq] at hs
  exact ⟨String.toList_inj.1 hs.1.symm, String.toList_inj.1 hs.2.symm⟩

theorem customId_inj {session session' : String} {r r' : Role}
    (eq : customId session r = customId session' r') : session = session' ∧ r = r' := by
  have h := boundId_inj r.name_isBarFree r'.name_isBarFree eq
  exact ⟨h.1, Role.name_inj h.2⟩

/-- The format of a custom id. -/
theorem customId_eq (session : String) (role : Role) : customId session role = session ++ "|" ++ role.name := by
  apply String.toList_inj.1
  rw [customId, toList_boundId, String.toList_append, String.toList_append, List.append_assoc]
  rfl

/-- The custom id of a control is read back as its session and its role. -/
theorem parseCustomId?_customId {session : String} (h : session ≠ "") (r : Role) :
    parseCustomId? (customId session r) = some (session, r) := by
  have hs : session.toList ≠ [] := fun he => h (String.toList_inj.1 he)
  obtain ⟨c, cs, hc⟩ := List.exists_cons_of_ne_nil hs
  have split := splitAtBar?_boundId session r.name_isBarFree
  rw [hc] at split
  simp only [parseCustomId?, customId, split]
  rw [String.ofList_toList, Role.ofName?_name, Option.map_some, ← hc, String.ofList_toList]

/-- What is read is what was written, for a session with a name. -/
theorem parseCustomId?_eq_some_iff {id session : String} {role : Role} :
    parseCustomId? id = some (session, role) ↔ session ≠ "" ∧ customId session role = id := by
  refine ⟨fun h => ?_, fun ⟨named, written⟩ => written ▸ parseCustomId?_customId named role⟩
  rw [parseCustomId?] at h
  split at h
  · cases h
  · cases h
  next front back nameless split =>
    obtain ⟨found, known, eq⟩ := Option.map_eq_some_iff.1 h
    obtain ⟨rfl, rfl⟩ := Prod.mk.inj eq
    have name := Role.ofName?_eq_some_iff.1 known
    refine ⟨fun empty => ?_, ?_⟩
    · have none : (String.ofList front).toList = [] := by rw [empty]; rfl
      rw [String.toList_ofList] at none
      exact nameless none
    · apply String.toList_inj.1
      rw [customId, toList_boundId, ← name, String.toList_ofList, String.toList_ofList, eq_of_splitAtBar? split]

/-- A custom id without a session is not read. -/
theorem parseCustomId?_nameless (role : Role) : parseCustomId? (customId "" role) = none := by
  rw [Option.eq_none_iff_forall_not_mem]
  rintro ⟨session, role'⟩ h
  obtain ⟨named, written⟩ := parseCustomId?_eq_some_iff.1 h
  exact named (customId_inj written).1

theorem parseCustomId?_eq_none_iff {id : String} :
    parseCustomId? id = none ↔ ¬∃ session role, session ≠ "" ∧ customId session role = id := by
  constructor
  · rintro none ⟨session, role, written⟩
    rw [parseCustomId?_eq_some_iff.2 written] at none
    cases none
  · intro h
    rw [Option.eq_none_iff_forall_not_mem]
    rintro ⟨session, role⟩ read
    exact h ⟨session, role, parseCustomId?_eq_some_iff.1 read⟩

/-- **Custom ids are read as they are written.** A custom id is the session, a bar and
the name of the role. If the session has a name, both parts are read back, whatever bars
the session holds, and else nothing is; what is read from a text is what that text was
written from; and nothing is read exactly from the texts that are not a session with a
name, a bar and one of the six names of roles. -/
theorem custom_ids_round_trip :
    (∀ (session : String) (role : Role), customId session role = session ++ "|" ++ role.name ∧
      parseCustomId? (customId session role) = if session = "" then none else some (session, role)) ∧
    (∀ (id session : String) (role : Role),
      parseCustomId? id = some (session, role) ↔ session ≠ "" ∧ customId session role = id) ∧
    ∀ id : String, parseCustomId? id = none ↔ ¬∃ session : String, session ≠ "" ∧
      ∃ name ∈ ["select", "first", "back", "callback", "next", "last"], id = session ++ "|" ++ name := by
  refine ⟨fun session role => ⟨customId_eq session role, ?_⟩, fun id session role => parseCustomId?_eq_some_iff,
    fun id => ?_⟩
  · split
    next nameless => rw [nameless, parseCustomId?_nameless]
    next named => exact parseCustomId?_customId named role
  · rw [parseCustomId?_eq_none_iff]
    refine not_congr ⟨?_, ?_⟩
    · rintro ⟨session, role, named, written⟩
      exact ⟨session, named, role.name, List.mem_map_of_mem role.mem_all, written ▸ customId_eq session role⟩
    · rintro ⟨session, named, name, known, written⟩
      have known : name ∈ Role.all.map Role.name := known
      obtain ⟨role, -, rfl⟩ := List.mem_map.1 known
      exact ⟨session, role, named, (customId_eq session role).trans written.symm⟩

/-- The session of this custom id has bars of its own. -/
example : parseCustomId? "a|next|b|back" = some ("a|next|b", .back) ∧ parseCustomId? "a|nextt" = none ∧
    parseCustomId? "|next" = none := by
  decide +kernel

end Folio
