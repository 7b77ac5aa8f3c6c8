/-
How a configuration is made. What the overrides leave out comes from the environment, and
what that leaves out from the default (`Prevails`), so the merged record has one value for
each key, wherever that comes from. Only this record is checked: a bad variable that an
override hides is in no record that is.
-/
import Folio.Proofs.Config.Schema
import Folio.Proofs.Config.Variable

namespace Folio.Config

variable {r : Record} {c : Config} {env : Environment} {overrides : Record} {key : String}

/-! ## Tables -/

theorem member_map (ks : List String) (f : String → Value) (key : String) :
    Record.member (ks.map fun key => (key, f key)) key = if key ∈ ks then f key else .absent := by
  induction ks with
  | nil => rfl
  | cons k ks ih =>
    have step : Record.member ((k, f k) :: ks.map fun key => (key, f key)) key =
        if k = key then f k else Record.member (ks.map fun key => (key, f key)) key := by
      rw [Record.member, Table.get?, List.find?_cons]
      by_cases its : k = key <;> simp [its, Record.member, Table.get?]
    rw [List.map_cons, step, ih]
    by_cases its : k = key
    · simp [its]
    · simp [its, Ne.symm its]

/-- A value that is not absent is one of the table's. -/
theorem mem_of_member (given : (overrides.member key).isAbsent = false) : (key, overrides.member key) ∈ overrides := by
  cases found : overrides.find? fun e => e.1 = key with
  | none =>
    rw [Record.member, Table.get?, found] at given
    cases given
  | some e =>
    have its : e.1 = key := by simpa using List.find?_some found
    rw [Record.member, Table.get?, found, ← its]
    exact List.mem_of_find?_eq_some found

/-! ## Layers -/

/-- The value of a key in the end: the override unless it is absent, else what the environment
sets it to, else the default. -/
inductive Prevails (env : Environment) (overrides : Record) (key : String) : Value → Prop where
  | overridden (given : (overrides.member key).isAbsent = false) : Prevails env overrides key (overrides.member key)
  | contributed {v : Value} (absent : (overrides.member key).isAbsent = true) (set : Contributes env key v) :
      Prevails env overrides key v
  | defaulted (absent : (overrides.member key).isAbsent = true) (unset : ∀ v, ¬Contributes env key v) :
      Prevails env overrides key (default.member key)

theorem layered_eq_iff {v : Value} : layered env overrides key = v ↔ Prevails env overrides key v := by
  rw [layered]
  split
  next left =>
    have absent : (overrides.member key).isAbsent = true := by rw [left]; rfl
    constructor
    · rintro rfl
      cases found : (fromEnvironment env).get? key with
      | some v => exact .contributed absent (get?_fromEnvironment.1 found)
      | none =>
        refine .defaulted absent fun v set => ?_
        rw [get?_fromEnvironment.2 set] at found
        cases found
    · intro prevails
      cases prevails with
      | overridden given => exact absurd (absent.symm.trans given) Bool.noConfusion
      | contributed _ set => rw [get?_fromEnvironment.2 set, Option.getD_some]
      | defaulted _ unset =>
        cases found : (fromEnvironment env).get? key with
        | some v => exact absurd (get?_fromEnvironment.1 found) (unset v)
        | none => rfl
  next left =>
    have given : (overrides.member key).isAbsent = false := by
      cases v : overrides.member key <;> first | rfl | exact absurd v left
    constructor
    · rintro rfl
      exact .overridden given
    · intro prevails
      cases prevails with
      | overridden => rfl
      | contributed absent | defaulted absent => exact absurd (absent.symm.trans given) Bool.noConfusion

/-- The keys of the overrides that are set. -/
def IsSet (overrides : Record) (key : String) : Prop := ∃ v, (key, v) ∈ overrides ∧ v.isAbsent = false

theorem mem_merged : (∃ v, (key, v) ∈ merged env overrides) ↔ key ∈ keys ∨ IsSet overrides key := by
  have unknown : key ∈ unknownKeys (overrides.filter fun f => !f.2.isAbsent) ↔ IsSet overrides key ∧ key ∉ keys := by
    simp [unknownKeys, IsSet]
  have listed : (∃ v, (key, v) ∈ merged env overrides) ↔
      key ∈ keys ∨ key ∈ unknownKeys (overrides.filter fun f => !f.2.isAbsent) := by
    simp only [merged, List.mem_map, Prod.mk.injEq, List.mem_append]
    constructor
    · rintro ⟨_, _, known, rfl, -⟩
      exact known
    · exact fun known => ⟨_, key, known, rfl, rfl⟩
  rw [listed, unknown]
  by_cases known : key ∈ keys <;> simp [known]

theorem member_merged (env : Environment) (overrides : Record) (key : String) :
    (merged env overrides).member key = layered env overrides key := by
  rw [merged, member_map]
  split
  · rfl
  next missing =>
    rw [List.mem_append, not_or] at missing
    obtain ⟨foreign, unset⟩ := missing
    have absent : (overrides.member key).isAbsent = true := by
      refine Bool.of_not_eq_false fun given => unset ?_
      simp only [unknownKeys, List.mem_filter, List.mem_map, decide_eq_true_eq]
      exact ⟨⟨_, ⟨mem_of_member given, by rw [given]; rfl⟩, rfl⟩, foreign⟩
    have prevails : Prevails env overrides key (default.member key) :=
      .defaulted absent fun _ set => foreign set.mem_keys
    rw [member_foreign _ foreign] at prevails
    exact (layered_eq_iff.2 prevails).symm

/-! ## Resolving -/

theorem exists_resolve_iff : (∃ c, resolve env overrides = .ok c) ↔ IsConfig (merged env overrides) := by
  simp only [resolve_eq_ok_iff, ← ofRecord_eq_ok_iff, exists_ofRecord_iff]

theorem resolve_eq_error (env : Environment) (overrides : Record) :
    (∃ c, resolve env overrides = .ok c) ∨ ∃ issues, resolve env overrides = .error (.badConfig issues) := by
  unfold resolve
  generalize ofRecord (merged env overrides) = checked
  cases checked <;> simp

/-- What the environment sets a key to that is overridden makes no difference. -/
theorem merged_congr {env' : Environment} (same : ∀ key v, (overrides.member key).isAbsent = true →
    (Contributes env' key v ↔ Contributes env key v)) : merged env' overrides = merged env overrides := by
  have layers : layered env' overrides = layered env overrides := by
    funext key
    rw [layered_eq_iff]
    have prevails : Prevails env overrides key (layered env overrides key) := layered_eq_iff.1 rfl
    generalize layered env overrides key = v at prevails
    cases prevails with
    | overridden given => exact .overridden given
    | contributed absent set => exact .contributed absent ((same key _ absent).2 set)
    | defaulted absent unset => exact .defaulted absent fun v set => unset v ((same key v absent).1 set)
  rw [merged, merged, layers]

theorem resolve_congr {env' : Environment} (same : ∀ key v, (overrides.member key).isAbsent = true →
    (Contributes env' key v ↔ Contributes env key v)) : resolve env' overrides = resolve env overrides := by
  unfold resolve
  rw [merged_congr same]

/-- The default is a configuration, and what is resolved where nothing is overridden or set. -/
theorem resolve_default (unset : ∀ key v, ¬Contributes env key v) : resolve env [] = .ok default := by
  have none : ∀ key v, ¬Contributes [] key v := by
    intro key v sets
    cases sets with
    | seconds set | message set | color set => cases set
  have same : resolve env [] = resolve [] [] := resolve_congr fun key v _ => iff_of_false (unset key v) (none key v)
  have read : (resolve [] []).toOption = some default := by decide +kernel
  rw [same]
  generalize resolve [] [] = resolved at read
  cases resolved with
  | error => cases read
  | ok c => exact congrArg _ (Option.some.inj read)

theorem member_toRecord (c : Config) (key : String) : c.toRecord.member key = c.member key := by
  rw [toRecord, member_map]
  split
  · rfl
  next foreign => exact (c.member_foreign foreign).symm

/-- Only the title of a configuration may be absent. -/
theorem eq_of_isAbsent_member (known : key ∈ keys) (absent : (c.member key).isAbsent = true) : key = "defaultTitle" := by
  have emoji : ∀ e : Emoji, e.toValue.isAbsent = false := fun e => by cases e <;> rfl
  simp only [keys, List.mem_cons, List.not_mem_nil, or_false] at known
  rcases known with rfl | rfl | rfl | rfl | rfl | rfl | rfl | rfl | rfl | rfl | rfl | rfl | rfl | rfl | rfl | rfl
  case inr.inr.inr.inr.inr.inr.inr.inr.inr.inr.inr.inr.inr.inl => rfl
  all_goals first | cases absent | exact absurd ((emoji _).symm.trans absent) Bool.false_ne_true

/-- A configuration that is resolved again is the same, whatever the environment. -/
theorem Reads.resolve_toRecord (h : Reads r c) (env : Environment) : resolve env c.toRecord = .ok c := by
  refine resolve_eq_ok_iff.2 (h.again (fun key known => ?_) fun e he => ?_)
  · rw [member_merged, layered_eq_iff]
    have its := member_toRecord c key
    cases absent : (c.toRecord.member key).isAbsent with
    | false => exact its ▸ .overridden absent
    | true =>
      -- Only the title may be absent, and no variable sets one.
      rw [its] at absent
      obtain rfl := eq_of_isAbsent_member known absent
      have none : c.member "defaultTitle" = .absent := by
        cases v : c.member "defaultTitle" <;> first | rfl | (rw [v] at absent; cases absent)
      rw [none]
      exact .defaulted (by rw [its, none]; rfl) fun v set => absurd set.mem (by decide)
  · have set : e.1 ∈ keys ∨ IsSet c.toRecord e.1 := mem_merged.1 ⟨e.2, he⟩
    rcases set with known | ⟨v, mem, -⟩
    · exact known
    · simp only [toRecord, List.mem_map, Prod.mk.injEq] at mem
      obtain ⟨key, known, rfl, -⟩ := mem
      exact known

/-- **What is resolved is what the layers make.** The merged record has a value for each key:
the override unless it is absent, else what a variable of the environment sets it to, else the
default; and it has no keys but those of a configuration and those that are overridden.
Resolving succeeds exactly if this record is a configuration, and yields its values, so it
makes no difference what the environment sets a key to that is overridden. Otherwise the
configuration is refused. What was resolved is resolved again as it is, whatever the
environment. -/
theorem resolve_merges (env : Environment) (overrides : Record) :
    let r := merged env overrides
    (∀ key v, r.member key = v ↔ Prevails env overrides key v) ∧
    (∀ key, (∃ v, (key, v) ∈ r) ↔ key ∈ keys ∨ ∃ v, (key, v) ∈ overrides ∧ v.isAbsent = false) ∧
    ((∃ c, resolve env overrides = .ok c) ↔ IsConfig r) ∧
    (∀ c, resolve env overrides = .ok c → ∀ key, (r.member key).Same (c.member key)) ∧
    (¬IsConfig r → ∃ issues, resolve env overrides = .error (.badConfig issues)) ∧
    (∀ env', (∀ key v, (overrides.member key).isAbsent = true → (Contributes env' key v ↔ Contributes env key v)) →
      resolve env' overrides = resolve env overrides) ∧
    ∀ c env', resolve env overrides = .ok c → resolve env' c.toRecord = .ok c := by
  intro r
  have accepted : (∃ c, resolve env overrides = .ok c) ↔ IsConfig r := exists_resolve_iff
  refine ⟨fun key v => ?_, fun key => mem_merged, accepted, fun c resolved => ?_, fun refused => ?_, fun env' same => ?_,
    fun c env' resolved => ?_⟩
  · rw [← layered_eq_iff, ← member_merged]
  · exact (resolve_eq_ok_iff.1 resolved).same
  · exact (resolve_eq_error env overrides).resolve_left fun resolved => refused (accepted.1 resolved)
  · exact resolve_congr same
  · exact (resolve_eq_ok_iff.1 resolved).resolve_toRecord env'

example : (resolve [("PAGINATOR_IDLE_TIMEOUT_SECONDS", "soon")] []).toOption = none ∧
    (resolve [("PAGINATOR_IDLE_TIMEOUT_SECONDS", "soon")] [("idleTimeoutSeconds", .number 5)]).toOption.map
      (·.idleTimeoutSeconds) = some 5 := by
  decide +kernel

end Folio.Config
