/-
What a refusal names. A check that refuses a value says why, so there is a cause against the
value of a key exactly if it is not of the kind that the key asks for (`causesAt_eq_nil_iff`).
The checks of a record do not stop at the first refusal: its issues are those of its keys, in
their order, with the unknown keys last (`causes_ofRecord`). So a refused configuration is told
every key that is wrong, and no other (`refusal_names_offences`).
-/
import Folio.Proofs.Config.Merge

namespace Folio.Config

variable {ε α β : Type} {env : Environment} {overrides r : Record} {v : Value} {key : String} {issues : List Issue}

/-! ## Causes -/

/-- What a check found wrong. -/
def Checked.causes : Checked ε α → List ε
  | .ok _ => []
  | .bad causes => causes

theorem Checked.causes_ok (a : α) : (ok a : Checked ε α).causes = [] := rfl

theorem Checked.causes_on (f : Checked ε (α → β)) (a : Checked ε α) : (f.on a).causes = f.causes ++ a.causes := by
  cases f <;> cases a <;> simp [on, causes]

/-- A check that says why it refuses has found nothing wrong exactly if it succeeds. -/
theorem Checked.causes_eq_nil_iff {checked : Checked ε α} (explained : checked ≠ .bad []) :
    checked.causes = [] ↔ ∃ a, checked = .ok a := by
  cases checked with
  | ok a => simp [causes]
  | bad causes =>
    have some : causes ≠ [] := fun none => explained (none ▸ rfl)
    simp [Checked.causes, some]

theorem passing_explained (causes : List Cause) (a : α) : passing causes a ≠ .bad [] := by
  rw [passing]
  split
  next => simp
  next some => exact fun its => some (Checked.bad.inj its)

theorem checkBool_explained : checkBool v ≠ .bad [] := by cases v <;> simp [checkBool]

theorem checkText_explained {least most : Nat} : checkText least most v ≠ .bad [] := by
  cases v with
  | text s => exact passing_explained _ s
  | absent | null | bool | number | list | record => simp [checkText]

theorem checkTitle_explained : checkTitle v ≠ .bad [] := by
  unfold checkTitle
  split
  next => simp
  next =>
    split
    next => simp
    next checked =>
      intro its
      rw [Checked.bad.inj its] at checked
      exact checkText_explained checked

theorem checkEmoji_explained : checkEmoji v ≠ .bad [] := by
  unfold checkEmoji
  split
  next => split <;> simp
  next =>
    split
    next => split <;> simp
    next => simp
  next => simp

theorem checkStyle_explained : checkStyle v ≠ .bad [] := by
  unfold checkStyle
  split
  next => split <;> simp
  next => simp

/-- A number that is no colour is no whole number or out of range. -/
theorem outside_of_toNat? {n : Number} (none : n.toNat? = none) (whole : n.toInt?.isNone = false) :
    outside maxColor n ≠ [] := by
  cases n with
  | nan | infinite => cases whole
  | finite q =>
    intro within
    have nonneg := (outside_eq_nil_iff.1 within).1
    have num : 0 ≤ q.num := Rat.num_nonneg.2 nonneg
    rw [Number.toNat?, Number.toInt?] at none
    rw [Number.toInt?] at whole
    split at none
    next i its =>
      split at its
      next =>
        obtain rfl := Option.some.inj its
        rw [if_pos num] at none
        cases none
      · cases its
    next its =>
      rw [its] at whole
      cases whole

theorem checkColor_explained : checkColor v ≠ .bad [] := by
  unfold checkColor
  split
  next => simp
  next n _ =>
    split
    next => exact passing_explained _ _
    next none =>
      intro its
      obtain ⟨integer, within⟩ := List.append_eq_nil_iff.1 (Checked.bad.inj its)
      exact outside_of_toNat? none (complaint_eq_nil_iff.1 integer) within
  next => simp

theorem checkSeconds_explained : checkSeconds v ≠ .bad [] := by
  unfold checkSeconds
  split
  next => simp
  next => exact passing_explained _ _
  next => simp
  next => simp

/-! ## Keys -/

/-- What is wrong with the value of a key. -/
def causesAt (key : String) (v : Value) : List Cause :=
  match key with
  | "showFirst" | "showBack" | "showNext" | "showLast" | "showCallback" | "showSelectMenu" => (checkBool v).causes
  | "firstEmoji" | "backEmoji" | "nextEmoji" | "lastEmoji" | "callbackEmoji" => (checkEmoji v).causes
  | "buttonStyle" => (checkStyle v).causes
  | "wrongUserMessage" => (checkText 0 maxMessage v).causes
  | "defaultTitle" => (checkTitle v).causes
  | "defaultColor" => (checkColor v).causes
  | "idleTimeoutSeconds" => (checkSeconds v).causes
  | _ => []

/-- There is a cause against a value exactly if it is not of the kind that its key asks for. -/
theorem causesAt_eq_nil_iff (known : key ∈ keys) : causesAt key v = [] ↔ Suits key v := by
  have flag := (Checked.causes_eq_nil_iff (checkBool_explained (v := v))).trans exists_checkBool_iff
  have emoji := (Checked.causes_eq_nil_iff (checkEmoji_explained (v := v))).trans exists_checkEmoji_iff
  have style := (Checked.causes_eq_nil_iff (checkStyle_explained (v := v))).trans exists_checkStyle_iff
  have text := (Checked.causes_eq_nil_iff (checkText_explained (v := v))).trans (exists_checkText_iff 0 maxMessage)
  have title := (Checked.causes_eq_nil_iff (checkTitle_explained (v := v))).trans exists_checkTitle_iff
  have color := (Checked.causes_eq_nil_iff (checkColor_explained (v := v))).trans exists_checkColor_iff
  have seconds := (Checked.causes_eq_nil_iff (checkSeconds_explained (v := v))).trans exists_checkSeconds_iff
  simp only [keys, List.mem_cons, List.not_mem_nil, or_false] at known
  rcases known with rfl | rfl | rfl | rfl | rfl | rfl | rfl | rfl | rfl | rfl | rfl | rfl | rfl | rfl | rfl | rfl
  exacts [flag, flag, flag, flag, flag, flag, emoji, emoji, emoji, emoji, emoji, style, text, title, color, seconds]

theorem causes_atKey (r : Record) (key : String) (check : Value → Checked Cause α) :
    (atKey r key check).causes = (check (r.member key)).causes.map fun cause => ⟨[key], cause⟩ := by
  rw [atKey]
  cases check (r.member key) <;> rfl

/-- What is wrong with a record: what is wrong with the values of its keys, in their order, and
then that there are unknown ones. -/
theorem causes_ofRecord (r : Record) : (ofRecord r).causes =
    (keys.flatMap fun key => (causesAt key (r.member key)).map fun cause => ⟨[key], cause⟩) ++ (checkKeys r).causes := by
  simp [ofRecord, Checked.causes_on, causes_atKey, Checked.causes_ok, keys, causesAt]

theorem causes_checkKeys (r : Record) : (checkKeys r).causes =
    if unknownKeys r = [] then [] else [⟨[], .unknownKeys (unknownKeys r)⟩] := by
  rw [checkKeys]
  split <;> rfl

theorem mem_causes_ofRecord {issue : Issue} : issue ∈ (ofRecord r).causes ↔
    (∃ key ∈ keys, ∃ cause ∈ causesAt key (r.member key), ⟨[key], cause⟩ = issue) ∨
      unknownKeys r ≠ [] ∧ issue = ⟨[], .unknownKeys (unknownKeys r)⟩ := by
  simp only [causes_ofRecord, causes_checkKeys, List.mem_append, List.mem_flatMap, List.mem_map]
  by_cases none : unknownKeys r = [] <;> simp [none]

/-- A record that is refused is refused for something. -/
theorem ofRecord_explained (r : Record) : ofRecord r ≠ .bad [] := by
  intro its
  have nothing : ∀ issue : Issue, issue ∉ (ofRecord r).causes := by
    intro issue listed
    rw [its] at listed
    cases listed
  have suits : ∀ key ∈ keys, Suits key (r.member key) := by
    intro key known
    refine (causesAt_eq_nil_iff known).1 (List.eq_nil_iff_forall_not_mem.2 fun cause against => ?_)
    exact nothing _ (mem_causes_ofRecord.2 (.inl ⟨key, known, cause, against, rfl⟩))
  have known : unknownKeys r = [] := by
    by_contra some
    exact nothing _ (mem_causes_ofRecord.2 (.inr ⟨some, rfl⟩))
  obtain ⟨c, read⟩ := exists_ofRecord_iff.2 ⟨suits, unknownKeys_eq_nil_iff.1 known⟩
  rw [its] at read
  cases read

/-! ## Refusals -/

theorem mem_unknownKeys_merged : key ∈ unknownKeys (merged env overrides) ↔ IsSet overrides key ∧ key ∉ keys := by
  have listed : key ∈ (merged env overrides).map (·.1) ↔ ∃ v, (key, v) ∈ merged env overrides := by simp
  rw [unknownKeys, List.mem_filter, listed, mem_merged, decide_eq_true_eq]
  by_cases known : key ∈ keys <;> simp [known]

/-- **A refusal names what is wrong, and nothing else.** There is an issue at a key of the
configuration exactly if the value that the key has in the end is not of the kind it asks for,
and one at no key, which lists them, exactly if keys are overridden that a configuration does
not have. No issue is at any other path, and there is at least one. -/
theorem refusal_names_offences (refused : resolve env overrides = .error (.badConfig issues)) :
    let r := merged env overrides
    issues ≠ [] ∧ (∀ issue ∈ issues, issue.path = [] ∨ ∃ key ∈ keys, issue.path = [key]) ∧
    (∀ key ∈ keys, (∃ cause, ⟨[key], cause⟩ ∈ issues) ↔ ¬Suits key (r.member key)) ∧
    (∀ cause, ⟨[], cause⟩ ∈ issues ↔ unknownKeys r ≠ [] ∧ cause = .unknownKeys (unknownKeys r)) ∧
    ∀ key, key ∈ unknownKeys r ↔ IsSet overrides key ∧ key ∉ keys := by
  intro r
  have its : ofRecord r = .bad issues := by
    unfold resolve at refused
    split at refused
    next => cases refused
    next bad =>
      rw [bad]
      cases refused
      rfl
  have mem : ∀ {issue : Issue}, issue ∈ issues ↔
      (∃ key ∈ keys, ∃ cause ∈ causesAt key (r.member key), ⟨[key], cause⟩ = issue) ∨
        unknownKeys r ≠ [] ∧ issue = ⟨[], .unknownKeys (unknownKeys r)⟩ := by
    intro issue
    rw [← mem_causes_ofRecord, its]
    rfl
  refine ⟨fun none => ofRecord_explained r (none ▸ its), fun issue listed => ?_, fun key known => ?_, fun cause => ?_,
    fun key => mem_unknownKeys_merged⟩
  · rcases mem.1 listed with ⟨key, known, cause, -, rfl⟩ | ⟨-, rfl⟩
    · exact .inr ⟨key, known, rfl⟩
    · exact .inl rfl
  · rw [← causesAt_eq_nil_iff known, List.eq_nil_iff_forall_not_mem, not_forall_not]
    simp only [mem]
    constructor
    · rintro ⟨cause, ⟨_, -, _, against, same⟩ | ⟨-, same⟩⟩
      · cases same
        exact ⟨cause, against⟩
      · cases same
    · rintro ⟨cause, against⟩
      exact ⟨cause, .inl ⟨key, known, cause, against, rfl⟩⟩
  · rw [mem]
    constructor
    · rintro (⟨_, -, _, -, same⟩ | ⟨some, same⟩)
      · cases same
      · exact ⟨some, congrArg Issue.cause same⟩
    · rintro ⟨some, rfl⟩
      exact .inr ⟨some, rfl⟩

/-- A variable that is no number, and a key that is misspelled. -/
example : (match resolve [("PAGINATOR_IDLE_TIMEOUT_SECONDS", "soon")] [("defaultColour", .number 0)] with
    | .error (.badConfig issues) => issues
    | _ => []) = [⟨["idleTimeoutSeconds"], .wrongType "number" "string"⟩, ⟨[], .unknownKeys ["defaultColour"]⟩] := by
  decide +kernel

end Folio.Config
