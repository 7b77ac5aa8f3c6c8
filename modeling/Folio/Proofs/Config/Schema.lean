/-
What a record has to be for a configuration. A check says of a value that it is one of its
kind, and what it is read as; the checks of a record come together without regard to each
other, so a record is read as a configuration exactly if each of its values is one of the
kind that its key asks for (`IsConfig`). What it is read as has the same values, and reads
as itself.
-/
import Folio.Config.Resolve
import Folio.Proofs.Number.Rounding

namespace Folio

/-- Two values are the same as far as their members can tell. -/
def Value.Same : Value → Value → Prop
  | .record a, .record b => ∀ key, Record.member a key = Record.member b key
  | v, w => v = w

theorem Value.Same.refl (v : Value) : v.Same v := by
  cases v <;> first | rfl | exact fun _ => rfl

theorem Value.Same.of_eq {v w : Value} (h : v = w) : v.Same w := h ▸ .refl v

theorem EmojiParts.toRecord_known (p : EmojiParts) : ∀ e ∈ p.toRecord, e.1 ∈ keys := by
  simp [toRecord, keys]

namespace Config

variable {ε α β : Type} {r : Record} {c : Config} {v : Value}

/-! ## Kinds of values -/

/-- A truth value. -/
def IsFlag (v : Value) : Prop := ∃ b, v = .bool b

/-- A text whose units number from `least` to `most`. -/
def IsText (least most : Nat) (v : Value) : Prop :=
  ∃ s, v = .text s ∧ least ≤ Text.unitLength s ∧ Text.unitLength s ≤ most

/-- An emoji: a text that is not empty, or a record with an id and a name that are texts and
with a truth value, each of which may be left out, and nothing else. -/
def IsEmoji (v : Value) : Prop :=
  (∃ s, v = .text s ∧ s ≠ "") ∨
    ∃ fields : Record, v = .record fields ∧ (∀ e ∈ fields, e.1 ∈ ["id", "name", "animated"]) ∧
      (fields.member "id" = .absent ∨ ∃ s, fields.member "id" = .text s) ∧
      (fields.member "name" = .absent ∨ ∃ s, fields.member "name" = .text s) ∧
      (fields.member "animated" = .absent ∨ ∃ b, fields.member "animated" = .bool b)

/-- A style, by its number. -/
def IsStyle (v : Value) : Prop := ∃ n : Nat, v = .number n ∧ 1 ≤ n ∧ n ≤ 4

/-- A colour. -/
def IsColor (v : Value) : Prop := ∃ n : Nat, v = .number n ∧ n ≤ 0xffffff

/-- A finite number of seconds that a timer can count. -/
def IsSeconds (v : Value) : Prop := ∃ q : Rat, v = .number (.finite q) ∧ 0 ≤ q ∧ q ≤ 2147483

/-- Whether a value is of the kind that a key asks for. -/
def Suits (key : String) (v : Value) : Prop :=
  match key with
  | "showFirst" | "showBack" | "showNext" | "showLast" | "showCallback" | "showSelectMenu" => IsFlag v
  | "firstEmoji" | "backEmoji" | "nextEmoji" | "lastEmoji" | "callbackEmoji" => IsEmoji v
  | "buttonStyle" => IsStyle v
  | "wrongUserMessage" => IsText 0 2000 v
  | "defaultTitle" => v = .absent ∨ IsText 1 256 v
  | "defaultColor" => IsColor v
  | "idleTimeoutSeconds" => IsSeconds v
  | _ => False

/-- A record that is a configuration: each value is of the kind that its key asks for, and
there are no other keys. -/
def IsConfig (r : Record) : Prop := (∀ key ∈ keys, Suits key (r.member key)) ∧ ∀ e ∈ r, e.1 ∈ keys

/-! ## Checks -/

theorem checkBool_eq_ok_iff {b : Bool} : checkBool v = .ok b ↔ v = .bool b := by
  cases v <;> simp [checkBool]

theorem exists_checkBool_iff : (∃ b, checkBool v = .ok b) ↔ IsFlag v := by
  simp only [checkBool_eq_ok_iff, IsFlag]

theorem passing_eq_ok_iff {causes : List Cause} {a b : α} : passing causes a = .ok b ↔ causes = [] ∧ a = b := by
  rw [passing]
  split <;> simp_all

theorem complaint_eq_nil_iff {bad : Bool} {cause : Cause} : complaint bad cause = [] ↔ bad = false := by
  cases bad <;> simp [complaint]

theorem checkText_eq_ok_iff {least most : Nat} {s : String} :
    checkText least most v = .ok s ↔ v = .text s ∧ least ≤ Text.unitLength s ∧ Text.unitLength s ≤ most := by
  cases v with
  | text t =>
    simp only [checkText, passing_eq_ok_iff, List.append_eq_nil_iff, complaint_eq_nil_iff,
      decide_eq_false_iff_not, Nat.not_lt, Value.text.injEq]
    constructor
    · rintro ⟨within, rfl⟩
      exact ⟨rfl, within⟩
    · rintro ⟨rfl, within⟩
      exact ⟨within, rfl⟩
  | absent | null | bool | number | list | record => simp [checkText]

theorem exists_checkText_iff (least most : Nat) : (∃ s, checkText least most v = .ok s) ↔ IsText least most v := by
  simp only [checkText_eq_ok_iff, IsText]

/-- A title that is given is checked as a text. -/
theorem checkTitle_given_eq_ok_iff {title : Option String} (given : v ≠ .absent) :
    checkTitle v = .ok title ↔ ∃ s, checkText 1 maxTitle v = .ok s ∧ some s = title := by
  cases v with
  | absent => exact absurd rfl given
  | null | bool | number | text | list | record =>
    rw [checkTitle]
    · split
      next checked => simp [checked]
      next checked => simp [checked]
    · exact given

theorem checkTitle_eq_ok_iff {title : Option String} : checkTitle v = .ok title ↔
    v = (title.map Value.text).getD .absent ∧
      ∀ s, title = some s → 1 ≤ Text.unitLength s ∧ Text.unitLength s ≤ maxTitle := by
  by_cases none : v = .absent
  · subst none
    cases title <;> simp [checkTitle]
  · rw [checkTitle_given_eq_ok_iff none]
    simp only [checkText_eq_ok_iff]
    cases title with
    | none => simp [none]
    | some t =>
      constructor
      · rintro ⟨s, ⟨rfl, within⟩, its⟩
        obtain rfl := Option.some.inj its
        exact ⟨rfl, fun _ its => Option.some.inj its ▸ within⟩
      · rintro ⟨rfl, within⟩
        exact ⟨t, ⟨rfl, within t rfl⟩, rfl⟩

theorem exists_checkTitle_iff : (∃ title, checkTitle v = .ok title) ↔ v = .absent ∨ IsText 1 256 v := by
  simp only [checkTitle_eq_ok_iff]
  constructor
  · rintro ⟨_ | s, rfl, within⟩
    · exact .inl rfl
    · exact .inr ⟨s, rfl, within s rfl⟩
  · rintro (rfl | ⟨s, rfl, within⟩)
    · exact ⟨none, rfl, by simp⟩
    · exact ⟨some s, rfl, fun _ its => Option.some.inj its ▸ within⟩

theorem ofNumber?_eq_some_iff {n : Number} {style : Style} : Style.ofNumber? n = some style ↔ n = style.number := by
  constructor
  · intro found
    have its := List.find?_some found
    exact (of_decide_eq_true its).symm
  · rintro rfl
    cases style <;> decide +kernel

theorem checkStyle_eq_ok_iff {style : Style} : checkStyle v = .ok style ↔ v = .number style.number := by
  cases v with
  | number n =>
    rw [Value.number.injEq, ← ofNumber?_eq_some_iff, checkStyle]
    cases Style.ofNumber? n <;> simp
  | absent | null | bool | text | list | record => simp [checkStyle]

theorem exists_checkStyle_iff : (∃ style, checkStyle v = .ok style) ↔ IsStyle v := by
  simp only [checkStyle_eq_ok_iff]
  constructor
  · rintro ⟨style, rfl⟩
    exact ⟨style.number, rfl, by cases style <;> decide⟩
  · rintro ⟨n, rfl, least, most⟩
    obtain rfl | rfl | rfl | rfl : n = 1 ∨ n = 2 ∨ n = 3 ∨ n = 4 := by omega
    exacts [⟨.primary, rfl⟩, ⟨.secondary, rfl⟩, ⟨.success, rfl⟩, ⟨.danger, rfl⟩]

theorem outside_eq_nil_iff {most : Nat} {q : Rat} : outside most (.finite q) = [] ↔ 0 ≤ q ∧ q ≤ most := by
  have least : (Number.finite q).lt 0 = decide (q < 0) := by
    have zero : (0 : Number) = .finite 0 := rfl
    rw [zero, Number.lt]
  have largest : (most : Number).lt (.finite q) = decide ((most : Rat) < q) := rfl
  simp only [outside, List.append_eq_nil_iff, complaint_eq_nil_iff, least, largest, decide_eq_false_iff_not, not_lt]

theorem toNat?_eq_some_iff {n : Number} {k : Nat} : n.toNat? = some k ↔ n = k := by
  constructor
  · intro whole
    cases n with
    | nan | infinite => cases whole
    | finite q =>
      rw [Number.toNat?, Number.toInt?] at whole
      split at whole
      next i its =>
        split at its
        next one =>
          obtain rfl := Option.some.inj its
          split at whole
          next nonneg =>
            obtain rfl := Option.some.inj whole
            have value : (q.num : Rat) = q := Rat.coe_int_num_of_den_eq_one one
            have natural : ((q.num.toNat : Nat) : Rat) = (q.num : Rat) := by
              rw [← Int.cast_natCast, Int.toNat_of_nonneg nonneg]
            rw [Number.natCast_eq, natural, value]
          · cases whole
        · cases its
      · cases whole
  · rintro rfl
    exact Number.toNat?_natCast k

theorem checkColor_eq_ok_iff {color : Nat} : checkColor v = .ok color ↔ v = .number color ∧ color ≤ maxColor := by
  cases v with
  | number n =>
    rw [Value.number.injEq]
    by_cases whole : ∃ k : Nat, n = k
    · obtain ⟨k, rfl⟩ := whole
      have read : checkColor (.number (k : Number)) = passing (outside maxColor (k : Number)) k := by
        rw [Number.natCast_eq, checkColor, ← Number.natCast_eq, Number.toNat?_natCast]
        exact fun its => nomatch its
      have same : (k : Number) = (color : Number) ↔ k = color := by
        rw [Number.natCast_eq, Number.natCast_eq, Number.finite.injEq, Nat.cast_inj]
      rw [read, passing_eq_ok_iff, Number.natCast_eq, outside_eq_nil_iff, ← Number.natCast_eq, same, Nat.cast_le]
      constructor
      · rintro ⟨⟨-, le⟩, rfl⟩
        exact ⟨rfl, le⟩
      · rintro ⟨rfl, le⟩
        exact ⟨⟨Nat.cast_nonneg k, le⟩, rfl⟩
    · have none : n.toNat? = none :=
        Option.eq_none_iff_forall_not_mem.2 fun k its => whole ⟨k, toNat?_eq_some_iff.1 its⟩
      have other : n ≠ color := fun its => whole ⟨color, its⟩
      have bad : ∃ causes, checkColor (.number n) = .bad causes := by
        cases n <;> simp [checkColor, none]
      obtain ⟨causes, bad⟩ := bad
      simp [bad, other]
  | absent | null | bool | text | list | record => simp [checkColor]

theorem exists_checkColor_iff : (∃ color, checkColor v = .ok color) ↔ IsColor v := by
  simp only [checkColor_eq_ok_iff, IsColor, maxColor]

theorem checkSeconds_eq_ok_iff {q : Rat} :
    checkSeconds v = .ok q ↔ v = .number (.finite q) ∧ 0 ≤ q ∧ q ≤ maxIdleSeconds := by
  cases v with
  | number n =>
    cases n with
    | finite p =>
      rw [checkSeconds, passing_eq_ok_iff, outside_eq_nil_iff, Value.number.injEq, Number.finite.injEq]
      constructor
      · rintro ⟨within, rfl⟩
        exact ⟨rfl, within⟩
      · rintro ⟨rfl, within⟩
        exact ⟨within, rfl⟩
    | nan | infinite => simp [checkSeconds]
  | absent | null | bool | text | list | record => simp [checkSeconds]

theorem exists_checkSeconds_iff : (∃ q, checkSeconds v = .ok q) ↔ IsSeconds v := by
  simp only [checkSeconds_eq_ok_iff, IsSeconds, maxIdleSeconds, Nat.cast_ofNat]

/-! ### Emoji -/

theorem member_eq_absent {key : String} (none : ∀ e ∈ r, e.1 ≠ key) : r.member key = .absent := by
  have missing : r.find? (fun e => e.1 = key) = Option.none := by simpa [List.find?_eq_none] using none
  rw [Record.member, Table.get?, missing]
  rfl

variable {p : EmojiParts} {fields : Record}

theorem text?_eq_some_iff {t : Option String} : EmojiParts.text? v = some t ↔ v = (t.map Value.text).getD .absent := by
  cases v <;> cases t <;> simp [EmojiParts.text?, eq_comm]

theorem bool?_eq_some_iff {b : Option Bool} : EmojiParts.bool? v = some b ↔ v = (b.map Value.bool).getD .absent := by
  cases v <;> cases b <;> simp [EmojiParts.bool?, eq_comm]

theorem ofKnown?_eq_some_iff : EmojiParts.ofKnown? fields = some p ↔
    fields.member "id" = (p.id.map Value.text).getD .absent ∧
      fields.member "name" = (p.name.map Value.text).getD .absent ∧
      fields.member "animated" = (p.animated.map Value.bool).getD .absent := by
  rw [← text?_eq_some_iff, ← text?_eq_some_iff, ← bool?_eq_some_iff, EmojiParts.ofKnown?]
  obtain ⟨id, name, animated⟩ := p
  cases EmojiParts.text? (fields.member "id") <;> cases EmojiParts.text? (fields.member "name") <;>
    cases EmojiParts.bool? (fields.member "animated") <;> simp

theorem unknown_eq_nil_iff : EmojiParts.unknown fields = [] ↔ ∀ e ∈ fields, e.1 ∈ EmojiParts.keys := by
  simp [EmojiParts.unknown, List.filter_eq_nil_iff]

/-- A record of members that an emoji may have is read as the parts that are the same. -/
theorem ofKnown?_iff_same (known : ∀ e ∈ fields, e.1 ∈ EmojiParts.keys) :
    EmojiParts.ofKnown? fields = some p ↔ ∀ key, fields.member key = p.toRecord.member key := by
  rw [ofKnown?_eq_some_iff]
  constructor
  · rintro ⟨id, name, animated⟩ key
    by_cases its : key ∈ EmojiParts.keys
    · simp only [EmojiParts.keys, List.mem_cons, List.not_mem_nil, or_false] at its
      rcases its with rfl | rfl | rfl
      · exact id
      · exact name
      · exact animated
    · have none : ∀ {r : Record}, (∀ e ∈ r, e.1 ∈ EmojiParts.keys) → r.member key = .absent := fun known =>
        member_eq_absent fun e he same => its (by rw [← same]; exact known e he)
      rw [none known, none p.toRecord_known]
  · exact fun same => ⟨same "id", same "name", same "animated"⟩

theorem isEmoji_record_iff : IsEmoji (.record fields) ↔
    (∀ e ∈ fields, e.1 ∈ EmojiParts.keys) ∧ ∃ p, EmojiParts.ofKnown? fields = some p := by
  have text : ∀ v : Value, (v = .absent ∨ ∃ s, v = .text s) ↔
      ∃ t : Option String, v = (t.map Value.text).getD .absent := by
    simp [Option.exists]
  have flag : ∀ v : Value, (v = .absent ∨ ∃ b, v = .bool b) ↔
      ∃ b : Option Bool, v = (b.map Value.bool).getD .absent := by
    simp [Option.exists]
  have one : IsEmoji (.record fields) ↔ (∀ e ∈ fields, e.1 ∈ EmojiParts.keys) ∧
      (fields.member "id" = .absent ∨ ∃ s, fields.member "id" = .text s) ∧
      (fields.member "name" = .absent ∨ ∃ s, fields.member "name" = .text s) ∧
      (fields.member "animated" = .absent ∨ ∃ b, fields.member "animated" = .bool b) := by
    simp [IsEmoji, EmojiParts.keys]
  rw [one, text, text, flag]
  refine and_congr_right fun _ => ⟨?_, ?_⟩
  · rintro ⟨⟨id, hid⟩, ⟨name, hname⟩, ⟨animated, hanimated⟩⟩
    exact ⟨⟨id, name, animated⟩, ofKnown?_eq_some_iff.2 ⟨hid, hname, hanimated⟩⟩
  · rintro ⟨p, read⟩
    obtain ⟨hid, hname, hanimated⟩ := ofKnown?_eq_some_iff.1 read
    exact ⟨⟨_, hid⟩, ⟨_, hname⟩, ⟨_, hanimated⟩⟩

theorem checkEmoji_record_eq_ok_iff {e : Emoji} : checkEmoji (.record fields) = .ok e ↔
    (∀ e ∈ fields, e.1 ∈ EmojiParts.keys) ∧ ∃ p, EmojiParts.ofKnown? fields = some p ∧ e = .parts p := by
  rw [checkEmoji, ← unknown_eq_nil_iff]
  cases EmojiParts.ofKnown? fields with
  | none => simp
  | some p => by_cases none : EmojiParts.unknown fields = [] <;> simp [none, eq_comm]

theorem IsEmoji.exists_checkEmoji (h : IsEmoji v) : ∃ e, checkEmoji v = .ok e := by
  have kind := h
  rcases h with ⟨s, rfl, some⟩ | ⟨fields, rfl, -⟩
  · exact ⟨.text s, if_neg some⟩
  · obtain ⟨known, p, read⟩ := isEmoji_record_iff.1 kind
    exact ⟨.parts p, checkEmoji_record_eq_ok_iff.2 ⟨known, p, read, rfl⟩⟩

theorem checkEmoji_eq_ok_iff {e : Emoji} : checkEmoji v = .ok e ↔ IsEmoji v ∧ v.Same e.toValue := by
  cases v with
  | text s =>
    have kind : IsEmoji (.text s) ↔ s ≠ "" := by simp [IsEmoji]
    rw [kind, checkEmoji]
    cases e <;> by_cases s = "" <;> simp_all [Value.Same, Emoji.toValue]
  | record fields =>
    rw [isEmoji_record_iff, checkEmoji_record_eq_ok_iff, and_assoc]
    refine and_congr_right fun known => ?_
    cases e with
    | text s => simp [Value.Same, Emoji.toValue]
    | parts p =>
      rw [Emoji.toValue, Value.Same, ← ofKnown?_iff_same known]
      simp only [Emoji.parts.injEq, exists_eq_right']
      exact ⟨fun read => ⟨⟨p, read⟩, read⟩, And.right⟩
  | absent | null | bool | number | list => simp [checkEmoji, IsEmoji]

theorem exists_checkEmoji_iff : (∃ e, checkEmoji v = .ok e) ↔ IsEmoji v := by
  refine ⟨?_, IsEmoji.exists_checkEmoji⟩
  rintro ⟨e, checked⟩
  exact (checkEmoji_eq_ok_iff.1 checked).1

/-! ## Records -/

theorem Checked.on_eq_ok_iff {f : Checked ε (α → β)} {a : Checked ε α} {b : β} :
    f.on a = .ok b ↔ ∃ g x, f = .ok g ∧ a = .ok x ∧ g x = b := by
  cases f with
  | ok g =>
    cases a with
    | ok x => simp [Checked.on]
    | bad causes => simp [Checked.on]
  | bad causes => cases a <;> simp [Checked.on]

/-- All that is checked first is as good as `P` asks for, given what is checked last. -/
theorem Checked.exists_on {P : β → Prop} {f : Checked ε (α → β)} {a : Checked ε α} :
    (∃ b, f.on a = .ok b ∧ P b) ↔ ∃ g, f = .ok g ∧ ∃ x, a = .ok x ∧ P (g x) := by
  simp only [on_eq_ok_iff]
  constructor
  · rintro ⟨_, ⟨g, x, hg, hx, rfl⟩, h⟩
    exact ⟨g, hg, x, hx, h⟩
  · rintro ⟨g, hg, x, hx, h⟩
    exact ⟨_, ⟨g, x, hg, hx, rfl⟩, h⟩

theorem atKey_eq_ok_iff {key : String} {check : Value → Checked Cause α} {a : α} :
    atKey r key check = .ok a ↔ check (r.member key) = .ok a := by
  rw [atKey]
  split
  next h => rw [h]; simp
  next h => rw [h]; simp

theorem unknownKeys_eq_nil_iff : unknownKeys r = [] ↔ ∀ e ∈ r, e.1 ∈ keys := by
  simp [unknownKeys, List.filter_eq_nil_iff]

theorem checkKeys_eq_ok_iff {u : Unit} : checkKeys r = .ok u ↔ ∀ e ∈ r, e.1 ∈ keys := by
  rw [checkKeys, ← unknownKeys_eq_nil_iff]
  split <;> simp_all

/-- What a record is read as, key by key. -/
structure Reads (r : Record) (c : Config) : Prop where
  showFirst : checkBool (r.member "showFirst") = .ok c.showFirst
  showBack : checkBool (r.member "showBack") = .ok c.showBack
  showNext : checkBool (r.member "showNext") = .ok c.showNext
  showLast : checkBool (r.member "showLast") = .ok c.showLast
  showCallback : checkBool (r.member "showCallback") = .ok c.showCallback
  showSelectMenu : checkBool (r.member "showSelectMenu") = .ok c.showSelectMenu
  firstEmoji : checkEmoji (r.member "firstEmoji") = .ok c.firstEmoji
  backEmoji : checkEmoji (r.member "backEmoji") = .ok c.backEmoji
  nextEmoji : checkEmoji (r.member "nextEmoji") = .ok c.nextEmoji
  lastEmoji : checkEmoji (r.member "lastEmoji") = .ok c.lastEmoji
  callbackEmoji : checkEmoji (r.member "callbackEmoji") = .ok c.callbackEmoji
  buttonStyle : checkStyle (r.member "buttonStyle") = .ok c.buttonStyle
  wrongUserMessage : checkText 0 maxMessage (r.member "wrongUserMessage") = .ok c.wrongUserMessage
  defaultTitle : checkTitle (r.member "defaultTitle") = .ok c.defaultTitle
  defaultColor : checkColor (r.member "defaultColor") = .ok c.defaultColor
  idleTimeoutSeconds : checkSeconds (r.member "idleTimeoutSeconds") = .ok c.idleTimeoutSeconds
  known : ∀ e ∈ r, e.1 ∈ keys

theorem ofRecord_eq_ok_iff : ofRecord r = .ok c ↔ Reads r c := by
  have single : ofRecord r = .ok c ↔ ∃ c', ofRecord r = .ok c' ∧ c' = c := by simp
  rw [single, ofRecord]
  simp only [Checked.exists_on, atKey_eq_ok_iff, checkKeys_eq_ok_iff]
  constructor
  · rintro ⟨_, ⟨⟩, _, ⟨⟩, _, showFirst, _, showBack, _, showNext, _, showLast, _, showCallback, _, showSelectMenu,
      _, firstEmoji, _, backEmoji, _, nextEmoji, _, lastEmoji, _, callbackEmoji, _, buttonStyle, _, wrongUserMessage,
      _, defaultTitle, _, defaultColor, _, idleTimeoutSeconds, _, known, rfl⟩
    exact ⟨showFirst, showBack, showNext, showLast, showCallback, showSelectMenu, firstEmoji, backEmoji, nextEmoji,
      lastEmoji, callbackEmoji, buttonStyle, wrongUserMessage, defaultTitle, defaultColor, idleTimeoutSeconds, known⟩
  · intro h
    exact ⟨_, rfl, _, rfl, _, h.showFirst, _, h.showBack, _, h.showNext, _, h.showLast, _, h.showCallback,
      _, h.showSelectMenu, _, h.firstEmoji, _, h.backEmoji, _, h.nextEmoji, _, h.lastEmoji, _, h.callbackEmoji,
      _, h.buttonStyle, _, h.wrongUserMessage, _, h.defaultTitle, _, h.defaultColor, _, h.idleTimeoutSeconds,
      (), h.known, rfl⟩

/-- Each value that is read is of its kind, and is read as the same. -/
theorem Reads.spec (h : Reads r c) {key : String} (known : key ∈ keys) :
    Suits key (r.member key) ∧ (r.member key).Same (c.member key) := by
  have flag : ∀ {v : Value} {b : Bool}, checkBool v = .ok b → IsFlag v ∧ v.Same (.bool b) := fun checked =>
    ⟨exists_checkBool_iff.1 ⟨_, checked⟩, .of_eq (checkBool_eq_ok_iff.1 checked)⟩
  have emoji : ∀ {v : Value} {e : Emoji}, checkEmoji v = .ok e → IsEmoji v ∧ v.Same e.toValue := checkEmoji_eq_ok_iff.1
  simp only [keys, List.mem_cons, List.not_mem_nil, or_false] at known
  rcases known with rfl | rfl | rfl | rfl | rfl | rfl | rfl | rfl | rfl | rfl | rfl | rfl | rfl | rfl | rfl | rfl
  · exact flag h.showFirst
  · exact flag h.showBack
  · exact flag h.showNext
  · exact flag h.showLast
  · exact flag h.showCallback
  · exact flag h.showSelectMenu
  · exact emoji h.firstEmoji
  · exact emoji h.backEmoji
  · exact emoji h.nextEmoji
  · exact emoji h.lastEmoji
  · exact emoji h.callbackEmoji
  · exact ⟨exists_checkStyle_iff.1 ⟨_, h.buttonStyle⟩, .of_eq (checkStyle_eq_ok_iff.1 h.buttonStyle)⟩
  · have message := h.wrongUserMessage
    exact ⟨(exists_checkText_iff 0 maxMessage).1 ⟨_, message⟩, .of_eq (checkText_eq_ok_iff.1 message).1⟩
  · exact ⟨exists_checkTitle_iff.1 ⟨_, h.defaultTitle⟩, .of_eq (checkTitle_eq_ok_iff.1 h.defaultTitle).1⟩
  · exact ⟨exists_checkColor_iff.1 ⟨_, h.defaultColor⟩, .of_eq (checkColor_eq_ok_iff.1 h.defaultColor).1⟩
  · exact ⟨exists_checkSeconds_iff.1 ⟨_, h.idleTimeoutSeconds⟩, .of_eq (checkSeconds_eq_ok_iff.1 h.idleTimeoutSeconds).1⟩

theorem Reads.isConfig (h : Reads r c) : IsConfig r := ⟨fun _ known => (h.spec known).1, h.known⟩

theorem member_foreign (c : Config) {key : String} (foreign : key ∉ keys) : c.member key = .absent := by
  unfold member
  split
  all_goals first | rfl | exact absurd (by decide) foreign

/-- What is read is the same. -/
theorem Reads.same (h : Reads r c) (key : String) : (r.member key).Same (c.member key) := by
  by_cases known : key ∈ keys
  · exact (h.spec known).2
  · have none : r.member key = .absent := member_eq_absent fun e he its => known (by rw [← its]; exact h.known e he)
    rw [c.member_foreign known, none]
    exact .refl _

/-- A record that is a configuration is read as one. -/
theorem IsConfig.exists_reads (h : IsConfig r) : ∃ c, Reads r c := by
  obtain ⟨suits, known⟩ := h
  have flag : ∀ {v : Value}, IsFlag v → ∃ b, checkBool v = .ok b := exists_checkBool_iff.2
  have emoji : ∀ {v : Value}, IsEmoji v → ∃ e, checkEmoji v = .ok e := exists_checkEmoji_iff.2
  obtain ⟨_, showFirst⟩ := flag (suits "showFirst" (by decide))
  obtain ⟨_, showBack⟩ := flag (suits "showBack" (by decide))
  obtain ⟨_, showNext⟩ := flag (suits "showNext" (by decide))
  obtain ⟨_, showLast⟩ := flag (suits "showLast" (by decide))
  obtain ⟨_, showCallback⟩ := flag (suits "showCallback" (by decide))
  obtain ⟨_, showSelectMenu⟩ := flag (suits "showSelectMenu" (by decide))
  obtain ⟨_, firstEmoji⟩ := emoji (suits "firstEmoji" (by decide))
  obtain ⟨_, backEmoji⟩ := emoji (suits "backEmoji" (by decide))
  obtain ⟨_, nextEmoji⟩ := emoji (suits "nextEmoji" (by decide))
  obtain ⟨_, lastEmoji⟩ := emoji (suits "lastEmoji" (by decide))
  obtain ⟨_, callbackEmoji⟩ := emoji (suits "callbackEmoji" (by decide))
  obtain ⟨_, buttonStyle⟩ := exists_checkStyle_iff.2 (suits "buttonStyle" (by decide))
  obtain ⟨_, message⟩ := (exists_checkText_iff 0 maxMessage).2 (suits "wrongUserMessage" (by decide))
  obtain ⟨_, defaultTitle⟩ := exists_checkTitle_iff.2 (suits "defaultTitle" (by decide))
  obtain ⟨_, color⟩ := exists_checkColor_iff.2 (suits "defaultColor" (by decide))
  obtain ⟨_, seconds⟩ := exists_checkSeconds_iff.2 (suits "idleTimeoutSeconds" (by decide))
  exact ⟨⟨_, _, _, _, _, _, _, _, _, _, _, _, _, _, _, _⟩, showFirst, showBack, showNext, showLast, showCallback,
    showSelectMenu, firstEmoji, backEmoji, nextEmoji, lastEmoji, callbackEmoji, buttonStyle, message, defaultTitle,
    color, seconds, known⟩

theorem exists_ofRecord_iff : (∃ c, ofRecord r = .ok c) ↔ IsConfig r := by
  simp only [ofRecord_eq_ok_iff]
  constructor
  · rintro ⟨_, reads⟩
    exact reads.isConfig
  · exact IsConfig.exists_reads

theorem checkEmoji_toValue {e : Emoji} (h : checkEmoji v = .ok e) : checkEmoji e.toValue = .ok e := by
  cases e with
  | text s =>
    obtain ⟨kind, same⟩ := checkEmoji_eq_ok_iff.1 h
    have its : v = .text s := by cases v <;> exact same
    rw [its] at h
    exact h
  | parts p =>
    exact checkEmoji_record_eq_ok_iff.2 ⟨p.toRecord_known, p, (ofKnown?_iff_same p.toRecord_known).2 fun _ => rfl, rfl⟩

/-- A record of the values of what was read is read as the same. -/
theorem Reads.again {r' : Record} (h : Reads r c) (same : ∀ key ∈ keys, r'.member key = c.member key)
    (known : ∀ e ∈ r', e.1 ∈ keys) : Reads r' c where
  showFirst := by rw [same _ (by decide)]; rfl
  showBack := by rw [same _ (by decide)]; rfl
  showNext := by rw [same _ (by decide)]; rfl
  showLast := by rw [same _ (by decide)]; rfl
  showCallback := by rw [same _ (by decide)]; rfl
  showSelectMenu := by rw [same _ (by decide)]; rfl
  firstEmoji := by rw [same _ (by decide)]; exact checkEmoji_toValue h.firstEmoji
  backEmoji := by rw [same _ (by decide)]; exact checkEmoji_toValue h.backEmoji
  nextEmoji := by rw [same _ (by decide)]; exact checkEmoji_toValue h.nextEmoji
  lastEmoji := by rw [same _ (by decide)]; exact checkEmoji_toValue h.lastEmoji
  callbackEmoji := by rw [same _ (by decide)]; exact checkEmoji_toValue h.callbackEmoji
  buttonStyle := by rw [same _ (by decide)]; exact checkStyle_eq_ok_iff.2 rfl
  wrongUserMessage := by
    rw [same _ (by decide)]
    exact checkText_eq_ok_iff.2 ⟨rfl, (checkText_eq_ok_iff.1 h.wrongUserMessage).2⟩
  defaultTitle := by
    rw [same _ (by decide)]
    exact checkTitle_eq_ok_iff.2 ⟨rfl, (checkTitle_eq_ok_iff.1 h.defaultTitle).2⟩
  defaultColor := by
    rw [same _ (by decide)]
    exact checkColor_eq_ok_iff.2 ⟨rfl, (checkColor_eq_ok_iff.1 h.defaultColor).2⟩
  idleTimeoutSeconds := by
    rw [same _ (by decide)]
    exact checkSeconds_eq_ok_iff.2 ⟨rfl, (checkSeconds_eq_ok_iff.1 h.idleTimeoutSeconds).2⟩
  known := known

/-! ## Resolving -/

variable {env : Environment}

theorem resolve_eq_ok_iff {overrides : Record} : resolve env overrides = .ok c ↔ Reads (merged env overrides) c := by
  rw [← ofRecord_eq_ok_iff]
  unfold resolve
  generalize ofRecord (merged env overrides) = checked
  cases checked <;> simp

theorem reads_of_resolveValue {overrides : Value} (h : resolveValue env overrides = .ok c) : ∃ r, Reads r c := by
  rw [resolveValue] at h
  split at h
  next r _ => exact ⟨merged env r, resolve_eq_ok_iff.1 h⟩
  · cases h

end Config

end Folio
