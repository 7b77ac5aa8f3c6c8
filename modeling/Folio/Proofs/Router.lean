/-
A router is a map of sessions. Its two tables, of handlers by custom id and of
custom ids by session, say the same: which sessions are live, with which names
and which handler. Registering replaces one entry of that map and unregistering
removes it; the bindings of other sessions stay as they are, because a custom id
belongs to one session only.

So whatever is done to a router, it keeps up with a map of sessions to which the
same is done (`mirrors_applyAll`), and can be looked up there.
-/
import Folio.Proofs.CustomId
import Folio.Router
import Mathlib.Data.List.Nodup
import Mathlib.Data.Set.Card
import Mathlib.Logic.Function.Basic

namespace Folio

namespace Table

variable {κ α : Type} [DecidableEq κ]

theorem get?_foldl_erase (keys : List κ) (t : Table κ α) (k : κ) :
    (keys.foldl erase t).get? k = if k ∈ keys then none else t.get? k := by
  induction keys generalizing t with
  | nil => simp
  | cons l keys ih =>
    rw [List.foldl_cons, ih]
    by_cases hk : k = l
    · subst hk
      simp [get?_erase_self]
    · simp [get?_erase_other t hk, hk]

theorem get?_foldl_put (keys : List κ) (a : α) (t : Table κ α) (k : κ) :
    (keys.foldl (fun t key => t.put key a) t).get? k = if k ∈ keys then some a else t.get? k := by
  induction keys generalizing t with
  | nil => simp
  | cons l keys ih =>
    rw [List.foldl_cons, ih]
    by_cases hk : k = l
    · subst hk
      simp
    · simp [get?_put_other t a hk, hk]

/-- The keys of a table. -/
def keys (t : Table κ α) : List κ := t.map (·.1)

omit [DecidableEq κ] in
theorem length_keys (t : Table κ α) : t.keys.length = t.length := List.length_map _

theorem mem_keys_iff {t : Table κ α} {k : κ} : k ∈ t.keys ↔ ∃ a, t.get? k = some a := by
  induction t with
  | nil => simp [keys]
  | cons e t ih =>
    simp only [keys, get?, List.map_cons, List.mem_cons, List.find?_cons] at ih ⊢
    by_cases he : e.1 = k
    · simp [he]
    · simp only [he, decide_false]
      rw [← ih]
      exact ⟨fun h => h.resolve_left fun hk => he hk.symm, .inr⟩

theorem keys_erase (t : Table κ α) (k : κ) : (t.erase k).keys = t.keys.filter (· ≠ k) := by
  simp only [keys, erase, List.filter_map]
  rfl

theorem nodup_keys_erase {t : Table κ α} (h : t.keys.Nodup) (k : κ) : (t.erase k).keys.Nodup := by
  rw [keys_erase]
  exact h.filter _

theorem nodup_keys_put {t : Table κ α} (h : t.keys.Nodup) (k : κ) (a : α) : (t.put k a).keys.Nodup := by
  have hk : (t.put k a).keys = k :: (t.erase k).keys := rfl
  rw [hk, List.nodup_cons]
  refine ⟨?_, nodup_keys_erase h k⟩
  simp [keys_erase]

end Table

namespace Router

variable {η : Type} {r : Router η} {live : String → Option (List String × η)}

/-- The router binds the names of the live sessions to their handlers, and
nothing else. -/
structure Holds (r : Router η) (live : String → Option (List String × η)) : Prop where
  bars : ∀ {s e}, live s = some e → ∀ name ∈ e.1, IsBarFree name
  sessions : ∀ s, r.sessions.get? s = (live s).map fun e => e.1.map (boundId s)
  handlers : ∀ id h, r.handler? id = some h ↔ ∃ s e, live s = some e ∧ e.2 = h ∧ ∃ name ∈ e.1, id = boundId s name
  distinct : r.sessions.keys.Nodup

theorem empty_holds : (empty : Router η).Holds fun _ => none where
  bars := by simp
  sessions := by simp [empty]
  handlers := by simp [empty, handler?]
  distinct := List.nodup_nil

/-- What a name of a session is bound to. -/
theorem Holds.handler?_boundId (h : r.Holds live) (s : String) {name : String} (free : IsBarFree name) :
    r.handler? (boundId s name) = (live s).bind fun e => if name ∈ e.1 then some e.2 else none := by
  ext g
  rw [h.handlers]
  constructor
  · rintro ⟨s', e, hs, rfl, name', hn, eq⟩
    obtain ⟨rfl, rfl⟩ := boundId_inj free (h.bars hs name' hn) eq
    simp [hs, hn]
  · intro hg
    obtain ⟨e, hs, hg⟩ := Option.bind_eq_some_iff.1 hg
    by_cases hn : name ∈ e.1
    · rw [if_pos hn, Option.some.injEq] at hg
      exact ⟨s, e, hs, hg, name, hn, rfl⟩
    · simp [hn] at hg

/-- The sessions of a router are the live ones. -/
theorem Holds.mem_sessions_iff (h : r.Holds live) {s : String} : s ∈ r.sessions.keys ↔ ∃ e, live s = some e := by
  rw [Table.mem_keys_iff, h.sessions]
  cases live s <;> simp

theorem Holds.handler?_unregister (h : r.Holds live) (s id : String) :
    (r.unregister s).handler? id =
      if id ∈ (((live s).map (·.1)).getD []).map (boundId s) then none else r.handler? id := by
  have hs : (r.sessions.get? s).getD [] = (((live s).map (·.1)).getD []).map (boundId s) := by
    rw [h.sessions]
    cases live s <;> rfl
  rw [handler?, unregister, Table.get?_foldl_erase, hs]
  rfl

theorem Holds.unregister (h : r.Holds live) (s : String) :
    (r.unregister s).Holds (Function.update live s none) where
  bars := by
    intro s' e he
    by_cases hs : s' = s
    · subst hs
      simp at he
    · rw [Function.update_of_ne hs] at he
      exact h.bars he
  sessions := by
    intro s'
    by_cases hs : s' = s
    · subst hs
      simp [Router.unregister, Table.get?_erase_self]
    · rw [Router.unregister, Table.get?_erase_other _ hs, Function.update_of_ne hs, h.sessions]
  handlers := by
    intro id g
    rw [h.handler?_unregister]
    constructor
    · intro hg
      split at hg
      · cases hg
      next hid =>
      obtain ⟨s', e, he, heg, name, hn, rfl⟩ := (h.handlers id g).1 hg
      -- A binding that stays is one of another session.
      have hs : s' ≠ s := by
        rintro rfl
        exact hid (by simpa [he] using ⟨name, hn, rfl⟩)
      exact ⟨s', e, by rw [Function.update_of_ne hs, he], heg, name, hn, rfl⟩
    · rintro ⟨s', e, he, heg, name, hn, rfl⟩
      have hs : s' ≠ s := by
        rintro rfl
        simp at he
      rw [Function.update_of_ne hs] at he
      rw [if_neg, h.handlers]
      · exact ⟨s', e, he, heg, name, hn, rfl⟩
      · intro hm
        obtain ⟨name', hn', eq⟩ := List.mem_map.1 hm
        cases hl : live s with
        | none => simp [hl] at hn'
        | some e' =>
          simp only [hl, Option.map_some, Option.getD_some] at hn'
          exact hs (boundId_inj (h.bars hl name' hn') (h.bars he name hn) eq).1.symm
  distinct := Table.nodup_keys_erase h.distinct s

theorem Holds.register (h : r.Holds live) (s : String) {names : List String} (g : η)
    (free : ∀ name ∈ names, IsBarFree name) :
    (r.register s names g).Holds (Function.update live s (some (names, g))) where
  bars := by
    intro s' e he
    by_cases hs : s' = s
    · subst hs
      simp only [Function.update_self, Option.some.injEq] at he
      subst he
      exact free
    · rw [Function.update_of_ne hs] at he
      exact h.bars he
  sessions := by
    intro s'
    by_cases hs : s' = s
    · subst hs
      simp [Router.register]
    · have hu := (h.unregister s).sessions s'
      rw [Function.update_of_ne hs] at hu ⊢
      rw [Router.register, Table.get?_put_other _ _ hs, hu]
  handlers := by
    intro id g'
    have hu := (h.unregister s).handlers id g'
    rw [handler?] at hu
    rw [handler?, Router.register, Table.get?_foldl_put]
    split
    next hid =>
      obtain ⟨name, hn, rfl⟩ := List.mem_map.1 hid
      constructor
      · intro hg
        exact ⟨s, (names, g), by simp, Option.some.inj hg, name, hn, rfl⟩
      · rintro ⟨s', e, he, rfl, name', hn', eq⟩
        by_cases hs : s' = s
        · subst hs
          simp only [Function.update_self, Option.some.injEq] at he
          rw [← he]
        · rw [Function.update_of_ne hs] at he
          exact absurd (boundId_inj (free name hn) (h.bars he name' hn') eq).1.symm hs
    next hid =>
      rw [hu]
      constructor
      · rintro ⟨s', e, he, rest⟩
        have hs : s' ≠ s := by
          rintro rfl
          simp at he
        exact ⟨s', e, by rw [Function.update_of_ne hs] at he ⊢; exact he, rest⟩
      · rintro ⟨s', e, he, heg, name, hn, rfl⟩
        have hs : s' ≠ s := by
          rintro rfl
          simp only [Function.update_self, Option.some.injEq] at he
          subst he
          exact hid (List.mem_map_of_mem hn)
        exact ⟨s', e, by rw [Function.update_of_ne hs] at he ⊢; exact he, heg, name, hn, rfl⟩
  distinct := Table.nodup_keys_put (h.unregister s).distinct _ _

/-! ## Keeping up with a map of sessions -/

/-- What is done to a router. -/
inductive Change (η : Type) where
  | register (session : String) (roles : List Role) (handler : η)
  | unregister (session : String)

/-- A change of a router. -/
def apply (r : Router η) : Change η → Router η
  | .register session roles handler => r.register session (roles.map Role.name) handler
  | .unregister session => r.unregister session

/-- A map of sessions: each live one has its roles and its handler. -/
abbrev Sessions (η : Type) := String → Option (List Role × η)

namespace Sessions

/-- The map without a session. -/
def empty : Sessions η := fun _ => none

/-- A change of a map: registering replaces one entry, and unregistering removes it. -/
def apply (live : Sessions η) : Change η → Sessions η
  | .register session roles handler => Function.update live session (some (roles, handler))
  | .unregister session => Function.update live session none

/-- A custom id is one of a live session and of one of its roles, and this is the handler
of that session. -/
def Binds (live : Sessions η) (id : String) (handler : η) : Prop :=
  ∃ session roles, live session = some (roles, handler) ∧ ∃ role ∈ roles, id = session ++ "|" ++ role.name

/-- The names that a router ought to know. -/
def named (live : Sessions η) (session : String) : Option (List String × η) :=
  (live session).map fun e => (e.1.map Role.name, e.2)

theorem named_eq_some_iff {live : Sessions η} {session : String} {e : List String × η} :
    live.named session = some e ↔ ∃ roles, live session = some (roles, e.2) ∧ e.1 = roles.map Role.name := by
  rw [named, Option.map_eq_some_iff]
  constructor
  · rintro ⟨⟨roles, handler⟩, its, rfl⟩
    exact ⟨roles, its, rfl⟩
  · rintro ⟨roles, its, names⟩
    exact ⟨_, its, Prod.ext names.symm rfl⟩

theorem named_update (live : Sessions η) (session : String) (e : Option (List Role × η)) :
    named (Function.update live session e) =
      Function.update live.named session (e.map fun e => (e.1.map Role.name, e.2)) := by
  funext s
  by_cases hs : s = session
  · subst hs
    simp [named]
  · simp [named, hs]

end Sessions

/-- A router says the same as a map of sessions. -/
def Mirrors (r : Router η) (live : Sessions η) : Prop := r.Holds live.named

theorem empty_mirrors : (empty : Router η).Mirrors .empty := empty_holds

namespace Mirrors

variable {live : Sessions η}

theorem apply (h : r.Mirrors live) (change : Change η) : (r.apply change).Mirrors (live.apply change) := by
  cases change with
  | register session roles handler =>
    have free : ∀ name ∈ roles.map Role.name, IsBarFree name := by
      intro name named
      obtain ⟨role, -, rfl⟩ := List.mem_map.1 named
      exact role.name_isBarFree
    rw [Mirrors, Sessions.apply, Sessions.named_update]
    exact h.register session handler free
  | unregister session =>
    rw [Mirrors, Sessions.apply, Sessions.named_update]
    exact h.unregister session

theorem handler?_eq_some_iff (h : r.Mirrors live) {id : String} {handler : η} :
    r.handler? id = some handler ↔ live.Binds id handler := by
  rw [h.handlers]
  constructor
  · rintro ⟨session, e, its, rfl, name, known, rfl⟩
    obtain ⟨roles, its, names⟩ := Sessions.named_eq_some_iff.1 its
    rw [names] at known
    obtain ⟨role, its', rfl⟩ := List.mem_map.1 known
    exact ⟨session, roles, its, role, its', customId_eq session role⟩
  · rintro ⟨session, roles, its, role, known, rfl⟩
    have its : live.named session = some (roles.map Role.name, handler) := Sessions.named_eq_some_iff.2 ⟨roles, its, rfl⟩
    exact ⟨session, _, its, rfl, role.name, List.mem_map_of_mem known, (customId_eq session role).symm⟩

theorem handler?_eq_none_iff (h : r.Mirrors live) {id : String} :
    r.handler? id = none ↔ ¬∃ handler, live.Binds id handler := by
  rw [Option.eq_none_iff_forall_ne_some, not_exists]
  exact forall_congr' fun handler => not_congr h.handler?_eq_some_iff

theorem has_iff (h : r.Mirrors live) {id : String} : r.has id = true ↔ ∃ handler, live.Binds id handler := by
  have found : r.has id = (r.handler? id).isSome := rfl
  simp only [found, Option.isSome_iff_exists, h.handler?_eq_some_iff]

theorem size_eq (h : r.Mirrors live) : (r.size : ℕ∞) = {session | (live session).isSome = true}.encard := by
  have same : {session | (live session).isSome = true} = {session | session ∈ r.sessions.keys} := by
    ext session
    rw [Set.mem_ofPred_eq, Set.mem_ofPred_eq, h.mem_sessions_iff, ← Option.isSome_iff_exists, Sessions.named, Option.isSome_map]
  have keys : {session | session ∈ r.sessions.keys} = (r.sessions.keys.toFinset : Set String) := by
    ext session
    simp
  rw [same, keys, Set.encard_coe_eq_coe_finsetCard, List.toFinset_card_of_nodup h.distinct, Table.length_keys]
  rfl

end Mirrors

/-- Whatever is done to a router and to the map it mirrors, it goes on to mirror it. -/
theorem mirrors_applyAll (changes : List (Change η)) :
    (changes.foldl apply empty : Router η).Mirrors (changes.foldl Sessions.apply .empty) := by
  have step : ∀ {r : Router η} {live : Sessions η}, r.Mirrors live →
      (changes.foldl apply r).Mirrors (changes.foldl Sessions.apply live) := by
    induction changes with
    | nil => exact id
    | cons change changes ih => exact fun h => ih (h.apply change)
  exact step empty_mirrors

end Router

end Folio
