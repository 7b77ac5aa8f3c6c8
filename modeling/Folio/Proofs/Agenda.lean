/-
What an agenda has for one key: when its timers go off (`dues`), and how those of
its waits ended that are over (`wakes`). Most that is done to an agenda is done for
one key, and `Sparing` says that the others do not notice. An agenda is on time if
no timer is overdue and they are in order.
-/
import Folio.Agenda
import Folio.Proofs.Number.Time

namespace Folio.Agenda

open Number (IsTime)

variable {κ ρ : Type} {a b c : Agenda κ ρ} {key key' : κ}

/-! ## One key -/

theorem insert_perm (t : Timer κ) (ts : List (Timer κ)) : (insert t ts).Perm (t :: ts) := by
  induction ts with
  | nil => exact .refl _
  | cons u us ih =>
    rw [insert]
    split
    · exact .refl _
    · exact (ih.cons u).trans (.swap t u us)

theorem filter_insert (P : Timer κ → Bool) (t : Timer κ) (ts : List (Timer κ)) :
    (P t = false → (insert t ts).filter P = ts.filter P) ∧
      (P t = true → ts.filter P = [] → (insert t ts).filter P = [t]) := by
  induction ts with
  | nil => exact ⟨fun h => by simp [insert, h], fun h _ => by simp [insert, h]⟩
  | cons u us ih =>
    rw [insert]
    split
    · refine ⟨fun h => by simp [h], fun h none => ?_⟩
      rw [List.filter_cons_of_pos h, none]
    · refine ⟨fun h => ?_, fun h none => ?_⟩
      · rw [List.filter_cons, List.filter_cons, ih.1 h]
      · cases hu : P u with
        | true =>
          rw [List.filter_cons_of_pos hu] at none
          cases none
        | false =>
          rw [List.filter_cons_of_neg (by simp [hu])] at none ⊢
          exact ih.2 h none

section

variable [DecidableEq κ] {woken? : ρ → Option (κ × Bool)}

/-- When the timers for a key go off. -/
def dues (a : Agenda κ ρ) (key : κ) : List Number := (a.timers.filter fun t => t.key = key).map Timer.due

/-- The waits for a key that are over, where `woken?` tells which tasks are such:
whether each of them ended before its time was up. -/
def wakes (woken? : ρ → Option (κ × Bool)) (a : Agenda κ ρ) (key : κ) : List Bool :=
  a.ready.filterMap fun r => (woken? r).bind fun wake => if wake.1 = key then some wake.2 else none

theorem dues_start_self (ms : Number) (none : a.dues key = []) :
    (a.start key ms).dues key = [a.now + (delay ms : Number)] := by
  have before : a.timers.filter (fun t => t.key = key) = [] := List.map_eq_nil_iff.1 none
  have inserted := (filter_insert (fun t => t.key = key) ⟨a.now + (delay ms : Number), key⟩ a.timers).2
    (by simp) before
  rw [dues, start, inserted]
  rfl

theorem dues_start_other (ms : Number) (h : key' ≠ key) : (a.start key ms).dues key' = a.dues key' := by
  have other : key ≠ key' := fun e => h e.symm
  have inserted := (filter_insert (fun t => t.key = key') ⟨a.now + (delay ms : Number), key⟩ a.timers).1
    (by simpa using other)
  rw [dues, start, inserted, dues]

theorem dues_cancel_self : (a.cancel key).dues key = [] := by simp [dues, cancel]

theorem dues_cancel_other (h : key' ≠ key) : (a.cancel key).dues key' = a.dues key' := by
  have spared : ∀ t : Timer κ, (decide (t.key = key') && decide (t.key ≠ key)) = decide (t.key = key') := by
    intro t
    by_cases own : t.key = key'
    · simp [own, h]
    · simp [own]
  simp only [dues, cancel, List.filter_filter, spared]

theorem wakes_enqueue_self {r : ρ} {pinged : Bool} (wake : woken? r = some (key, pinged)) :
    (a.enqueue r).wakes woken? key = a.wakes woken? key ++ [pinged] := by
  simp [wakes, enqueue, wake]

theorem wakes_enqueue_other {r : ρ} {pinged : Bool} (wake : woken? r = some (key, pinged)) (h : key' ≠ key) :
    (a.enqueue r).wakes woken? key' = a.wakes woken? key' := by
  have other : key ≠ key' := fun e => h e.symm
  simp [wakes, enqueue, wake, other]

end

/-! ## On time -/

/-- No timer is overdue, and the first to go off comes first. -/
structure OnTime (a : Agenda κ ρ) : Prop where
  now : IsTime a.now
  due : ∀ t ∈ a.timers, IsTime t.due ∧ a.now.distance ≤ t.due.distance
  sorted : a.timers.Pairwise fun t u => t.due.distance ≤ u.due.distance

theorem mem_insert {t u : Timer κ} {ts : List (Timer κ)} : u ∈ insert t ts ↔ u = t ∨ u ∈ ts :=
  (insert_perm t ts).mem_iff.trans List.mem_cons

namespace OnTime

theorem initial : (initial : Agenda κ ρ).OnTime := ⟨.zero, by simp [Agenda.initial], .nil⟩

theorem start (h : a.OnTime) (key : κ) (ms : Number) : (a.start key ms).OnTime := by
  obtain ⟨time, later⟩ := h.now.add_natCast (delay ms)
  refine ⟨h.now, fun u hu => ?_, ?_⟩
  · rcases mem_insert.1 hu with rfl | hu
    · exact ⟨time, later⟩
    · exact h.due u hu
  · have times : ∀ u ∈ a.timers, IsTime u.due := fun u hu => (h.due u hu).1
    have sorted := h.sorted
    simp only [Agenda.start]
    generalize a.timers = ts at times sorted
    generalize hd : a.now + (delay ms : Number) = due at time
    induction ts with
    | nil => exact List.pairwise_singleton _ _
    | cons u us ih =>
      obtain ⟨least, sorted'⟩ := List.pairwise_cons.1 sorted
      have timeU := times u List.mem_cons_self
      rw [insert]
      split
      next lt =>
        have before : due.distance < u.due.distance := (time.lt_iff timeU).1 lt
        refine List.pairwise_cons.2 ⟨fun v hv => ?_, sorted⟩
        rcases List.mem_cons.1 hv with rfl | hv
        · exact before.le
        · exact before.le.trans (least v hv)
      next nlt =>
        have after : u.due.distance ≤ due.distance := le_of_not_gt fun lt => nlt ((time.lt_iff timeU).2 lt)
        refine List.pairwise_cons.2 ⟨fun v hv => ?_, ih (fun v hv => times v (List.mem_cons_of_mem u hv)) sorted'⟩
        rcases mem_insert.1 hv with rfl | hv
        · exact after
        · exact least v hv

theorem cancel [DecidableEq κ] (h : a.OnTime) (key : κ) : (a.cancel key).OnTime :=
  ⟨h.now, fun t ht => h.due t (List.mem_of_mem_filter ht), h.sorted.filter _⟩

/-- What is ready to run makes no difference. -/
theorem of_eq (h : a.OnTime) (now : b.now = a.now) (timers : b.timers = a.timers) : b.OnTime := by
  obtain ⟨time, due, sorted⟩ := h
  refine ⟨now ▸ time, ?_, timers ▸ sorted⟩
  rw [now, timers]
  exact due

/-- The clock moves to a time at which no timer is overdue. -/
theorem moveTo (h : a.OnTime) {time : Number} (isTime : IsTime time) (later : a.now.distance ≤ time.distance)
    (due : ∀ t ∈ a.timers, time.distance ≤ t.due.distance) : (a.moveTo time).now = time ∧ (a.moveTo time).OnTime := by
  have now : (a.moveTo time).now = time := h.now.max_of_le isTime later
  refine ⟨now, by rwa [now], fun t ht => ?_, h.sorted⟩
  rw [now]
  exact ⟨(h.due t ht).1, due t ht⟩

/-- The first timer goes off when it is due. -/
theorem fire (h : a.OnTime) {t : Timer κ} {rest : List (Timer κ)} (timers : a.timers = t :: rest) :
    ({ a with timers := rest }.moveTo t.due).now = t.due ∧ ({ a with timers := rest }.moveTo t.due).OnTime := by
  obtain ⟨now, due, sorted⟩ := h
  rw [timers] at due sorted
  obtain ⟨least, sorted⟩ := List.pairwise_cons.1 sorted
  have without : { a with timers := rest }.OnTime := ⟨now, fun u hu => due u (List.mem_cons_of_mem t hu), sorted⟩
  exact without.moveTo (due t List.mem_cons_self).1 (due t List.mem_cons_self).2 least

end OnTime

/-! ## What concerns one key alone -/

variable [DecidableEq κ] {woken? : ρ → Option (κ × Bool)}

/-- From `a` to `b` something was done for one key; the others do not notice. -/
structure Sparing (woken? : ρ → Option (κ × Bool)) (key : κ) (a b : Agenda κ ρ) : Prop where
  now : b.now = a.now
  dues : ∀ key' ≠ key, b.dues key' = a.dues key'
  wakes : ∀ key' ≠ key, b.wakes woken? key' = a.wakes woken? key'
  onTime : a.OnTime → b.OnTime

namespace Sparing

theorem refl (a : Agenda κ ρ) : Sparing woken? key a a := ⟨rfl, fun _ _ => rfl, fun _ _ => rfl, id⟩

theorem trans (h : Sparing woken? key a b) (h' : Sparing woken? key b c) : Sparing woken? key a c where
  now := h'.now.trans h.now
  dues key' other := (h'.dues key' other).trans (h.dues key' other)
  wakes key' other := (h'.wakes key' other).trans (h.wakes key' other)
  onTime timely := h'.onTime (h.onTime timely)

theorem start (a : Agenda κ ρ) (key : κ) (ms : Number) : Sparing woken? key a (a.start key ms) :=
  ⟨rfl, fun _ => dues_start_other ms, fun _ _ => rfl, fun h => h.start key ms⟩

theorem cancel (a : Agenda κ ρ) (key : κ) : Sparing woken? key a (a.cancel key) :=
  ⟨rfl, fun _ => dues_cancel_other, fun _ _ => rfl, fun h => h.cancel key⟩

theorem enqueue (a : Agenda κ ρ) {r : ρ} {pinged : Bool} (wake : woken? r = some (key, pinged)) :
    Sparing woken? key a (a.enqueue r) :=
  ⟨rfl, fun _ _ => rfl, fun _ => wakes_enqueue_other wake, fun h => h.of_eq rfl rfl⟩

end Sparing

end Folio.Agenda
