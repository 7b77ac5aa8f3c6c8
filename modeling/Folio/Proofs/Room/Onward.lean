/-
Errands go on. A move either has no part in step `k` (`after_tends`), or it is a turn of
what is ready for that step, or the call that is held back for it is answered
(`serving_of_serves`). So if all that is on hand for the step is one stack, it goes on to
end with the same frames until these take their own turn, whatever else happens
(`errand_after`).
-/
import Folio.Proofs.Room.Errand

namespace Folio.Room

variable {a b room : Room} {k : Nat} {frames tail : List Frame}

/-! ## Moves -/

/-- Whether a move is a turn of what is ready for step `k`, or answers a call that is
held back for it. -/
def serves (k : Nat) (room : Room) : Move → Bool
  | .turn => room.agenda.ready.head?.any (Task.serves [k])
  | .act _ (.release position _) => room.held[position]?.any (HeldCall.serves k)
  | _ => false

/-- A move of another step, for which nothing of step `k` goes on. -/
theorem after_tends (room : Room) {m : Move} (other : m.step? ≠ some k) (free : room.serves k m = false) :
    Tends k [] room (room.after m) := by
  cases m with
  | fire limit => exact (room.fire_carries limit).toTends
  | moveTo time => exact (Carries.of_eq (a := room) (b := room.after (.moveTo time)) rfl rfl rfl rfl rfl).toTends
  | turn =>
    cases ready : room.agenda.ready with
    | nil =>
      rw [after_turn_nil ready]
      exact (Carries.refl room).toTends
    | cons t rest =>
      have free : t.serves [k] = false := by simpa [serves, ready] using free
      have popped := popped_carries ready free
      rw [after_turn ready]
      cases t with
      | woken w pinged => exact ((wake_carries _ w pinged).after popped).toTends
      | resume frames outcome =>
        cases frames with
        | nil => exact popped.toTends
        | cons frame frames => exact (resume_tends _ free outcome).after popped.toTends
  | act j a =>
    have other : j ≠ k := fun same => other (by rw [Move.step?, same])
    by_cases release : ∃ position failure, a = .release position failure
    · obtain ⟨position, failure, rfl⟩ := release
      cases held : room.held[position]? with
      | none =>
        have nothing : room.after (.act j (.release position failure)) = room := by simp [after, act, release, held]
        rw [nothing]
        exact (Carries.refl room).toTends
      | some h =>
        have free : h.serves k = false := by simpa [serves, held] using free
        obtain ⟨b, released, carries⟩ := release_carries k held failure
        have aside : serve [k] h.frames = false := (Bool.or_eq_false_iff.1 free).1
        rw [after_release released]
        exact ((carries.none aside).after (erased_carries held free)).toTends
    · exact (room.act_carries other fun position failure eq => release ⟨position, failure, eq⟩).toTends

/-- A failed press, and a user who could not be told so, are reported by the turn that a
guard or a notice takes with an error, and by nothing else. -/
theorem reports_after (room : Room) (m : Move) : (room.after m).reports = room.reports ∨
    ∃ frame below fault rest, m = .turn ∧ room.agenda.ready = .resume (frame :: below) (.error fault) :: rest ∧
      ∃ press, frame = .guard press ∨ frame = .notice press := by
  cases m with
  | fire limit => exact .inl (room.fire_carries (k := 0) limit).reports
  | moveTo time => exact .inl rfl
  | act j a =>
    by_cases release : ∃ position failure, a = .release position failure
    · obtain ⟨position, failure, rfl⟩ := release
      cases held : room.held[position]? with
      | none =>
        have nothing : room.after (.act j (.release position failure)) = room := by simp [after, act, release, held]
        exact .inl (by rw [nothing])
      | some h =>
        obtain ⟨b, released, carries⟩ := release_carries 0 held failure
        exact .inl (after_release released ▸ carries.reports)
    · have other : j ≠ j + 1 := Nat.ne_of_lt (Nat.lt_succ_self j)
      exact .inl (room.act_carries other fun position failure eq => release ⟨position, failure, eq⟩).reports
  | turn =>
    cases ready : room.agenda.ready with
    | nil =>
      rw [after_turn_nil ready]
      exact .inl rfl
    | cons t rest =>
      rw [after_turn ready]
      cases t with
      | woken w pinged => exact .inl (wake_carries (k := 0) (room.popped rest) w pinged).reports
      | resume frames outcome =>
        cases frames with
        | nil => exact .inl rfl
        | cons frame frames =>
          cases frame with
          | caller => exact .inl rfl
          | guard press | notice press =>
            cases outcome with
            | ok a => exact .inl (finish_carries (k := 0) (room.popped rest) frames _).reports
            | error fault => exact .inr ⟨_, frames, fault, rest, rfl, rfl, press, by simp⟩
          | yield | pass | fail | fetch | deliver | expire =>
            exact .inl (resume_carries (k := 0) (room.popped rest) rfl frames outcome).reports

/-! ## Errands -/

/-- Whether a move is the turn of a frame that itself works for step `k`. -/
def isTurnOf (k : Nat) (room : Room) : Move → Bool
  | .turn =>
    match room.agenda.ready with
    | .resume (frame :: _) _ :: _ => concerns [k] frame.step?
    | _ => false
  | _ => false

/-- Such a turn is one of what is ready for the step. -/
theorem isTurnOf_of_serves {m : Move} (free : room.serves k m = false) : room.isTurnOf k m = false := by
  cases m with
  | act | fire | moveTo => rfl
  | turn =>
    rw [isTurnOf]
    split
    next frame frames outcome rest ready =>
      have free : serve [k] (frame :: frames) = false := by simpa [serves, ready, Task.serves] using free
      exact (Bool.or_eq_false_iff.1 free).1
    · rfl

theorem hand_finish (idle : room.hand k = .none) (own : serve [k] frames = true) (outcome : Outcome) :
    (room.finish frames outcome).hand k = ⟨[], [.resume frames outcome]⟩ := by
  have held : room.held.filter (HeldCall.serves k) = [] := congrArg Hand.held idle
  have ready : room.agenda.ready.filter (Task.serves [k]) = [] := congrArg Hand.ready idle
  have some : frames.isEmpty = false := by
    cases frames with
    | nil => cases own
    | cons f frames => rfl
  simp [finish, some, hand, Agenda.enqueue, held, ready, Task.serves, own]

theorem Carries.takes (h : Carries k frames a b) (own : serve [k] frames = true) (none : a.hand k = Hand.none) :
    Hand.none.Takes k frames (b.hand k) := by
  have hand := h.hand
  rwa [if_pos own, none] at hand

/-- What comes of an errand in a move: it goes on to end with the same frames, and if it
takes a turn there is more above them, or these take their turn, and nothing else is on
hand. -/
inductive Onward (k : Nat) (tail : List Frame) (room : Room) (m : Move) : Prop where
  | on (hand : Hand.none.Takes k tail ((room.after m).hand k))
    (known : (room.interactions.get? k).isSome = true → ((room.after m).interactions.get? k).isSome = true)
    (aside : room.isTurnOf k m = false) (settled : (room.after m).settledOf k = room.settledOf k)
    (above : m = .turn → ∀ frames outcome rest, room.agenda.ready = .resume frames outcome :: rest →
      serve [k] frames = true → tail.length < frames.length)
  | turn {outcome : Outcome} {rest : List Task} (turn : m = .turn) (ready : room.agenda.ready = .resume tail outcome :: rest)
    (hand : (room.popped rest).hand k = Hand.none)

/-- How something that is on hand for step `k` can go on in a move. -/
inductive Serving (k : Nat) (room : Room) (m : Move) : Prop where
  | turn {t : Task} {rest : List Task} (turn : m = .turn) (ready : room.agenda.ready = t :: rest)
    (its : t.serves [k] = true)
  | release {j position : Nat} {failure : Option String} {h : HeldCall} (release : m = .act j (.release position failure))
    (found : room.held[position]? = some h) (its : h.serves k = true)

theorem serving_of_serves {m : Move} (serves : room.serves k m = true) : Serving k room m := by
  cases m with
  | fire | moveTo => cases serves
  | turn =>
    obtain ⟨t, head, its⟩ := (Option.any_eq_true _ _).1 serves
    obtain ⟨rest, ready⟩ := List.head?_eq_some_iff.1 head
    exact .turn rfl ready its
  | act j a =>
    cases a with
    | release position failure =>
      obtain ⟨h, found, its⟩ := (Option.any_eq_true _ _).1 serves
      exact .release rfl found its
    | _ => cases serves

theorem ready_ne_nil {t : Task} {rest : List Task} (ready : room.agenda.ready = t :: rest) (its : t.serves [k] = true) :
    (room.hand k).ready ≠ [] := fun none => List.filter_eq_nil_iff.1 none t (by simp [ready]) its

theorem held_ne_nil {h : HeldCall} {position : Nat} (found : room.held[position]? = some h) (its : h.serves k = true) :
    (room.hand k).held ≠ [] := fun none => List.filter_eq_nil_iff.1 none h (List.mem_of_getElem? found) its

theorem serves_of_hand_none (none : room.hand k = .none) (m : Move) : room.serves k m = false := by
  refine Bool.eq_false_iff.2 fun serves => ?_
  cases serving_of_serves serves with
  | turn _ ready its => exact ready_ne_nil ready its (congrArg Hand.ready none)
  | release _ found its => exact held_ne_nil found its (congrArg Hand.held none)

/-- What is ready for a step, and all that is on hand for it, goes on by its turn only, and
that leaves nothing on hand. -/
theorem turn_of_serves {t : Task} {m : Move} (all : room.hand k = ⟨[], [t]⟩) (serves : room.serves k m = true) :
    ∃ rest, m = .turn ∧ room.agenda.ready = t :: rest ∧ (room.popped rest).hand k = Hand.none := by
  cases serving_of_serves serves with
  | release _ found its => exact absurd (congrArg Hand.held all) (held_ne_nil found its)
  | @turn t' rest turn ready its =>
    have first : (room.hand k).ready = t' :: rest.filter (Task.serves [k]) := by simp [hand, ready, its]
    have held : (room.hand k).held = [] := by rw [all]
    rw [all] at first
    obtain ⟨rfl, others⟩ := List.cons.inj first
    refine ⟨rest, turn, ready, ?_⟩
    rw [Hand.none, ← held, others]
    rfl

/-- What is held back for a step, and all that is on hand for it, goes on by its answer only,
and that leaves nothing on hand. -/
theorem release_of_serves {h : HeldCall} {m : Move} (all : room.hand k = ⟨[h], []⟩) (serves : room.serves k m = true) :
    ∃ j position failure, m = .act j (.release position failure) ∧ room.held[position]? = some h ∧
      ({ room with held := room.held.eraseIdx position } : Room).hand k = Hand.none := by
  cases serving_of_serves serves with
  | turn _ ready its => exact absurd (congrArg Hand.ready all) (ready_ne_nil ready its)
  | @release j position failure h' release found its =>
    obtain ⟨before, rest, held, erased⟩ := held_eraseIdx found
    have first : (room.hand k).held = before.filter (HeldCall.serves k) ++ h' :: rest.filter (HeldCall.serves k) := by
      simp [hand, held, its]
    have ready : (room.hand k).ready = [] := by rw [all]
    rw [all] at first
    obtain ⟨none, one⟩ := (List.append_eq_singleton_iff.1 first.symm).resolve_right (by simp)
    obtain ⟨rfl, none'⟩ := List.cons.inj one
    have others : (before ++ rest).filter (HeldCall.serves k) = [] := by
      rw [List.filter_append, none, none']
      rfl
    refine ⟨j, position, failure, release, found, ?_⟩
    rw [Room.hand, erased, others, Hand.none, ← ready]
    rfl

section

variable {pre : List Frame} (own : serve [k] tail = true) (aside : pre.all Frame.isAside = true)

include own aside

/-- A turn of the errand. -/
theorem onward_turn {outcome : Outcome} {rest : List Task} (ready : room.agenda.ready = .resume (pre ++ tail) outcome :: rest)
    (alone : (room.popped rest).hand k = Hand.none) : Onward k tail room .turn := by
  cases pre with
  | nil => exact .turn rfl ready alone
  | cons frame pre =>
    rw [List.all_cons, Bool.and_eq_true] at aside
    have carries : Carries k tail (room.popped rest) ((room.popped rest).resume frame (pre ++ tail) outcome) :=
      (resume_carries _ aside.1 (pre ++ tail) outcome).drop pre aside.2
    have turned : room.after .turn = (room.popped rest).resume frame (pre ++ tail) outcome := after_turn ready
    have its : room.isTurnOf k .turn = concerns [k] frame.step? := by
      rw [isTurnOf, ready]
      rfl
    rw [← turned] at carries
    refine .on (carries.takes own alone) carries.known ?_ carries.settled fun _ frames outcome rest first _ => ?_
    · rw [its, Frame.step?_of_isAside aside.1, concerns_none]
    · obtain ⟨rfl, -⟩ := Task.resume.inj (List.cons.inj (ready.symm.trans first)).1
      simp only [List.length_append, List.length_cons]
      omega

/-- A call that is held back for the errand is answered. -/
theorem onward_release {position : Nat} {c : Call} (found : room.held[position]? = some ⟨c, pre ++ tail⟩)
    (alone : ({ room with held := room.held.eraseIdx position } : Room).hand k = Hand.none) (j : Nat)
    (failure : Option String) : Onward k tail room (.act j (.release position failure)) := by
  obtain ⟨b, released, carries⟩ := release_carries k found failure
  have carries := carries.drop pre aside
  rw [← after_release (j := j) released] at carries
  exact .on (carries.takes own alone) carries.known rfl carries.settled Move.noConfusion

end

/-- An errand goes on until its last frames take their turn, whatever else happens. -/
theorem errand_after {m : Move} (own : serve [k] tail = true) (on : Hand.none.Takes k tail (room.hand k))
    (other : m.step? ≠ some k) : Onward k tail room m := by
  cases serves : room.serves k m with
  | false =>
    have tends := room.after_tends other serves
    have above : m = .turn → ∀ frames outcome rest, room.agenda.ready = .resume frames outcome :: rest →
        serve [k] frames = true → tail.length < frames.length := by
      rintro rfl frames outcome rest ready its
      rw [Room.serves, ready] at serves
      exact absurd (its.symm.trans serves) Bool.noConfusion
    exact .on (tends.hand_eq ▸ on) tends.known (isTurnOf_of_serves serves) tends.settled above
  | true =>
    obtain ⟨pre, aside, ⟨c, all⟩ | ⟨outcome, all⟩⟩ := on.of_none
    · obtain ⟨j, position, failure, rfl, found, alone⟩ := release_of_serves all serves
      exact onward_release own aside found alone j failure
    · obtain ⟨rest, rfl, ready, alone⟩ := turn_of_serves all serves
      exact onward_turn own aside ready alone

end Folio.Room
