/-
What those who wait for a signal can rely on, in every run: a wait ends once, with what
comes first of the flag being raised and its timer going off, and the timers that are set
are those of the waits that have not ended.

What a move does is said once (`Effect`). What is asleep at any time is told without the
history (`Manned`): each sleeper has one timer, and each wait that was called is asleep or
has ended. How a wait ends needs the moves since it was called, and is read off them by
following it from there (`Asleep.course`).

A wait has ended as soon as that is decided, though its caller has a turn of its own to
go on in. So `ended` counts those whose caller has not gone on yet as well.
-/
import Folio.Proofs.Agenda
import Folio.Proofs.Run
import Folio.Signal.Run
import Mathlib.Data.List.Induction

namespace Folio.SignalRun

open Scripted (Move after afterAll)

variable {run : SignalRun} {m : Move Act} {moves before later : List (Move Act)} {called : List Nat} {k : Nat}
  {ms due : Number}

/-! ## What is said of a run -/

/-- The waits that have ended, in that order, and whether they saw the flag. -/
def ended (run : SignalRun) : List (Nat × Bool) := run.settled ++ run.agenda.ready

/-- The wait that a move calls. -/
def called? : Move Act → Option Nat
  | .act k (.wait _) => some k
  | _ => none

/-- What a move makes of the flag, if it does not leave it as it is. -/
def flag? : Move Act → Option Bool
  | .act _ .set => some true
  | .act _ .clear => some false
  | _ => none

/-- Whether the flag is raised after moves: the last that changed it tells. -/
def isRaised (moves : List (Move Act)) : Bool := (moves.filterMap flag?).getLastD false

/-- The wait whose timer goes off in a move. -/
def lapsed? (run : SignalRun) : Move Act → Option Nat
  | .fire limit => (run.agenda.timers.head?.filter fun t => t.due.le limit).map Timer.key
  | _ => none

/-- In a run of these moves the timer of wait `k` goes off. -/
def Lapses (k : Nat) (run : SignalRun) : List (Move Act) → Prop
  | [] => False
  | m :: moves => run.lapsed? m = some k ∨ Lapses k (after run m) moves

instance decidableLapses (k : Nat) : (run : SignalRun) → (moves : List (Move Act)) → Decidable (Lapses k run moves)
  | _, [] => .isFalse id
  | run, m :: moves =>
    have := decidableLapses k (after run m) moves
    inferInstanceAs (Decidable (_ ∨ _))

/-- The flag is raised, and the timer of wait `k` has not gone off before. -/
def WokenFirst (k : Nat) (run : SignalRun) (moves : List (Move Act)) : Prop :=
  ∃ before j rest, moves = before ++ .act j .set :: rest ∧ ¬Lapses k run before

/-- The timer of wait `k` goes off, and the flag has not been raised before. -/
def LapsesFirst (k : Nat) (run : SignalRun) (moves : List (Move Act)) : Prop :=
  ∃ before m rest, moves = before ++ m :: rest ∧ (afterAll run before).lapsed? m = some k ∧ ∀ j, .act j .set ∉ before

/-! ## What a move does -/

/-- What a move does to the flag, the sleepers, the timers and the waits that have ended. -/
inductive Effect (run run' : SignalRun) : Move Act → Prop where
  /-- The flag is raised, and all sleepers wake. -/
  | set (j : Nat) (signal : run'.signal = ⟨true, []⟩)
      (timers : run'.agenda.timers = run.agenda.timers.filter fun t => t.key ∉ run.signal.sleepers)
      (ended : run'.ended = run.ended ++ run.signal.sleepers.map (·, true)) : Effect run run' (.act j .set)
  | clear (j : Nat) (signal : run'.signal = ⟨false, run.signal.sleepers⟩) (timers : run'.agenda.timers = run.agenda.timers)
      (ended : run'.ended = run.ended) : Effect run run' (.act j .clear)
  /-- A wait ends as it is called, with the flag raised. -/
  | told (k : Nat) (ms : Number) (raised : run.signal.raised = true) (signal : run'.signal = run.signal)
      (timers : run'.agenda.timers = run.agenda.timers) (ended : run'.ended = run.ended ++ [(k, true)]) :
      Effect run run' (.act k (.wait ms))
  /-- A wait is called with the flag lowered, and a timer is set for it. -/
  | slept (k : Nat) (ms : Number) (lowered : run.signal.raised = false)
      (signal : run'.signal = ⟨false, run.signal.sleepers ++ [k]⟩)
      (timers : run'.agenda.timers = Agenda.insert ⟨run.agenda.now + (Agenda.delay ms : Number), k⟩ run.agenda.timers)
      (ended : run'.ended = run.ended) : Effect run run' (.act k (.wait ms))
  /-- The first timer goes off. -/
  | lapsed (limit : Number) {t : Timer Nat} (lapsed : run.lapsed? (.fire limit) = some t.key)
      (first : run.agenda.timers = t :: run'.agenda.timers)
      (signal : run'.signal = ⟨run.signal.raised, run.signal.sleepers.filter (· ≠ t.key)⟩)
      (ended : run'.ended = run.ended ++ [(t.key, false)]) : Effect run run' (.fire limit)
  | quiet {m : Move Act} (calls : called? m = none) (flag : flag? m = none) (lapsed : run.lapsed? m = none)
      (signal : run'.signal = run.signal) (timers : run'.agenda.timers = run.agenda.timers)
      (ended : run'.ended = run.ended) : Effect run run' m

theorem after_turn {r : Nat × Bool} {rest : List (Nat × Bool)} (ready : run.agenda.ready = r :: rest) :
    after run .turn = { run with agenda := { run.agenda with ready := rest }, settled := run.settled ++ [r] } := by
  simp only [after, Timed.turn, Timed.agenda, ready]
  rfl

/-- There is no other way in which a move goes. -/
theorem effect_after (run : SignalRun) (m : Move Act) : Effect run (after run m) m := by
  cases m with
  | act k a =>
    cases a with
    | set =>
      have sets : after run (.act k .set) = { run with
          signal := (run.signal.set Prod.mk run.agenda).1, agenda := (run.signal.set Prod.mk run.agenda).2 } := rfl
      rw [Signal.set_eq] at sets
      rw [sets]
      exact .set k rfl rfl (List.append_assoc ..).symm
    | clear => exact .clear k rfl rfl rfl
    | wait ms =>
      have waits : after run (.act k (.wait ms)) = { run with
          signal := (run.signal.wait Prod.mk k ms run.agenda).1, agenda := (run.signal.wait Prod.mk k ms run.agenda).2 } := rfl
      rw [Signal.wait] at waits
      rw [waits]
      cases flag : run.signal.raised with
      | true => exact .told k ms flag rfl rfl (List.append_assoc ..).symm
      | false => exact .slept k ms flag rfl rfl rfl
  | turn =>
    cases ready : run.agenda.ready with
    | nil =>
      have stays : after run .turn = run := by
        simp only [after, Timed.turn, Timed.agenda, ready]
      rw [stays]
      exact .quiet rfl rfl rfl rfl rfl rfl
    | cons r rest =>
      rw [after_turn ready]
      refine .quiet rfl rfl rfl rfl rfl ?_
      rw [ended, ended, ready]
      exact List.append_assoc ..
  | fire limit =>
    cases timers : run.agenda.timers with
    | nil =>
      have stays : after run (.fire limit) = run := by
        simp only [after, Timed.fire?, Timed.agenda, timers, Option.getD_none]
      rw [stays]
      exact .quiet rfl rfl (by simp only [lapsed?, timers]; rfl) rfl rfl rfl
    | cons t rest =>
      cases up : t.due.le limit with
      | false =>
        have stays : after run (.fire limit) = run := by
          simp only [after, Timed.fire?, Timed.agenda, timers, up]
          rfl
        rw [stays]
        exact .quiet rfl rfl (by simp [lapsed?, timers, up]) rfl rfl rfl
      | true =>
        have fires : after run (.fire limit) =
            lapse t.key { run with agenda := { run.agenda with timers := rest }.moveTo t.due } := by
          simp only [after, Timed.fire?, Timed.agenda, timers, up]
          rfl
        rw [fires]
        exact .lapsed limit (by simp [lapsed?, timers, up]) timers rfl (List.append_assoc ..).symm
  | moveTo time => exact .quiet rfl rfl rfl rfl rfl rfl

/-- The flag is as the moves say. -/
theorem raised_afterAll (moves : List (Move Act)) : (afterAll initial moves).signal.raised = isRaised moves := by
  induction moves using List.reverseRecOn with
  | nil => rfl
  | append_singleton moves m ih =>
    have last : isRaised (moves ++ [m]) = (flag? m).getD (isRaised moves) := by
      rw [isRaised, isRaised, List.filterMap_append]
      cases flag : flag? m <;> simp [flag]
    rw [last, ← ih, Scripted.afterAll_append, Scripted.afterAll_cons, Scripted.afterAll_nil]
    generalize afterAll initial moves = run
    cases effect_after run m with
    | set j signal => rw [signal]; rfl
    | clear j signal => rw [signal]; rfl
    | told k ms raised signal => rw [signal]; rfl
    | slept k ms lowered signal => rw [signal]; exact lowered.symm
    | lapsed limit _ _ signal => rw [signal]; rfl
    | quiet _ flag _ signal => rw [signal, flag]; rfl

theorem ended_after (run : SignalRun) (m : Move Act) : run.ended <+: (after run m).ended := by
  cases effect_after run m with
  | set _ _ _ ended | told _ _ _ _ _ ended | lapsed _ _ _ _ ended => exact ⟨_, ended.symm⟩
  | clear _ _ _ ended | slept _ _ _ _ _ ended | quiet _ _ _ _ _ ended => rw [ended]

/-- A wait that has ended stays so. -/
theorem ended_afterAll (run : SignalRun) (moves : List (Move Act)) : run.ended <+: (afterAll run moves).ended := by
  induction moves generalizing run with
  | nil => exact List.prefix_refl _
  | cons m moves ih => exact (ended_after run m).trans (ih (after run m))

/-! ## Who is asleep -/

/-- Each sleeper has one timer, and there is none while the flag is raised. Of the waits
that were `called`, which have numbers of their own, each is asleep or has ended. -/
structure Manned (called : List Nat) (run : SignalRun) : Prop where
  distinct : called.Nodup
  timers : (run.agenda.timers.map Timer.key).Perm run.signal.sleepers
  once : (run.signal.sleepers ++ run.ended.map Prod.fst).Perm called
  lowered : run.signal.raised = true → run.signal.sleepers = []

namespace Manned

variable (h : Manned called run)
include h

theorem nodup_sleepers : run.signal.sleepers.Nodup := (h.once.nodup_iff.2 h.distinct).of_append_left

theorem nodup_ended : (run.ended.map Prod.fst).Nodup := (h.once.nodup_iff.2 h.distinct).of_append_right

theorem nodup_timers : (run.agenda.timers.map Timer.key).Nodup := h.timers.nodup_iff.2 h.nodup_sleepers

/-- A sleeper's wait has not ended. -/
theorem not_ended (sleeper : k ∈ run.signal.sleepers) (woken : Bool) : (k, woken) ∉ run.ended := fun done =>
  List.disjoint_of_nodup_append (h.once.nodup_iff.2 h.distinct) sleeper (List.mem_map_of_mem done)

/-- A wait ends in one way. -/
theorem ended_unique {woken woken' : Bool} (done : (k, woken) ∈ run.ended) (done' : (k, woken') ∈ run.ended) :
    woken = woken' := by
  have one := List.inj_on_of_nodup_map h.nodup_ended done done' rfl
  exact (Prod.mk.inj one).2

/-- Without the one whose timer goes off first, the other sleepers have the other timers. -/
theorem others {t : Timer Nat} {rest : List (Timer Nat)} (first : run.agenda.timers = t :: rest) :
    (rest.map Timer.key).Perm (run.signal.sleepers.filter (· ≠ t.key)) := by
  have timers := h.timers
  have nodup := h.nodup_timers
  rw [first, List.map_cons] at timers nodup
  have kept : (rest.map Timer.key).filter (· ≠ t.key) = rest.map Timer.key :=
    List.filter_eq_self.2 fun k hk => decide_eq_true fun e => (List.nodup_cons.1 nodup).1 (e ▸ hk)
  have spared := timers.filter (· ≠ t.key)
  rwa [List.filter_cons_of_neg (by simp), kept] at spared

/-- A wait that is called is asleep or ends at once; one that is asleep stays so or ends. -/
theorem after (m : Move Act) (distinct : (called ++ (called? m).toList).Nodup) :
    Manned (called ++ (called? m).toList) (after run m) := by
  obtain ⟨-, timers, once, lowered⟩ := id h
  have same : called ++ [] = called := List.append_nil called
  cases effect_after run m with
  | set j signal timers' ended =>
    have none : (Scripted.after run (.act j .set)).agenda.timers = [] := by
      rw [timers', List.filter_eq_nil_iff]
      intro t ht
      simpa using timers.mem_iff.1 (List.mem_map_of_mem ht)
    have woken : (run.signal.sleepers.map (·, true)).map Prod.fst = run.signal.sleepers := by
      simp [Function.comp_def]
    refine ⟨distinct, by rw [none, signal]; exact .nil, ?_, fun _ => by rw [signal]⟩
    rw [signal, ended, List.map_append, woken, List.nil_append]
    exact List.perm_append_comm.trans (same.symm ▸ once)
  | clear j signal timers' ended =>
    refine ⟨distinct, by rw [timers', signal]; exact timers, ?_, fun up => by rw [signal] at up; cases up⟩
    rw [signal, ended]
    exact same.symm ▸ once
  | told k ms raised signal timers' ended =>
    refine ⟨distinct, by rw [timers', signal]; exact timers, ?_, fun _ => by rw [signal, lowered raised]⟩
    rw [signal, ended, List.map_append, ← List.append_assoc]
    exact once.append_right [k]
  | slept k ms low signal timers' ended =>
    refine ⟨distinct, ?_, ?_, fun up => by rw [signal] at up; cases up⟩
    · rw [timers', signal]
      have one := (Agenda.insert_perm ⟨run.agenda.now + (Agenda.delay ms : Number), k⟩ run.agenda.timers).map Timer.key
      exact one.trans ((timers.cons k).trans (List.perm_append_singleton k _).symm)
    · rw [signal, ended, List.append_assoc]
      refine (List.perm_append_comm.append_left run.signal.sleepers).trans ?_
      rw [← List.append_assoc]
      exact once.append_right [k]
  | @lapsed limit t _ first signal ended =>
    have others := h.others first
    rw [first, List.map_cons] at timers
    refine ⟨distinct, by rw [signal]; exact others, ?_, fun up => ?_⟩
    · rw [signal, ended, List.map_append, ← List.append_assoc]
      refine (List.perm_append_singleton t.key _).trans ?_
      rw [← List.cons_append]
      exact (((others.symm.cons t.key).trans timers).append_right _).trans (same.symm ▸ once)
    · rw [signal] at up ⊢
      rw [lowered up]
      rfl
  | quiet calls _ _ signal timers' ended =>
    refine ⟨distinct, by rw [timers', signal]; exact timers, ?_, by rw [signal]; exact lowered⟩
    rw [calls, signal, ended]
    exact same.symm ▸ once

omit h in
/-- So it is in every run whose waits have numbers of their own. -/
theorem afterAll (distinct : (moves.filterMap called?).Nodup) :
    Manned (moves.filterMap called?) (afterAll initial moves) := by
  induction moves using List.reverseRecOn with
  | nil => exact ⟨.nil, .nil, .nil, fun _ => rfl⟩
  | append_singleton moves m ih =>
    have last : (moves ++ [m]).filterMap called? = moves.filterMap called? ++ (called? m).toList := by
      rw [List.filterMap_append]
      cases calls : called? m <;> simp [calls]
    rw [last] at distinct ⊢
    rw [Scripted.afterAll_append, Scripted.afterAll_cons, Scripted.afterAll_nil]
    exact (ih distinct.of_append_left).after m distinct

end Manned

/-! ## How a wait ends -/

/-- Wait `k` has not ended, and its timer goes off at `due`. -/
structure Asleep (k : Nat) (due : Number) (run : SignalRun) : Prop where
  sleeper : k ∈ run.signal.sleepers
  timer : ⟨due, k⟩ ∈ run.agenda.timers

/-- A wait that is called with the flag lowered is asleep, and its timer is set. -/
theorem asleep_of_lowered (lowered : run.signal.raised = false) (k : Nat) (ms : Number) :
    Asleep k (run.agenda.now + (Agenda.delay ms : Number)) (after run (.act k (.wait ms))) := by
  cases effect_after run (.act k (.wait ms)) with
  | told _ _ raised => rw [lowered] at raised; cases raised
  | slept _ _ _ signal timers =>
    refine ⟨by rw [signal]; simp, ?_⟩
    rw [timers]
    exact Agenda.mem_insert.2 (.inl rfl)
  | quiet calls => cases calls

/-- One that is called with the flag raised ends at once. -/
theorem ended_of_raised (raised : run.signal.raised = true) (k : Nat) (ms : Number) :
    (k, true) ∈ (after run (.act k (.wait ms))).ended := by
  cases effect_after run (.act k (.wait ms)) with
  | told _ _ _ _ _ ended => rw [ended]; simp
  | slept _ _ lowered => rw [lowered] at raised; cases raised
  | quiet calls => cases calls

/-- A timer that goes off ends its wait. -/
theorem ended_of_lapsed (lapsed : run.lapsed? m = some k) : (k, false) ∈ (after run m).ended := by
  cases effect_after run m with
  | set | clear | told | slept => cases lapsed
  | lapsed limit own _ _ ended =>
    obtain rfl := Option.some.inj (own.symm.trans lapsed)
    rw [ended]
    simp
  | quiet _ _ none => rw [none] at lapsed; cases lapsed

namespace Asleep

theorem woken (h : Asleep k due run) (j : Nat) : (k, true) ∈ (after run (.act j .set)).ended := by
  cases effect_after run (.act j .set) with
  | set _ _ _ ended =>
    rw [ended]
    exact List.mem_append_right _ (List.mem_map_of_mem h.sleeper)
  | quiet _ flag => cases flag

/-- Only to raise the flag wakes a sleeper, as long as its timer does not go off. -/
theorem after (h : Asleep k due run) (silent : ∀ j, m ≠ .act j .set) (spared : run.lapsed? m ≠ some k) :
    Asleep k due (after run m) := by
  obtain ⟨sleeper, timer⟩ := h
  cases effect_after run m with
  | set j => exact absurd rfl (silent j)
  | clear _ signal timers | told _ _ _ signal timers | quiet _ _ _ signal timers =>
    exact ⟨by rw [signal]; exact sleeper, by rw [timers]; exact timer⟩
  | slept _ _ _ signal timers =>
    refine ⟨by rw [signal]; exact List.mem_append_left _ sleeper, ?_⟩
    rw [timers]
    exact Agenda.mem_insert.2 (.inr timer)
  | @lapsed limit t own first signal =>
    have other : k ≠ t.key := fun e => spared (e ▸ own)
    refine ⟨by rw [signal]; simpa [sleeper] using other, ?_⟩
    rw [first] at timer
    rcases List.mem_cons.1 timer with rfl | later
    · exact absurd rfl other
    · exact later

/-- **A sleeper stays asleep until the flag is raised or its timer goes off**, and which of
these comes first is how its wait ends. -/
theorem course (h : Asleep k due run) (moves : List (Move Act)) :
    Asleep k due (Scripted.afterAll run moves) ∨
      WokenFirst k run moves ∧ (k, true) ∈ (Scripted.afterAll run moves).ended ∨
      LapsesFirst k run moves ∧ (k, false) ∈ (Scripted.afterAll run moves).ended := by
  induction moves generalizing run with
  | nil => exact .inl h
  | cons m moves ih =>
    rw [Scripted.afterAll_cons]
    by_cases raises : ∃ j, m = .act j .set
    · obtain ⟨j, rfl⟩ := raises
      exact .inr (.inl ⟨⟨[], j, moves, rfl, id⟩, (ended_afterAll _ moves).subset (h.woken j)⟩)
    by_cases lapses : run.lapsed? m = some k
    · refine .inr (.inr ⟨⟨[], m, moves, rfl, lapses, fun _ => List.not_mem_nil⟩, ?_⟩)
      exact (ended_afterAll _ moves).subset (ended_of_lapsed lapses)
    have silent : ∀ j, m ≠ .act j .set := fun j e => raises ⟨j, e⟩
    rcases ih (h.after silent lapses) with asleep | ⟨⟨before, j, rest, split, first⟩, done⟩ |
      ⟨⟨before, m', rest, split, own, first⟩, done⟩
    · exact .inl asleep
    · exact .inr (.inl ⟨⟨m :: before, j, rest, by rw [split]; rfl, fun off => off.elim lapses first⟩, done⟩)
    · refine .inr (.inr ⟨⟨m :: before, m', rest, by rw [split]; rfl, own, fun j => ?_⟩, done⟩)
      rw [List.mem_cons, not_or]
      exact ⟨(silent j).symm, first j⟩

end Asleep

theorem lapses_of_lapsed {rest : List (Move Act)} (lapsed : (afterAll run before).lapsed? m = some k) :
    Lapses k run (before ++ m :: rest) := by
  induction before generalizing run with
  | nil => exact .inl lapsed
  | cons m' before ih => exact .inr (ih lapsed)

/-- Who sleeps when the flag is raised sees it. -/
theorem WokenFirst.ended (h : WokenFirst k run moves) (asleep : Asleep k due run) : (k, true) ∈ (afterAll run moves).ended := by
  obtain ⟨before, j, rest, rfl, first⟩ := h
  rw [Scripted.afterAll_append, Scripted.afterAll_cons]
  refine (ended_afterAll _ rest).subset ?_
  rcases asleep.course before with asleep | ⟨-, done⟩ | ⟨⟨before', m, rest', rfl, lapsed, -⟩, -⟩
  · exact asleep.woken j
  · exact (ended_after _ _).subset done
  · exact absurd (lapses_of_lapsed lapsed) first

theorem LapsesFirst.ended (h : LapsesFirst k run moves) : (k, false) ∈ (afterAll run moves).ended := by
  obtain ⟨before, m, rest, rfl, lapsed, -⟩ := h
  rw [Scripted.afterAll_append, Scripted.afterAll_cons]
  exact (ended_afterAll _ rest).subset (ended_of_lapsed lapsed)

theorem asleep_of_call (lowered : isRaised before = false) (k : Nat) (ms : Number) :
    Asleep k ((afterAll initial before).agenda.now + (Agenda.delay ms : Number))
      (afterAll initial (before ++ [.act k (.wait ms)])) := by
  rw [← raised_afterAll] at lowered
  rw [Scripted.afterAll_append]
  exact asleep_of_lowered lowered k ms

section

variable (call : moves = before ++ .act k (.wait ms) :: later)
include call

theorem afterAll_of_call :
    afterAll initial moves = afterAll (afterAll initial (before ++ [.act k (.wait ms)])) later := by
  rw [call, ← Scripted.afterAll_append, List.append_assoc]
  rfl

theorem ended_of_call (raised : isRaised before = true) : (k, true) ∈ (afterAll initial moves).ended := by
  rw [afterAll_of_call call, Scripted.afterAll_append]
  rw [← raised_afterAll] at raised
  exact (ended_afterAll _ later).subset (ended_of_raised raised k ms)

/-- What became of a wait. -/
theorem fate_of_call :
    isRaised before = true ∧ (k, true) ∈ (afterAll initial moves).ended ∨
      Asleep k ((afterAll initial before).agenda.now + (Agenda.delay ms : Number)) (afterAll initial moves) ∨
      WokenFirst k (afterAll initial (before ++ [.act k (.wait ms)])) later ∧ (k, true) ∈ (afterAll initial moves).ended ∨
      LapsesFirst k (afterAll initial (before ++ [.act k (.wait ms)])) later ∧
        (k, false) ∈ (afterAll initial moves).ended := by
  cases flag : isRaised before with
  | true => exact .inl ⟨rfl, ended_of_call call flag⟩
  | false =>
    rw [afterAll_of_call call]
    exact .inr ((asleep_of_call flag k ms).course later)

/-- The timer of a wait that has not ended is set. -/
theorem timer_of_call (waits : ∀ woken, (k, woken) ∉ (afterAll initial moves).ended) :
    ⟨(afterAll initial before).agenda.now + (Agenda.delay ms : Number), k⟩ ∈ (afterAll initial moves).agenda.timers := by
  rcases fate_of_call call with ⟨-, done⟩ | asleep | ⟨-, done⟩ | ⟨-, done⟩
  · exact absurd done (waits true)
  · exact asleep.timer
  · exact absurd done (waits true)
  · exact absurd done (waits false)

variable (manned : Manned called (afterAll initial moves))
include manned

theorem ended_true_iff : (k, true) ∈ (afterAll initial moves).ended ↔
    isRaised before = true ∨ WokenFirst k (afterAll initial (before ++ [.act k (.wait ms)])) later := by
  refine ⟨fun done => ?_, fun seen => ?_⟩
  · rcases fate_of_call call with ⟨raised, -⟩ | asleep | ⟨first, -⟩ | ⟨-, done'⟩
    · exact .inl raised
    · exact absurd done (manned.not_ended asleep.sleeper true)
    · exact .inr first
    · cases manned.ended_unique done done'
  · cases flag : isRaised before with
    | true => exact ended_of_call call flag
    | false =>
      rw [flag] at seen
      rw [afterAll_of_call call]
      exact (seen.resolve_left Bool.false_ne_true).ended (asleep_of_call flag k ms)

theorem ended_false_iff : (k, false) ∈ (afterAll initial moves).ended ↔
    LapsesFirst k (afterAll initial (before ++ [.act k (.wait ms)])) later := by
  refine ⟨fun done => ?_, fun first => ?_⟩
  · rcases fate_of_call call with ⟨-, done'⟩ | asleep | ⟨-, done'⟩ | ⟨first, -⟩
    · cases manned.ended_unique done done'
    · exact absurd done (manned.not_ended asleep.sleeper false)
    · cases manned.ended_unique done done'
    · exact first
  · rw [afterAll_of_call call]
    exact first.ended

end

theorem exists_call (mem : k ∈ moves.filterMap called?) : ∃ before ms later, moves = before ++ .act k (.wait ms) :: later := by
  obtain ⟨m, hm, call⟩ := List.mem_filterMap.1 mem
  obtain ⟨before, later, split⟩ := List.append_of_mem hm
  match m, call with
  | .act _ (.wait ms), rfl => exact ⟨before, ms, later, split⟩

/-- The timers that are set are those of the waits that have not ended. -/
theorem mem_timers_iff (manned : Manned (moves.filterMap called?) (afterAll initial moves)) (t : Timer Nat) :
    t ∈ (afterAll initial moves).agenda.timers ↔
      ∃ before ms later, moves = before ++ .act t.key (.wait ms) :: later ∧
        t.due = (afterAll initial before).agenda.now + (Agenda.delay ms : Number) ∧
        ∀ woken, (t.key, woken) ∉ (afterAll initial moves).ended := by
  constructor
  · intro ht
    have sleeper := manned.timers.mem_iff.1 (List.mem_map_of_mem ht)
    have waits := manned.not_ended sleeper
    obtain ⟨before, ms, later, call⟩ := exists_call (manned.once.mem_iff.1 (List.mem_append_left _ sleeper))
    have own := timer_of_call call waits
    have one := List.inj_on_of_nodup_map manned.nodup_timers ht own rfl
    exact ⟨before, ms, later, call, congrArg Timer.due one, waits⟩
  · rintro ⟨before, ms, later, call, due, waits⟩
    have own := timer_of_call call waits
    rwa [← due] at own

/-! ## Waits settle -/

/-- Who waited is told in turn. -/
theorem settled_turns (n : Nat) (run : SignalRun) (enough : run.agenda.ready.length ≤ n) :
    (Timed.turns n run).settled = run.ended := by
  induction n generalizing run with
  | zero =>
    rw [ended, List.eq_nil_of_length_eq_zero (Nat.le_zero.1 enough), List.append_nil]
    rfl
  | succ n ih =>
    have isQuiet : Timed.isQuiet run = run.agenda.ready.isEmpty := rfl
    cases ready : run.agenda.ready with
    | nil => rw [Timed.turns, isQuiet, ready, List.isEmpty_nil, if_pos rfl, ended, ready, List.append_nil]
    | cons r rest =>
      have turned : Timed.turn run = _ := after_turn ready
      rw [ready] at enough
      rw [Timed.turns, isQuiet, ready, List.isEmpty_cons, if_neg Bool.false_ne_true, turned,
        ih _ (Nat.le_of_succ_le_succ enough), ended, ended, ready]
      exact List.append_assoc ..

/-- What those who wait can rely on in a run that these moves lead to. -/
structure Settles (moves : List (Move Act)) (run : SignalRun) : Prop where
  /-- The flag is raised if the last to change it raised it. -/
  raised : run.signal.raised = isRaised moves
  /-- A wait ends once at most. -/
  once : (run.ended.map Prod.fst).Nodup
  /-- Only what was called ends. -/
  called {k : Nat} {woken : Bool} (done : (k, woken) ∈ run.ended) : ∃ ms, .act k (.wait ms) ∈ moves
  /-- It sees the flag if that was raised when it was called, or is raised before its timer goes off. -/
  woken {before later : List (Move Act)} {k : Nat} {ms : Number} (call : moves = before ++ .act k (.wait ms) :: later) :
    (k, true) ∈ run.ended ↔
      isRaised before = true ∨ WokenFirst k (afterAll initial (before ++ [.act k (.wait ms)])) later
  /-- It does not if its timer goes off first. -/
  lapsed {before later : List (Move Act)} {k : Nat} {ms : Number} (call : moves = before ++ .act k (.wait ms) :: later) :
    (k, false) ∈ run.ended ↔ LapsesFirst k (afterAll initial (before ++ [.act k (.wait ms)])) later
  /-- The timers that are set are those of the waits that have not ended, one for each; they go
  off a delay after the call. -/
  timers : (run.agenda.timers.map Timer.key).Nodup ∧ ∀ t, t ∈ run.agenda.timers ↔
    ∃ before ms later, moves = before ++ .act t.key (.wait ms) :: later ∧
      t.due = (afterAll initial before).agenda.now + (Agenda.delay ms : Number) ∧ ∀ woken, (t.key, woken) ∉ run.ended
  /-- While the flag is raised there are none. -/
  idle : run.signal.raised = true → run.agenda.timers = []
  /-- Those who wait are told how their waits ended, in that order, when they take their turns. -/
  told : run.settled <+: run.ended ∧ (Timed.settle run).settled = run.ended

/-- **A wait settles once, with what comes first**, in every run whose waits have numbers
of their own. -/
theorem waits_settle (distinct : (moves.filterMap called?).Nodup) : Settles moves (afterAll initial moves) := by
  have manned := Manned.afterAll distinct
  exact {
    raised := raised_afterAll moves
    once := manned.nodup_ended
    called := by
      intro k woken done
      have mem := manned.once.mem_iff.1 (List.mem_append_right _ (List.mem_map_of_mem done))
      obtain ⟨before, ms, later, call⟩ := exists_call mem
      exact ⟨ms, by rw [call]; simp⟩
    woken := fun call => ended_true_iff call manned
    lapsed := fun call => ended_false_iff call manned
    timers := ⟨manned.nodup_timers, mem_timers_iff manned⟩
    idle := by
      intro raised
      have none := manned.timers
      rw [manned.lowered raised] at none
      exact List.map_eq_nil_iff.1 none.eq_nil
    told := ⟨List.prefix_append _ _, settled_turns _ _ (Nat.le_refl _)⟩ }

/-- Of two waits one runs out, and the other sees the flag although it is lowered at once. -/
theorem waits_settle_overlapping :
    let moves : List (Move Act) := [.act 0 (.wait 300), .act 1 (.wait 100), .fire 200, .act 2 .set, .act 3 .clear]
    let run := afterAll initial moves
    (moves.filterMap called?).Nodup ∧ (1, false) ∈ run.ended ∧ (0, true) ∈ run.ended ∧
      (Timed.settle run).settled = run.ended := by
  intro moves run
  have distinct : (moves.filterMap called?).Nodup := by decide
  have settles := waits_settle distinct
  have first : moves = [] ++ .act 0 (.wait 300) :: [.act 1 (.wait 100), .fire 200, .act 2 .set, .act 3 .clear] := rfl
  have second : moves = [.act 0 (.wait 300)] ++ .act 1 (.wait 100) :: [.fire 200, .act 2 .set, .act 3 .clear] := rfl
  refine ⟨distinct, (settles.lapsed second).2 ⟨[], _, _, rfl, ?_, fun j => List.not_mem_nil⟩,
    (settles.woken first).2 (.inr ⟨[.act 1 (.wait 100), .fire 200], 2, _, rfl, ?_⟩), settles.told.2⟩
  · decide +kernel
  · decide +kernel

end Folio.SignalRun
