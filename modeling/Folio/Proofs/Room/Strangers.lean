/-
Strangers cannot interfere. A stranger to a paginator is anyone but its author at
that moment, and so is everyone while it is unsent. Take a run in which no call is
held back, and leave out every press of a stranger with the turns that answer it:
the room is then the same at every moment but for what belongs to the presses left
out, and every other move has the same result and the same events
(`strangers_leave_no_trace`).

The proof is by one step of either kind. What a stranger's press leads to is
`Unnoticed`: it changes nothing but what belongs to its own step. Any other move is
`Undisturbed` by that, since it does the same in any setting.
-/
import Folio.Proofs.Room.Change
import Folio.Proofs.Room.Receipt
import Folio.Proofs.Room.Setting
import Mathlib.Data.List.Induction

namespace Folio

/-- How a paginator answers the press of a stranger. -/
def Paginator.rebuff (pg : Paginator) (press : Press) : Call :=
  if pg.config.wrongUserMessage = "" then .acknowledge press.interaction
  else .notify press.interaction pg.config.wrongUserMessage

/-- Whether a call answers a press. -/
def Call.isAnswer : Call → Bool
  | .acknowledge _ | .notify .. | .replace .. => true
  | _ => false

/-- All that the frames do is to answer a press of one of some steps: the last of them
works for that step, and those above it hand outcomes on. -/
inductive Answers (steps : List Nat) : List Frame → Prop where
  | last {f : Frame} (own : concerns steps f.step? = true) : Answers steps [f]
  | pass {frames : List Frame} (h : Answers steps frames) : Answers steps (.pass :: frames)
  | yield {a : Answer} {frames : List Frame} (h : Answers steps frames) : Answers steps (.yield a :: frames)

/-- All that the task does is to answer a press of one of some steps. -/
def Task.Answers (steps : List Nat) : Task → Prop
  | .woken .. => False
  | .resume frames _ => Folio.Answers steps frames

theorem Answers.serve {steps : List Nat} {frames : List Frame} (h : Answers steps frames) : serve steps frames = true := by
  induction h with
  | last own => simpa using own
  | pass _ ih | yield _ ih => simpa using ih

namespace Room

variable {a b c room : Room} {gone : List Nat} {p : Nat} {pg : Paginator} {press : Press} {m : Move} {frames : List Frame}

/-- The step of a move. -/
def Move.step? : Move → Option Nat
  | .act k _ => some k
  | _ => none

/-- Whether a move brings a paginator the press of a stranger. -/
def isStrange (room : Room) (m : Move) : Bool :=
  match room.received? m with
  | some (p, press) => (room.paginator? p).any fun pg => pg.author ≠ some press.user
  | none => false

/-- The steps of a run in which strangers press. -/
def strangers (room : Room) : List Move → List Nat
  | [] => []
  | m :: moves => (if room.isStrange m then m.step?.toList else []) ++ (room.after m).strangers moves

/-- Whether a move is the press of a stranger, or a turn that works for one of the
steps that are gone. -/
def isGone (gone : List Nat) (room : Room) : Move → Bool
  | .turn => room.agenda.ready.head?.any (Task.serves gone)
  | m => room.isStrange m

/-- A run without the presses of strangers, and without the turns that work for the
steps that are gone. -/
def spared (gone : List Nat) (room : Room) : List Move → List Move
  | [] => []
  | m :: moves => (if room.isGone gone m then [] else [m]) ++ (room.after m).spared gone moves

/-- The room without what belongs to the steps that are gone, and with a journal of
its own. All else is the same: the paginators, the router, the clock, the timers and
the watchdogs among it. -/
def without (gone : List Nat) (journal : List Event) (room : Room) : Room :=
  { room with
    journal
    interactions := room.interactions.without gone
    agenda := { room.agenda with ready := room.agenda.ready.filter fun t => !t.serves gone }
    settled := room.settled.filter fun o => o.1 ∉ gone }

/-! ## What strangers lead to -/

/-- From `a` to `b` nothing changed but what belongs to the steps that are gone, and
what was made ready answers presses of them. -/
structure Unnoticed (gone : List Nat) (a b : Room) : Prop where
  without : ∀ journal, b.without gone journal = a.without gone journal
  ready : ∀ t ∈ b.agenda.ready, t ∈ a.agenda.ready ∨ t.Answers gone

namespace Unnoticed

theorem refl (room : Room) : Unnoticed gone room room := ⟨fun _ => rfl, fun _ => .inl⟩

theorem trans (h : Unnoticed gone a b) (h' : Unnoticed gone b c) : Unnoticed gone a c where
  without journal := (h'.without journal).trans (h.without journal)
  ready t ht := (h'.ready t ht).elim (h.ready t) .inr

end Unnoticed

theorem record_unnoticed (room : Room) (e : Event) : Unnoticed gone room (room.record e) := ⟨fun _ => rfl, fun _ => .inl⟩

theorem finish_unnoticed (room : Room) (answers : Answers gone frames) (outcome : Outcome) :
    Unnoticed gone room (room.finish frames outcome) := by
  unfold finish
  split
  · exact .refl room
  · have serves : (Task.resume frames outcome).serves gone = true := answers.serve
    refine ⟨fun journal => ?_, fun t ht => ?_⟩
    · simp [Room.without, Agenda.enqueue, serves]
    · rcases List.mem_append.1 ht with ht | ht
      · exact .inl ht
      · rw [List.mem_singleton.1 ht]
        exact .inr answers

theorem modifyInteraction_unnoticed (room : Room) {i : Option Nat} (own : ∀ k, i = some k → k ∈ gone)
    (f : Interaction → Interaction) : Unnoticed gone room (room.modifyInteraction i f) := by
  cases i with
  | none => exact .refl room
  | some k =>
    simp only [modifyInteraction]
    split
    · refine ⟨fun journal => ?_, fun _ => .inl⟩
      simp only [Room.without, Table.without_put _ _ (own k rfl)]
    · exact .refl room

/-- A call that answers a press of a step that is gone goes unnoticed if it is not held back. -/
theorem callWith_unnoticed (room : Room) {c : Call} {later : List Frame} (isAnswer : c.isAnswer = true)
    (own : ∀ k, c.interaction? = some k → k ∈ gone) (answers : Answers gone frames)
    (unheld : (room.callWith c frames later).held = []) : Unnoticed gone room (room.callWith c frames later) := by
  have recorded : Unnoticed gone room (room.record (.call c)) := room.record_unnoticed _
  unfold callWith at unheld ⊢
  simp only at unheld ⊢
  split
  · exact recorded.trans (finish_unnoticed _ answers _)
  next succeeds =>
    simp only [succeeds] at unheld
    split
    next holding => simp [holding] at unheld
    · refine recorded.trans ?_
      cases c with
      | acknowledge i | notify i text | replace i payload =>
        exact (modifyInteraction_unnoticed _ own _).trans (finish_unnoticed _ answers _)
      | deliver | edit | post | replyTo | answer | editAnswer | fetchAnswer | followUp => cases isAnswer

/-! ### The press -/

/-- The interaction of a press that is received is that of the step, if it has one. -/
theorem interaction_of_received? {k : Nat} {act : Act} (h : room.received? (.act k act) = some (p, press)) :
    ∀ i, press.interaction = some i → i = k := by
  intro i hi
  obtain ⟨a, frames, receives, -⟩ := receives h
  cases receives with
  | handed k draft =>
    obtain ⟨id, -, eq⟩ := Option.map_eq_some_iff.1 h
    obtain ⟨-, rfl⟩ := Prod.mk.inj eq
    cases hi
  | routed k draft =>
    obtain ⟨id, -, routed⟩ := Option.bind_eq_some_iff.1 h
    obtain ⟨rfl, -⟩ := routed?_eq_some routed
    cases hi
  | emitted k kind draft state interaction => exact Option.some.inj (hi.symm.trans interaction)

/-- What goes on after the press was received answers that press. -/
theorem Receives.answers {k : Nat} {act : Act} (h : Receives room p press (.act k act) a frames) (own : k ∈ gone) :
    Answers gone frames := by
  cases h with
  | handed => exact .last (by simpa using own)
  | routed => exact .yield (.last (by simpa using own))
  | emitted _ _ _ _ interaction => exact .yield (.last (by simpa [interaction] using own))

theorem Receives.unnoticed {k : Nat} {act : Act} (h : Receives room p press (.act k act) a frames) (own : k ∈ gone) :
    Unnoticed gone room a := by
  cases h with
  | handed | routed => exact .refl _
  | emitted =>
    refine ⟨fun journal => ?_, fun _ => .inl⟩
    simp only [Room.without, Table.without_put _ _ own]

/-- A stranger is told off, and nothing else happens. -/
theorem receive_stranger (hp : room.paginator? p = some pg) (stranger : pg.author ≠ some press.user) (frames : List Frame) :
    room.receive p press frames = (room.log (.stranger pg.session press.user)).call (pg.rebuff press)
      (if press.interaction.isSome then .yield .nothing :: .pass :: frames else .pass :: frames) := by
  rw [receive, hp]
  simp only [if_pos stranger, Paginator.rebuff]
  split <;> rfl

/-- The press of a stranger goes unnoticed, and is answered by one call. -/
theorem strange_unnoticed {k : Nat} {act : Act} (received : room.received? (.act k act) = some (p, press))
    (hp : room.paginator? p = some pg) (stranger : pg.author ≠ some press.user) (own : k ∈ gone)
    (unheld : (room.after (.act k act)).held = []) :
    Unnoticed gone room (room.after (.act k act)) ∧ (room.after (.act k act)).journal =
      room.journal ++ [.log (.stranger pg.session press.user), .call (pg.rebuff press)] := by
  obtain ⟨a, frames, receives, eq⟩ := receives received
  have hp' : a.paginator? p = some pg := (receives.outward.paginator? p).trans hp
  rw [eq, receive_stranger hp' stranger] at unheld ⊢
  generalize hlonger : (if press.interaction.isSome then Frame.yield .nothing :: .pass :: frames else .pass :: frames) =
    longer at unheld ⊢
  have answers : Answers gone longer := by
    have passed : Answers gone (.pass :: frames) := .pass (receives.answers own)
    rw [← hlonger]
    split
    · exact .yield passed
    · exact passed
  have isAnswer : (pg.rebuff press).isAnswer = true := by
    unfold Paginator.rebuff
    split <;> rfl
  have interaction : (pg.rebuff press).interaction? = press.interaction := by
    unfold Paginator.rebuff
    split <;> rfl
  have its : ∀ i, (pg.rebuff press).interaction? = some i → i ∈ gone := fun i hi =>
    interaction_of_received? received i (interaction ▸ hi) ▸ own
  have logged := a.log_outward (.stranger pg.session press.user)
  have called := (a.log (.stranger pg.session press.user)).call_outward (pg.rebuff press) longer
  exact ⟨((receives.unnoticed own).trans (record_unnoticed a _)).trans (callWith_unnoticed _ isAnswer its answers unheld),
    ((logged.trans called).after receives.outward).journal⟩

/-! ### The turns after it -/

/-- From `a` to `b` nothing is noticed, and there is no call but an apology for the
press of a step that is gone. -/
structure Hushed (gone : List Nat) (a b : Room) : Prop extends Unnoticed gone a b where
  calls : ∃ es, b.journal = a.journal ++ es ∧ ∀ c, Event.call c ∈ es → ∃ k ∈ gone, c = .notify (some k) apology

theorem Unnoticed.hushed {es : List Event} (h : Unnoticed gone a b) (journal : b.journal = a.journal ++ es)
    (silent : ∀ c, Event.call c ∉ es) : Hushed gone a b :=
  ⟨h, es, journal, fun c hc => absurd hc (silent c)⟩

theorem finish_hushed (room : Room) (answers : Answers gone frames) (outcome : Outcome) :
    Hushed gone room (room.finish frames outcome) :=
  (room.finish_unnoticed answers outcome).hushed (room.finish_outward frames outcome).journal (by simp)

theorem apologize_hushed (room : Room) {k : Nat} (interaction : press.interaction = some k) (own : k ∈ gone) (fault : Fault)
    (unheld : (room.apologize press fault []).held = []) : Hushed gone room (room.apologize press fault []) := by
  obtain ⟨es, outward, calls⟩ := room.apologize_outward press fault []
  refine ⟨?_, _, outward.journal, fun c hc => ?_⟩
  · have logged : Unnoticed gone room (room.log (.pressFailed press.customId press.user fault)) := room.record_unnoticed _
    have its : ∀ i, press.interaction = some i → i ∈ gone := fun i hi =>
      Option.some.inj (interaction.symm.trans hi) ▸ own
    have answers : Answers gone [.notice press] := .last (by simpa [interaction] using own)
    unfold apologize at unheld ⊢
    simp only at unheld ⊢
    split
    next state known =>
      split
      · exact logged
      next unanswered =>
        simp only [known, if_neg unanswered] at unheld
        exact logged.trans (callWith_unnoticed _ rfl its answers unheld)
    · exact logged
  · rcases calls with rfl | rfl
    · simp at hc
    · have notified : c = .notify press.interaction apology := by simpa using hc
      exact ⟨k, own, interaction ▸ notified⟩

/-- A turn that answers the press of a stranger is hushed. -/
theorem resume_hushed (room : Room) {frame : Frame} (answers : Answers gone (frame :: frames)) (outcome : Outcome)
    (unheld : (room.resume frame frames outcome).held = []) : Hushed gone room (room.resume frame frames outcome) := by
  have unchanged : Hushed gone room room := (Unnoticed.refl room).hushed (List.append_nil _).symm (by simp)
  cases answers with
  | pass h => exact room.finish_hushed h outcome
  | yield h => cases outcome <;> exact room.finish_hushed h _
  | last own =>
    cases frame with
    | yield | pass | fail | fetch | deliver | expire => cases own
    | caller k paginator =>
      have own : k ∈ gone := by simpa using own
      refine Unnoticed.hushed ⟨fun journal => ?_, fun _ => .inl⟩ (List.append_nil _).symm (by simp)
      simp [resume, Room.without, own]
    | notice press =>
      cases outcome with
      | ok a => exact unchanged
      | error fault => exact (room.record_unnoticed (.log (.noticeFailed fault))).hushed rfl (by simp)
    | guard press =>
      cases outcome with
      | ok a => exact unchanged
      | error fault =>
        cases interaction : press.interaction with
        | none => simp [interaction] at own
        | some k => exact room.apologize_hushed interaction (by simpa [interaction] using own) fault unheld

theorem turn_hushed {t : Task} {rest : List Task} (ready : room.agenda.ready = t :: rest) (answers : t.Answers gone)
    (unheld : (room.after .turn).held = []) : Hushed gone room (room.after .turn) := by
  rw [after_turn ready] at unheld ⊢
  cases t with
  | woken w pinged => cases answers
  | resume frames outcome =>
    have answers : Answers gone frames := answers
    have popped : Unnoticed gone room (room.popped rest) := by
      have serves : (Task.resume frames outcome).serves gone = true := answers.serve
      refine ⟨fun journal => ?_, fun t ht => ?_⟩
      · simp [Room.without, Room.popped, ready, serves]
      · rw [ready]
        exact .inl (List.mem_cons_of_mem _ ht)
    cases frames with
    | nil => cases answers
    | cons frame frames =>
      have hushed := (room.popped rest).resume_hushed answers outcome unheld
      exact ⟨popped.trans hushed.toUnnoticed, hushed.calls⟩

/-! ## What the others do -/

/-- From `a` on `f` goes as it would without what is gone, and makes nothing ready
that works for a step that is gone. -/
structure Undisturbed (gone : List Nat) (f : Room → Room) (a : Room) : Prop where
  without : ∀ journal, ∃ es, (f a).journal = a.journal ++ es ∧
    f (a.without gone journal) = (f a).without gone (journal ++ es)
  ready : ∀ t ∈ (f a).agenda.ready, t.serves gone = true → t ∈ a.agenda.ready

/-- The room without its past. -/
def alone (room : Room) : Room := { room with journal := [], agenda := { room.agenda with ready := [] }, settled := [] }

/-- The past of a room. -/
def past (room : Room) : Setting where
  journal := room.journal
  ready := room.agenda.ready
  settled := room.settled
  gone := []
  unknown := []
  sub := List.Subset.refl []

theorem alone_within_past (room : Room) : room.alone.within room.past = room := by
  simp [within, Agenda.within, alone, past]

/-- The past of a room without what is gone, and with a journal of its own. -/
def pastWithout (gone : List Nat) (journal : List Event) (room : Room) : Setting where
  journal := journal
  ready := room.agenda.ready.filter fun t => !t.serves gone
  settled := room.settled.filter fun o => o.1 ∉ gone
  gone := gone
  unknown := gone
  sub := List.Subset.refl gone

theorem alone_within_pastWithout (room : Room) (gone : List Nat) (journal : List Event) :
    room.alone.within (room.pastWithout gone journal) = room.without gone journal := by
  simp [within, Agenda.within, alone, pastWithout, Room.without]

/-- What does the same in any setting is undisturbed. -/
theorem undisturbed {f : Room → Room} (same : ∀ s : Setting, s.gone ⊆ gone → f (a.alone.within s) = (f a.alone).within s) :
    Undisturbed gone f a := by
  have here : f a = (f a.alone).within a.past := by
    rw [← same a.past (List.nil_subset gone), alone_within_past]
  refine ⟨fun journal => ⟨(f a.alone).journal, ?_, ?_⟩, fun t ht serves => ?_⟩
  · rw [here]
    rfl
  · rw [← alone_within_pastWithout, same (a.pastWithout gone journal) (List.Subset.refl gone), here]
    simp [within, Agenda.within, Room.without, pastWithout, past]
  · -- What was made ready on the way works for no step that is gone, for else it would not be there without it.
    have idle : (f a.alone).agenda.ready = (f a.alone).agenda.ready.filter fun t => !t.serves gone := by
      have free := same ⟨[], [], [], gone, [], List.nil_subset gone⟩ (List.Subset.refl gone)
      have alone : a.alone.within ⟨[], [], [], gone, [], List.nil_subset gone⟩ = a.alone := by
        simp [within, Agenda.within, Room.alone]
      rw [alone] at free
      exact congrArg (fun r => r.agenda.ready) free
    rw [here] at ht
    rcases List.mem_append.1 ht with ht | ht
    · exact ht
    · rw [idle, List.filter_filter, List.mem_filter] at ht
      simp [serves] at ht

theorem after_undisturbed (own : ∀ k act, m = .act k act → k ∉ gone) (unheld : a.held = []) (other : m ≠ .turn) :
    Undisturbed gone (·.after m) a ∧ ∀ journal, (a.without gone journal).result m = a.result m := by
  have same : ∀ s : Setting, s.gone ⊆ gone →
      (a.alone.within s).after m = (a.alone.after m).within s ∧ (a.alone.within s).result m = a.alone.result m :=
    fun s sub => a.alone.after_within (fun k act hm hk => own k act hm (sub hk)) unheld other
  refine ⟨undisturbed fun s sub => (same s sub).1, fun journal => ?_⟩
  have here := (same a.past (List.nil_subset gone)).2
  have there := (same (a.pastWithout gone journal) (List.Subset.refl gone)).2
  rw [alone_within_past] at here
  rw [alone_within_pastWithout] at there
  exact there.trans here.symm

/-- A turn that works for no step that is gone. -/
theorem turn_undisturbed {t : Task} {rest : List Task} (ready : a.agenda.ready = t :: rest) (free : t.serves gone = false) :
    Undisturbed gone (·.after .turn) a := by
  have runs : Undisturbed gone (run t) (a.popped rest) := undisturbed fun s sub => run_within _ (Task.serves_of_subset sub free)
  refine ⟨fun journal => ?_, fun t' ht serves => ?_⟩
  · obtain ⟨es, journals, without⟩ := runs.without journal
    refine ⟨es, ?_, ?_⟩
    · rw [after_turn ready]
      exact journals
    · have ready' : (a.without gone journal).agenda.ready = t :: rest.filter fun t => !t.serves gone := by
        simp [Room.without, ready, free]
      have popped : (a.without gone journal).popped (rest.filter fun t => !t.serves gone) =
          (a.popped rest).without gone journal := rfl
      simp only [after_turn ready, after_turn ready', popped, without]
  · rw [after_turn ready] at ht
    rw [ready]
    exact List.mem_cons_of_mem _ (runs.ready t' ht serves)

/-! ## Runs -/

/-- What works for a step that is gone does nothing but answer. -/
def OnlyAnswers (gone : List Nat) (room : Room) : Prop :=
  ∀ t ∈ room.agenda.ready, t.serves gone = true → t.Answers gone

theorem Unnoticed.onlyAnswers (h : Unnoticed gone a b) (only : OnlyAnswers gone a) : OnlyAnswers gone b :=
  fun t ht serves => (h.ready t ht).elim (fun ht => only t ht serves) id

theorem Undisturbed.onlyAnswers {f : Room → Room} (h : Undisturbed gone f a) (only : OnlyAnswers gone a) :
    OnlyAnswers gone (f a) := fun t ht serves => only t (h.ready t ht serves) serves

/-- What comes of a move that is gone: a stranger is told off by one call, or a turn
that answers a stranger makes no call but to apologize for a failure. -/
inductive Rebuffed (gone : List Nat) (room : Room) : Move → Prop where
  | press {k : Nat} {act : Act} {p : Nat} {press : Press} {pg : Paginator}
      (received : room.received? (.act k act) = some (p, press)) (paginator : room.paginator? p = some pg)
      (stranger : pg.author ≠ some press.user) (journal : (room.after (.act k act)).journal =
        room.journal ++ [.log (.stranger pg.session press.user), .call (pg.rebuff press)]) :
    Rebuffed gone room (.act k act)
  | turn {es : List Event} (journal : (room.after .turn).journal = room.journal ++ es)
      (calls : ∀ c, Event.call c ∈ es → ∃ k ∈ gone, c = .notify (some k) apology) : Rebuffed gone room .turn

theorem isStrange_iff : room.isStrange m = true ↔ ∃ p press pg, room.received? m = some (p, press) ∧
    room.paginator? p = some pg ∧ pg.author ≠ some press.user := by
  rw [isStrange]
  cases hr : room.received? m with
  | none => simp
  | some r =>
    obtain ⟨p, press⟩ := r
    constructor
    · intro strange
      obtain ⟨pg, hp, other⟩ := (Option.any_eq_true _ _).1 strange
      exact ⟨p, press, pg, rfl, hp, of_decide_eq_true other⟩
    · rintro ⟨_, _, pg, ⟨⟩, hp, other⟩
      exact (Option.any_eq_true _ _).2 ⟨pg, hp, decide_eq_true other⟩

/-- A move that is gone goes unnoticed. -/
theorem unnoticed_of_isGone (only : OnlyAnswers gone room) (unheld : (room.after m).held = [])
    (steps : ∀ k act, m = .act k act → (k ∈ gone ↔ room.isStrange m = true)) (isGone : room.isGone gone m = true) :
    Unnoticed gone room (room.after m) ∧ Rebuffed gone room m := by
  cases m with
  | act k act =>
    have strange : room.isStrange (.act k act) = true := isGone
    obtain ⟨p, press, pg, received, hp, stranger⟩ := isStrange_iff.1 strange
    obtain ⟨unnoticed, journal⟩ := strange_unnoticed received hp stranger ((steps k act rfl).2 strange) unheld
    exact ⟨unnoticed, .press received hp stranger journal⟩
  | turn =>
    obtain ⟨t, head, serves⟩ := (Option.any_eq_true _ _).1 isGone
    obtain ⟨rest, ready⟩ := List.head?_eq_some_iff.1 head
    have hushed := turn_hushed ready (only t (by simp [ready]) serves) unheld
    obtain ⟨es, journal, calls⟩ := hushed.calls
    exact ⟨hushed.toUnnoticed, .turn journal calls⟩
  | fire | moveTo => cases isGone

/-- Any other move is undisturbed. -/
theorem undisturbed_of_not_isGone (unheld : room.held = [])
    (steps : ∀ k act, m = .act k act → (k ∈ gone ↔ room.isStrange m = true)) (other : room.isGone gone m = false) :
    Undisturbed gone (·.after m) room ∧ ∀ journal, (room.without gone journal).result m = room.result m := by
  by_cases turn : m = .turn
  · subst turn
    refine ⟨?_, fun _ => rfl⟩
    cases ready : room.agenda.ready with
    | nil =>
      have idle : ∀ r : Room, r.agenda.ready = [] → r.after .turn = r := fun r => after_turn_nil
      refine ⟨fun journal => ⟨[], ?_, ?_⟩, fun t ht _ => ?_⟩
      · simp [idle room ready]
      · have none : (room.without gone journal).agenda.ready = [] := by simp [Room.without, ready]
        simp [idle room ready, idle _ none]
      · simpa [idle room ready] using ht
    | cons t rest =>
      have free : t.serves gone = false := by simpa [isGone, ready] using other
      exact turn_undisturbed ready free
  · refine after_undisturbed (fun k act hm hk => ?_) unheld turn
    subst hm
    have strange : room.isStrange (.act k act) = true := (steps k act rfl).1 hk
    have ordinary : room.isStrange (.act k act) = false := other
    rw [strange] at ordinary
    cases ordinary

theorem strangers_subset {moves : List Move} {k : Nat} (h : k ∈ room.strangers moves) : k ∈ moves.filterMap Move.step? := by
  induction moves generalizing room with
  | nil => cases h
  | cons m moves ih =>
    rw [strangers, List.mem_append] at h
    rw [List.filterMap_cons]
    rcases h with h | h
    · cases m with
      | act k' act =>
        split at h
        · simp only [Move.step?, Option.toList_some, List.mem_singleton] at h
          simp [Move.step?, h]
        · cases h
      | turn | fire | moveTo => split at h <;> cases h
    · have later := ih h
      cases m.step? with
      | none => exact later
      | some k' => exact List.mem_cons_of_mem k' later

/-- Where each act has a number of its own, the steps of strangers are those of their presses. -/
theorem mem_strangers_iff {moves ms : List Move} {k : Nat} {act : Act} (numbered : (moves.filterMap Move.step?).Nodup)
    (h : ms ++ [.act k act] <+: moves) :
    k ∈ room.strangers moves ↔ (room.afterAll ms).isStrange (.act k act) = true := by
  induction moves generalizing room ms with
  | nil => simp at h
  | cons m moves ih =>
    rw [strangers, List.mem_append]
    cases ms with
    | nil =>
      obtain ⟨rfl, -⟩ := List.cons_prefix_cons.1 h
      have once : k ∉ moves.filterMap Move.step? := by
        simp only [List.filterMap_cons, Move.step?, List.nodup_cons] at numbered
        exact numbered.1
      have later : k ∉ (room.after (.act k act)).strangers moves := fun hk => once (strangers_subset hk)
      rw [afterAll_nil]
      cases room.isStrange (.act k act) <;> simp [later, Move.step?]
    | cons m' ms =>
      obtain ⟨rfl, tail⟩ := List.cons_prefix_cons.1 h
      have tail : ms ++ [.act k act] <+: moves := tail
      have step : k ∈ moves.filterMap Move.step? := List.mem_filterMap.2 ⟨.act k act, tail.subset (by simp), rfl⟩
      have numbered' : (moves.filterMap Move.step?).Nodup := by
        rw [List.filterMap_cons] at numbered
        split at numbered
        · exact numbered
        · exact (List.nodup_cons.1 numbered).2
      have other : m'.step? ≠ some k := by
        intro hm
        rw [List.filterMap_cons, hm] at numbered
        exact (List.nodup_cons.1 numbered).1 step
      have here : k ∉ if room.isStrange m' then m'.step?.toList else [] := by
        split
        · simpa [eq_comm] using other
        · simp
      rw [afterAll_cons, ← ih numbered' tail]
      simp [here]

theorem spared_append (room : Room) (ms : List Move) (m : Move) :
    room.spared gone (ms ++ [m]) = room.spared gone ms ++ if (room.afterAll ms).isGone gone m then [] else [m] := by
  induction ms generalizing room with
  | nil => exact List.append_nil _
  | cons m' ms ih => rw [List.cons_append, spared, spared, ih, afterAll_cons, List.append_assoc]

theorem without_of_opened (gone : List Nat) (opened : IsOpened room) : room.without gone room.journal = room ∧ OnlyAnswers gone room := by
  obtain ⟨ids, client, environment, contexts⟩ := opened
  exact ⟨rfl, fun t ht => by cases ht⟩

/-- The room of the run that is spared is that of the run without what is gone. -/
theorem afterAll_spared {start : Room} {moves ms : List Move} (opened : IsOpened start)
    (unheld : ∀ ms, ms <+: moves → (start.afterAll ms).held = [])
    (steps : ∀ ms k act, ms ++ [.act k act] <+: moves → (k ∈ gone ↔ (start.afterAll ms).isStrange (.act k act) = true))
    (h : ms <+: moves) : OnlyAnswers gone (start.afterAll ms) ∧
      ∃ journal, start.afterAll (start.spared gone ms) = (start.afterAll ms).without gone journal := by
  induction ms using List.reverseRecOn with
  | nil =>
    obtain ⟨same, only⟩ := without_of_opened gone opened
    exact ⟨only, start.journal, same.symm⟩
  | append_singleton ms m ih =>
    have before : ms <+: moves := (List.prefix_append ms [m]).trans h
    obtain ⟨only, journal, spares⟩ := ih before
    have steps' : ∀ k act, m = .act k act → (k ∈ gone ↔ (start.afterAll ms).isStrange m = true) := by
      rintro k act rfl
      exact steps ms k act h
    have after : start.afterAll (ms ++ [m]) = (start.afterAll ms).after m := afterAll_append start ms [m]
    have unheld' : ((start.afterAll ms).after m).held = [] := after ▸ unheld _ h
    rw [spared_append, afterAll_append start (start.spared gone ms), spares, after]
    cases isGone : (start.afterAll ms).isGone gone m with
    | true =>
      obtain ⟨unnoticed, -⟩ := unnoticed_of_isGone only unheld' steps' isGone
      exact ⟨unnoticed.onlyAnswers only, journal, (unnoticed.without journal).symm⟩
    | false =>
      obtain ⟨undisturbed, -⟩ := undisturbed_of_not_isGone (unheld ms before) steps' isGone
      obtain ⟨es, -, goesOn⟩ := undisturbed.without journal
      exact ⟨undisturbed.onlyAnswers only, journal ++ es, goesOn⟩

/-- **Strangers leave no trace.** Leave out of a run, in which no call is held back,
every press of a stranger, whatever it says, and the turns that answer it. At every
moment the room is then the same but for what belongs to the presses left out: their
interactions, the turns that answer them, and how these settle. Every other move has
the same result and leads to the same events, calls among them. What is left out is a
press that is answered by one call, or a turn that makes no call at all unless the
answer to an interaction of the service failed and its user is told so. -/
theorem strangers_leave_no_trace {start : Room} {moves : List Move} (opened : IsOpened start)
    (numbered : (moves.filterMap Move.step?).Nodup) (unheld : ∀ ms, ms <+: moves → (start.afterAll ms).held = []) :
    let gone := start.strangers moves
    (∀ ms k act, ms ++ [.act k act] <+: moves → (k ∈ gone ↔ (start.afterAll ms).isStrange (.act k act) = true)) ∧
    (∀ ms, ms <+: moves →
      ∃ journal, start.afterAll (start.spared gone ms) = (start.afterAll ms).without gone journal) ∧
    ∀ ms m, ms ++ [m] <+: moves →
      let a := start.afterAll ms
      let b := start.afterAll (start.spared gone ms)
      if a.isGone gone m then Rebuffed gone a m
      else b.result m = a.result m ∧
        ∃ es, (a.after m).journal = a.journal ++ es ∧ (b.after m).journal = b.journal ++ es := by
  intro gone
  have steps : ∀ ms k act, ms ++ [.act k act] <+: moves →
      (k ∈ gone ↔ (start.afterAll ms).isStrange (.act k act) = true) := fun ms k act h => mem_strangers_iff numbered h
  refine ⟨steps, fun ms h => (afterAll_spared opened unheld steps h).2, fun ms m h => ?_⟩
  have before : ms <+: moves := (List.prefix_append ms [m]).trans h
  obtain ⟨only, journal, spares⟩ := afterAll_spared opened unheld steps before
  have steps' : ∀ k act, m = .act k act → (k ∈ gone ↔ (start.afterAll ms).isStrange m = true) := by
    rintro k act rfl
    exact steps ms k act h
  have unheld' : ((start.afterAll ms).after m).held = [] := by
    rw [← unheld _ h, afterAll_append]
    rfl
  simp only [spares]
  split
  next isGone => exact (unnoticed_of_isGone only unheld' steps' isGone).2
  next other =>
    obtain ⟨undisturbed, result⟩ := undisturbed_of_not_isGone (unheld ms before) steps' (by simpa using other)
    obtain ⟨es, journals, goesOn⟩ := undisturbed.without journal
    refine ⟨result journal, es, journals, ?_⟩
    rw [goesOn]
    rfl

/-- Bob presses a control before the paginator is sent to Ada, and while Ada turns its page. -/
theorem strangers_leave_no_trace_pressed :
    let press (user : String) : Act := .interact 0 ⟨user, .control 0 "next", []⟩
    let moves : List Move := [.act 0 (.create (.pages [.text "one" "" "" "", .text "two" "" "" ""]) (.record []) none),
      .act 1 (press "bob"), .turn, .act 2 (.send 0 .send (.user "ada")), .turn, .turn, .turn, .act 3 (press "ada"),
      .act 4 (press "bob"), .turn, .turn, .turn, .turn, .turn]
    let start := openedWith .numbered .plain [] []
    start.strangers moves = [1, 4] ∧ (start.spared [1, 4] moves).length + 6 = moves.length ∧
      (∃ journal, start.afterAll (start.spared [1, 4] moves) = (start.afterAll moves).without [1, 4] journal) ∧
      Rebuffed [1, 4] (start.afterAll (moves.take 8)) (.act 4 (press "bob")) := by
  intro press moves start
  have gone : start.strangers moves = [1, 4] := by decide +kernel
  have unheld : ∀ n < moves.length + 1, (start.afterAll (moves.take n)).held.isEmpty = true := by decide +kernel
  obtain ⟨-, same, others⟩ := strangers_leave_no_trace (.opened _ _ _ _) (by decide +kernel)
    (throughout_of_take fun n hn => List.isEmpty_iff.1 (unheld n hn))
  rw [gone] at same others
  have next : moves.take 8 ++ [.act 4 (press "bob")] <+: moves := List.take_prefix 9 moves
  have rebuffed := others _ _ next
  simp only at rebuffed
  rw [if_pos (by decide +kernel)] at rebuffed
  exact ⟨gone, by decide +kernel, same moves (List.prefix_refl moves), rebuffed⟩

end Room

end Folio
