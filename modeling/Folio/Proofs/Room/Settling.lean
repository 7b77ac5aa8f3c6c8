/-
Settling. A press that runs a callback settles as that callback does. What is on hand for the
step that brought the press is one stack: frames that only hand on, above the caller. Each
turn takes one of them away and leaves what they come to as it was (`settling_after`), so the
caller is told what the callback came to (`ComesTo`), once, after any moves of other steps
(`callback_press_settles`).
-/
import Folio.Proofs.Room.Contained
import Folio.Proofs.Room.Dispatching
import Folio.Proofs.Room.Navigation

namespace Folio

/-- What comes of a call that was held back and is answered, perhaps with a failure. -/
def Call.reply (c : Call) : Option String → Outcome
  | some message => .error (.reported message)
  | none => .ok c.answered

namespace Room

variable {a b room : Room} {k p : Nat} {m : Move} {moves : List Move} {press : Press} {callback : Callback}
  {frames : List Frame} {good : Outcome → Prop} {told : List (Nat × Outcome)} {hand : Hand}

/-- What may come of a call of step `k` that is made in `room`, which leads to `made`, before some
moves: calls of its name fail, or are held back until a move answers the one that is held for
the step, or succeed at once. -/
inductive Replies (room : Room) (k : Nat) (c : Call) (made : Room) (moves : List Move) : Outcome → Prop where
  | failed {message : String} (fails : room.failures.get? (c.name room.isService) = some message) :
      Replies room k c made moves (.error (.reported message))
  | answered {before rest : List Move} {j position : Nat} {failure : Option String}
      (works : room.failures.get? (c.name room.isService) = none) (holding : room.holding = true)
      (its : moves = before ++ .act j (.release position failure) :: rest)
      (answers : (made.afterAll before).serves k (.act j (.release position failure)) = true) :
      Replies room k c made moves (c.reply failure)
  | succeeded (works : room.failures.get? (c.name room.isService) = none) (free : room.holding = false) :
      Replies room k c made moves (.ok c.answered)

/-- What a callback comes to that runs in `room` for step `k`, which leads to `made`, before some moves. -/
inductive ComesTo (room : Room) (k : Nat) (press : Press) (made : Room) (moves : List Move) : Callback → Outcome → Prop where
  | give (value : Value) : ComesTo room k press made moves (.give value) (.ok (.value value))
  | fail (message : String) : ComesTo room k press made moves (.fail message) (.error (.reported message))
  | failLater (message : String) : ComesTo room k press made moves (.failLater message) (.error (.reported message))
  | defer {outcome : Outcome} (replies : room.Replies k (.acknowledge press.interaction) made moves outcome) :
      ComesTo room k press made moves .defer (outcome.map fun _ => .value (.text "deferred"))

/-- What the caller of step `k` was told, and what is on hand in `room` until then: frames that
hand on what is good to be told. -/
inductive Settling (k : Nat) (good : Outcome → Prop) (room : Room) (moves : List Move) :
    List (Nat × Outcome) → Hand → Prop where
  | waiting (c : Call) {above : List Frame}
      (hands : ∀ before j position failure rest, moves = before ++ .act j (.release position failure) :: rest →
        (room.afterAll before).serves k (.act j (.release position failure)) = true →
        ∃ outcome, HandsOn above (c.reply failure) outcome ∧ good outcome) :
      Settling k good room moves [] ⟨[⟨c, above ++ [.caller k none]⟩], []⟩
  | handing {above : List Frame} {outcome outcome' : Outcome} (hands : HandsOn above outcome outcome')
      (right : good outcome') : Settling k good room moves [] ⟨[], [.resume (above ++ [.caller k none]) outcome]⟩
  | told {outcome : Outcome} (right : good outcome) : Settling k good room moves [(k, outcome)] .none

theorem Settling.told_of_hand_none (h : Settling k good room moves told .none) :
    ∃ outcome, good outcome ∧ told = [(k, outcome)] := by
  cases h with
  | told right => exact ⟨_, right, rfl⟩

theorem Settling.told_once (h : Settling k good room moves told hand) :
    told = [] ∨ ∃ outcome, good outcome ∧ told = [(k, outcome)] := by
  cases h with
  | waiting | handing => exact .inl rfl
  | told right => exact .inr ⟨_, right, rfl⟩

theorem Settling.mono {good' : Outcome → Prop} (h : Settling k good room moves told hand)
    (weaker : ∀ outcome, good outcome → good' outcome) : Settling k good' room moves told hand := by
  cases h with
  | waiting c hands =>
    refine .waiting c fun before j position failure rest its answers => ?_
    obtain ⟨outcome, hands, right⟩ := hands before j position failure rest its answers
    exact ⟨outcome, hands, weaker _ right⟩
  | handing hands right => exact .handing hands (weaker _ right)
  | told right => exact .told (weaker _ right)

/-- The first move is over. -/
theorem Settling.tail (h : Settling k good room (m :: moves) told hand) : Settling k good (room.after m) moves told hand := by
  cases h with
  | waiting c hands =>
    exact .waiting c fun before j position failure rest its => hands (m :: before) j position failure rest (its ▸ rfl)
  | handing hands right => exact .handing hands right
  | told right => exact .told right

theorem serve_caller (above : List Frame) (k : Nat) : serve [k] (above ++ [.caller k none]) = true := by
  simp [serve]

/-! ## A move -/

/-- A held call is answered, and the frames that waited for it go on. -/
theorem hand_release {position : Nat} {c : Call} (found : room.held[position]? = some ⟨c, frames⟩)
    (idle : ({ room with held := room.held.eraseIdx position } : Room).hand k = .none) (own : serve [k] frames = true)
    (j : Nat) (failure : Option String) : (room.after (.act j (.release position failure))).hand k =
      ⟨[], [.resume frames (c.reply failure)]⟩ := by
  rw [after, act, release, found]
  cases failure with
  | some message => exact hand_finish idle own _
  | none => exact hand_succeed idle own c

/-- A turn of what hands on, or of the caller. -/
theorem settling_turn {above : List Frame} {outcome outcome' : Outcome} {rest : List Task}
    (ready : room.agenda.ready = .resume (above ++ [.caller k none]) outcome :: rest)
    (alone : (room.popped rest).hand k = .none) (unsettled : room.settledOf k = []) (hands : HandsOn above outcome outcome')
    (right : good outcome') :
    Settling k good (room.after .turn) moves ((room.after .turn).settledOf k) ((room.after .turn).hand k) := by
  have turned := after_turn ready
  have unsettled : (room.popped rest).settledOf k = [] := unsettled
  cases above with
  | nil =>
    cases hands
    have none : ((room.popped rest).resume (.caller k none) [] outcome).hand k = .none := alone
    have settled := settledOf_caller unsettled outcome
    rw [turned]
    exact settled ▸ none ▸ .told right
  | cons f above =>
    obtain ⟨outcome₁, hands, goes⟩ := hands.turn (room.popped rest) [.caller k none]
    have turned : room.after .turn = (room.popped rest).finish (above ++ [.caller k none]) outcome₁ := turned.trans goes
    have finished := hand_finish alone (serve_caller above k) outcome₁
    have silent : ((room.popped rest).finish (above ++ [.caller k none]) outcome₁).settledOf k = [] := by
      rw [(finish_carries (k := k) _ _ _).settled, unsettled]
    rw [turned, finished, silent]
    exact .handing hands right

/-- No move of another step changes what there is to tell. -/
theorem settling_after (other : m.step? ≠ some k) (h : Settling k good room (m :: moves) (room.settledOf k) (room.hand k)) :
    Settling k good (room.after m) moves ((room.after m).settledOf k) ((room.after m).hand k) := by
  cases serves : room.serves k m with
  | false =>
    have tends := room.after_tends other serves
    rw [tends.settled, tends.hand_eq]
    exact h.tail
  | true =>
    generalize current : room.hand k = hand at h
    generalize before : room.settledOf k = told at h
    cases h with
    | told => exact absurd (serves.symm.trans (serves_of_hand_none current m)) Bool.noConfusion
    | handing hands right =>
      obtain ⟨rest, rfl, ready, alone⟩ := turn_of_serves current serves
      exact settling_turn ready alone before hands right
    | @waiting c above hands =>
      obtain ⟨j, position, failure, rfl, found, alone⟩ := release_of_serves current serves
      obtain ⟨outcome, hands, right⟩ := hands [] j position failure moves rfl serves
      obtain ⟨b, released, carries⟩ := release_carries k found failure
      have silent := carries.settled
      rw [← after_release (j := j) released] at silent
      rw [hand_release found alone (serve_caller above k), silent]
      exact before ▸ .handing hands right

theorem settling_afterAll (others : ∀ m ∈ moves, m.step? ≠ some k)
    (h : Settling k good room moves (room.settledOf k) (room.hand k)) :
    Settling k good (room.afterAll moves) [] ((room.afterAll moves).settledOf k) ((room.afterAll moves).hand k) := by
  induction moves generalizing room with
  | nil => exact h
  | cons m moves ih => exact ih (fun m' hm => others m' (List.mem_cons_of_mem m hm)) (settling_after (others m (by simp)) h)

/-! ## The callback -/

/-- A call of the step, above the caller only what hands on. -/
theorem call_settling (idle : room.hand k = .none) (unsettled : room.settledOf k = []) (c : Call) {above : List Frame}
    (calls : b = room.call c (above ++ [.caller k none]))
    (hands : ∀ outcome, room.Replies k c b moves outcome → ∃ outcome', HandsOn above outcome outcome' ∧ good outcome') :
    Settling k good b moves (b.settledOf k) (b.hand k) := by
  have own := serve_caller above k
  have idle' : (room.record (.call c)).hand k = .none := idle
  have carries : Carries k (above ++ [.caller k none]) room b := calls ▸ room.call_carries _ fun _ => own
  rw [carries.settled, unsettled]
  cases works : room.failures.get? (c.name room.isService) with
  | some message =>
    obtain ⟨outcome, hands, right⟩ := hands _ (.failed works)
    have fails := calls.trans (callWith_of_failing works)
    rw [fails, hand_finish idle' own]
    exact .handing hands right
  | none =>
    cases holding : room.holding with
    | true =>
      have waits : b.hand k = ⟨[⟨c, .pass :: above ++ [.caller k none]⟩], []⟩ :=
        calls ▸ hand_call_of_holding idle own works holding
      rw [waits]
      refine .waiting c fun before j position failure rest its answers => ?_
      obtain ⟨outcome, hands, right⟩ := hands _ (.answered works holding its answers)
      exact ⟨outcome, .pass hands, right⟩
    | false =>
      obtain ⟨outcome, hands, right⟩ := hands _ (.succeeded works holding)
      have goes := calls.trans (callWith_of_works works holding)
      rw [goes, hand_succeed idle' own]
      exact .handing hands right

theorem Settles.settling (h : Settles a press [.caller k none] callback b) (idle : a.hand k = .none)
    (unsettled : a.settledOf k = []) :
    Settling k (a.ComesTo k press b moves callback) b moves (b.settledOf k) (b.hand k) := by
  have finished : ∀ {above : List Frame} {outcome outcome' : Outcome}, HandsOn above outcome outcome' →
      b = a.finish (above ++ [.caller k none]) outcome → a.ComesTo k press b moves callback outcome' →
      Settling k (a.ComesTo k press b moves callback) b moves (b.settledOf k) (b.hand k) := by
    intro above outcome outcome' hands goes right
    have carries : Carries k (above ++ [.caller k none]) a b := goes ▸ a.finish_carries _ outcome
    rw [carries.settled, unsettled]
    have ready : b.hand k = ⟨[], [.resume (above ++ [.caller k none]) outcome]⟩ :=
      goes ▸ hand_finish idle (serve_caller above k) outcome
    rw [ready]
    exact .handing hands right
  cases h with
  | give value => exact finished (.done _) rfl (.give value)
  | fail message => exact finished (.done _) rfl (.fail message)
  | failLater message hands => exact finished hands rfl (.failLater message)
  | defer hands => exact call_settling idle unsettled _ rfl fun outcome replies => ⟨_, hands outcome, .defer replies⟩

/-- A sign of life, and that the callback ran, change nothing of what comes of a call. -/
theorem ComesTo.of_ping {w : Option Nat} {e : Event} {outcome : Outcome}
    (h : ((room.ping w).record e).ComesTo k press b moves callback outcome) : room.ComesTo k press b moves callback outcome := by
  have same : ((room.ping w).record e).failures = room.failures ∧ ((room.ping w).record e).holding = room.holding ∧
      ((room.ping w).record e).isService = room.isService := by
    cases w with
    | none => exact ⟨rfl, rfl, rfl⟩
    | some w =>
      rw [ping, modifyWatchdog]
      split <;> exact ⟨rfl, rfl, rfl⟩
  obtain ⟨failures, holding, service⟩ := same
  cases h with
  | give value => exact .give value
  | fail message => exact .fail message
  | failLater message => exact .failLater message
  | defer replies =>
    refine .defer ?_
    cases replies with
    | failed fails => exact .failed (failures ▸ service ▸ fails)
    | answered works held its answers => exact .answered (failures ▸ service ▸ works) (holding ▸ held) its answers
    | succeeded works free => exact .succeeded (failures ▸ service ▸ works) (holding ▸ free)

/-- **A press settles as the callback that it runs.** Step `k`, for which nothing was done before,
hands a press of the author to a live paginator whose callback does nothing with it, and any moves
of other steps come after. The caller is told once, and nothing but what the callback comes to:
its value, its failure, be it at once or later, or its own answer once the acknowledgement that
it makes succeeded, and how that failed otherwise. When nothing is left to do, the caller was told. -/
theorem callback_press_settles {pg : Paginator} {draft : PressDraft} {id : String} (hp : room.paginator? p = some pg)
    (active : pg.status = .active) (author : pg.author = some draft.user) (own : pg.callback = some callback)
    (spares : callback.spares = true) (target : room.customIdOf? draft.target = some id)
    (role : (parseCustomId? id).map (·.2) = some .callback) (idle : room.hand k = .none)
    (unsettled : room.settledOf k = []) (others : ∀ m ∈ moves, m.step? ≠ some k) :
    let press : Press := ⟨draft.user, id, draft.values, none⟩
    let handed := room.after (.act k (.interact p draft))
    let later := handed.afterAll moves
    (later.settledOf k = [] ∨
      ∃ outcome, room.ComesTo k press handed moves callback outcome ∧ later.settledOf k = [(k, outcome)]) ∧
    (later.held = [] → later.agenda.ready = [] →
      ∃ outcome, room.ComesTo k press handed moves callback outcome ∧ later.settledOf k = [(k, outcome)]) := by
  intro press handed later
  have runs : handed = (room.ping pg.watchdog).runCallback p callback press [.caller k none] := by
    have role : press.role = some .callback := role
    show room.after _ = _
    rw [after, act, withPress, target]
    exact receive_callback hp author active role own [.caller k none]
  have pinged := room.ping_carries (k := k) pg.watchdog
  have settles := runCallback_settles spares (room.ping pg.watchdog) p press [.caller k none]
  rw [← runs] at settles
  have settling : Settling k (room.ComesTo k press handed moves callback) later [] (later.settledOf k) (later.hand k) :=
    settling_afterAll others ((settles.settling (pinged.hand_eq.trans idle) (pinged.settled.trans unsettled)).mono
      fun _ => ComesTo.of_ping)
  refine ⟨settling.told_once, fun held ready => ?_⟩
  have none : later.hand k = .none := by
    rw [hand, held, ready]
    rfl
  exact (none ▸ settling).told_of_hand_none

/-- A callback whose acknowledgement is held back. -/
example : ((((openedWith .numbered .plain [] []).afterAll [
      .act 0 (.create (.pages [.text "one" "" "" ""]) (.record []) (some .defer)), .act 1 (.send 0 .send (.user "ada")),
      .turn, .turn, .act 2 (.setHolding true), .act 3 (.interact 0 ⟨"ada", .control 0 "callback", []⟩),
      .act 4 (.release 0 none), .turn, .turn, .turn, .turn]).settledOf 3).map fun told => match told.2 with
        | .ok (.value (.text answer)) => answer
        | _ => "") = ["deferred"] := by
  decide +kernel

end Room

end Folio
