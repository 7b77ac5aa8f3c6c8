/-
Turning pages as moves of a cursor. While a paginator is live over a fixed number of
pages, each press of its author is one move of `Cursor.move`, and answered by one
replacement with the page it led to (`Answered`); a press of the callback is the
callback's own, and settles as that does (`Settles`). Nothing else moves the index,
so after any number of presses it is the fold of their moves (`navigation`).
-/
import Folio.Proofs.Room.Index

namespace Folio

/-- The call that an event is. -/
def Event.call? : Event → Option Call
  | .call c => some c
  | _ => none

/-- A callback that does nothing with its paginator. -/
def Callback.spares : Callback → Bool
  | .give _ | .fail _ | .failLater _ | .defer => true
  | .stop | .send _ | .update | .turnTo _ => false

/-- The calls that such a callback makes by itself. -/
def Callback.calls (press : Press) : Callback → List Call
  | .defer => [.acknowledge press.interaction]
  | _ => []

namespace Room

variable {a b c room : Room} {p : Nat} {pg pg' : Paginator} {press : Press} {m : Move} {frames : List Frame}
  {es : List Event}

/-- The calls that were made, the oldest first. -/
def calls (room : Room) : List Call := room.journal.filterMap Event.call?

theorem calls_of_journal (h : b.journal = a.journal ++ es) : b.calls = a.calls ++ es.filterMap Event.call? := by
  rw [calls, h, List.filterMap_append, calls]

theorem Outward.calls (h : Outward es a b) : b.calls = a.calls ++ es.filterMap Event.call? := calls_of_journal h.journal

theorem calls_ping (room : Room) (w : Option Nat) : (room.ping w).calls = room.calls := by
  have same : (room.ping w).journal = room.journal := by
    cases w with
    | none => rfl
    | some w =>
      rw [ping, modifyWatchdog]
      split <;> rfl
  rw [calls, same, calls]

theorem paginator?_ping (room : Room) (w : Option Nat) (p : Nat) : (room.ping w).paginator? p = room.paginator? p := by
  rw [paginator?, paginators_ping, paginator?]

/-! ## A press of the author -/

/-- How a press settles whose callback runs in `a`, where `frames` go on with what comes of
it: with what the callback gives, or as it fails, be it at once or some turns later. One that
acknowledges the press comes to its own answer if that succeeds, and fails as it fails otherwise. -/
inductive Settles (a : Room) (press : Press) (frames : List Frame) : Callback → Room → Prop where
  | give (value : Value) : Settles a press frames (.give value) (a.finish frames (.ok (.value value)))
  | fail (message : String) : Settles a press frames (.fail message) (a.finish frames (.error (.reported message)))
  | failLater (message : String) {above : List Frame}
      (hands : HandsOn above (.error (.reported message)) (.error (.reported message))) :
      Settles a press frames (.failLater message) (a.finish (above ++ frames) (.error (.reported message)))
  | defer {above : List Frame}
      (hands : ∀ outcome : Outcome, HandsOn above outcome (outcome.map fun _ => .value (.text "deferred"))) :
      Settles a press frames .defer (a.call (.acknowledge press.interaction) (above ++ frames))

/-- How a press of the author is answered by a live paginator. -/
inductive Answered (room : Room) (m : Move) (p : Nat) (pg : Paginator) (press : Press) : Prop where
  /-- The page that the press led to replaces the one before. -/
  | shown {pg' : Paginator} {payload : Payload} (plain : press.role = some .callback → pg.callback = none)
      (now : (room.after m).paginator? p = some pg')
      (index : pg'.index = Cursor.move pg.pages.length pg.index press.role press.values)
      (drawn : pg'.payload = .ok payload)
      (calls : (room.after m).calls = room.calls ++ [.replace press.interaction payload])
  /-- That page cannot be rendered, and the press fails for that reason. -/
  | failed {pg' : Paginator} {fault : Fault} {a r : Room} {frames : List Frame}
      (plain : press.role = some .callback → pg.callback = none)
      (broken : ¬PagesRender pg) (now : (room.after m).paginator? p = some pg')
      (index : pg'.index = Cursor.move pg.pages.length pg.index press.role press.values)
      (drawn : pg'.payload = .error fault) (calls : (room.after m).calls = room.calls)
      (receives : Receives room p press m a frames) (settles : room.after m = r.finish frames (.error fault))
  /-- The callback runs in place of all that, and what comes of it is what comes of the press. -/
  | called {callback : Callback} {a : Room} {frames : List Frame} (role : press.role = some .callback)
      (own : pg.callback = some callback) (now : (room.after m).paginator? p = some pg)
      (calls : (room.after m).calls = room.calls ++ callback.calls press)
      (receives : Receives room p press m a frames)
      (runs : room.after m = (a.ping pg.watchdog).runCallback p callback press frames)
      (settles : Settles ((a.ping pg.watchdog).record (.callback press)) press frames callback (room.after m))

/-- A press that does not run a callback turns to where it leads, and replaces the page. -/
theorem receive_plain (hp : room.paginator? p = some pg) (author : pg.author = some press.user)
    (active : pg.status = .active) (plain : press.role = some .callback → pg.callback = none) (frames : List Frame) :
    ∃ r : Room, r.paginator? p = some pg ∧ r.calls = room.calls ∧
      room.receive p press frames = (r.modifyPaginator p fun pg' =>
        { pg' with index := (Paginator.pressed pg.pages.length pg.index press.role press.values).1 }).replace p press
          frames frames := by
  have pinged : (room.ping pg.watchdog).paginator? p = some pg := (room.paginator?_ping pg.watchdog p).trans hp
  have role : press.role = (parseCustomId? press.customId).map (·.2) := rfl
  rw [receive, hp]
  simp only [ne_eq, author, active, not_true_eq_false, if_false]
  split
  next callback hr own =>
    rw [← role] at hr
    rw [plain hr] at own
    cases own
  · rw [role]
    generalize Paginator.pressed pg.pages.length pg.index _ press.values = moved
    obtain ⟨index, refused⟩ := moved
    cases refused with
    | none => exact ⟨_, pinged, room.calls_ping pg.watchdog, rfl⟩
    | some value =>
      have logged := (room.ping pg.watchdog).log_outward (.badChoice pg.session value)
      refine ⟨_, (logged.paginator? p).trans pinged, ?_, rfl⟩
      rw [logged.calls, calls_ping]
      exact List.append_nil _

theorem receive_callback (hp : room.paginator? p = some pg) (author : pg.author = some press.user)
    (active : pg.status = .active) (role : press.role = some .callback) {callback : Callback}
    (own : pg.callback = some callback) (frames : List Frame) :
    room.receive p press frames = (room.ping pg.watchdog).runCallback p callback press frames := by
  have named : (parseCustomId? press.customId).map (·.2) = some Role.callback := role
  rw [receive, hp]
  simp only [ne_eq, author, active, not_true_eq_false, if_false, named, own]

/-- The page at the index, cut into range, replaces the one before, unless it cannot be rendered. -/
theorem replace_spec (hp : room.paginator? p = some pg) (press : Press) (frames : List Frame) :
    (room.replace p press frames frames).paginator? p = some pg.clamp ∧
      match pg.clamp.payload with
      | .ok payload => (room.replace p press frames frames).calls = room.calls ++ [.replace press.interaction payload]
      | .error fault => (room.replace p press frames frames).calls = room.calls ∧
          ∃ r : Room, room.replace p press frames frames = r.finish frames (.error fault) := by
  have clamped := room.paginator?_modifyPaginator p p Paginator.clamp
  rw [if_pos rfl, hp, Option.map_some] at clamped
  have same : (room.modifyPaginator p Paginator.clamp).calls = room.calls := rfl
  rw [replace, hp]
  cases drawn : pg.clamp.payload with
  | error fault =>
    have finished := (room.modifyPaginator p Paginator.clamp).finish_outward frames (.error fault)
    simp only [drawn]
    exact ⟨(finished.paginator? p).trans clamped, finished.calls.trans (List.append_nil _), _, rfl⟩
  | ok payload =>
    have called := (room.modifyPaginator p Paginator.clamp).call_outward (.replace press.interaction payload)
      (if press.interaction.isSome then .yield .nothing :: .yield .nothing :: frames else .yield .nothing :: frames)
    simp only [drawn]
    exact ⟨(called.paginator? p).trans clamped, called.calls⟩

theorem Settles.outward {callback : Callback} (h : Settles a press frames callback b) :
    Outward ((callback.calls press).map .call) a b := by
  cases h with
  | give | fail | failLater => exact a.finish_outward _ _
  | defer => exact a.call_outward _ _

theorem runCallback_settles {callback : Callback} (spares : callback.spares = true) (room : Room) (p : Nat) (press : Press)
    (frames : List Frame) :
    Settles (room.record (.callback press)) press frames callback (room.runCallback p callback press frames) := by
  cases callback with
  | give value => exact .give value
  | fail message => exact .fail message
  | failLater message => exact .failLater message (.pass (.pass (.done _)))
  | defer =>
    have own : ∀ outcome : Outcome, HandsOn [.yield (.value (.text "deferred")), .pass] outcome
        (outcome.map fun _ => .value (.text "deferred")) := fun _ => .yield _ (.pass (.done _))
    have answered : ∀ outcome : Outcome, HandsOn [.yield .nothing, .yield (.value (.text "deferred")), .pass] outcome
        (outcome.map fun _ => .value (.text "deferred")) := by
      intro outcome
      refine .yield .nothing ?_
      cases outcome <;> exact own _
    rw [runCallback, acknowledge]
    split
    · exact .defer answered
    · exact .defer own
  | stop | send _ | update | turnTo _ => cases spares

/-- Such a callback leaves its paginator alone, and makes no calls but its own. -/
theorem runCallback_spares {callback : Callback} (press : Press) (spares : callback.spares = true) (hp : room.paginator? p = some pg)
    (frames : List Frame) :
    (room.runCallback p callback press frames).paginator? p = some pg ∧
      (room.runCallback p callback press frames).calls = room.calls ++ callback.calls press := by
  have ran := (room.record_outward (.callback press)).trans (runCallback_settles spares room p press frames).outward
  have made : (Event.callback press :: (callback.calls press).map .call).filterMap Event.call? = callback.calls press := by
    rw [List.filterMap_cons_none rfl, List.filterMap_map]
    exact List.filterMap_some
  exact ⟨(ran.paginator? p).trans hp, ran.calls.trans (congrArg (room.calls ++ ·) made)⟩

/-- How a press that runs no callback is answered, where it turns the paginator to `pg'`. -/
inductive Turned (room : Room) (m : Move) (p : Nat) (pg' : Paginator) (press : Press) : Prop where
  | shown {payload : Payload} (now : (room.after m).paginator? p = some pg') (drawn : pg'.payload = .ok payload)
      (calls : (room.after m).calls = room.calls ++ [.replace press.interaction payload])
  | failed {fault : Fault} {a r : Room} {frames : List Frame} (now : (room.after m).paginator? p = some pg')
      (drawn : pg'.payload = .error fault) (calls : (room.after m).calls = room.calls)
      (receives : Receives room p press m a frames) (settles : room.after m = r.finish frames (.error fault))

theorem Turned.paginator? (h : Turned room m p pg' press) : (room.after m).paginator? p = some pg' := by
  cases h with
  | shown now _ _ | failed now _ _ _ _ => exact now

/-- Unless it runs a callback, a press of the author of a live paginator turns it, and nothing else of it
changes. -/
theorem turned (hp : room.paginator? p = some pg) (author : pg.author = some press.user)
    (active : pg.status = .active) (inside : pg.index < pg.pages.length)
    (plain : press.role = some .callback → pg.callback = none) (received : room.received? m = some (p, press)) :
    Turned room m p { pg with index := Cursor.move pg.pages.length pg.index press.role press.values } press := by
  obtain ⟨a, frames, receives, eq⟩ := receives received
  have outward := receives.outward
  have hp' : a.paginator? p = some pg := (outward.paginator? p).trans hp
  have calls : a.calls = room.calls := outward.calls.trans (List.append_nil _)
  obtain ⟨r, hr, hc, turns⟩ := receive_plain hp' author active plain frames
  obtain ⟨leads, within⟩ := Cursor.pressed_eq_move inside press.role press.values
  have turned := r.paginator?_modifyPaginator p p fun pg' =>
    { pg' with index := (Paginator.pressed pg.pages.length pg.index press.role press.values).1 }
  rw [if_pos rfl, hr, Option.map_some, leads] at turned
  rw [leads] at turns
  obtain ⟨now, shows⟩ := replace_spec turned press frames
  rw [← turns, ← eq] at now shows
  -- The move stays within the pages, so there is nothing to cut.
  have cut : ∀ i, i < pg.pages.length → { pg with index := i }.clamp = { pg with index := i } := by
    intro i hi
    have index : min i (pg.pages.length - 1) = i := by omega
    rw [Paginator.clamp, Paginator.last]
    simp only [index]
  rw [cut _ within] at now shows
  cases drawn : { pg with index := Cursor.move pg.pages.length pg.index press.role press.values }.payload with
  | ok payload =>
    simp only [drawn] at shows
    refine .shown now drawn ?_
    rw [shows]
    exact congrArg (· ++ _) (hc.trans calls)
  | error fault =>
    simp only [drawn] at shows
    obtain ⟨silent, r', fails⟩ := shows
    exact .failed now drawn (silent.trans (hc.trans calls)) receives fails

/-- **A press of the author of a live paginator is answered.** -/
theorem answered (hp : room.paginator? p = some pg) (author : pg.author = some press.user)
    (active : pg.status = .active) (inside : pg.index < pg.pages.length)
    (spares : ∀ callback, pg.callback = some callback → callback.spares = true)
    (received : room.received? m = some (p, press)) : Answered room m p pg press := by
  by_cases plain : press.role = some .callback → pg.callback = none
  · cases turned hp author active inside plain received with
    | shown now drawn calls => exact .shown plain now rfl drawn calls
    | failed now drawn calls receives settles =>
      refine .failed plain (fun render => ?_) now rfl drawn calls receives settles
      have ok := render _ (Cursor.pressed_eq_move inside press.role press.values).2
      rw [drawn] at ok
      cases ok
  · rw [Classical.not_imp] at plain
    obtain ⟨role, own⟩ := plain
    obtain ⟨callback, own⟩ := Option.ne_none_iff_exists'.1 own
    obtain ⟨a, frames, receives, eq⟩ := receives received
    have outward := receives.outward
    have hp' : a.paginator? p = some pg := (outward.paginator? p).trans hp
    have runs := receive_callback hp' author active role own frames
    have pinged := (a.paginator?_ping pg.watchdog p).trans hp'
    obtain ⟨now, made⟩ := runCallback_spares press (spares callback own) pinged frames
    have settles := runCallback_settles (spares callback own) (a.ping pg.watchdog) p press frames
    rw [← runs, ← eq] at now made settles
    refine .called role own now ?_ receives (eq.trans runs) settles
    rw [made, calls_ping, outward.calls]
    exact congrArg (· ++ _) (List.append_nil _)

theorem Answered.index (h : Answered room m p pg press) : ∃ pg', (room.after m).paginator? p = some pg' ∧
    pg'.index = Cursor.move pg.pages.length pg.index press.role press.values := by
  cases h with
  | shown _ now index _ _ => exact ⟨_, now, index⟩
  | failed _ _ now index _ _ _ _ => exact ⟨_, now, index⟩
  | called role _ now _ _ _ _ => exact ⟨pg, now, by rw [role]; rfl⟩

/-! ## Runs -/

/-- The press of its author that a paginator receives by a move. -/
def authored? (room : Room) (p : Nat) (m : Move) : Option Press :=
  match room.received? m, room.paginator? p with
  | some (q, press), some pg => if q = p ∧ pg.author = some press.user then some press else none
  | _, _ => none

/-- The presses of its author that a paginator receives in a run. -/
def presses (room : Room) (p : Nat) : List Move → List Press
  | [] => []
  | m :: moves => (room.authored? p m).toList ++ (room.after m).presses p moves

theorem authored?_eq_some (h : room.authored? p m = some press) :
    room.received? m = some (p, press) ∧ ∃ pg, room.paginator? p = some pg ∧ pg.author = some press.user := by
  rw [authored?] at h
  split at h
  next q press' pg received hp =>
    split at h
    next own =>
      obtain rfl := Option.some.inj h
      obtain ⟨rfl, author⟩ := own
      exact ⟨received, pg, hp, author⟩
    · cases h
  · cases h

/-- Nothing but a press of the author moves an index that is within the pages. -/
theorem index_of_not_authored (hp : room.paginator? p = some pg) (inside : pg.index < pg.pages.length)
    (other : room.authored? p m = none) (unset : ∀ k index, m ≠ .act k (.setIndex p index)) :
    ∃ pg', (room.after m).paginator? p = some pg' ∧ pg'.index = pg.index := by
  obtain ⟨pg', hp', leafed⟩ := leafed_after hp m
  refine ⟨pg', hp', ?_⟩
  cases leafed with
  | same h => exact Paginator.index_of_leaf h
  | refitted _ h =>
    have index := Paginator.index_of_leaf h
    exact index
  | set act _ => exact absurd act (unset _ _)
  | cut lands h =>
    have index : pg'.index = _ := Paginator.index_of_leaf h
    rcases lands with rfl | ⟨press, received, author, -⟩
    · have cut : min pg.index (pg.pages.length - 1) = pg.index := by omega
      exact index.trans cut
    · rw [authored?, received, hp] at other
      simp only [author, and_self, if_true] at other
      cases other

/-- A paginator is live over a fixed number of pages, with no callback that does
anything with it. -/
structure Steady (room : Room) (p count : Nat) (pg : Paginator) : Prop where
  paginator : room.paginator? p = some pg
  active : pg.status = .active
  pages : pg.pages.length = count
  spares : ∀ callback, pg.callback = some callback → callback.spares = true

/-- A move turns an index as its press says, if it brings one of the author. -/
theorem index_after_steady {count : Nat} (steady : Steady room p count pg) (inside : pg.index < count)
    (unset : ∀ k index, m ≠ .act k (.setIndex p index)) :
    ∃ pg', (room.after m).paginator? p = some pg' ∧ pg'.index = (room.authored? p m).toList.foldl
      (fun i press => Cursor.move count i press.role press.values) pg.index := by
  obtain ⟨hp, active, rfl, spares⟩ := steady
  cases h : room.authored? p m with
  | none =>
    exact index_of_not_authored hp inside h unset
  | some press =>
    obtain ⟨received, pg₁, hp₁, author⟩ := authored?_eq_some h
    obtain rfl := Option.some.inj (hp.symm.trans hp₁)
    exact (answered hp author active inside spares received).index

/-- Over a steady run, the index is the fold of the moves of its presses, and stays
within the pages. -/
theorem index_afterAll_steady {count : Nat} {moves : List Move}
    (steady : ∀ ms, ms <+: moves → ∃ pg, Steady (room.afterAll ms) p count pg)
    (unset : ∀ k index, Move.act k (.setIndex p index) ∉ moves) (hp : room.paginator? p = some pg)
    (inside : pg.index < count) :
    ∃ pg', (room.afterAll moves).paginator? p = some pg' ∧ pg'.index < count ∧
      pg'.index = (room.presses p moves).foldl (fun i press => Cursor.move count i press.role press.values) pg.index := by
  induction moves generalizing room pg with
  | nil => exact ⟨pg, hp, inside, rfl⟩
  | cons m moves ih =>
    obtain ⟨pg₀, start⟩ := steady [] List.nil_prefix
    rw [afterAll_nil] at start
    obtain rfl := Option.some.inj (hp.symm.trans start.paginator)
    obtain ⟨pg₁, hp₁, moved⟩ := index_after_steady (m := m) start inside fun k index h => unset k index (by simp [h])
    have inside₁ : pg₁.index < count := by
      rw [moved]
      cases room.authored? p m with
      | none => exact inside
      | some press => exact (Cursor.pressed_eq_move inside press.role press.values).2
    have later : ∀ ms, ms <+: moves → ∃ pg, Steady ((room.after m).afterAll ms) p count pg := fun ms hms =>
      steady (m :: ms) (List.cons_prefix_cons.2 ⟨rfl, hms⟩)
    obtain ⟨pg', hp', inside', folded⟩ := ih later (fun k index h => unset k index (List.mem_cons_of_mem m h)) hp₁ inside₁
    refine ⟨pg', hp', inside', ?_⟩
    rw [folded, moved, presses, List.foldl_append]

/-- **Navigation refines a cursor.** A paginator that has had the same number of
pages, at least one, ever since it was created, and is live throughout a run with
no callback that does anything with it: its index starts within the pages and ends
as the fold of the moves of its author's presses, each of which is answered as it
should be. Up to `2 ^ 53` pages, a move is also what the arithmetic of numbers gives. -/
theorem navigation (ids : SessionIds) (client : Client) (environment : Environment) (contexts : Table String Context)
    (before moves : List Move) (p count : Nat) (pos : 1 ≤ count)
    (fixed : ∀ ms, ms <+: before → ∀ pg,
      ((openedWith ids client environment contexts).afterAll ms).paginator? p = some pg → pg.pages.length = count)
    (steady : ∀ ms, ms <+: moves → ∃ pg,
      Steady (((openedWith ids client environment contexts).afterAll before).afterAll ms) p count pg)
    (unset : ∀ k index, Move.act k (.setIndex p index) ∉ moves) :
    (∃ pg pg', ((openedWith ids client environment contexts).afterAll before).paginator? p = some pg ∧
      (((openedWith ids client environment contexts).afterAll before).afterAll moves).paginator? p = some pg' ∧
      pg.index < count ∧
      pg'.index = (((openedWith ids client environment contexts).afterAll before).presses p moves).foldl
        (fun i press => Cursor.move count i press.role press.values) pg.index) ∧
    (∀ ms m press, ms ++ [m] <+: moves →
      (((openedWith ids client environment contexts).afterAll before).afterAll ms).authored? p m = some press →
      ∃ pg, (((openedWith ids client environment contexts).afterAll before).afterAll ms).paginator? p = some pg ∧
        Answered (((openedWith ids client environment contexts).afterAll before).afterAll ms) m p pg press) ∧
    (count ≤ 2 ^ 53 → ∀ i < count, ∀ role values,
      Cursor.assigned count (Cursor.written count i role values).1 = ((Cursor.move count i role values : Nat) : Number)) := by
  obtain ⟨pg, start⟩ := steady [] List.nil_prefix
  have hp : ((openedWith ids client environment contexts).afterAll before).paginator? p = some pg := start.paginator
  have inside : pg.index < count :=
    index_lt_throughout rfl pos (fun ms hms pg hp => (fixed ms hms pg hp).le) before (List.prefix_refl _) hp
  have unsetIn : ∀ {ms}, ms <+: moves → ∀ k index, Move.act k (.setIndex p index) ∉ ms := fun hms k index h =>
    unset k index (hms.subset h)
  refine ⟨?_, fun ms m press hms authored => ?_, fun small i hi role values => ?_⟩
  · obtain ⟨pg', hp', -, folded⟩ := index_afterAll_steady steady unset hp inside
    exact ⟨pg, pg', hp, hp', inside, folded⟩
  · have within : ms <+: moves := (List.prefix_append ms [m]).trans hms
    obtain ⟨pg₁, hp₁, inside₁, -⟩ := index_afterAll_steady (fun ms' hms' => steady ms' (hms'.trans within))
      (unsetIn within) hp inside
    obtain ⟨pg₂, now⟩ := steady ms within
    obtain rfl := Option.some.inj (hp₁.symm.trans now.paginator)
    obtain ⟨received, pg₃, hp₃, author⟩ := authored?_eq_some authored
    obtain rfl := Option.some.inj (hp₁.symm.trans hp₃)
    exact ⟨pg₁, hp₁, answered hp₁ author now.active (now.pages ▸ inside₁) now.spares received⟩
  · obtain ⟨leads, within⟩ := Cursor.pressed_eq_move hi role values
    have written := (Cursor.assigned_written small (hi.trans_le small) role values).1
    have cut : min (Cursor.move count i role values) (count - 1) = Cursor.move count i role values := by omega
    rw [written, leads, cut]

/-- Three pages, turned by a button and by menu entries, one of which leads nowhere. -/
theorem navigation_turned :
    let before : List Move := [.act 0 (.create (.pages [.text "one" "" "" "", .text "two" "" "" "",
        .text "three" "" "" ""]) (.record []) none),
      .act 1 (.send 0 .send (.user "ada")), .turn]
    let moves : List Move := [.act 2 (.interact 0 ⟨"ada", .control 0 "last", []⟩), .turn,
      .act 3 (.interact 0 ⟨"ada", .control 0 "select", ["003"]⟩), .act 4 (.dispatch ⟨"bob", .control 0 "first", []⟩),
      .act 5 (.interact 0 ⟨"ada", .control 0 "select", ["0001"]⟩), .turn]
    let room := (openedWith .numbered .plain [] []).afterAll before
    ∃ pg', (room.afterAll moves).paginator? 0 = some pg' ∧ pg'.index = 1 := by
  intro before moves room
  have three : ∀ n < before.length + 1, ((openedWith .numbered .plain [] []).afterAll (before.take n)).paginators.all
      (fun o => o.all fun pg => pg.pages.length = 3) = true := by decide +kernel
  have fixed : ∀ ms, ms <+: before → ∀ pg,
      ((openedWith .numbered .plain [] []).afterAll ms).paginator? 0 = some pg → pg.pages.length = 3 := by
    refine throughout_of_take fun n hn pg hp => ?_
    rw [paginator?, Option.join_eq_some_iff] at hp
    exact of_decide_eq_true (List.all_eq_true.1 (three n hn) _ (List.mem_of_getElem? hp))
  have live : ∀ n < moves.length + 1, ((room.afterAll (moves.take n)).paginator? 0).any
      (fun pg => pg.status = .active && pg.pages.length = 3 && pg.callback.isNone) = true := by decide +kernel
  have steady : ∀ ms, ms <+: moves → ∃ pg, Steady (room.afterAll ms) 0 3 pg := by
    refine throughout_of_take fun n hn => ?_
    obtain ⟨pg, hp, hpg⟩ := (Option.any_eq_true _ _).1 (live n hn)
    simp only [Bool.and_eq_true, decide_eq_true_eq, Option.isNone_iff_eq_none] at hpg
    obtain ⟨⟨active, pages⟩, none⟩ := hpg
    exact ⟨pg, hp, active, pages, fun callback own => by rw [none] at own; cases own⟩
  have unset : ∀ k index, Move.act k (.setIndex 0 index) ∉ moves := by
    intro k index h
    simp [moves] at h
  obtain ⟨pg, pg', hp, hp', -, folded⟩ :=
    (navigation .numbered .plain [] [] before moves 0 3 (by decide) fixed steady unset).1
  have first : (room.paginator? 0).map (·.index) = some 0 := by decide +kernel
  have hi : pg.index = 0 := by
    rw [hp] at first
    exact Option.some.inj first
  have moved : (room.presses 0 moves).foldl (fun i press => Cursor.move 3 i press.role press.values) 0 = 1 := by
    decide +kernel
  exact ⟨pg', hp', by rw [folded, hi]; exact moved⟩

end Room

end Folio
