/-
What a move does to the pages, the indices and the callbacks, and which page it
shows. `Leafing` has one case for each way, and `leafing_after` says that there is
no other; `leafed_after` is what that makes of one paginator.
-/
import Folio.Proofs.Room.Change
import Folio.Proofs.Room.Leaf

namespace Folio.Room

variable {a b c room : Room} {p : Nat} {pg : Paginator} {m : Move} {frames : List Frame}

/-! ## Turns -/

theorem watchOver_blank (room : Room) (p : Nat) (seconds : Rat) : Blank room (room.watchOver p seconds) := by
  rw [watchOver]
  split
  · have started : ∀ (agenda : Agenda Nat Task) (watchers : List Watcher),
        Blank room { room with agenda, watchers } := fun _ _ => .of_eq rfl rfl
    exact (started _ _).trans (modifyPaginator_blank _ p (f := fun pg => { pg with watchdog := some _ }) fun _ _ => rfl)
  · exact room.modifyPaginator_blank p fun _ _ => rfl

theorem goLive_blank (room : Room) (p : Nat) (origin : Origin) (h : Handle) : Blank room (room.goLive p origin h) := by
  rw [goLive]
  split
  · exact .refl room
  next pg hp =>
  have delivered : Blank room (room.modifyPaginator p fun pg =>
      { pg with message := some h, author := room.authorOf? origin, status := .active }) :=
    room.modifyPaginator_blank p fun _ _ => rfl
  have watched : ∀ {r : Room}, Blank room r → Blank room
      (((r.callOff pg.watchdog).watchOver p pg.config.idleTimeoutSeconds).log
        (.sent pg.session pg.pages.length pg.config.idleTimeoutSeconds)) := fun blank =>
    ((blank.trans (callOff_blank _ _)).trans (watchOver_blank _ p _)).trans (log_blank _ _)
  simp only
  split
  · exact watched delivered
  · exact watched ((delivered.trans (register_blank _ _ _ _)).trans (modifyPaginator_blank _ p fun _ _ => rfl))

theorem wake_blank (room : Room) (w : Nat) (pinged : Bool) : Blank room (room.wake w pinged) := by
  have gone := room.modifyWatchdog_blank w fun wd a => ((wd.resume .woken w pinged a).1, (wd.resume .woken w pinged a).2.1)
  have expires : ∀ r : Room, Blank r (r.expire w) := by
    intro r
    rw [expire]
    split
    · exact .refl r
    split
    · exact .refl r
    split
    · exact .refl r
    split
    · exact (r.log_blank _).trans (shutDown_blank _ _ _ _ _)
    · exact .refl r
  cases hw : room.watchers[w]? with
  | none =>
    rw [wake, hw]
    exact .refl room
  | some watcher =>
    rw [modifyWatchdog, hw] at gone
    simp only [wake, hw]
    split
    · exact gone
    · exact gone
    · exact gone.trans (expires _)

theorem apologize_blank (room : Room) (press : Press) (fault : Fault) (frames : List Frame) :
    Blank room (room.apologize press fault frames) := by
  obtain ⟨es, outward, rest⟩ := room.apologize_outward press fault frames
  refine outward.blank fun e he => ?_
  rcases List.mem_cons.1 he with rfl | he
  · rfl
  · rcases rest with rfl | rfl
    · cases he
    · rw [List.mem_singleton.1 he]
      rfl

theorem resume_blank (room : Room) (frame : Frame) (frames : List Frame) (outcome : Outcome) :
    Blank room (room.resume frame frames outcome) := by
  have finished : ∀ o, Blank room (room.finish frames o) := fun o => room.finish_blank frames o
  cases frame with
  | pass => exact finished outcome
  | caller step paginator => exact .of_eq rfl rfl
  | yield a | fail fault => cases outcome <;> exact finished _
  | fetch command id =>
    cases outcome with
    | error fault => exact finished _
    | ok a => exact (room.relay_outward (.fetchAnswer command id) frames).blank (by simp [Event.page?, Call.payload?])
  | deliver p origin =>
    cases outcome with
    | error fault => exact finished _
    | ok a =>
      cases a with
      | message m => exact (room.goLive_blank p origin m).trans (finish_blank _ frames _)
      | nothing | flag b | value v | sent m held => exact finished _
  | expire p =>
    cases outcome with
    | ok a => exact finished _
    | error fault =>
      rw [resume]
      split
      · exact (room.log_blank _).trans (finish_blank _ frames _)
      · exact finished _
  | guard press =>
    cases outcome with
    | ok a => exact finished _
    | error fault => exact room.apologize_blank press fault frames
  | notice press =>
    cases outcome with
    | ok a => exact finished _
    | error fault => exact (room.log_blank _).trans (finish_blank _ frames _)

theorem turn_blank (room : Room) : Blank room (room.after .turn) := by
  cases ready : room.agenda.ready with
  | nil =>
    rw [after_turn_nil ready]
    exact .refl room
  | cons t rest =>
    have popped : Blank room (room.popped rest) := .of_eq rfl rfl
    rw [after_turn ready]
    cases t with
    | woken w pinged => exact popped.trans (wake_blank _ w pinged)
    | resume frames outcome =>
      cases frames with
      | nil => exact popped
      | cons frame frames => exact popped.trans (resume_blank _ frame frames outcome)

theorem fire_blank (room : Room) (limit : Number) : Blank room (room.after (.fire limit)) := by
  rw [after, Timed.fire?]
  split
  · exact .refl room
  next timer rest _ =>
  split
  · have timed : Blank room { room with agenda := { room.agenda with timers := rest }.moveTo timer.due } := .of_eq rfl rfl
    exact timed.trans (modifyWatchdog_blank _ timer.key (Watchdog.lapse .woken timer.key))
  · exact .refl room

/-! ## Moves -/

/-- A paginator is at its first page, with a configuration that the room accepts. -/
def Newcomer (room : Room) (pg : Paginator) : Prop :=
  pg.index = 0 ∧ ∃ overrides, Config.resolveValue room.environment overrides = .ok pg.config

/-- What a move can do to the pages, the indices and the callbacks. -/
inductive Leafing (room : Room) (m : Move) (b : Room) : Prop where
  | blank (h : Blank room b)
  /-- A page is shown, at the index or where a press of the author leads. -/
  | drawn {p i : Nat} {pg : Paginator} (was : room.paginator? p = some pg)
      (lands : i = pg.index ∨ ∃ press, room.received? m = some (p, press) ∧ pg.author = some press.user ∧
        pg.status = .active ∧ Lands press pg i)
      (h : Draws p i room b)
  /-- The index is set. -/
  | set {k p : Nat} {pg : Paginator} {index : Value} (act : m = .act k (.setIndex p index))
      (was : room.paginator? p = some pg) (journal : b.journal = room.journal)
      (leaves : b.leaves = room.leaves.modify p (Option.map (·.turnTo (Number.ofValue index))))
  /-- The pages are changed in place, or the callback. -/
  | refitted {p : Nat} {pages : List Page} {callback : Option Callback} (journal : b.journal = room.journal)
      (act : (∃ k start removed drafts, m = .act k (.splice p start removed drafts)) ∨
        ∃ k, m = .act k (.setCallback p callback))
      (leaves : b.leaves = room.leaves.modify p (Option.map fun pg => { pg with pages, callback }))
  /-- A paginator is created, or a number taken by none. -/
  | created {o : Option Paginator} (newcomer : ∀ pg, o = some pg → Newcomer room pg) (journal : b.journal = room.journal)
      (leaves : b.leaves = room.leaves ++ [o])

theorem Leafing.of_leafs {lands : Paginator → Nat → Prop} (h : Leafs p lands room b)
    (le : ∀ pg i, room.paginator? p = some pg → lands pg i → i = pg.index ∨ ∃ press,
      room.received? m = some (p, press) ∧ pg.author = some press.user ∧ pg.status = .active ∧ Lands press pg i) :
    Leafing room m b := by
  rcases h with blank | ⟨pg, i, hp, hi, draws⟩
  · exact .blank blank
  · exact .drawn hp (le pg i hp hi) draws

/-- A press that is received leads where it should. -/
theorem received_leafing {press : Press} (h : room.received? m = some (p, press)) : Leafing room m (room.after m) := by
  obtain ⟨a, frames, receives, eq⟩ := receives h
  have outward := receives.outward
  have leafs := (a.receive_leafs p press frames).after outward.hush outward.paginators
  rw [eq]
  exact .of_leafs leafs fun pg i hp ⟨author, active, lands⟩ => .inr ⟨press, h, author, active, lands⟩

theorem withPaginator_leafing {use : Paginator → Room × Returned}
    (h : ∀ pg, room.paginator? p = some pg → Leafing room m (use pg).1) :
    Leafing room m (room.withPaginator p use).1 := by
  rw [withPaginator]
  split
  next pg hp => exact h pg hp
  · exact .blank (.refl room)

/-- A press that no paginator receives shows no page. -/
theorem Unpaged.blank (h : Unpaged a b) : Blank a b := by
  obtain ⟨r, es, outward, shows⟩ := h
  have same : b.leaves = a.leaves := by
    rw [leaves, outward.paginators]
    rfl
  exact ⟨same, es, outward.journal, fun e he => Event.page?_eq_none (shows e he)⟩

/-- A press turns to a page if a paginator receives it. -/
theorem press_leafing {k : Nat} {act : Act} (isPress : act.isPress = true) :
    Leafing room (.act k act) (room.after (.act k act)) := by
  cases received : room.received? (.act k act) with
  | none => exact .blank (unreceived isPress received).blank
  | some press => exact received_leafing received

theorem release_blank {position : Nat} {failure : Option String} (h : room.release position failure = some b) :
    Blank room b := by
  rw [release, Option.map_eq_some_iff] at h
  obtain ⟨call, -, h⟩ := h
  have erased : Blank room { room with held := room.held.eraseIdx position } := .of_eq rfl rfl
  split at h
  · exact h ▸ erased.trans (finish_blank _ call.frames _)
  · exact h ▸ erased.trans (succeed_outward _ call.call call.frames).hush

theorem act_leafing (room : Room) (k : Nat) (a : Act) : Leafing room (.act k a) (act k a room).1 := by
  cases a with
  | create source overrides callback =>
    rw [act, create]
    simp only
    split
    · exact .created (o := none) (by simp) rfl (List.map_append ..)
    next pages _ =>
    split
    · exact .created (o := none) (by simp) rfl (List.map_append ..)
    next config accepted =>
      refine .created (o := some (Paginator.create _ pages config callback)) ?_ rfl (List.map_append ..)
      rintro pg ⟨⟩
      exact ⟨rfl, overrides, accepted⟩
  | setIndex p index =>
    refine withPaginator_leafing fun pg hp => .set rfl hp rfl ?_
    refine room.leaves_modifyPaginator p fun pg' hp' => ?_
    obtain rfl := Option.some.inj (hp.symm.trans hp')
    rfl
  | setCallback p callback =>
    refine withPaginator_leafing fun pg hp => @Leafing.refitted _ _ _ p pg.pages callback rfl (.inr ⟨k, rfl⟩) ?_
    refine room.leaves_modifyPaginator p fun pg' hp' => ?_
    obtain rfl := Option.some.inj (hp.symm.trans hp')
    rfl
  | splice p start removed drafts =>
    refine withPaginator_leafing fun pg hp => ?_
    simp only
    split
    · exact .blank (.refl room)
    next pages _ =>
      refine @Leafing.refitted _ _ _ p (pg.splice start removed pages).1.pages pg.callback rfl
        (.inl ⟨k, start, removed, drafts, rfl⟩) ?_
      refine room.leaves_modifyPaginator p fun pg' hp' => ?_
      obtain rfl := Option.some.inj (hp.symm.trans hp')
      rfl
  | showPayload p =>
    refine withPaginator_leafing fun pg hp => .drawn hp (.inl rfl) ⟨leaves_clamp hp, [], (List.append_nil _).symm, by simp⟩
  | send p via origin => exact .of_leafs (room.send_leafs p via origin [.caller k (some p)]) fun _ _ _ => .inl
  | stop p => exact .blank (room.stop_blank p [.caller k none])
  | update p => exact .of_leafs (room.update_leafs p [.caller k none]) fun _ _ _ => .inl
  | interact _ _ | dispatch _ | emit _ _ _ => exact press_leafing rfl
  | wrap kind draft =>
    rw [act, withPress]
    split <;> exact .blank (.refl room)
  | register session names name reaction | unregister session => exact .blank (.of_eq rfl rfl)
  | clientRegister session names => exact .blank (room.register_blank session names .silent)
  | clientUnregister session => exact .blank (room.unregister_blank session)
  | has customId | author origin => exact .blank (.refl room)
  | setFailure call message | setHolding on => exact .blank (.of_eq rfl rfl)
  | release position failure =>
    rw [act]
    split
    next h => exact .blank (release_blank h)
    · exact .blank (.refl room)

/-- **What a move can do to the pages, the indices and the callbacks.** -/
theorem leafing_after (room : Room) (m : Move) : Leafing room m (room.after m) := by
  cases m with
  | act k a => exact room.act_leafing k a
  | turn => exact .blank room.turn_blank
  | fire limit => exact .blank (room.fire_blank limit)
  | moveTo time => exact .blank (.of_eq rfl rfl)

/-! ## One paginator -/

/-- What a move can make of the pages, the index and the callback of a paginator. -/
inductive Leafed (room : Room) (m : Move) (p : Nat) (pg pg' : Paginator) : Prop where
  | same (h : pg'.leaf = pg.leaf)
  | cut {i : Nat} (lands : i = pg.index ∨ ∃ press, room.received? m = some (p, press) ∧
        pg.author = some press.user ∧ pg.status = .active ∧ Lands press pg i)
      (h : pg'.leaf = (pg.cutTo i).leaf)
  | set {k : Nat} {index : Value} (act : m = .act k (.setIndex p index))
      (h : pg'.leaf = (pg.turnTo (Number.ofValue index)).leaf)
  | refitted {pages : List Page} {callback : Option Callback}
      (act : (∃ k start removed drafts, m = .act k (.splice p start removed drafts)) ∨
        ∃ k, m = .act k (.setCallback p callback))
      (h : pg'.leaf = { pg with pages, callback }.leaf)

theorem exists_of_leaves {ls : List (Option Paginator)} (h : b.leaves = ls) {r : Paginator}
    (hr : (ls[p]?).join = some r) : ∃ pg', b.paginator? p = some pg' ∧ pg'.leaf = r := by
  rw [← h, leaves_getElem?] at hr
  exact Option.map_eq_some_iff.1 hr

/-- A paginator is still there after a move, and this is what became of it. -/
theorem leafed_after (hp : room.paginator? p = some pg) (m : Move) :
    ∃ pg', (room.after m).paginator? p = some pg' ∧ Leafed room m p pg pg' := by
  have old : (room.leaves[p]?).join = some pg.leaf := by rw [leaves_getElem?, hp, Option.map_some]
  -- What one paginator becomes, and the others stay.
  have modified : ∀ (q : Nat) (f : Paginator → Paginator), ((room.leaves.modify q (Option.map f))[p]?).join =
      some (if q = p then f pg.leaf else pg.leaf) := by
    intro q f
    rw [List.getElem?_modify]
    cases hl : room.leaves[p]? with
    | none =>
      rw [hl] at old
      cases old
    | some o =>
      rw [hl, Option.join_some] at old
      subst old
      split <;> rfl
  have found : ∀ {q : Nat} {f : Paginator → Paginator}, (room.after m).leaves = room.leaves.modify q (Option.map f) →
      ∃ pg', (room.after m).paginator? p = some pg' ∧ pg'.leaf = if q = p then f pg.leaf else pg.leaf :=
    fun leaves => exists_of_leaves leaves (modified _ _)
  cases room.leafing_after m with
  | blank h =>
    obtain ⟨pg', hp', leaf⟩ := exists_of_leaves h.leaves old
    exact ⟨pg', hp', .same leaf⟩
  | @drawn q i pg₀ was lands h =>
    obtain ⟨pg', hp', leaf⟩ := found h.leaves
    refine ⟨pg', hp', ?_⟩
    split at leaf
    next hq =>
      subst hq
      obtain rfl := Option.some.inj (hp.symm.trans was)
      exact .cut lands leaf
    · exact .same leaf
  | @set k q pg₀ index act was _ h =>
    obtain ⟨pg', hp', leaf⟩ := found h
    refine ⟨pg', hp', ?_⟩
    split at leaf
    next hq =>
      subst hq
      exact .set act leaf
    · exact .same leaf
  | @refitted q pages callback _ act h =>
    obtain ⟨pg', hp', leaf⟩ := found h
    refine ⟨pg', hp', ?_⟩
    split at leaf
    next hq =>
      subst hq
      exact .refitted act leaf
    · exact .same leaf
  | @created o _ _ h =>
    have grown : ((room.leaves ++ [o])[p]?).join = some pg.leaf := by
      have known : p < room.leaves.length := by
        refine Nat.lt_of_not_le fun beyond => ?_
        rw [List.getElem?_eq_none beyond] at old
        cases old
      rw [List.getElem?_append_left known]
      exact old
    obtain ⟨pg', hp', leaf⟩ := exists_of_leaves h grown
    exact ⟨pg', hp', .same leaf⟩

/-- A paginator that is there after a move was there before, or is new. -/
theorem paginator?_before {pg' : Paginator} (hp' : (room.after m).paginator? p = some pg') :
    (∃ pg, room.paginator? p = some pg) ∨ Newcomer room pg' := by
  cases hp : room.paginator? p with
  | some pg => exact .inl ⟨pg, rfl⟩
  | none =>
    have new : ((room.after m).leaves[p]?).join = some pg'.leaf := by rw [leaves_getElem?, hp', Option.map_some]
    have old : (room.leaves[p]?).join = none := by rw [leaves_getElem?, hp, Option.map_none]
    have absent : ∀ {q : Nat} {f : Paginator → Paginator},
        (room.after m).leaves = room.leaves.modify q (Option.map f) → False := by
      intro q f h
      rw [h, List.getElem?_modify] at new
      cases hl : room.leaves[p]? with
      | none =>
        rw [hl] at new
        cases new
      | some o =>
        rw [hl, Option.join_some] at old
        subst old
        rw [hl] at new
        split at new <;> cases new
    cases room.leafing_after m with
    | blank h =>
      rw [h.leaves, old] at new
      cases new
    | drawn _ _ h => exact (absent h.leaves).elim
    | set _ _ _ h => exact (absent h).elim
    | refitted _ _ h => exact (absent h).elim
    | @created o newcomer _ h =>
      rw [h] at new
      rcases Nat.lt_or_ge p room.leaves.length with known | beyond
      · rw [List.getElem?_append_left known, old] at new
        cases new
      · rw [List.getElem?_append_right beyond, List.getElem?_singleton] at new
        split at new
        · obtain rfl : o = some pg'.leaf := new
          exact .inr (newcomer pg'.leaf rfl)
        · cases new

end Folio.Room
