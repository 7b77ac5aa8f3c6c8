/-
Leafing through pages: what becomes of the pages, the index and the callback of
each paginator, and which pages are shown. `Blank a b` says that on the way from
`a` to `b` no page was turned and none was shown, and `Draws p i a b` that `p` was
turned to `i`, cut into range, and nothing else shown than the page there.
Every operation that shows a page is of this second kind: whatever the index is
when it is about to be shown, it is cut into range first.
-/
import Folio.Proofs.Rendering
import Folio.Proofs.Room.Receipt
import Folio.Proofs.Room.Shifted

namespace Folio

/-- A paginator with what turning its pages changes, and nothing else. -/
def Paginator.leaf (pg : Paginator) : Paginator :=
  { pg with status := .unsent, message := none, author := none, watchdog := none, registered := false }

theorem Paginator.index_of_leaf {pg pg' : Paginator} (h : pg'.leaf = pg.leaf) : pg'.index = pg.index := by
  have same : pg'.leaf.index = pg.leaf.index := by rw [h]
  exact same

/-- The paginator at an index that is cut into range. -/
def Paginator.cutTo (i : Nat) (pg : Paginator) : Paginator := { pg with index := min i pg.last }

/-- The page that an event shows, and its controls. -/
def Event.page? : Event → Option (Embed × ComponentRows)
  | .call c =>
    match c.payload? with
    | some (.page embed rows) => some (embed, rows)
    | _ => none
  | _ => none

theorem Event.page?_eq_none {e : Event} (h : e.payload? = none) : e.page? = none := by
  cases e with
  | call c =>
    have silent : c.payload? = none := h
    rw [Event.page?, silent]
  | listening | registered | unregistered | log | callback | handler => rfl

namespace Room

variable {a b c room : Room} {p : Nat} {pg : Paginator} {m : Move} {es : List Event} {frames : List Frame}

/-- The pages, indices and callbacks. -/
def leaves (room : Room) : List (Option Paginator) := room.paginators.map (Option.map Paginator.leaf)

theorem leaves_getElem? (room : Room) (q : Nat) :
    (room.leaves[q]?).join = (room.paginator? q).map Paginator.leaf := by
  rw [leaves, List.getElem?_map, paginator?]
  cases room.paginators[q]? <;> rfl

theorem leaves_modifyPaginator (room : Room) (p : Nat) {f g : Paginator → Paginator}
    (h : ∀ pg, room.paginator? p = some pg → (f pg).leaf = g pg.leaf) :
    (room.modifyPaginator p f).leaves = room.leaves.modify p (Option.map g) := by
  refine List.ext_getElem? fun q => ?_
  simp only [leaves, modifyPaginator, List.getElem?_modify, List.getElem?_map]
  by_cases hq : p = q
  · subst hq
    cases hp : room.paginators[p]? with
    | none => rfl
    | some o =>
      cases o with
      | none => simp
      | some pg => simp [h pg (by rw [paginator?, hp]; rfl)]
  · simp [hq]

theorem leaves_modifyPaginator_same (room : Room) (p : Nat) {f : Paginator → Paginator}
    (h : ∀ pg, room.paginator? p = some pg → (f pg).leaf = pg.leaf) : (room.modifyPaginator p f).leaves = room.leaves := by
  rw [room.leaves_modifyPaginator p (g := id) h, Option.map_id, List.modify_id]

/-! ## No page shown, or one -/

/-- No page was turned and none was shown. -/
structure Blank (a b : Room) : Prop where
  leaves : b.leaves = a.leaves
  journal : ∃ es, b.journal = a.journal ++ es ∧ ∀ e ∈ es, e.page? = none

/-- A paginator was turned to an index, cut into range, and at most the page there shown. -/
structure Draws (p i : Nat) (a b : Room) : Prop where
  leaves : b.leaves = a.leaves.modify p (Option.map (Paginator.cutTo i))
  journal : ∃ es, b.journal = a.journal ++ es ∧ ∀ e ∈ es, ∀ page, e.page? = some page →
    ∃ pg, b.paginator? p = some pg ∧ pg.payload = .ok (.page page.1 page.2)

namespace Blank

theorem refl (room : Room) : Blank room room := ⟨rfl, [], (List.append_nil _).symm, by simp⟩

theorem trans (h : Blank a b) (h' : Blank b c) : Blank a c := by
  obtain ⟨leaves, es, journal, blank⟩ := h
  obtain ⟨leaves', es', journal', blank'⟩ := h'
  refine ⟨leaves'.trans leaves, es ++ es', by rw [journal', journal, List.append_assoc], fun e he => ?_⟩
  rcases List.mem_append.1 he with he | he
  · exact blank e he
  · exact blank' e he

theorem draws {i : Nat} (h : Blank a b) (h' : Draws p i b c) : Draws p i a c := by
  obtain ⟨leaves, es, journal, blank⟩ := h
  obtain ⟨leaves', es', journal', drawn⟩ := h'
  refine ⟨leaves ▸ leaves', es ++ es', by rw [journal', journal, List.append_assoc], fun e he page hpage => ?_⟩
  rcases List.mem_append.1 he with he | he
  · rw [blank e he] at hpage
    cases hpage
  · exact drawn e he page hpage

/-- What leaves the journal and the paginators alone. -/
theorem of_eq (journal : b.journal = a.journal) (paginators : b.paginators = a.paginators) : Blank a b :=
  ⟨by rw [Room.leaves, paginators, Room.leaves], [], by rw [journal, List.append_nil], by simp⟩

end Blank

theorem Outward.blank (h : Outward es a b) (blank : ∀ e ∈ es, e.page? = none) : Blank a b :=
  ⟨by rw [leaves, h.paginators, leaves], es, h.journal, blank⟩

theorem Outward.hush (h : Outward [] a b) : Blank a b := h.blank (by simp)

/-- What changes a paginator, but not its pages. -/
theorem modifyPaginator_blank (room : Room) (p : Nat) {f : Paginator → Paginator}
    (h : ∀ pg, room.paginator? p = some pg → (f pg).leaf = pg.leaf) : Blank room (room.modifyPaginator p f) :=
  ⟨room.leaves_modifyPaginator_same p h, [], (List.append_nil _).symm, by simp⟩

theorem modifyWatchdog_blank (room : Room) (w : Nat)
    (f : Watchdog Nat → Agenda Nat Task → Watchdog Nat × Agenda Nat Task) : Blank room (room.modifyWatchdog w f) := by
  rw [modifyWatchdog]
  split
  · exact .of_eq rfl rfl
  · exact .refl room

theorem ping_blank (room : Room) (w : Option Nat) : Blank room (room.ping w) := by
  cases w with
  | none => exact .refl room
  | some w => exact room.modifyWatchdog_blank w (Watchdog.ping .woken)

theorem callOff_blank (room : Room) (w : Option Nat) : Blank room (room.callOff w) := by
  cases w with
  | none => exact .refl room
  | some w => exact room.modifyWatchdog_blank w (Watchdog.stop .woken)

theorem register_blank (room : Room) (session : String) (names : List String) (handler : Handler) :
    Blank room (room.register session names handler) := by
  rw [register]
  split
  · exact .of_eq rfl rfl
  · exact ⟨rfl, _, rfl, by simp [Event.page?]⟩

theorem unregister_blank (room : Room) (session : String) : Blank room (Room.unregister room session) := by
  rw [Room.unregister]
  split
  · exact .of_eq rfl rfl
  · exact ⟨rfl, _, rfl, by simp [Event.page?]⟩

theorem log_blank (room : Room) (line : LogLine) : Blank room (room.log line) :=
  (room.log_outward line).blank (by simp [Event.page?])

theorem record_blank (room : Room) {e : Event} (h : e.page? = none) : Blank room (room.record e) :=
  (room.record_outward e).blank (by simpa using h)

theorem finish_blank (room : Room) (frames : List Frame) (outcome : Outcome) :
    Blank room (room.finish frames outcome) := (room.finish_outward frames outcome).hush

theorem acknowledge_blank (room : Room) (press : Press) (frames : List Frame) :
    Blank room (room.acknowledge press frames) :=
  (room.acknowledge_outward press frames).blank (by simp [Event.page?, Call.payload?])

theorem notify_blank (room : Room) (press : Press) (text : String) (frames : List Frame) :
    Blank room (room.notify press text frames) :=
  (room.notify_outward press text frames).blank (by simp [Event.page?, Call.payload?])

/-! ## Turning a page and showing it -/

theorem page?_call {call : Call} {payload : Payload} (shows : call.payload? = some payload) {page : Embed × ComponentRows}
    (h : (Event.call call).page? = some page) : payload = .page page.1 page.2 := by
  rw [Event.page?, shows] at h
  cases payload with
  | page embed rows => rw [← Option.some.inj h]
  | controls rows => cases h
  | notice text => cases h

theorem leaves_clamp (hp : room.paginator? p = some pg) :
    (room.modifyPaginator p Paginator.clamp).leaves = room.leaves.modify p (Option.map (Paginator.cutTo pg.index)) :=
  room.leaves_modifyPaginator p fun pg' hp' => by
    obtain rfl := Option.some.inj (hp.symm.trans hp')
    rfl

/-- A page is sent out, once the index is cut into range. -/
theorem sent_draws (hp : room.paginator? p = some pg) {payload : Payload} (drawn : pg.clamp.payload = .ok payload)
    (sent : Outward [] (room.modifyPaginator p Paginator.clamp) b ∨ ∃ call : Call, call.payload? = some payload ∧
      Outward [.call call] (room.modifyPaginator p Paginator.clamp) b) : Draws p pg.index room b := by
  have leaves := leaves_clamp hp
  have clamped := room.paginator?_modifyPaginator p p Paginator.clamp
  rw [if_pos rfl, hp, Option.map_some] at clamped
  rcases sent with silent | ⟨call, shows, outward⟩
  · exact ⟨silent.hush.leaves.trans leaves, [], silent.journal, by simp⟩
  · refine ⟨?_, _, outward.journal, fun e he page hpage => ?_⟩
    · rw [Room.leaves, outward.paginators]
      exact leaves
    · obtain rfl := List.mem_singleton.1 he
      obtain rfl := page?_call shows hpage
      exact ⟨_, (outward.paginator? p).trans clamped, drawn⟩

/-- A page cannot be rendered, though the index was cut into range. -/
theorem failed_draws (hp : room.paginator? p = some pg) (frames : List Frame) (outcome : Outcome) :
    Draws p pg.index room ((room.modifyPaginator p Paginator.clamp).finish frames outcome) := by
  have silent := (room.modifyPaginator p Paginator.clamp).finish_outward frames outcome
  exact ⟨silent.hush.leaves.trans (leaves_clamp hp), [], silent.journal, by simp⟩

/-- Where the paginator stood before it was turned makes no difference. -/
theorem Draws.turned {i : Nat} {f : Paginator → Paginator} (h : Draws p i (room.modifyPaginator p f) b)
    (keeps : ∀ pg, (f pg).leaf = f pg.leaf) (cut : ∀ pg, Paginator.cutTo i (f pg) = Paginator.cutTo i pg) :
    Draws p i room b := by
  refine ⟨?_, h.journal⟩
  rw [h.leaves, room.leaves_modifyPaginator p fun pg _ => keeps pg, List.modify_modify_eq]
  congr 1
  funext o
  cases o with
  | none => rfl
  | some pg => exact congrArg some (cut pg)

/-- What an operation does to the pages of a paginator: nothing, or it is turned
to one of the indices `Lands` and that page shown. -/
def Leafs (p : Nat) (lands : Paginator → Nat → Prop) (a b : Room) : Prop :=
  Blank a b ∨ ∃ pg i, a.paginator? p = some pg ∧ lands pg i ∧ Draws p i a b

/-- The page at the index is shown. -/
def Stays (pg : Paginator) (i : Nat) : Prop := i = pg.index

theorem Leafs.mono {lands lands' : Paginator → Nat → Prop} (h : Leafs p lands a b)
    (le : ∀ pg i, a.paginator? p = some pg → lands pg i → lands' pg i) : Leafs p lands' a b :=
  h.imp id fun ⟨pg, i, hp, hi, draws⟩ => ⟨pg, i, hp, le pg i hp hi, draws⟩

theorem Leafs.after {lands : Paginator → Nat → Prop} (h : Leafs p lands b c) (blank : Blank a b)
    (same : b.paginators = a.paginators) : Leafs p lands a c := by
  rcases h with h | ⟨pg, i, hp, hi, draws⟩
  · exact .inl (blank.trans h)
  · rw [paginator?, same] at hp
    exact .inr ⟨pg, i, hp, hi, blank.draws draws⟩

theorem send_leafs (room : Room) (p : Nat) (via : Via) (origin : Origin) (frames : List Frame) :
    Leafs p Stays room (room.send p via origin frames) := by
  rw [send]
  split
  · exact .inl (room.finish_blank _ _)
  next pg hp =>
  split
  · exact .inl (room.finish_blank _ _)
  split
  · exact .inl (room.finish_blank _ _)
  refine .inr ⟨pg, pg.index, hp, rfl, ?_⟩
  split
  · exact failed_draws hp frames _
  next payload drawn =>
    exact sent_draws hp drawn (deliver_sendsOut _ via origin payload (.deliver p origin :: frames)).outward

theorem update_leafs (room : Room) (p : Nat) (frames : List Frame) :
    Leafs p Stays room (room.update p frames) := by
  rw [update]
  split
  · exact .inl (room.finish_blank _ _)
  next pg hp =>
  split
  · exact .inl (room.finish_blank _ _)
  next h _ =>
  refine .inr ⟨pg, pg.index, hp, rfl, ?_⟩
  split
  · exact failed_draws hp frames _
  next payload drawn =>
    exact sent_draws hp drawn (.inr ⟨_, rfl, edit_outward _ h payload (.yield .nothing :: frames)⟩)

theorem replace_draws (hp : room.paginator? p = some pg) (press : Press) (failed frames : List Frame) :
    Draws p pg.index room (room.replace p press failed frames) := by
  rw [replace, hp]
  simp only
  split
  · exact failed_draws hp failed _
  next payload drawn =>
    exact sent_draws hp drawn (.inr ⟨_, rfl, call_outward _ (.replace press.interaction payload) _⟩)

theorem retire_blank (room : Room) (p : Nat) (pg : Paginator) (reason : StopReason) :
    Blank room (room.retire p pg reason) := by
  have stopped : Blank room (room.modifyPaginator p fun pg => { pg with status := .stopped }) :=
    room.modifyPaginator_blank p fun _ _ => rfl
  have forgotten := (stopped.trans (callOff_blank _ pg.watchdog)).trans (unregister_blank _ pg.session)
  have ended := forgotten.trans (modifyPaginator_blank _ p (f := fun pg => { pg with registered := false }) fun _ _ => rfl)
  exact ended.trans (log_blank _ _)

theorem shutDown_blank (room : Room) (p : Nat) (h : Handle) (reason : StopReason) (frames : List Frame) :
    Blank room (room.shutDown p h reason frames) := by
  cases hp : room.paginator? p with
  | none =>
    rw [shutDown, hp]
    exact room.finish_blank frames _
  | some pg =>
    have retired := room.retire_blank p pg reason
    rw [shutDown_eq hp]
    cases off : pg.offControls with
    | error fault => exact retired.trans (finish_blank _ frames _)
    | ok payload =>
      -- What is shown is the controls alone.
      obtain ⟨rows, -, rfl⟩ := map_eq_ok_iff.1 off
      refine retired.trans ((edit_outward _ h (.controls rows) (.yield .nothing :: frames)).blank ?_)
      simp [Event.page?, Call.payload?]

theorem stop_blank (room : Room) (p : Nat) (frames : List Frame) : Blank room (room.stop p frames) := by
  rw [stop]
  split
  · exact room.finish_blank frames _
  split
  · exact room.finish_blank frames _
  split
  · exact room.finish_blank frames _
  · exact room.shutDown_blank p _ _ _

/-! ## Presses -/

/-- Where a press leads: the callback shows the page as it is, or turns to a page
of its own; any other press turns to what its role says. -/
inductive Lands (press : Press) (pg : Paginator) : Nat → Prop where
  | shown (role : press.role = some .callback) (own : pg.callback.isSome = true) : Lands press pg pg.index
  | turned (role : press.role = some .callback) {index : Number} (own : pg.callback = some (.turnTo index)) :
    Lands press pg (pg.turnTo index).index
  | pressed (plain : press.role = some .callback → pg.callback = none) :
    Lands press pg (Paginator.pressed pg.pages.length pg.index press.role press.values).1

theorem runCallback_leafs (hp : room.paginator? p = some pg) {press : Press} (role : press.role = some .callback)
    {callback : Callback} (own : pg.callback = some callback) (frames : List Frame) :
    Leafs p (Lands press) room (room.runCallback p callback press frames) := by
  have noted : Blank room (room.record (.callback press)) := room.record_blank rfl
  have shown : ∀ pg' i, room.paginator? p = some pg' → Stays pg' i → Lands press pg' i := by
    rintro pg' _ hp' rfl
    obtain rfl := Option.some.inj (hp.symm.trans hp')
    exact .shown role (by rw [own]; rfl)
  cases callback with
  | give value => exact .inl (noted.trans (finish_blank _ frames _))
  | fail message => exact .inl (noted.trans (finish_blank _ frames _))
  | failLater message => exact .inl (noted.trans (finish_blank _ (.pass :: .pass :: frames) _))
  | defer =>
    exact .inl (noted.trans (acknowledge_blank _ press (.yield (.value (.text "deferred")) :: .pass :: frames)))
  | stop => exact .inl (noted.trans (stop_blank _ p (.yield (.value (.text "stopped")) :: .pass :: frames)))
  | update =>
    have shows := update_leafs (room.record (.callback press)) p (.yield (.value (.text "updated")) :: .pass :: frames)
    exact (shows.after noted rfl).mono shown
  | send origin =>
    have shows := send_leafs (room.record (.callback press)) p .send origin (.pass :: .pass :: frames)
    exact (shows.after noted rfl).mono shown
  | turnTo index =>
    have hp' := (room.record (.callback press)).paginator?_modifyPaginator p p (·.turnTo index)
    have noted' : (room.record (.callback press)).paginator? p = some pg := hp
    rw [if_pos rfl, noted', Option.map_some] at hp'
    have draws := replace_draws hp' press (.pass :: .pass :: frames) (.pass :: frames)
    exact .inr ⟨pg, _, hp, .turned role own, noted.draws (draws.turned (fun _ => rfl) fun _ => rfl)⟩

theorem receive_leafs (room : Room) (p : Nat) (press : Press) (frames : List Frame) :
    Leafs p (fun pg i => pg.author = some press.user ∧ pg.status = .active ∧ Lands press pg i) room
      (room.receive p press frames) := by
  rw [receive]
  split
  · exact .inl (room.finish_blank frames _)
  next pg hp =>
  split
  · have logged := room.log_blank (.stranger pg.session press.user)
    simp only
    split
    · exact .inl (logged.trans (acknowledge_blank _ press (.pass :: frames)))
    · exact .inl (logged.trans (notify_blank _ press _ (.pass :: frames)))
  next author =>
  split
  · exact .inl (room.acknowledge_blank press (.pass :: frames))
  next active =>
  have live : pg.author = some press.user ∧ pg.status = .active := ⟨Decidable.not_not.1 author, Decidable.not_not.1 active⟩
  have pinged := room.ping_blank pg.watchdog
  have same := room.paginators_ping pg.watchdog
  have hp' : (room.ping pg.watchdog).paginator? p = some pg := by rw [paginator?, same]; exact hp
  simp only
  split
  next callback role own =>
    refine ((runCallback_leafs hp' role own frames).after pinged same).mono fun pg' i h lands => ?_
    obtain rfl := Option.some.inj (hp.symm.trans h)
    exact ⟨live.1, live.2, lands⟩
  next plain =>
    have lands : Lands press pg (Paginator.pressed pg.pages.length pg.index press.role press.values).1 :=
      .pressed fun role => Option.eq_none_iff_forall_ne_some.2 fun callback own => plain callback role own
    have turned : ∀ (index : Nat) {r : Room}, r.paginator? p = some pg → Blank room r →
        Draws p index room ((r.modifyPaginator p fun pg => { pg with index }).replace p press frames frames) := by
      intro index r hr blank
      have hp'' := r.paginator?_modifyPaginator p p fun pg => { pg with index }
      rw [if_pos rfl, hr, Option.map_some] at hp''
      exact blank.draws ((replace_draws hp'' press frames frames).turned (fun _ => rfl) fun _ => rfl)
    refine .inr ⟨pg, _, hp, ⟨live.1, live.2, lands⟩, ?_⟩
    have role : press.role = (parseCustomId? press.customId).map (·.2) := rfl
    rw [role]
    generalize Paginator.pressed pg.pages.length pg.index _ press.values = moved
    obtain ⟨index, refused⟩ := moved
    cases refused with
    | none => exact turned index hp' pinged
    | some value =>
      exact turned index (r := (room.ping pg.watchdog).log (.badChoice pg.session value)) hp'
        (pinged.trans (log_blank _ _))

end Room

end Folio
