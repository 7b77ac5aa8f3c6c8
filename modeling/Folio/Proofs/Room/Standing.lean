/-
How things stand in a room, apart from all that is under way: which paginators
are live, where presses go, and which watchdogs run. Of what a room does only a
few things change that: a paginator is created (`born`), goes live (`live`) or is
over (`closed`), a watchdog ends by itself (`dozed`). The life of a paginator is
this small machine.
-/
import Folio.Room.Basic

namespace Folio

/-- A paginator without what turning its pages changes. -/
def Paginator.bare (pg : Paginator) : Paginator := { pg with pages := [], index := 0, callback := none }

/-- How things stand: what tells which paginators are live, and where presses go. -/
structure Standing where
  ids : SessionIds
  /-- The number of session ids that are taken. -/
  sessions : Nat
  /-- The paginators, as far as turning pages does not change them. -/
  lives : List (Option Paginator)
  router : Router Handler
  /-- Whom each watchdog watches over, and whether it is running. -/
  guards : List (Nat × Bool)

/-- A paginator by number. -/
def Standing.life? (s : Standing) (p : Nat) : Option Paginator := (s.lives[p]?).join

namespace Standing

variable (s : Standing) (p : Nat)

/-- With one paginator changed. -/
def modify (f : Paginator → Paginator) : Standing := { s with lives := s.lives.modify p (Option.map f) }

/-- With one watchdog, if any, no longer running. -/
def dozed (w : Option Nat) : Standing :=
  match w with
  | some w => { s with guards := s.guards.modify w fun e => (e.1, false) }
  | none => s

/-- With a new paginator, or a number taken by none, and `n` session ids taken. -/
def born (n : Nat) (pg : Option Paginator) : Standing := { s with sessions := n, lives := s.lives ++ [pg] }

/-- Who may be born when `n` session ids are taken: an unsent paginator with the
last of them, or nobody. -/
def Newborn (n : Nat) (o : Option Paginator) : Prop :=
  ∀ pg, o = some pg → n = s.sessions + 1 ∧ ∃ config, pg = Paginator.create (s.ids.id n) [] config none

/-- With a watchdog over a paginator whose author may be idle for so many seconds,
and none if there are no seconds. -/
def watched (seconds : Rat) : Standing :=
  { s.modify p (fun pg => { pg with watchdog := if 0 < seconds then some s.guards.length else none }) with
    guards := s.guards ++ (if 0 < seconds then [(p, true)] else []) }

/-- A paginator that is live in a message. -/
def alive (author : Option String) (h : Handle) (pg : Paginator) : Paginator :=
  { pg with message := some h, author, status := .active, registered := true }

/-- A paginator that is over. -/
def ended (pg : Paginator) : Paginator := { pg with status := .stopped, registered := false }

/-- With a paginator live in a message: any watchdog that it had is replaced, and
the router knows it. -/
def live (pg : Paginator) (author : Option String) (h : Handle) : Standing :=
  { ((s.dozed pg.watchdog).modify p (alive author h)).watched p pg.config.idleTimeoutSeconds with
    router := if pg.registered then s.router
      else s.router.register pg.session (Role.all.map Role.name) (.paginator p) }

/-- With a paginator over: it has no watchdog that runs, and the router forgot it. -/
def closed (pg : Paginator) : Standing :=
  { (s.dozed pg.watchdog).modify p ended with router := s.router.unregister pg.session }

variable {s p}

theorem life?_modify (f : Paginator → Paginator) (q : Nat) :
    (s.modify p f).life? q = if q = p then (s.life? q).map f else s.life? q := by
  simp only [life?, modify, List.getElem?_modify]
  by_cases h : q = p
  · subst h
    cases s.lives[q]? <;> simp
  · have hp : p ≠ q := fun e => h e.symm
    cases s.lives[q]? <;> simp [h, hp]

theorem modify_modify (f g : Paginator → Paginator) : (s.modify p f).modify p g = s.modify p (g ∘ f) := by
  simp only [modify, List.modify_modify_eq]
  congr 2
  funext o
  cases o <;> rfl

theorem dozed_modify (w : Option Nat) (f : Paginator → Paginator) :
    (s.modify p f).dozed w = (s.dozed w).modify p f := by
  cases w <;> rfl

theorem dozed_with_router (r : Router Handler) (w : Option Nat) :
    { s with router := r }.dozed w = { s.dozed w with router := r } := by
  cases w <;> rfl

theorem newborn_none (n : Nat) : s.Newborn n none := by
  intro pg h
  cases h

theorem dozed_dozed (w : Option Nat) : (s.dozed w).dozed w = s.dozed w := by
  cases w with
  | none => rfl
  | some w =>
    rw [dozed, dozed, List.modify_modify_eq]
    rfl

theorem watched_with_router (r : Router Handler) (seconds : Rat) :
    { s with router := r }.watched p seconds = { s.watched p seconds with router := r } := rfl

@[simp] theorem dozed_router (w : Option Nat) : (s.dozed w).router = s.router := by cases w <;> rfl

@[simp] theorem dozed_lives (w : Option Nat) : (s.dozed w).lives = s.lives := by cases w <;> rfl

@[simp] theorem dozed_ids (w : Option Nat) : (s.dozed w).ids = s.ids := by cases w <;> rfl

@[simp] theorem dozed_sessions (w : Option Nat) : (s.dozed w).sessions = s.sessions := by cases w <;> rfl

@[simp] theorem dozed_length (w : Option Nat) : (s.dozed w).guards.length = s.guards.length := by
  cases w <;> simp [dozed]

/-! ### Lives -/

theorem life?_length : s.life? s.lives.length = none := by simp [life?]

theorem life?_born (n : Nat) (o : Option Paginator) (q : Nat) :
    (s.born n o).life? q = if q = s.lives.length then o else s.life? q := by
  simp only [life?, born, List.getElem?_append]
  rcases Nat.lt_trichotomy q s.lives.length with h | h | h
  · rw [if_pos h, if_neg (by omega)]
  · subst h
    simp
  · have hq : q - s.lives.length ≠ 0 := by omega
    rw [if_neg (by omega), if_neg (by omega), List.getElem?_eq_none (by simp; omega),
      List.getElem?_eq_none (by omega)]

/-- Those who are there before a birth stay as they are. -/
theorem life?_born_of_life? {pg : Paginator} (h : s.life? p = some pg) (n : Nat) (o : Option Paginator) :
    (s.born n o).life? p = some pg := by
  rw [life?_born, if_neg]
  · exact h
  · rintro rfl
    rw [life?_length] at h
    cases h

theorem life?_dozed (w : Option Nat) (q : Nat) : (s.dozed w).life? q = s.life? q := by
  rw [life?, dozed_lives, life?]

theorem life?_closed {pg : Paginator} (h : s.life? p = some pg) (q : Nat) :
    (s.closed p pg).life? q = if q = p then some (ended pg) else s.life? q := by
  have modified := life?_modify (s := s.dozed pg.watchdog) (p := p) ended q
  rw [life?_dozed] at modified
  rw [closed]
  refine modified.trans ?_
  split
  next hq => rw [hq, h, Option.map_some]
  · rfl

theorem life?_watched (seconds : Rat) (q : Nat) :
    (s.watched p seconds).life? q = if q = p then
      (s.life? q).map (fun pg => { pg with watchdog := if 0 < seconds then some s.guards.length else none })
      else s.life? q := life?_modify _ q

/-- A paginator that goes live while there are `n` watchdogs. -/
def begun (n : Nat) (author : Option String) (h : Handle) (pg : Paginator) : Paginator :=
  { alive author h pg with watchdog := if 0 < pg.config.idleTimeoutSeconds then some n else none }

theorem life?_live {pg : Paginator} (h : s.life? p = some pg) (author : Option String) (handle : Handle) (q : Nat) :
    (s.live p pg author handle).life? q =
      if q = p then some (begun s.guards.length author handle pg) else s.life? q := by
  have length : ((s.dozed pg.watchdog).modify p (alive author handle)).guards.length = s.guards.length :=
    dozed_length pg.watchdog
  have watched := life?_watched (s := (s.dozed pg.watchdog).modify p (alive author handle)) (p := p)
    pg.config.idleTimeoutSeconds q
  rw [length] at watched
  rw [live]
  refine watched.trans ?_
  rw [life?_modify, life?_dozed]
  split
  next hq =>
    rw [hq, h]
    rfl
  · rfl

end Standing

end Folio
