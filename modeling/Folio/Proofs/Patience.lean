/-
How long a paginator waits for its author. The seconds of a configuration that is
accepted make milliseconds that a timer can be set for, so the delay is what it
should be: the whole milliseconds, but at least one.
-/
import Folio.Agenda
import Folio.Paginator
import Folio.Proofs.Config.Schema
import Folio.Proofs.Number.Time

namespace Folio

namespace Config

variable {c : Config}

/-- The seconds that a configuration may have. -/
theorem seconds_of_resolveValue {environment : Environment} {overrides : Value}
    (h : resolveValue environment overrides = .ok c) :
    0 ≤ c.idleTimeoutSeconds ∧ c.idleTimeoutSeconds ≤ maxIdleSeconds := by
  obtain ⟨r, reads⟩ := reads_of_resolveValue h
  exact (checkSeconds_eq_ok_iff.1 reads.idleTimeoutSeconds).2

end Config

/-- The milliseconds for which the watchdog of a paginator waits. -/
def Paginator.interval (pg : Paginator) : Number := Number.scale (.finite pg.config.idleTimeoutSeconds) 1000

/-- How long a paginator waits for its author: its whole milliseconds, but at least one. -/
def Paginator.patience (pg : Paginator) : Number := max 1 pg.interval.trunc

namespace Number

/-- Seconds within the limit make milliseconds within the limit of a timer. -/
theorem scale_seconds {s : Rat} (pos : 0 ≤ s) (limit : s ≤ Config.maxIdleSeconds) :
    ∃ ms, scale (.finite s) 1000 = .finite ms ∧ 0 ≤ ms ∧ ms ≤ Agenda.maxDelay := by
  have most : (s * (1000 : Nat)) ≤ ((2147483000 : Nat) : Rat) := by
    have bound : s ≤ 2147483 := limit
    push_cast
    linarith
  have nonneg : 0 ≤ s * (1000 : Nat) := by
    push_cast
    linarith
  have double : ofRat ((2147483000 : Nat) : Rat) = .finite ((2147483000 : Nat) : Rat) := isDouble_natCast (by decide)
  have below := ofRat_le_ofRat nonneg most
  rw [double] at below
  have time := isTime_ofRat nonneg
  rw [scale]
  generalize ofRat (s * (1000 : Nat)) = ms at below time
  cases time with
  | @finite q nonneg' exact =>
    refine ⟨q, rfl, nonneg', ((le_finite _ _).1 below).trans ?_⟩
    norm_num [Agenda.maxDelay]
  | never => cases below

/-- The delay of a timer that is set for milliseconds within its limit. -/
theorem delay_eq {ms : Rat} (pos : 0 ≤ ms) (limit : ms ≤ Agenda.maxDelay) :
    ((Agenda.delay (.finite ms) : Nat) : Number) = max 1 (Number.finite ms).trunc := by
  have floor : 0 ≤ ms.floor := Rat.le_floor_iff.2 (by simpa using pos)
  have cut : (Number.finite ms).trunc = ((ms.floor.toNat : Nat) : Number) := by
    have whole : ((ms.floor : Int) : Rat) = ((ms.floor.toNat : Nat) : Rat) := by
      rw [← Int.cast_natCast, Int.toNat_of_nonneg floor]
    rw [trunc, if_neg (not_lt.2 pos), whole]
    rfl
  have one : (1 : Number) = ((1 : Nat) : Number) := rfl
  rw [cut, one, max_natCast, Agenda.delay]
  split
  next within =>
    have least : 1 ≤ ms.floor := Rat.le_floor_iff.2 (by simpa using within.1)
    congr 1
    omega
  next beyond =>
    have small : ms < 1 := not_le.1 fun h => beyond ⟨h, limit⟩
    have none : ms.floor < 1 := Rat.floor_lt_iff.2 (by simpa using small)
    congr 1
    omega

/-- A timer that is set for less than no time goes off as soon as any. -/
theorem delay_eq_of_neg {ms : Rat} (neg : ms < 0) :
    ((Agenda.delay (.finite ms) : Nat) : Number) = max 1 (Number.finite ms).trunc := by
  have floor : 0 ≤ (-ms).floor := Rat.le_floor_iff.2 (by simpa using neg.le)
  have cut : (((-(-ms).floor : Int) : Rat)) ≤ 0 := by exact_mod_cast neg_nonpos.2 floor
  have small : ¬1 ≤ ms := fun h => absurd (neg.trans_le' h) (by norm_num)
  have larger : max (1 : Number) (.finite ((-(-ms).floor : Int) : Rat)) =
      if (1 : Number).lt (.finite ((-(-ms).floor : Int) : Rat)) then .finite ((-(-ms).floor : Int) : Rat) else 1 := rfl
  rw [trunc, if_pos neg, larger, if_neg, Agenda.delay, if_neg fun h => small h.1]
  · rfl
  · have one : (1 : Number) = .finite 1 := rfl
    rw [one, lt_finite, not_lt]
    exact cut.trans zero_le_one

/-- The delay of a timer for any number of milliseconds up to its limit. -/
theorem delay_eq_of_le {ms : Number} (limit : ms.le (Agenda.maxDelay : Nat) = true) :
    ((Agenda.delay ms : Nat) : Number) = max 1 ms.trunc := by
  cases ms with
  | nan => cases limit
  | infinite negative =>
    cases negative with
    | true => rfl
    | false => cases limit
  | finite ms =>
    rcases lt_or_ge ms 0 with neg | pos
    · exact delay_eq_of_neg neg
    · exact delay_eq pos ((le_finite _ _).1 limit)

end Number

end Folio
