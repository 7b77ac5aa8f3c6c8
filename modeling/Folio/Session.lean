/-
Session ids. Paginators draw theirs one after the other from a supply in which no
id comes twice; `SessionIds.numbered` is the supply that counts.
-/
import Folio.Number.Numeral

namespace Folio

/-- A supply of session ids. -/
structure SessionIds where
  /-- The `n`-th id that is drawn. -/
  id : Nat → String
  distinct : ∀ {m n : Nat}, id m = id n → m = n
  nonempty : ∀ n : Nat, id n ≠ ""

/-- What the ids that count begin with. -/
def sessionStem : String := "00000000-0000-4000-8000-"

/-- The session id that counts to `n`, in hexadecimal digits. -/
def sessionId (n : Nat) : String :=
  let ds := Nat.toDigits 16 n
  sessionStem ++ String.ofList (List.replicate (12 - ds.length) '0' ++ ds)

theorem whole?_sessionId (n : Nat) :
    Number.whole? 16 ((sessionId n).toList.drop sessionStem.toList.length) = some n := by
  have h : (sessionId n).toList = sessionStem.toList ++
      (List.replicate (12 - (Nat.toDigits 16 n).length) '0' ++ Nat.toDigits 16 n) := by
    rw [sessionId, String.toList_append, String.toList_ofList]
  rw [h, List.drop_left, Number.whole?_toDigits (by decide) (by decide)]

theorem sessionId_inj {m n : Nat} (h : sessionId m = sessionId n) : m = n := by
  have hm := whole?_sessionId m
  rw [h, whole?_sessionId n] at hm
  exact (Option.some.inj hm).symm

theorem sessionId_ne_empty (n : Nat) : sessionId n ≠ "" := by
  intro h
  have hn := whole?_sessionId n
  rw [h] at hn
  simp [Number.whole?] at hn

/-- The supply that counts. -/
def SessionIds.numbered : SessionIds := ⟨sessionId, sessionId_inj, sessionId_ne_empty⟩

end Folio
