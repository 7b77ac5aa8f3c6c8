/-
What is wrong with a configuration: a list of issues, each at a path and with
one cause.
-/
import Folio.Number.Decimal

namespace Folio.Config

/-- Why a value of a configuration is refused. -/
inductive Cause where
  /-- A value of another type than `expected`. -/
  | wrongType (expected received : String)
  /-- A text of fewer than `least` units. -/
  | tooShort (least : Nat)
  /-- A text of more than `most` units. -/
  | tooLong (most : Nat)
  | notInteger
  | notFinite
  | tooSmall (least : Nat)
  | tooLarge (most : Nat)
  | unknownKeys (keys : List String)
  /-- A value that is none of the alternatives. -/
  | noAlternative
deriving DecidableEq, Repr

/-- The wording of a cause. -/
def Cause.message : Cause → String
  | wrongType expected received => "Expected " ++ expected ++ ", received " ++ received
  | tooShort least => "String must contain at least " ++ toString least ++ " character(s)"
  | tooLong most => "String must contain at most " ++ toString most ++ " character(s)"
  | notInteger => "Expected integer, received float"
  | notFinite => "Number must be finite"
  | tooSmall least => "Number must be greater than or equal to " ++ toString least
  | tooLarge most => "Number must be less than or equal to " ++ toString most
  | unknownKeys keys =>
    "Unrecognized key(s) in object: " ++ ", ".intercalate (keys.map fun key => "'" ++ key ++ "'")
  | noAlternative => "Invalid input"

/-- A cause and the path to the value it concerns; an empty path is the whole
configuration. -/
structure Issue where
  path : List String
  cause : Cause
deriving DecidableEq, Repr

/-- The wording of an issue. -/
def Issue.message (issue : Issue) : String :=
  (if issue.path = [] then "(root)" else ".".intercalate issue.path) ++ ": " ++ issue.cause.message

end Folio.Config
