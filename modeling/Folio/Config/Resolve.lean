/-
Where a configuration comes from: what the caller overrides, else what the
environment sets, else the default. Only the outcome is checked, so a bad
variable that an override hides does no harm.
-/
import Folio.Config.Check
import Folio.Environment
import Folio.Number.Numeral

namespace Folio.Config

/-- The text of a colour without the `#` or `0x` before it. -/
def colorDigits : List Char → List Char
  | '#' :: ds => ds
  | '0' :: 'x' :: ds => ds
  | '0' :: 'X' :: ds => ds
  | ds => ds

/-- The colour that up to six hexadecimal digits write; any other text stays a text. -/
def readColor (text : String) : Value :=
  let ds := colorDigits text.toList
  match Number.whole? 16 ds with
  | some color => if ds.length ≤ 6 then .number color else .text text
  | none => .text text

/-- The seconds that a text writes; a text that is no number stays a text. -/
def readSeconds (text : String) : Value :=
  match Number.read text with
  | .nan => .text text
  | n => .number n

/-- What the environment sets. A message that is set to nothing counts. -/
def fromEnvironment (env : Environment) : Record :=
  ((env.read? "PAGINATOR_IDLE_TIMEOUT_SECONDS").map fun s => ("idleTimeoutSeconds", readSeconds s)).toList ++
  ((env.get? "PAGINATOR_WRONG_USER_MESSAGE").map fun s => ("wrongUserMessage", Value.text s)).toList ++
  ((env.read? "PAGINATOR_DEFAULT_COLOR").map fun s => ("defaultColor", readColor s)).toList

/-- The value of a key: the override, else what the environment sets, else the default. -/
def layered (env : Environment) (overrides : Record) (key : String) : Value :=
  match overrides.member key with
  | .absent => ((fromEnvironment env).get? key).getD (default.member key)
  | v => v

/-- The record of every key's value, with the unknown keys that are overridden. -/
def merged (env : Environment) (overrides : Record) : Record :=
  (keys ++ unknownKeys (overrides.filter fun f => !f.2.isAbsent)).map fun key =>
    (key, layered env overrides key)

/-- The configuration that the overrides and the environment make. -/
def resolve (env : Environment) (overrides : Record) : Except Fault Config :=
  match ofRecord (merged env overrides) with
  | .ok config => .ok config
  | .bad issues => .error (.badConfig issues)

/-- The configuration that overrides of any type and the environment make. What
the overrides set is their members. -/
def resolveValue (env : Environment) (overrides : Value) : Except Fault Config :=
  match overrides.members? with
  | some r => resolve env r
  | none => .error .missing

end Folio.Config
