/-
Environment variables, as a table from names to texts. A variable whose text is
blank counts as unset.
-/
import Folio.Table
import Folio.Text.Blank

namespace Folio

/-- The variables of a process. -/
abbrev Environment := Table String String

namespace Environment

/-- The trimmed text of a variable, unless it is blank. -/
def read? (env : Environment) (name : String) : Option String :=
  match env.get? name with
  | some text => if Text.trim text = "" then none else some (Text.trim text)
  | none => none

/-- Whether the process is a test run. -/
def isTestRun (env : Environment) : Bool :=
  (env.get? "JEST_WORKER_ID").any (· ≠ "") || env.get? "NODE_ENV" = some "test"

end Environment

end Folio
