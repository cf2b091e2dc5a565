/-!
# Verdicts

The one word a command prints, and the exit code that goes with it.
-/

namespace PeerProbe

/-- Whether a command succeeded. -/
inductive Verdict where
  | ok
  | fail
  deriving DecidableEq, Repr

namespace Verdict

/-- The verdict on a success or a failure. -/
def ofSuccess (b : Bool) : Verdict := if b then .ok else .fail

/-- The word a verdict prints. -/
def text : Verdict → String
  | .ok => "OK"
  | .fail => "FAIL"

/-- The exit code of a verdict. -/
def exitCode : Verdict → Nat
  | .ok => 0
  | .fail => 1

end Verdict

end PeerProbe
