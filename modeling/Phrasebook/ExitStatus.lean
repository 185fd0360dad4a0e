/-!
# ExitStatus — how a run of the program ended

A run succeeds, finds something wrong, or cannot do its work.
-/

namespace Phrasebook

/-- How a run ended. -/
inductive ExitStatus where
  | success
  | failure
  | error
  deriving DecidableEq

namespace ExitStatus

/-- The exit code of the program. -/
def code : ExitStatus → Nat
  | success => 0
  | failure => 1
  | error => 2

/-- A run that found this many errors. -/
def ofErrorCount (count : Nat) : ExitStatus := if count > 0 then failure else success

end ExitStatus

end Phrasebook
