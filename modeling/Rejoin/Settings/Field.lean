import Rejoin.Diagnosis.Options
import Rejoin.Policy

/-!
The fields of the settings, in the order in which they are listed: the log level, the settings of
the policy, and the options of the detector.
-/

namespace Rejoin.Settings

/-- A field of the settings. -/
inductive Field where
  | level
  | policy (s : Policy.Setting)
  | options (s : DetectorOptions.Setting)
  deriving DecidableEq, Repr

namespace Field

/-- All fields, in their order. -/
def all : List Field :=
  level :: Policy.Setting.all.map policy ++ DetectorOptions.Setting.all.map options

/-- The name of a field. -/
def name : Field → String
  | level => "log_level"
  | policy s => s.name
  | options s => s.name

theorem mem_all (f : Field) : f ∈ all := by
  cases f with
  | level => decide
  | policy s => cases s <;> decide
  | options s => cases s <;> decide

end Field

end Rejoin.Settings
