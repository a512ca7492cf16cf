import Reflash.Bootloader
import Reflash.Bundle
import Reflash.Smp.Error
import Reflash.Notice
import Reflash.Step

/-! Reports: the outcome of planning, in a form that can be printed and one that
can be read by other programs. -/

namespace Reflash

structure Report where
  ok : Bool
  operation : String := "validate"
  steps : List Step := []
  capabilities : Capabilities := {}
  targets : List Target := []
  upToDate : List Int := []
  skipped : List Target := []
  notices : List Notice := []
  errors : List String := []
  failure : Option Fault := none
  logs : List String := []

namespace Report

def success (capabilities : Capabilities) : Report := { ok := true, capabilities }

def addNotice (r : Report) (n : Notice) : Report := { r with notices := r.notices ++ [n] }

def addError (r : Report) (message : String) : Report :=
  { r with ok := false, errors := r.errors ++ [message] }

def failed (capabilities : Capabilities) (fault : Fault) : Report :=
  addError { ok := false, capabilities, failure := some fault } fault.message

def count (r : Report) (name : String) : Nat := r.steps.countP fun s => s.name = name

def block (heading : String) (lines : List String) : List String :=
  if lines.isEmpty then [] else ("  " ++ heading ++ ":") :: lines.map ("    - " ++ ·)

def capabilitiesText (c : Capabilities) (unnamed : String) : String :=
  "Bootloader: " ++ c.bootloaderName unnamed ++ " (" ++ c.modeLabel ++ "), no_swap=" ++
    c.noSwap.written ++ ", allow_revert=" ++ c.allowRevert.written

def stepLines (r : Report) : List String := (Step.sorted r.steps).map Step.describe

def summaryLines (r : Report) : List String :=
  ("[" ++ (if r.ok then "SUCCESS" else "FAILED") ++ "] " ++ r.operation) ::
    ("  " ++ capabilitiesText r.capabilities "unknown") ::
    ((if r.upToDate.isEmpty then []
      else ["  Up to date: " ++ ", ".intercalate (r.upToDate.map Decimal.ofInt)]) ++
    block "Operations" r.stepLines ++
    block "Warnings" (r.notices.map fun n => "[" ++ n.code.name ++ "] " ++ n.title) ++
    block "Errors" r.errors)

def summary (r : Report) : String := "\n".intercalate r.summaryLines

def record (fields : List (String × Value)) : Value :=
  .map (fields.map fun (name, v) => (.text name, v))

def capabilitiesValue (c : Capabilities) : Value :=
  record [("bootloader", c.bootloader), ("mode", c.mode), ("mode_label", .text c.modeLabel),
    ("no_swap", c.noSwap), ("allow_revert", c.allowRevert),
    ("no_downgrade", c.noDowngrade)]

def stepValue (s : Step) : Value :=
  record [("type", .text s.name), ("priority", .int s.priority), ("description", .text s.describe)]

def targetValue (t : Target) : Value :=
  record [("image_index", .int t.core), ("slot", .int t.slot), ("hash", .text (Hex.lower t.hash))]

def noticeValue (n : Notice) : Value :=
  record [("level", .text n.severity.name), ("code", .text n.code.name), ("title", .text n.title),
    ("detail", .text n.detail), ("remediation", .text n.remediation)]

def fields (r : Report) : List (String × Value) :=
  [("ok", .bool r.ok), ("operation", .text r.operation),
    ("operations", .array (r.steps.map stepValue)),
    ("capabilities", capabilitiesValue r.capabilities),
    ("up_to_date", .array (r.upToDate.map .int)),
    ("skipped", .array (r.skipped.map targetValue)),
    ("warnings", .array (r.notices.map noticeValue)),
    ("errors", .array (r.errors.map .text)),
    ("logs", .array (r.logs.map .text))]

def toValue (r : Report) : Value := record r.fields

end Report
end Reflash
