import Reflash.Agenda
import Reflash.Console.Output
import Reflash.Report

/-! What the screens of the commands show. -/

namespace Reflash.Console

def icon : Severity → String
  | .error => "❌"
  | .warning => "⚠️"
  | .info => "ℹ️"

def style : Severity → Style
  | .error => .red
  | .warning => .yellow
  | .info => .blue

def notice (verbose : Bool) (n : Notice) : List Item :=
  .text (icon n.severity ++ " [" ++ n.code.name ++ "] " ++ n.headline) (some (style n.severity)) ::
    if verbose && n.remediation ≠ "" then
      [.text ("   → " ++ n.remediation) (some .cyan)]
    else []

structure PortInfo where
  device : String
  name : String := ""
  description : String := ""

def orHyphen (s : String) : String := if s = "" then "-" else s

def ports (found : List PortInfo) : List Item :=
  [.panel "Available Serial Ports",
    if found.isEmpty then warning "No serial ports found"
    else .table "Serial Ports" ["Port", "Device", "Description"]
      (found.map fun p => [p.device, orHyphen p.name, orHyphen p.description])]

def nameCell? : Value → Option String
  | .text s => some (if s = "" then "Unknown" else s)
  | v => if v.isSet then none else some "Unknown"

def capabilities? (c : Capabilities) : Option (List Item) := do
  let name ← nameCell? c.bootloader
  return .table "Bootloader" ["Property", "Value"]
    [["Bootloader", name],
      ["Mode", c.modeLabel],
      ["No swap (Direct XIP)", c.noSwap.written],
      ["Revert supported", c.allowRevert.written],
      ["No downgrade", c.noDowngrade.written]] ::
    if c.isAssumed then
      [warning "Mode not reported, legacy swap behaviour will be assumed"]
    else []

def shortHash (hash : Bytes) : String := Hex.lower (hash.take 8)

def slotName (number : Int) : String :=
  if number = primarySlot then Decimal.ofInt number ++ " (primary)" else Decimal.ofInt number

def slots (found : List Slot) : Item :=
  if found.isEmpty then warning "Device reported no image information"
  else .table "Slots" ["Image", "Slot", "Version", "Hash", "Flags"]
    (found.map fun s => [Decimal.ofInt s.core, slotName s.number, orHyphen s.version,
      orHyphen (shortHash s.hash), s.flags])

def imagesTable (targets : List Target) : Item :=
  .table "Images" ["Image", "Slot", "Version", "Size", "Hash"]
    (targets.map fun t => [Decimal.ofInt t.core, Decimal.ofInt t.slot,
      (t.image.version?.map McuBoot.Version.text).getD "-", Decimal.grouped t.image.size,
      shortHash t.hash])

def stepRow (place : Nat) (s : Step) : List String :=
  [Nat.repr place, s.name, s.phase.name, s.describe]

def steps (pending : List Step) : List Item :=
  if pending.isEmpty then
    [success "Device already runs the requested firmware, nothing to do"]
  else
    [.table "Operations" ["#", "Operation", "State", "Details"]
      (pending.zipIdx.map fun (s, i) => stepRow (i + 1) s),
      success (Nat.repr pending.length ++ " operation(s) planned")]

def plan (r : Report) (pending : List Step) (verbose : Bool) : List Item :=
  .text (Report.capabilitiesText r.capabilities "Unknown") none ::
    r.notices.flatMap (notice verbose) ++
    if r.ok then
      (if r.targets.isEmpty then [] else [imagesTable r.targets]) ++ steps pending
    else r.errors.map failure

end Reflash.Console
