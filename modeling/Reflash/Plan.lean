import Reflash.Assessment
import Reflash.Log
import Reflash.Report

/-! Plans: the steps that bring a device from what its slots hold to what a
bundle asks for. A plan depends on nothing but its inputs, so an upgrade that
was interrupted is resumed by planning again. -/

namespace Reflash

structure Settings where
  eraseSettings : Bool := false
  mode : UpgradeMode := .testAndConfirm
  deriving DecidableEq

namespace Plan

def settledSlots (targets : List Target) (slots : List Slot) : List Slot :=
  slots.filter fun s =>
    s.active && targets.any fun t => t.core = s.core && t.hash = s.hash

/-- The cores that already run what is asked for. A single image is not left out this way: it may
still have to be confirmed. -/
def settledCores (targets : List Target) (slots : List Slot) : List Int :=
  if targets.length ≤ 1 then [] else ((settledSlots targets slots).map Slot.core).eraseDups

def assess (targets : List Target) (slots : List Slot) (c : Capabilities) (mode : UpgradeMode) :
    List Assessment :=
  targets.map fun t => (Assessment.scan t slots c.inPlace).decide c mode

def contribution (a : Assessment) : List Step := if a.skip then [] else a.steps

def cacheUpload (c : CacheImage) : Step := .upload c.data c.partition

/-- The resets, which are taken once for all images, and the erasure that goes with the last. -/
def resets (assessments : List Assessment) (c : Capabilities) (settings : Settings) : List Step :=
  (if assessments.any Assessment.initialResetRequired then [.resetBeforeUpload c.noSwap] else []) ++
  (if assessments.any Assessment.resetRequired then
    (if settings.eraseSettings then [.eraseStorage] else []) ++ [.reset c.noSwap]
  else [])

def place (t : Target) : String :=
  "Image " ++ Decimal.ofInt t.core ++ ", slot " ++ Decimal.ofInt t.slot

def noticesFor (c : Capabilities) (a : Assessment) : List Notice :=
  let image := a.target.image
  if a.skip then [{ code := .imageSkipped, detail := place a.target }]
  else if !image.needsConfirmation && !image.requiresActivation then
    [{ code := .noActivation, detail := place a.target }]
  else if !a.found && image.needsConfirmation && !c.reverts then
    [{ code := .noRevert, detail := "Image " ++ Decimal.ofInt a.target.core }]
  else []

def notices (settled : List Int) (assessments : List Assessment) (c : Capabilities) : List Notice :=
  (if c.isAssumed then [{ code := .bootloaderFallback, severity := .info }] else []) ++
  (settled.map fun core =>
    { code := .coreUpToDate, severity := .info, detail := "Image " ++ Decimal.ofInt core }) ++
  assessments.flatMap (noticesFor c) ++
  (if assessments.any Assessment.initialResetRequired then
    [{ code := .resetBeforeUpload, severity := .info }]
  else [])

def report (b : Bundle) (slots : List Slot) (c : Capabilities) (mode : UpgradeMode)
    (settings : Settings) : Report :=
  let settled := settledCores b.targets slots
  let working := b.withoutCores settled
  let assessments := assess working.targets slots c mode
  { Report.success c with
    steps := assessments.flatMap contribution ++ working.caches.map cacheUpload ++
      resets assessments c settings
    targets := working.targets
    upToDate := settled
    skipped := (assessments.filter Assessment.skip).map Assessment.target
    notices := notices settled assessments c }

/-! What a plan writes to the log -/

def debug (text : String) : Log.Entry := ⟨.debug, .planner, text⟩

def settledEntry (s : Slot) : Log.Entry :=
  debug ("Image " ++ Decimal.ofInt s.core ++ " already active in slot " ++ Decimal.ofInt s.number)

def obstacleEntry (s : Slot) : Log.Entry :=
  debug ("Slot " ++ Decimal.ofInt s.number ++ " of image " ++ Decimal.ofInt s.core ++
    " is active, skipping image")

def assessmentEntry (a : Assessment) : Log.Entry :=
  let flag (name : String) (b : Bool) := " " ++ name ++ "=" ++ Value.writtenBool b
  debug ("Image " ++ Decimal.ofInt a.target.core ++
    "/slot " ++ Decimal.ofInt a.target.slot ++ ":" ++
    flag "found" a.found ++ flag "skip" a.skip ++ flag "pending" a.pending ++
    flag "permanent" a.permanent ++ flag "confirmed" a.confirmed ++ flag "active" a.active ++
    " -> " ++ (Value.array (a.steps.map fun s => .text s.name)).quoted)

def entries (b : Bundle) (slots : List Slot) (c : Capabilities) (mode : UpgradeMode) :
    List Log.Entry :=
  let settled := settledCores b.targets slots
  let working := (b.withoutCores settled).targets
  (if b.targets.length ≤ 1 then [] else (settledSlots b.targets slots).map settledEntry) ++
  (assess working slots c mode).flatMap fun a =>
    (obstacles a.target).map obstacleEntry ++ [assessmentEntry a]
where
  obstacles (t : Target) := Assessment.obstacles t slots

def isWritable (b : Bundle) (slots : List Slot) : Bool :=
  let settled := settledCores b.targets slots
  (b.withoutCores settled).targets.all Target.isWritable &&
  (settled.isEmpty || (settledSlots b.targets slots).all fun s =>
    Decimal.isWritable s.core && Decimal.isWritable s.number)

/-- The report on what a device says of its slots, with the log entries. Without any slots there
is nothing to plan against. -/
def make (b : Bundle) (slots : Option (List Slot)) (c : Capabilities) (mode : UpgradeMode)
    (settings : Settings) : Except Fault Report × List Log.Entry :=
  match slots.getD [] with
  | [] => (.ok (.failed c .noImages), [⟨.error, .planner, Fault.noImages.message⟩])
  | s :: rest =>
    let slots := s :: rest
    if isWritable b slots then (.ok (report b slots c mode settings), entries b slots c mode)
    else (.error .unwritable, [])

end Plan
end Reflash
