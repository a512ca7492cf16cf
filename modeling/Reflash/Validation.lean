import Reflash.Agenda
import Reflash.Device
import Reflash.Plan

/-! The first step of every upgrade: learn what the bootloader can do, read the
slots, plan, and hand the steps to whoever takes them. -/

namespace Reflash

structure Performer (ρ : Type) where
  begin : Action ρ Unit
  enqueue : Step → Action ρ Unit
  complete : Action ρ Unit
  fail : Fault → Action ρ Unit

namespace Agenda

def performer : Performer Agenda where
  begin := modify fun scene => { scene with state := { scene.state with phase := .validation } }
  enqueue step := do
    Action.requireWritable step.isWritable
    Action.debug .agenda
      ("Enqueue " ++ step.describe ++ " (priority " ++ Nat.repr step.priority ++ ")")
    Action.setState ((← Action.state).enqueue step)
  complete := do
    let agenda := (← Action.state).complete
    Action.setState agenda
    Action.debug .agenda ("Task completed, " ++ Nat.repr agenda.size ++ " operation(s) queued")
  fail fault := do
    let agenda := (← Action.state).fail fault
    Action.setState agenda
    Action.note .error .agenda
      ("Upgrade failed in state " ++ agenda.phase.name ++ ": " ++ fault.message)

end Agenda

variable {σ ρ : Type}

def onDevice {α : Type} (action : Action σ α) : Action (σ × ρ) α :=
  action.within Prod.fst fun d s => (d, s.2)

def onPerformer {α : Type} (action : Action ρ α) : Action (σ × ρ) α :=
  action.within Prod.snd fun p s => (s.1, p)

def unlisted (c : Capabilities) (e : Smp.Error) : Report :=
  (Report.failed c (.smp e)).addNotice
    { code := .slotQueryFailed, severity := .error, detail := e.message }

def assessListing (b : Bundle) (c : Capabilities) (mode : UpgradeMode) (settings : Settings) :
    Except Smp.Error (Option (List Slot)) → Except Fault Report × List Log.Entry
  | .error e =>
    (.ok (unlisted c e), [⟨.debug, .validation, "Image state query failed: " ++ e.message⟩])
  | .ok slots => Plan.make b slots c mode settings

def validateWith (device : Device σ) (performer : Performer ρ) (b : Bundle) (mode : UpgradeMode)
    (settings : Settings) : Action (σ × ρ) Report := do
  let c ← onDevice (discover device)
  let listing ← onDevice device.listImages.attempt
  let report ← Action.conclude (assessListing b c mode settings listing)
  match report.failure with
  | none =>
    report.steps.forM fun step => onPerformer (performer.enqueue step)
    onPerformer performer.complete
  | some fault => onPerformer (performer.fail fault)
  return report

/-- Validates a bundle; the report holds what was logged meanwhile at the given level. The mode
of the settings holds where none is given. -/
def validate (device : Device σ) (performer : Performer ρ) (b : Bundle) (mode : Option UpgradeMode)
    (settings : Settings) (level : Int) : Action (σ × ρ) Report := do
  onPerformer performer.begin
  let before := (← get).log.length
  let report ← validateWith device performer b (mode.getD settings.mode) settings
  return { report with logs := Log.lines (Log.threshold level) ((← get).log.drop before) }

end Reflash
