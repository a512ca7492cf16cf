import Reflash.Argument
import Reflash.Console.Screen
import Reflash.Files
import Reflash.Validation

/-! The commands. A command prints and talks over a connection; it ends by
itself, with an exit code, or with a failure that the user is told of. -/

namespace Reflash.Console

inductive Stop where
  | exit (code : Nat)
  | badParameter (text : String)
  | fault (fault : Fault)
  | image (fault : Files.ImageFault)
  | name (cause : OpenFault)
  | noRecord (cause : Value.Unprintable)
  | noCell

structure Terminal (σ : Type) where
  state : σ
  printed : List Item := []

abbrev Session (σ : Type) := ExceptT Stop (StateM (Terminal σ))

variable {σ : Type}

namespace Session

def print (items : List Item) : Session σ Unit :=
  modify fun t => { t with printed := t.printed ++ items }

def ofExcept {α : Type} (r : Except Stop α) : Session σ α := fun t => (r, t)

/-- Performs an action over the connection; a failure in talking to the device is for the caller,
any other ends the command. -/
def talk {α : Type} (action : Action σ α) : Session σ (Except Smp.Error α) := do
  let terminal ← get
  let (result, scene) := action.perform terminal.state
  set { terminal with state := scene.state }
  match result with
  | .ok a => return .ok a
  | .error (.smp e) => return .error e
  | .error f => throw (.fault f)

def require {α : Type} (doing : String) : Except Smp.Error α → Session σ α
  | .ok a => pure a
  | .error e => do
    print [failure (doing ++ " failed: " ++ e.message)]
    throw (.exit 1)

end Session

def withClient {α : Type} (line : Connection σ) (action : Action (Smp.Client σ) α) : Action σ α :=
  line.during fun scene =>
    match action ⟨{ link := scene.state }, scene.log⟩ with
    | (result, inner) => (result, ⟨inner.state.link, inner.log⟩)

def withAgenda {α : Type} (action : Action (σ × Agenda) α) : Action σ (α × Agenda) := fun scene =>
  match action ⟨(scene.state, {}), scene.log⟩ with
  | (result, inner) => (result.map fun a => (a, inner.state.2), ⟨inner.state.1, inner.log⟩)

def device (codec : Cbor.Codec) (line : Connection σ) : Device (Smp.Client σ) :=
  Smp.Client.device codec line.exchange

def listPorts (found : List PortInfo) : Session σ Unit := Session.print (ports found)

def probe (codec : Cbor.Codec) (line : Connection σ) : Session σ Unit := do
  Session.print [.panel "Bootloader Capabilities"]
  let c ← Session.require "Probe" (← Session.talk (withClient line (discover (device codec line))))
  match capabilities? c with
  | some items => Session.print items
  | none => throw .noCell

def listSlots (codec : Cbor.Codec) (line : Connection σ) : Session σ Unit := do
  Session.print [.panel "Image Slots"]
  let found ← Session.require "Image state query"
    (← Session.talk (withClient line (device codec line).listImages))
  Session.print [slots (found.getD [])]

def blamesArgument : Files.ImageFault → Bool
  | .notFound _ => true
  | .unreadable .. => false
  | .image (.suit (.notOctets cause)) =>
    match cause with
    | .negativeCount | .beyondOctet => true
    | .wrongKind | .countTooLarge | .noMemory => false
    | .failed mishap => mishap.blamesValue
  | .image (.suit (.broken mishap)) => mishap.blamesValue
  | .image _ => true

def imageStop (path : String) (fault : Files.ImageFault) : Stop :=
  if blamesArgument fault then .badParameter (path ++ ": " ++ fault.message) else .image fault

def duplicateStop (path : String) (d : Bundle.Duplicate) : Stop :=
  if Decimal.isWritable d.core && Decimal.isWritable d.slot then
    .badParameter (path ++ ": " ++ d.message)
  else .badParameter (path ++ ": " ++ Fault.unwritable.message)

def badArgument (fault : Argument.Fault) : Stop := .badParameter fault.message

def addImage (codec : Cbor.Codec) (room : Suit.Room) (files : Files) (b : Bundle)
    (argument : String) : Except Stop Bundle := do
  let a ← (Argument.image argument).mapError badArgument
  let image ← (files.readImage codec room a.path).mapError (imageStop a.path)
  (b.add { core := a.core, image, slot := a.slot }).mapError (duplicateStop a.path)

def cacheStop (path : String) (cause : OpenFault) : Stop :=
  if cause = .noName then .name cause else .badParameter (path ++ ": " ++ cause.message path)

def addCache (files : Files) (b : Bundle) (argument : String) : Except Stop Bundle := do
  let a ← (Argument.cache argument).mapError badArgument
  let data ← (files a.path).mapError (cacheStop a.path)
  return b.addCache ⟨a.partition, data⟩

def bundle (codec : Cbor.Codec) (room : Suit.Room) (files : Files) (images caches : List String) :
    Except Stop Bundle := do
  let b ← images.foldlM (addImage codec room files) Bundle.empty
  let b ← caches.foldlM (addCache files) b
  if b.cores.all Decimal.isWritable then return b else throw (.fault .unwritable)

structure PlanOptions where
  images : List String
  caches : List String := []
  mode : String := "test-and-confirm"
  eraseSettings : Bool := false
  asRecord : Bool := false
  asSummary : Bool := false
  verbose : Bool := false

def logLevel (verbose : Bool) : Int := if verbose then Log.Level.debug.rank else 0

def planRecord (r : Report) (pending : List Step) : Except Value.Unprintable Value :=
  (Report.record (r.fields ++
    [("execution_order", .array (pending.map fun s => .text s.describe))])).plain

def showPlan (options : PlanOptions) (mode : UpgradeMode) (r : Report) (pending : List Step) :
    Session σ Unit := do
  if options.asRecord then
    match planRecord r pending with
    | .ok v => Session.print [.record v]
    | .error cause => throw (.noRecord cause)
  else if options.asSummary then
    Session.print [.text r.summary none]
  else
    Session.print [.panel ("Upgrade Plan (" ++ mode.word ++ ")")]
    Session.print (plan r pending options.verbose)

def planUpgrade (codec : Cbor.Codec) (room : Suit.Room) (line : Connection σ) (files : Files)
    (options : PlanOptions) : Session σ Unit := do
  let mode ← Session.ofExcept ((Argument.mode options.mode).mapError badArgument)
  let b ← Session.ofExcept (bundle codec room files options.images options.caches)
  let settings : Settings := { eraseSettings := options.eraseSettings, mode }
  let validation :=
    validate (device codec line) Agenda.performer b none settings (logLevel options.verbose)
  let (r, agenda) ← Session.require "Planning"
    (← Session.talk (withClient line (withAgenda validation)))
  showPlan options mode r agenda.pending
  if !r.ok then throw (.exit 1)

def interrupted : Session σ Unit := do
  Session.print [.text "\n[yellow]Operation cancelled by user[/yellow]" none]
  throw (.exit 0)

def fatal (text : String) : Session σ Unit := do
  Session.print [.text ("\n[red bold]Fatal error:[/red bold] " ++ text) none]
  throw (.exit 1)

end Reflash.Console
