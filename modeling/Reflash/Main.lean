import Reflash.Cbor.Encode
import Reflash.Console.Options
import Reflash.Console.Plain
import Reflash.Rehearsal

/-! The program. What it does is worked out without a device: a command runs
against the replies so far, and where it sends one packet more, that packet is
sent over the port and the command runs again with the reply. The port is used
as the system has set it up. -/

namespace Reflash.Console

partial def readLine (port : IO.FS.Handle) (soFar : List UInt8) : IO Bytes := do
  let octet ← port.read 1
  match octet.data.toList with
  | [x] => if x = Serial.newline then return (x :: soFar).reverse else readLine port (x :: soFar)
  | _ => return soFar.reverse

partial def receive (port : IO.FS.Handle) (settings : Serial.Settings) (packet : Bytes)
    (reads : List Serial.Read) : IO (Except Fault Bytes) := do
  let link : Serial.Link := { settings, port := some { script := { reads } } }
  let (result, scene) := (Serial.Link.exchange packet).perform link
  let unread := (scene.state.port.map fun p => p.script.reads).getD []
  match result with
  | .error (.smp .silent) =>
    if unread.isEmpty && reads.getLast? != some (.line []) then
      let line ← readLine port []
      receive port settings packet (reads ++ [.line line])
    else return result
  | _ => return result

def exchange (port : IO.FS.Handle) (settings : Serial.Settings) (packet : Bytes) :
    IO (Except Fault Bytes) := do
  match Serial.Link.framed settings.maxLine packet with
  | .error fault => return .error fault
  | .ok octets =>
    try
      port.write ⟨octets.toArray⟩
      port.flush
      receive port settings packet []
    catch e => return .error (.smp (.port (toString e)))

partial def converse (session : Session Rehearsal.Replies Unit)
    (send : Bytes → IO (Except Fault Bytes)) (replies : List (Except Fault Bytes)) :
    IO (Except Stop Unit × Terminal Rehearsal.Replies) := do
  let outcome := session.run { state := { coming := replies } }
  match outcome.2.state.sent[replies.length]? with
  | none => return outcome
  | some packet =>
    let reply ← send packet
    converse session send (replies ++ [reply])

def usualPorts : List String :=
  ["ttyACM", "ttyUSB", "ttyS"].flatMap fun kind => (List.range 8).map fun i => kind ++ Nat.repr i

def findPorts : IO (List PortInfo) :=
  usualPorts.filterMapM fun name => do
    try
      let _ ← IO.FS.readFile ("/sys/class/tty/" ++ name ++ "/uevent")
      return some { device := "/dev/" ++ name, name }
    catch _ => return none

def openFault : IO.Error → OpenFault
  | .inappropriateType .. => .isDirectory
  | .invalidArgument .. => .nameTooLong
  | .noFileOrDirectory .. => .missing
  | e => .system (toString e)

def tryOpen (name : String) : IO (Except OpenFault Bytes) := do
  try
    let contents ← IO.FS.readBinFile name
    return .ok contents.data.toList
  catch e => return .error (openFault e)

def readFiles (o : PlanOptions) : IO Files := do
  let images := o.images.filterMap fun a =>
    (Argument.image a).toOption.map fun x => (Path.ofText x.path).text
  let caches := o.caches.filterMap fun a => (Argument.cache a).toOption.map fun x => x.path
  let found ← (images ++ caches).mapM fun name => return (name, ← tryOpen name)
  return fun name => (found.lookup name).getD (.error .missing)

def overPort (i : Invocation)
    (session : Connection Rehearsal.Replies → Session Rehearsal.Replies Unit) :
    IO (Except Stop Unit × Terminal Rehearsal.Replies) := do
  try
    let port ← IO.FS.Handle.mk i.settings.name .readWrite
    converse (session (Rehearsal.connection none)) (exchange port i.settings) []
  catch e =>
    let failure := Smp.Error.cannotOpen i.settings.name (toString e)
    converse (session (Rehearsal.connection (some failure))) (fun _ => return .ok []) []

/-- The program fills no more than four gigabytes with zeros. -/
def room : Suit.Room := fun n => n ≤ Nat.pow 2 32

def run (i : Invocation) : IO (Except Stop Unit × Terminal Rehearsal.Replies) := do
  match i.command with
  | .ports =>
    let found ← findPorts
    return (listPorts found).run { state := { coming := [] } }
  | .probe => overPort i (probe Cbor.plain)
  | .slots => overPort i (listSlots Cbor.plain)
  | .plan =>
    let files ← readFiles i.options
    overPort i fun line => planUpgrade Cbor.plain room line files i.options

def exitCode : Except Stop Unit → UInt32
  | .ok () => 0
  | .error (.exit code) => UInt32.ofNat code
  | .error (.badParameter _) => 2
  | .error _ => 1

def farewell : Except Stop Unit → List String
  | .error (.badParameter text) => ["Invalid value: " ++ text]
  | .error (.fault fault) => ["Fatal error: " ++ fault.message]
  | .error (.image fault) => ["Fatal error: " ++ fault.message]
  | .error (.name cause) => ["Fatal error: " ++ cause.message ""]
  | .error (.noRecord cause) => ["Fatal error: " ++ cause.message]
  | .error .noCell => ["Fatal error: the bootloader's name cannot be part of a table"]
  | _ => []

end Reflash.Console

open Reflash.Console in
def main (words : List String) : IO UInt32 := do
  match Invocation.ofWords? words with
  | none =>
    IO.eprintln Invocation.usage
    return 2
  | some i =>
    let (result, terminal) ← run i
    terminal.printed.forM fun item => (Plain.lines item).forM fun line => IO.println line
    (farewell result).forM fun line => IO.eprintln line
    return exitCode result
