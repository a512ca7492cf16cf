import Reflash.Action
import Reflash.Binary64.Shortest

/-! The link over a serial port. A packet is written as a frame and answered by
the first frame that is complete; lines of console output in between are passed
over, and a line that starts a frame drops what came before it. A port is given
by what it will do: the lines that reading gives, one after the other and then
nothing more, and whether opening or writing fails. -/

namespace Reflash.Serial

inductive Read where
  | line (content : Bytes)
  | failure (reason : String)
  deriving DecidableEq

structure Script where
  reads : List Read := []
  writeFailure : Option String := none
  openFailure : Option String := none
  deriving DecidableEq

inductive Call where
  | clearInput
  | clearOutput
  | flush
  | close
  deriving DecidableEq

structure Port where
  isOpen : Bool := true
  script : Script
  written : Bytes := []
  calls : List Call := []

def Port.call (port : Port) (c : Call) : Port := { port with calls := port.calls ++ [c] }

structure Settings where
  name : String
  baud : Int := 115200
  /-- Seconds to wait for a line, five unless said otherwise. -/
  timeout : Binary64 := ⟨0x4014000000000000⟩
  maxLine : Int := defaultMaxLine
  deriving DecidableEq

structure Link where
  settings : Settings
  script : Script := {}
  port : Option Port := none

namespace Link

def isOpen (link : Link) : Bool :=
  match link.port with
  | some port => port.isOpen
  | none => false

def expecting (link : Link) (script : Script) : Link :=
  { link with
    script
    port := link.port.map fun port => { port with script, written := [], calls := [] } }

def open_ : Action Link Unit := do
  let link ← Action.state
  match link.script.openFailure with
  | some reason => Action.fail (.cannotOpen link.settings.name reason)
  | none =>
    let port : Port := { script := link.script }
    Action.setState
      { link with port := some ((port.call .clearInput).call .clearOutput) }
    Action.requireWritable (Decimal.isWritable link.settings.baud)
    Action.debug .link ("Opened " ++ link.settings.name ++ " at " ++
      Decimal.ofInt link.settings.baud ++ " bps (timeout=" ++ link.settings.timeout.text ++ "s)")

def close : Action Link Unit := do
  let link ← Action.state
  match link.port with
  | some port =>
    if port.isOpen then
      Action.setState { link with port := some { port.call .close with isOpen := false } }
      Action.debug .link ("Closed " ++ link.settings.name)
  | none => pure ()

def extend? (lines : List Bytes) (line : Bytes) : Option (List Bytes) :=
  if start.isPrefixOf line then some [line]
  else if continuation.isPrefixOf line && !lines.isEmpty then some (lines ++ [line])
  else none

/-- What reading comes to: the lines of a frame or a failure, what is left to read, and the lines
that were passed over. -/
structure Reception where
  result : Except Smp.Error (List Bytes)
  unread : List Read
  ignored : List Bytes

def receive (lines : List Bytes) : List Read → Reception
  | [] => ⟨.error .silent, [], []⟩
  | .failure reason :: rest => ⟨.error (.port reason), rest, []⟩
  | .line [] :: rest => ⟨.error .silent, rest, []⟩
  | .line line :: rest =>
    match extend? lines line with
    | some lines => if Frame.isComplete lines then ⟨.ok lines, rest, []⟩ else receive lines rest
    | none =>
      let r := receive lines rest
      { r with ignored := line :: r.ignored }

def Reception.answer (r : Reception) : Except Smp.Error Bytes :=
  match r.result with
  | .error e => .error e
  | .ok lines => (Frame.decode lines).mapError .frame

def framed (maxLine : Int) (packet : Bytes) : Except Fault Bytes :=
  (Frame.encode maxLine packet).mapError fun
    | .tooLarge => .smp .tooLarge
    | .noRoom => .noRoom

def debug (text : String) : Log.Entry := ⟨.debug, .link, text⟩

def exchangeEntries (packet : Bytes) (r : Reception) : List Log.Entry :=
  debug (">>> " ++ Hex.upper packet) ::
    (r.ignored.map fun line => debug ("Ignoring console output: " ++ Text.quotedBytes line)) ++
    match r.answer with
    | .ok answer => [debug ("<<< " ++ Hex.upper answer)]
    | .error _ => []

def exchangeOver (port : Port) (maxLine : Int) (packet : Bytes) :
    Port × Except Fault Bytes × List Log.Entry :=
  match framed maxLine packet with
  | .error fault => (port, .error fault, [])
  | .ok octets =>
    match port.script.writeFailure with
    | some reason => (port, .error (.smp (.port reason)), [])
    | none =>
      let r := receive [] port.script.reads
      ({ port.call .flush with
          written := port.written ++ octets
          script := { port.script with reads := r.unread } },
        r.answer.mapError .smp, exchangeEntries packet r)

def exchange : Transport Link := fun packet => do
  let link ← Action.state
  match link.port.filter Port.isOpen with
  | none => Action.fail .notOpen
  | some port =>
    let (port, outcome) := exchangeOver port link.settings.maxLine packet
    Action.setState { link with port := some port }
    Action.conclude outcome

def connection : Connection Link where
  opening := open_
  closing := close
  exchange := exchange

end Link
end Reflash.Serial
