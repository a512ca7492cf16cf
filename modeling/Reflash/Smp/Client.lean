import Reflash.Action
import Reflash.Smp.Header

/-! Requests to the device. A request is a header and a map; its answer has the
next operation, the same group, sequence number and command, and a map that
carries no return code. Every request that is written takes the next sequence number,
whatever becomes of it. -/

namespace Reflash.Smp

structure Client (σ : Type) where
  link : σ
  version : Int := 1
  sequence : Int := 0

structure Request where
  op : Int
  group : Int
  command : Int
  payload : Value := .map []

namespace Request

def content (r : Request) : Value := if r.payload.isSet then r.payload else .map []

def body (r : Request) (codec : Cbor.Codec) : Except String Bytes := codec.encode r.content

def header (r : Request) (body : Bytes) (version sequence : Int) : Header where
  op := r.op
  flags := 0
  length := body.length
  group := r.group
  sequence
  command := r.command
  version

def packet? (r : Request) (body : Bytes) (version sequence : Int) : Option Bytes :=
  (r.header body version sequence).pack?.map (· ++ body)

def isWritable (r : Request) (sequence : Int) : Bool :=
  Decimal.isWritable r.group && Decimal.isWritable r.command && Decimal.isWritable sequence &&
    r.content.isWritable

def description (r : Request) (sequence : Int) : String :=
  "SMP request: group=" ++ Decimal.ofInt r.group ++ " id=" ++ Decimal.ofInt r.command ++
    " seq=" ++ Decimal.ofInt sequence ++ " " ++ r.content.written

def answer (r : Request) (sequence : Int) (packet : Bytes) : Except ReplyFault Bytes :=
  match Header.unpack? packet with
  | none => .error (.tooShort packet.length)
  | some h =>
    if h.op ≠ r.op + 1 then .error (.wrongOperation h.op r.op)
    else if h.group ≠ r.group ∨ h.sequence ≠ sequence ∨ h.command ≠ r.command then
      .error (.notTheAnswer h.group h.sequence h.command)
    else
      let payload := (packet.drop Header.size).take h.length.toNat
      if (payload.length : Int) ≠ h.length then .error (.truncated payload.length h.length)
      else .ok payload

end Request

def payloadMap (codec : Cbor.Codec) (payload : Bytes) : Except Fault Value.Entries :=
  if payload = [] then .ok []
  else
    match codec.decode payload with
    | .error .malformed => .error (.smp (.reply .badCbor))
    | .error (.unfit text) => .error (.foreign .decoding text)
    | .error (.broken mishap) => .error (.foreign .decoding mishap.text)
    | .ok (.map entries) => .ok entries
    | .ok _ => .error (.smp (.reply .notMap))

def refusal (code group : Value) : Fault :=
  match code.toInt with
  | .error cause => .notWhole cause
  | .ok n =>
    if Decimal.isWritable n && group.isWritable then .smp (.refused n group) else .unwritable

/-- Refuses a map with a return code: under `err` together with its group, or alone. -/
def checkReturnCode (entries : Value.Entries) : Except Fault Unit :=
  let grouped := match Value.get? "err" entries with
    | some (.map err) =>
      ((Value.get? "rc" err).filter Value.isSet).map fun code =>
        refusal code ((Value.get? "group" err).getD .null)
    | _ => none
  let alone := ((Value.get? "rc" entries).filter Value.isSet).map fun code => refusal code .null
  match grouped <|> alone with
  | some fault => .error fault
  | none => .ok ()

def Request.reading (r : Request) (codec : Cbor.Codec) (sequence : Int) (packet : Bytes) :
    Except Fault Value.Entries :=
  (r.answer sequence packet).mapError ReplyFault.report >>= payloadMap codec

def Request.outcome (r : Request) (codec : Cbor.Codec) (sequence : Int) (packet : Bytes) :
    Except Fault Value.Entries × List Log.Entry :=
  match r.reading codec sequence packet with
  | .error fault => (.error fault, [])
  | .ok entries =>
    if (Value.map entries).isWritable then
      ((checkReturnCode entries).map fun () => entries,
        [⟨.debug, .client, "SMP response: " ++ (Value.map entries).written⟩])
    else (.error .unwritable, [])

namespace Client

variable {σ : Type}

def overLink {α : Type} (action : Action σ α) : Action (Client σ) α :=
  action.within link fun link client => { client with link }

def takeSequence : Action (Client σ) Int := do
  let client ← Action.state
  Action.setState { client with sequence := (client.sequence + 1) % 256 }
  return client.sequence

def request (codec : Cbor.Codec) (transport : Transport σ) (r : Request) :
    Action (Client σ) Value.Entries := do
  match r.body codec with
  | .error text => throw (.foreign .encoding text)
  | .ok body =>
    let sequence ← takeSequence
    Action.requireWritable (r.isWritable sequence)
    Action.debug .client (r.description sequence)
    match r.packet? body (← Action.state).version sequence with
    | none => throw .headerField
    | some packet =>
      let reply ← overLink (transport packet)
      Action.conclude (r.outcome codec sequence reply)

end Client
end Reflash.Smp
