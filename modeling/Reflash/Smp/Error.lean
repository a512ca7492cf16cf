import Reflash.Serial.Frame
import Reflash.Slot

/-! What can go wrong between this program and the device, from the port up to
the meaning of a reply, and in a run as a whole. Failures in talking to the device are
answered within the run; the others end it. -/

namespace Reflash

namespace Smp

inductive ReplyFault where
  | tooShort (size : Nat)
  | wrongOperation (received sent : Int)
  | notTheAnswer (group sequence command : Int)
  | truncated (received : Nat) (announced : Int)
  | badCbor
  | notMap
  | badMode (mode : Value)
  | imagesNoList (kind : String)
  | badSlot (cause : Slot.Fault)

def ReplyFault.message : ReplyFault → String
  | tooShort size => "SMP packet too short: " ++ Nat.repr size ++ " bytes"
  | wrongOperation received sent =>
    "unexpected response op " ++ Decimal.ofInt received ++ " for request op " ++ Decimal.ofInt sent
  | notTheAnswer group sequence command =>
    "response does not match request: group=" ++ Decimal.ofInt group ++ " seq=" ++
      Decimal.ofInt sequence ++ " id=" ++ Decimal.ofInt command
  | truncated received announced =>
    "truncated payload: " ++ Nat.repr received ++ "/" ++ Decimal.ofInt announced ++ " bytes"
  | badCbor => "invalid CBOR payload: no item can be read"
  | notMap => "response payload is not a map"
  | badMode mode => "invalid bootloader mode " ++ mode.quoted
  | imagesNoList kind => "malformed image state: images is a " ++ kind
  | badSlot cause => "malformed image state entry: " ++ cause.message

def ReplyFault.isWritable : ReplyFault → Bool
  | wrongOperation _ sent => Decimal.isWritable sent
  | _ => true

inductive Nature where
  | general
  | port
  | silence
  | protocol
  deriving DecidableEq

inductive Error where
  | tooLarge
  | frame (fault : Serial.Frame.Fault)
  | reply (fault : ReplyFault)
  | notOpen
  | cannotOpen (port reason : String)
  | port (reason : String)
  | silent
  | refused (code : Int) (group : Value)
  | foreign (nature : Nature) (text : String)

def Error.nature? : Error → Option Nature
  | tooLarge | frame _ | reply _ => some .protocol
  | notOpen | cannotOpen .. | port _ => some .port
  | silent => some .silence
  | refused .. => none
  | foreign nature _ => some nature

def groupNote : Value → String
  | .null => ""
  | group => " (group " ++ group.written ++ ")"

def Error.message : Error → String
  | tooLarge => "packet too large for serial framing"
  | frame fault => fault.message
  | reply fault => fault.message
  | notOpen => "Serial port not open"
  | cannotOpen name reason => "Cannot open port " ++ name ++ ": " ++ reason
  | port reason => "Serial error: " ++ reason
  | silent => "Device did not respond (timeout)"
  | refused code group =>
    "Device returned error rc=" ++ Decimal.ofInt code ++ groupNote group
  | foreign _ text => text

end Smp

inductive Foreign where
  | planning
  | runtime
  | value
  | encoding
  | decoding
  deriving DecidableEq

inductive Fault where
  | smp (error : Smp.Error)
  | noImages
  | notWhole (cause : Value.NotWhole)
  | unwritable
  | badMode
  | headerField
  | noRoom
  | foreign (kind : Foreign) (text : String)

def Fault.message : Fault → String
  | smp error => error.message
  | noImages => "Missing images information"
  | notWhole cause => cause.message
  | unwritable =>
    "Exceeds the limit (4300 digits) for integer string conversion; " ++
      "use sys.set_int_max_str_digits() to increase the limit"
  | badMode => "an array or a map is no mode"
  | headerField => "a header field is out of range"
  | noRoom => "a line has no room for data"
  | foreign _ text => text

def Smp.ReplyFault.report (fault : ReplyFault) : Fault :=
  if fault.isWritable then .smp (.reply fault) else .unwritable

end Reflash
