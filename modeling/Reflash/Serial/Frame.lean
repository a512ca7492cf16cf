import Reflash.Base64
import Reflash.Crc16
import Reflash.Text.Numeral
import Reflash.Bytes

/-! Packets as console lines. A frame is the length of packet and checksum, the
packet and its checksum, written in base64 and cut into lines: the first begins
with the start marker, the others with the continuation marker. Each line holds
whole groups of base64, so it can be read by itself. Lines with neither marker
are console output and belong to no frame. -/

namespace Reflash.Serial

def start : Bytes := [0x06, 0x09]

def continuation : Bytes := [0x04, 0x14]

def newline : UInt8 := 10

def defaultMaxLine : Int := 127

namespace Frame

inductive Unsendable where
  | tooLarge
  | noRoom
  deriving DecidableEq

inductive Fault where
  | noStart
  | badBase64
  | tooShort
  | wrongLength (announced actual : Nat)
  | wrongChecksum (computed carried : Nat)
  deriving DecidableEq

def Fault.message : Fault → String
  | noStart => "no SMP frame start marker received"
  | badBase64 => "invalid base64 in frame: it is not whole groups of the alphabet"
  | tooShort => "frame too short"
  | wrongLength announced actual =>
    "frame length mismatch: header " ++ Nat.repr announced ++ ", got " ++ Nat.repr actual
  | wrongChecksum computed carried =>
    "CRC16 mismatch: got " ++ Hex.number 4 computed ++ ", want " ++ Hex.number 4 carried

def maxPacket : Nat := 65533

def body (packet : Bytes) : Bytes :=
  Bytes.ofNatBE 2 (packet.length + 2) ++ packet ++ Bytes.ofNatBE 2 (Crc16.checksum packet)

/-- The base64 characters in a line of at most `maxLine` octets: whole groups beside the marker
and the end of the line. A line that is too short for its marker gives a negative room. -/
def room (maxLine : Int) : Int := Int.fdiv (maxLine - 3) 4 * 4

def cut : Nat → Bytes → List Bytes
  | 0, _ => []
  | _, [] => []
  | n + 1, x :: rest => (x :: rest.take n) :: cut (n + 1) (rest.drop n)
termination_by _ b => b.length

def mark : List Bytes → List Bytes
  | [] => []
  | piece :: rest =>
    (start ++ piece ++ [newline]) :: rest.map fun piece => continuation ++ piece ++ [newline]

/-- The lines of a packet's frame. Where there is no room for a single octet beside the marker,
the frame has no lines. -/
def lines (maxLine : Int) (packet : Bytes) : Except Unsendable (List Bytes) :=
  if maxPacket < packet.length then .error .tooLarge
  else if room maxLine = 0 then .error .noRoom
  else .ok (mark (cut (room maxLine).toNat (Base64.encode (body packet))))

def encode (maxLine : Int) (packet : Bytes) : Except Unsendable Bytes :=
  (lines maxLine packet).map List.flatten

def trimEnd (line : Bytes) : Bytes :=
  (line.reverse.dropWhile fun x => x = 13 || x = 10).reverse

/-- The text of the frame after one more line: a start begins anew, a continuation adds to what
has begun, and any other line is passed over. -/
def absorb (text : Option Bytes) (line : Bytes) : Option Bytes :=
  let line := trimEnd line
  if start.isPrefixOf line then some (line.drop 2)
  else if continuation.isPrefixOf line then text.map (· ++ line.drop 2)
  else text

def gather (lines : List Bytes) : Option Bytes := lines.foldl absorb none

def unwrap (body : Bytes) : Except Fault Bytes :=
  if body.length < 4 then .error .tooShort
  else
    let announced := Bytes.toNatBE (body.take 2)
    let rest := body.drop 2
    if announced ≠ rest.length then .error (.wrongLength announced rest.length)
    else
      let packet := rest.take (rest.length - 2)
      let carried := Bytes.toNatBE (rest.drop (rest.length - 2))
      if Crc16.checksum packet ≠ carried then
        .error (.wrongChecksum (Crc16.checksum packet) carried)
      else .ok packet

def decode (lines : List Bytes) : Except Fault Bytes :=
  match gather lines with
  | none => .error .noStart
  | some text =>
    match Base64.decode .strict text with
    | none => .error .badBase64
    | some body => unwrap body

def holdsAll (body : Bytes) : Bool :=
  2 ≤ body.length && Bytes.toNatBE (body.take 2) ≤ body.length - 2

/-- Whether the lines of a frame hold all that it announces, as far as they form whole groups. -/
def isComplete (lines : List Bytes) : Bool :=
  let text := lines.flatMap fun line => (trimEnd line).drop 2
  let usable := text.take (text.length / 4 * 4)
  if usable.length < 4 then false
  else
    match Base64.decode .lenient usable with
    | none => false
    | some body => holdsAll body

end Frame
end Reflash.Serial
