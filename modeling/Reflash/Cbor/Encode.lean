import Reflash.Cbor.Decode

/-! Writing CBOR, and the codec that the program runs with. Every length and every
whole number takes the fewest octets; whole numbers beyond 64 bits are tagged strings
of octets. Floats take eight octets, save that an infinity or what is no number takes
two. Values of other kinds are not written. -/

namespace Reflash.Cbor

def writeHead (major argument : Nat) : Bytes :=
  if argument < 24 then [UInt8.ofNat (major * 32 + argument)]
  else if argument < Nat.pow 2 8 then UInt8.ofNat (major * 32 + 24) :: Bytes.ofNatBE 1 argument
  else if argument < Nat.pow 2 16 then UInt8.ofNat (major * 32 + 25) :: Bytes.ofNatBE 2 argument
  else if argument < Nat.pow 2 32 then UInt8.ofNat (major * 32 + 26) :: Bytes.ofNatBE 4 argument
  else UInt8.ofNat (major * 32 + 27) :: Bytes.ofNatBE 8 argument

def writeBytes (b : Bytes) : Bytes := writeHead 2 b.length ++ b

def writeText (s : String) : Bytes :=
  let b := s.toUTF8.data.toList
  writeHead 3 b.length ++ b

def writeWhole (major n : Nat) : Bytes :=
  if n < Nat.pow 2 64 then writeHead major n
  else writeHead 6 (major + 2) ++ writeBytes (Bytes.minimalBE n)

def writeInt : Int → Bytes
  | .ofNat n => writeWhole 0 n
  | .negSucc n => writeWhole 1 n

def writeFloat (x : Binary64) : Bytes :=
  if x.isNaN then [0xF9, 0x7E, 0x00]
  else if x.isInfinite then [0xF9, if x.isNegative then 0xFC else 0x7C, 0x00]
  else 0xFB :: Bytes.ofNatBE 8 x.bits.toNat

def writeSimple (code : Nat) : Bytes := writeHead 7 code

mutual

def encode : Value → Except String Bytes
  | .null => .ok [0xF6]
  | .undefined => .ok [0xF7]
  | .bool b => .ok [if b then 0xF5 else 0xF4]
  | .int i => .ok (writeInt i)
  | .float x => .ok (writeFloat x)
  | .bytes b => .ok (writeBytes b)
  | .text s => .ok (writeText s)
  | .array items => (encodeItems items).map (writeHead 4 items.length ++ ·)
  | .map entries => (encodeEntries entries).map (writeHead 5 entries.length ++ ·)
  | .tag number content _ => (encode content).map (writeHead 6 number ++ ·)
  | .simple code => .ok (writeSimple code)
  | .other traits _ => .error ("cannot write a " ++ traits.kind)

def encodeItems : List Value → Except String Bytes
  | [] => .ok []
  | v :: rest => do
    let octets ← encode v
    return octets ++ (← encodeItems rest)

def encodeEntries : Value.Entries → Except String Bytes
  | [] => .ok []
  | (k, v) :: rest => do
    let key ← encode k
    let octets ← encode v
    return key ++ octets ++ (← encodeEntries rest)

end

def plain : Codec where
  decode b := (decode b).elim (.error .malformed) .ok
  encode := encode

theorem plain_decode {b : Bytes} {v : Value} (h : decode b = some v) : plain.decode b = .ok v := by
  simp only [plain, h, Option.elim_some]

end Reflash.Cbor
