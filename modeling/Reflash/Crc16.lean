import Reflash.Bytes

/-! The checksum of a serial frame: the cyclic redundancy code of sixteen bits
with generator x^16 + x^12 + x^5 + 1, most significant bit first and nothing
inverted. -/

namespace Reflash.Crc16

def generator : BitVec 16 := 0x1021

def shift (r : BitVec 16) : BitVec 16 :=
  if r.msb then r <<< 1 ^^^ generator else r <<< 1

def shifts : Nat → BitVec 16 → BitVec 16
  | 0, r => r
  | n + 1, r => shifts n (shift r)

def absorb (r : BitVec 16) (x : UInt8) : BitVec 16 :=
  shifts 8 (r ^^^ x.toBitVec.setWidth 16 <<< 8)

def register (start : BitVec 16) (data : Bytes) : BitVec 16 := data.foldl absorb start

/-- The checksum of `data` when the register starts with the low sixteen bits of `start`. -/
def checksumFrom (start : Int) (data : Bytes) : Nat := (register (BitVec.ofInt 16 start) data).toNat

def checksum (data : Bytes) : Nat := (register 0 data).toNat

theorem checksum_lt (data : Bytes) : checksum data < 65536 := (register 0 data).isLt

end Reflash.Crc16
