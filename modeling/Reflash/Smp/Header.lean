import Reflash.Bytes

/-! The eight octets before every message: operation and version in one octet,
flags, the length of what follows, the group, a sequence number and the command
within the group. -/

namespace Reflash.Smp

structure Header where
  op : Int
  flags : Int
  length : Int
  group : Int
  sequence : Int
  command : Int
  version : Int := 1
  deriving DecidableEq

namespace Header

def size : Nat := 8

def field? (width : Nat) : Int → Option Bytes
  | .ofNat n => if n < Nat.pow 256 width then some (Bytes.ofNatBE width n) else none
  | .negSucc _ => none

def first (op version : Int) : UInt8 := UInt8.ofNat (op % 8 + version % 4 * 8).toNat

def pack? (h : Header) : Option Bytes := do
  let flags ← field? 1 h.flags
  let length ← field? 2 h.length
  let group ← field? 2 h.group
  let sequence ← field? 1 h.sequence
  let command ← field? 1 h.command
  return first h.op h.version :: (flags ++ length ++ group ++ sequence ++ command)

def unpack? : Bytes → Option Header
  | x :: flags :: l₁ :: l₀ :: g₁ :: g₀ :: sequence :: command :: _ =>
    some {
      op := (x.toNat % 8 : Nat)
      flags := flags.toNat
      length := Bytes.toNatBE [l₁, l₀]
      group := Bytes.toNatBE [g₁, g₀]
      sequence := sequence.toNat
      command := command.toNat
      version := (x.toNat / 8 % 4 : Nat) }
  | _ => none

end Header
end Reflash.Smp
