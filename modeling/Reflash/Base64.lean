import Reflash.Bytes

/-! Base64 with the standard alphabet. Writing pads the last group with `=`.
Reading works on one character at a time and comes in two kinds: the strict one
refuses every character outside the alphabet and everything after the padding,
the lenient one passes over both. Neither looks at the bits of the last
character that the padding leaves unused. -/

namespace Reflash.Base64

def pad : UInt8 := 61

def digit (n : Nat) : UInt8 :=
  if n < 26 then UInt8.ofNat (n + 65)
  else if n < 52 then UInt8.ofNat (n + 71)
  else if n < 62 then UInt8.ofNat (n - 4)
  else if n = 62 then 43
  else 47

def digitValue? (c : UInt8) : Option Nat :=
  let n := c.toNat
  if 65 ≤ n && n ≤ 90 then some (n - 65)
  else if 97 ≤ n && n ≤ 122 then some (n - 71)
  else if 48 ≤ n && n ≤ 57 then some (n + 4)
  else if n = 43 then some 62
  else if n = 47 then some 63
  else none

def encode : Bytes → Bytes
  | [] => []
  | [a] => [digit (a.toNat / 4), digit (a.toNat % 4 * 16), pad, pad]
  | [a, b] =>
    [digit (a.toNat / 4), digit (a.toNat % 4 * 16 + b.toNat / 16), digit (b.toNat % 16 * 4), pad]
  | a :: b :: c :: rest =>
    digit (a.toNat / 4) :: digit (a.toNat % 4 * 16 + b.toNat / 16) ::
      digit (b.toNat % 16 * 4 + c.toNat / 64) :: digit (c.toNat % 64) :: encode rest

inductive Reading where
  | strict
  | lenient
  deriving DecidableEq

structure Reader where
  taken : Nat := 0
  carry : Nat := 0
  pads : Nat := 0
  padded : Bool := false
  output : Bytes := []

def Reader.take (r : Reader) (bits : Nat) : Reader :=
  match r.taken with
  | 0 => { r with taken := 1, carry := bits, pads := 0 }
  | 1 => { r with taken := 2, carry := bits % 16, pads := 0,
                  output := UInt8.ofNat (r.carry * 4 + bits / 16) :: r.output }
  | 2 => { r with taken := 3, carry := bits % 4, pads := 0,
                  output := UInt8.ofNat (r.carry * 16 + bits / 4) :: r.output }
  | _ => { r with taken := 0, carry := 0, pads := 0,
                  output := UInt8.ofNat (r.carry * 64 + bits) :: r.output }

def Reader.run (kind : Reading) (r : Reader) : Bytes → Option Bytes
  | [] => if r.taken = 0 then some r.output.reverse else none
  | c :: rest =>
    if c = pad then
      if r.taken < 2 then
        run kind { r with padded := true } rest
      else if 4 ≤ r.taken + (r.pads + 1) then
        if kind = .strict && !rest.isEmpty then none else some r.output.reverse
      else
        run kind { r with padded := true, pads := r.pads + 1 } rest
    else
      match digitValue? c with
      | none => if kind = .strict then none else run kind r rest
      | some bits => if kind = .strict && r.padded then none else run kind (r.take bits) rest

/-- The octets that a text stands for; a strict text does not start with padding. -/
def decode (kind : Reading) (text : Bytes) : Option Bytes :=
  if kind = .strict && text.head? = some pad then none else Reader.run kind {} text

end Reflash.Base64
