/-! Floating-point numbers of 64 bits, as their bits: a sign, eleven bits of
exponent and 52 bits of fraction. Nothing here computes with them; they are
widened from the shorter formats, compared with whole numbers, cut to whole
numbers and, in the module on their shortest text, written. -/

namespace Reflash

structure Binary64 where
  bits : UInt64
  deriving DecidableEq

namespace Binary64

def isNegative (x : Binary64) : Bool := x.bits.toNat / Nat.pow 2 63 = 1

def exponentField (x : Binary64) : Nat := x.bits.toNat / Nat.pow 2 52 % Nat.pow 2 11

def fraction (x : Binary64) : Nat := x.bits.toNat % Nat.pow 2 52

def isNaN (x : Binary64) : Bool := x.exponentField = 2047 && x.fraction ≠ 0

def isInfinite (x : Binary64) : Bool := x.exponentField = 2047 && x.fraction = 0

def isZero (x : Binary64) : Bool := x.exponentField = 0 && x.fraction = 0

/-- Whole numbers `m` and `e` such that a finite number is `m * 2 ^ (e - 1074)` up to its sign. -/
def magnitude (x : Binary64) : Nat × Nat :=
  if x.exponentField = 0 then (x.fraction, 0)
  else (x.fraction + Nat.pow 2 52, x.exponentField - 1)

def truncate? (x : Binary64) : Option Int :=
  if x.exponentField = 2047 then none
  else
    let (m, e) := x.magnitude
    let n : Nat := m * Nat.pow 2 e / Nat.pow 2 1074
    some (if x.isNegative then -(n : Int) else n)

def whole? (x : Binary64) : Option Int :=
  let (m, e) := x.magnitude
  if m * Nat.pow 2 e % Nat.pow 2 1074 = 0 then x.truncate? else none

def sameNumber (x y : Binary64) : Bool :=
  !x.isNaN && !y.isNaN && (x.bits = y.bits || (x.isZero && y.isZero))

def assemble (negative : Bool) (exponent fraction : Nat) : Binary64 :=
  ⟨UInt64.ofNat ((if negative then Nat.pow 2 63 else 0) + exponent * Nat.pow 2 52 + fraction)⟩

def widen (exponentBits fractionBits : Nat) (pattern : Nat) : Binary64 :=
  let negative := pattern / Nat.pow 2 (exponentBits + fractionBits) % 2 = 1
  let e := pattern / Nat.pow 2 fractionBits % Nat.pow 2 exponentBits
  let f := pattern % Nat.pow 2 fractionBits
  let bias := Nat.pow 2 (exponentBits - 1) - 1
  if e = Nat.pow 2 exponentBits - 1 then
    assemble negative 2047 (f * Nat.pow 2 (52 - fractionBits))
  else if e = 0 then
    if f = 0 then assemble negative 0 0
    else
      let top := Nat.log2 f
      assemble negative (1024 + top - bias - fractionBits)
        ((f - Nat.pow 2 top) * Nat.pow 2 (52 - top))
  else
    assemble negative (e + 1023 - bias) (f * Nat.pow 2 (52 - fractionBits))

def ofBinary16 (pattern : Nat) : Binary64 := widen 5 10 pattern

def ofBinary32 (pattern : Nat) : Binary64 := widen 8 23 pattern

end Binary64
end Reflash
