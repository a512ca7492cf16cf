/-! Byte strings, their hexadecimal text, and the unsigned numbers that they spell in
a fixed number of octets, in either order. Writing a number keeps its low octets, so a
writer never fails; whoever writes a number that may not fit checks it first. -/

namespace Reflash

abbrev Bytes := List UInt8

namespace Bytes

def toNatBE (b : Bytes) : Nat := b.foldl (fun n x => n * 256 + x.toNat) 0

def toNatLE : Bytes → Nat
  | [] => 0
  | x :: rest => x.toNat + 256 * toNatLE rest

def ofNatBE : Nat → Nat → Bytes
  | 0, _ => []
  | width + 1, n => ofNatBE width (n / 256) ++ [UInt8.ofNat n]

def ofNatLE : Nat → Nat → Bytes
  | 0, _ => []
  | width + 1, n => UInt8.ofNat n :: ofNatLE width (n / 256)

def minimalBE (n : Nat) : Bytes :=
  if n = 0 then [] else minimalBE (n / 256) ++ [UInt8.ofNat n]
termination_by n

def slice? (b : Bytes) (offset size : Nat) : Option Bytes :=
  let part := (b.drop offset).take size
  if part.length = size then some part else none

@[simp] theorem length_ofNatBE (width n : Nat) : (ofNatBE width n).length = width := by
  induction width generalizing n with
  | zero => rfl
  | succ width ih => simp [ofNatBE, ih]

@[simp] theorem length_ofNatLE (width n : Nat) : (ofNatLE width n).length = width := by
  induction width generalizing n with
  | zero => rfl
  | succ width ih => simp [ofNatLE, ih]

theorem minimalBE_pow_pred (k : Nat) :
    minimalBE (Nat.pow 256 k - 1) = List.replicate k 0xFF := by
  induction k with
  | zero => rw [minimalBE]; rfl
  | succ k ih =>
    have hpos : 0 < Nat.pow 256 k := Nat.pow_pos (by decide)
    have hpow : Nat.pow 256 (k + 1) = Nat.pow 256 k * 256 := rfl
    have hdiv : (Nat.pow 256 (k + 1) - 1) / 256 = Nat.pow 256 k - 1 := by omega
    have hlast : UInt8.ofNat (Nat.pow 256 (k + 1) - 1) = 0xFF := by
      apply UInt8.toNat_inj.mp
      rw [UInt8.toNat_ofNat']
      show (Nat.pow 256 (k + 1) - 1) % 256 = 255
      omega
    rw [minimalBE, if_neg (by omega), hdiv, ih, hlast, List.replicate_succ']

theorem toNatBE_append_singleton (b : Bytes) (x : UInt8) :
    toNatBE (b ++ [x]) = toNatBE b * 256 + x.toNat := by
  simp [toNatBE, List.foldl_append]

theorem toNatBE_ofNatBE {width n : Nat} (h : n < Nat.pow 256 width) :
    toNatBE (ofNatBE width n) = n := by
  induction width generalizing n with
  | zero => simp at h; simp [ofNatBE, toNatBE, h]
  | succ width ih =>
    have hn : n / 256 < Nat.pow 256 width := by
      have h : n < Nat.pow 256 width * 256 := h
      exact Nat.div_lt_of_lt_mul (by omega)
    rw [ofNatBE, toNatBE_append_singleton, ih hn]
    simp
    omega

theorem toNatLE_ofNatLE {width n : Nat} (h : n < Nat.pow 256 width) :
    toNatLE (ofNatLE width n) = n := by
  induction width generalizing n with
  | zero => simp at h; simp [ofNatLE, toNatLE, h]
  | succ width ih =>
    have hn : n / 256 < Nat.pow 256 width := by
      have h : n < Nat.pow 256 width * 256 := h
      exact Nat.div_lt_of_lt_mul (by omega)
    rw [ofNatLE, toNatLE, ih hn]
    simp
    omega

end Bytes

namespace Hex

def lower (b : Bytes) : String :=
  String.ofList (b.flatMap fun x => [Nat.digitChar (x.toNat / 16), Nat.digitChar (x.toNat % 16)])

def upper (b : Bytes) : String :=
  String.ofList (b.flatMap fun x =>
    [(Nat.digitChar (x.toNat / 16)).toUpper, (Nat.digitChar (x.toNat % 16)).toUpper])

def padded (width n : Nat) : List Char :=
  let digits := Nat.toDigits 16 n
  List.replicate (width - digits.length) '0' ++ digits

def number (width n : Nat) : String :=
  String.ofList ('0' :: 'x' :: (padded width n).map Char.toUpper)

end Hex
end Reflash
