import Mathlib.Algebra.Polynomial.FieldDivision
import Mathlib.Data.Nat.Size
import Mathlib.Tactic.ComputeDegree
import Mathlib.Tactic.LinearCombination
import Reflash.Proofs.Crc16.Guarded

/-! The checksum as a remainder. Bits are coefficients in the field of two elements, so
the register is a polynomial of degree below sixteen and the data one of any degree. A
shift multiplies the register by x and takes the modulus away once if the degree has
become too high. Fed bit by bit, the register plus a multiple of the modulus is then what
it started with, moved up by the length of the data, and the data, moved up by sixteen
places: the register is what division by the modulus leaves of that. -/

namespace Reflash.Crc16
open Polynomial Finset

noncomputable section

abbrev Poly := (ZMod 2)[X]

namespace Poly

/-- The polynomial with these coefficients, that of the highest power first. -/
def ofBits : List Bool → Poly
  | [] => 0
  | b :: rest => monomial rest.length (bit b) + ofBits rest

def ofNat (n : Nat) : Poly := ∑ i ∈ range n.size, monomial i (bit (n.testBit i))

theorem coeff_ofNat (n i : Nat) : (ofNat n).coeff i = bit (n.testBit i) := by
  simp only [ofNat, finsetSum_coeff, coeff_monomial, sum_ite_eq', mem_range]
  split
  · rfl
  · have hsize : n < 2 ^ i := Nat.size_le.mp (by omega)
    rw [Nat.testBit_lt_two_pow hsize]
    rfl

theorem ofNat_xor (m n : Nat) : ofNat (m ^^^ n) = ofNat m + ofNat n := by
  ext i
  rw [coeff_add, coeff_ofNat, coeff_ofNat, coeff_ofNat, Nat.testBit_xor, bit_xor]

end Poly

def modulus : Poly := X ^ 16 + X ^ 12 + X ^ 5 + 1

theorem degree_modulus : modulus.degree = 16 := by
  unfold modulus
  compute_degree!

theorem monic_modulus : modulus.Monic := by
  unfold modulus
  monicity!

variable (r v : BitVec 16) (b : Bool)

/-! ### The register as a polynomial -/

def poly (r : BitVec 16) : Poly := Poly.ofNat r.toNat

theorem coeff_poly (i : Nat) : (poly r).coeff i = bit (r.getLsbD i) := by
  rw [poly, Poly.coeff_ofNat, BitVec.testBit_toNat]

theorem degree_poly : (poly r).degree < modulus.degree := by
  rw [degree_modulus]
  apply (degree_lt_iff_coeff_zero (poly r) 16).mpr
  intro i hi
  rw [coeff_poly, BitVec.getLsbD_of_ge r i hi]
  rfl

theorem poly_xor : poly (r ^^^ v) = poly r + poly v := by
  rw [poly, BitVec.toNat_xor, Poly.ofNat_xor]
  rfl

theorem poly_scale : poly (scale b v) = C (bit b) * poly v := by
  ext i
  rw [coeff_C_mul, coeff_poly, coeff_poly, getLsbD_scale]
  cases b <;> simp [bit]

theorem poly_twoPow {i : Nat} (hi : i < 16) : poly (BitVec.twoPow 16 i) = X ^ i := by
  ext j
  rw [coeff_poly, coeff_X_pow, BitVec.getLsbD_twoPow]
  by_cases hj : j = i
  · simp [hj, hi, bit]
  · simp [hj, Ne.symm hj, bit]

theorem poly_generator : X ^ 16 + poly generator = modulus := by
  have hterms : generator = BitVec.twoPow 16 12 ^^^ BitVec.twoPow 16 5 ^^^ BitVec.twoPow 16 0 := by
    decide
  rw [hterms, poly_xor, poly_xor, poly_twoPow (by decide), poly_twoPow (by decide),
    poly_twoPow (by decide), modulus]
  ring

theorem poly_shiftLeft : poly (r <<< 1) + C (bit r.msb) * X ^ 16 = poly r * X := by
  ext i
  rw [coeff_add, coeff_C_mul, coeff_X_pow, coeff_poly]
  cases i with
  | zero =>
    rw [coeff_mul_X_zero, BitVec.getLsbD_shiftLeft]
    simp [bit]
  | succ i =>
    rw [coeff_mul_X, coeff_poly]
    rcases Nat.lt_trichotomy (i + 1) 16 with hlow | htop | hhigh
    · rw [getLsbD_shiftLeft_succ r hlow, if_neg (Nat.ne_of_lt hlow), mul_zero, add_zero]
    · have hi : i = 15 := by omega
      subst hi
      simp [bit, BitVec.msb_eq_getLsbD_last]
    · rw [BitVec.getLsbD_of_ge _ _ (by omega), BitVec.getLsbD_of_ge _ _ (by omega),
        if_neg (Nat.ne_of_gt hhigh), mul_zero, add_zero]

/-! ### Division -/

theorem poly_shift : poly (shift r) + C (bit r.msb) * modulus = poly r * X := by
  -- the generator comes in twice, once from the shift and once with the modulus
  have htwo : (2 : Poly) = 0 := CharTwo.two_eq_zero
  rw [shift_eq, poly_xor, poly_scale, ← poly_generator]
  linear_combination poly_shiftLeft r + C (bit r.msb) * poly generator * htwo

theorem poly_feed :
    poly (feed r b) + C (bit (r ^^^ scale b top).msb) * modulus =
      poly r * X + C (bit b) * X ^ 16 := by
  have htop : poly top = X ^ 15 := poly_twoPow (by decide)
  rw [feed, poly_shift, poly_xor, poly_scale, htop]
  ring

theorem exists_quotient (bits : List Bool) :
    ∃ quotient, poly (bits.foldl feed r) + modulus * quotient =
      poly r * X ^ bits.length + Poly.ofBits bits * X ^ 16 := by
  induction bits generalizing r with
  | nil => exact ⟨0, by simp [Poly.ofBits]⟩
  | cons b rest ih =>
    obtain ⟨quotient, hrest⟩ := ih (feed r b)
    refine ⟨quotient + C (bit (r ^^^ scale b top).msb) * X ^ rest.length, ?_⟩
    rw [List.foldl_cons, List.length_cons, Poly.ofBits, ← C_mul_X_pow_eq_monomial]
    linear_combination hrest + X ^ rest.length * poly_feed r b

theorem poly_foldl_feed (bits : List Bool) :
    poly (bits.foldl feed r) =
      (poly r * X ^ bits.length + Poly.ofBits bits * X ^ 16) % modulus := by
  obtain ⟨quotient, hquotient⟩ := exists_quotient r bits
  rw [← modByMonic_eq_mod _ monic_modulus]
  exact (div_modByMonic_unique quotient _ monic_modulus ⟨hquotient, degree_poly _⟩).2.symm

/-! ### The checksum -/

variable (start other : Nat) (data : Bytes)

theorem checksumFrom_natCast :
    checksumFrom start data = (register (BitVec.ofNat 16 start) data).toNat := by
  rw [checksumFrom, BitVec.ofInt_natCast]

theorem ofNat_checksumFrom :
    Poly.ofNat (checksumFrom start data) =
      (Poly.ofNat (start % 65536) * X ^ (8 * data.length) +
        Poly.ofBits (Bytes.bits data) * X ^ 16) % modulus := by
  have hdivision := poly_foldl_feed (BitVec.ofNat 16 start) (Bytes.bits data)
  rw [← register_eq, Bytes.length_bits, poly, poly, BitVec.toNat_ofNat] at hdivision
  rw [checksumFrom_natCast]
  exact hdivision

theorem checksumFrom_xor {data error : Bytes} (h : error.length = data.length) :
    checksumFrom ↑(start ^^^ other) (data.zipWith (· ^^^ ·) error) =
      checksumFrom start data ^^^ checksumFrom other error := by
  rw [checksumFrom_natCast, checksumFrom_natCast, checksumFrom_natCast, BitVec.ofNat_xor,
    register_zipWith_xor _ _ h, BitVec.toNat_xor]

theorem checksumFrom_guarded : checksumFrom 0 (guarded data) = 0 := by
  have hstart : BitVec.ofInt 16 0 = 0 := rfl
  rw [checksumFrom, hstart, register_guarded]
  rfl

/-- The checksum is below 2^16, and is what division by the modulus leaves of the low sixteen bits
of the start, moved up by the length of the data, and the data, moved up by sixteen places. So it
is linear, and data with their checksum behind them have the checksum zero. -/
theorem checksumFrom_eq_remainder (start : Nat) (data : Bytes) :
    checksumFrom start data < 65536 ∧
    Poly.ofNat (checksumFrom start data) =
      (Poly.ofNat (start % 65536) * X ^ (8 * data.length) +
        Poly.ofBits (Bytes.bits data) * X ^ 16) % modulus ∧
    (∀ (other : Nat) (error : Bytes), error.length = data.length →
      checksumFrom ↑(start ^^^ other) (data.zipWith (· ^^^ ·) error) =
        checksumFrom start data ^^^ checksumFrom other error) ∧
    checksumFrom 0 (data ++ Bytes.ofNatBE 2 (checksumFrom 0 data)) = 0 := by
  refine ⟨(register _ data).isLt, ofNat_checksumFrom start data, fun other error herror => ?_, ?_⟩
  · exact checksumFrom_xor start other herror
  · exact checksumFrom_guarded data

namespace Sample

def digits : Bytes := [49, 50, 51, 52, 53, 54, 55, 56, 57]

end Sample

theorem checksumFrom_eq_remainder_digits :
    checksumFrom (65536 : Nat) Sample.digits = 0x31C3 ∧
    Poly.ofNat 0x31C3 =
      (Poly.ofNat (65536 % 65536) * X ^ 72 +
        Poly.ofBits (Bytes.bits Sample.digits) * X ^ 16) % modulus ∧
    Sample.digits.reverse.length = Sample.digits.length ∧
    checksumFrom ↑(65536 ^^^ 7 : Nat) (Sample.digits.zipWith (· ^^^ ·) Sample.digits.reverse) =
      0x31C3 ^^^ checksumFrom (7 : Nat) Sample.digits.reverse ∧
    checksumFrom 0 (Sample.digits ++ Bytes.ofNatBE 2 0x31C3) = 0 := by
  have hplaces : 8 * Sample.digits.length = 72 := rfl
  have hlength : Sample.digits.reverse.length = Sample.digits.length := by decide
  have hvalue : checksumFrom (65536 : Nat) Sample.digits = 0x31C3 := by decide +kernel
  have hzeroStart : checksumFrom 0 Sample.digits = 0x31C3 := by decide +kernel
  obtain ⟨-, hremainder, hlinear, hzero⟩ := checksumFrom_eq_remainder 65536 Sample.digits
  have hreversed := hlinear 7 _ hlength
  rw [hvalue] at hremainder hreversed
  rw [hplaces] at hremainder
  rw [hzeroStart] at hzero
  exact ⟨hvalue, hremainder, hlength, hreversed, hzero⟩

end
end Reflash.Crc16
