import Mathlib.Algebra.BigOperators.Group.Finset.Basic
import Mathlib.Algebra.Field.ZMod
import Mathlib.Data.List.GetD
import Reflash.Crc16

/-! Errors that the checksum finds. Fed bit by bit, the register is linear in what
it is fed, so an error moves it by what the register is after the error alone. An
error within sixteen places fills the register with itself, and no shift takes a
register to zero that was not. The generator has an even number of terms, so the
register keeps the parity of all the bits. -/

namespace Reflash

namespace Bytes

def octetBits (x : UInt8) : List Bool := (List.range 8).map x.toBitVec.getMsbD

def bits (b : Bytes) : List Bool := b.flatMap octetBits

@[simp] theorem length_octetBits (x : UInt8) : (octetBits x).length = 8 := by
  rw [octetBits, List.length_map, List.length_range]

theorem length_bits (data : Bytes) : (bits data).length = 8 * data.length := by
  induction data with
  | nil => rfl
  | cons x data ih =>
    rw [bits, List.flatMap_cons, List.length_append, length_octetBits, ← bits, ih, List.length_cons,
      Nat.mul_succ, Nat.add_comm]

theorem getD_octetBits (x : UInt8) {i : Nat} (hi : i < 8) :
    (octetBits x).getD i false = x.toNat.testBit (7 - i) := by
  simp [octetBits, hi, BitVec.getMsbD, ← BitVec.testBit_toNat]

end Bytes

namespace Crc16
open Finset

variable (r s v : BitVec 16) (a b : Bool)

/-! ### The register is linear -/

def scale (b : Bool) (v : BitVec 16) : BitVec 16 := if b then v else 0

theorem scale_xor : scale (a ^^ b) v = scale a v ^^^ scale b v := by
  cases a <;> cases b <;> simp [scale]

theorem getLsbD_scale (i : Nat) : (scale b v).getLsbD i = (b && v.getLsbD i) := by
  cases b <;> simp [scale]

theorem shift_eq : shift r = r <<< 1 ^^^ scale r.msb generator := by
  unfold shift scale
  split <;> simp

theorem shift_xor : shift (r ^^^ s) = shift r ^^^ shift s := by
  rw [shift_eq, shift_eq, shift_eq, BitVec.msb_xor, BitVec.shiftLeft_xor_distrib, scale_xor]
  ac_rfl

theorem shifts_xor (n : Nat) : shifts n (r ^^^ s) = shifts n r ^^^ shifts n s := by
  induction n generalizing r s with
  | zero => rfl
  | succ n ih => rw [shifts, shift_xor, ih, shifts, shifts]

theorem shifts_zero (n : Nat) : shifts n 0 = 0 := by
  induction n with
  | zero => rfl
  | succ n ih => exact ih

theorem getLsbD_shiftLeft_succ {i : Nat} (hi : i + 1 < 16) :
    (r <<< 1).getLsbD (i + 1) = r.getLsbD i := by
  rw [BitVec.getLsbD_shiftLeft]
  simp [hi]

theorem getLsbD_zero_shift : (shift r).getLsbD 0 = r.msb := by
  rw [shift_eq, BitVec.getLsbD_xor, getLsbD_scale]
  simp [generator]

variable {r}

theorem eq_zero_of_shift (h : shift r = 0) : r = 0 := by
  have hmsb : r.msb = false := by rw [← getLsbD_zero_shift, h]; rfl
  have hshift : r <<< 1 = 0 := by simpa [shift_eq, hmsb, scale] using h
  apply BitVec.eq_of_getLsbD_eq
  intro i hi
  by_cases htop : i = 15
  · rw [htop, ← BitVec.msb_eq_getLsbD_last (x := r), hmsb]
    rfl
  · rw [← getLsbD_shiftLeft_succ r (by omega), hshift]
    simp

theorem eq_zero_of_shifts {n : Nat} (h : shifts n r = 0) : r = 0 := by
  induction n generalizing r with
  | zero => exact h
  | succ n ih => exact eq_zero_of_shift (ih h)

variable (r)

theorem absorb_xor (x y : UInt8) : absorb (r ^^^ s) (x ^^^ y) = absorb r x ^^^ absorb s y := by
  have hinput : r ^^^ s ^^^ (x ^^^ y).toBitVec.setWidth 16 <<< 8 =
      r ^^^ x.toBitVec.setWidth 16 <<< 8 ^^^ (s ^^^ y.toBitVec.setWidth 16 <<< 8) := by
    rw [UInt8.toBitVec_xor, BitVec.setWidth_xor, BitVec.shiftLeft_xor_distrib]
    ac_rfl
  rw [absorb, hinput, shifts_xor, absorb, absorb]

theorem register_zipWith_xor {data error : Bytes} (h : error.length = data.length) :
    register (r ^^^ s) (data.zipWith (· ^^^ ·) error) = register r data ^^^ register s error := by
  induction data generalizing r s error with
  | nil =>
    rw [List.length_eq_zero_iff.mp h]
    rfl
  | cons x data ih =>
    cases error with
    | nil => cases h
    | cons y error =>
      have hrest := ih (absorb r x) (absorb s y) (Nat.succ.inj h)
      rw [← absorb_xor] at hrest
      exact hrest

/-! ### Bit by bit -/

def top : BitVec 16 := BitVec.twoPow 16 15

def feed (r : BitVec 16) (b : Bool) : BitVec 16 := shift (r ^^^ scale b top)

def aligned : List Bool → BitVec 16
  | [] => 0
  | b :: w => scale b top ^^^ aligned w >>> 1

theorem getLsbD_aligned (w : List Bool) {i : Nat} (hi : i < 16) :
    (aligned w).getLsbD i = w.getD (15 - i) false := by
  induction w generalizing i with
  | nil => simp [aligned]
  | cons b w ih =>
    rw [aligned, BitVec.getLsbD_xor, BitVec.getLsbD_ushiftRight, getLsbD_scale, top,
      BitVec.getLsbD_twoPow]
    by_cases htop : 15 = i
    · subst htop
      simp
    · have hindex : 15 - i = 15 - (1 + i) + 1 := by omega
      rw [ih (by omega), hindex, List.getD_cons_succ]
      simp [htop]

theorem shift_ushiftRight {v : BitVec 16} (h : v.getLsbD 0 = false) : shift (v >>> 1) = v := by
  have hmsb : (v >>> 1).msb = false := by simp [BitVec.msb_eq_getLsbD_last]
  have hback : v >>> 1 <<< 1 = v := by
    apply BitVec.eq_of_getLsbD_eq
    intro i hi
    cases i with
    | zero =>
      rw [h, BitVec.getLsbD_shiftLeft]
      rfl
    | succ i => rw [getLsbD_shiftLeft_succ _ hi, BitVec.getLsbD_ushiftRight, Nat.add_comm]
  rw [shift_eq, hmsb, hback]
  exact BitVec.xor_zero

theorem foldl_feed {w : List Bool} (hw : w.length ≤ 16) :
    w.foldl feed r = shifts w.length (r ^^^ aligned w) := by
  induction w generalizing r with
  | nil => simp [aligned, shifts]
  | cons b w ih =>
    rw [List.length_cons] at hw
    have hlow : (aligned w).getLsbD 0 = false := by
      rw [getLsbD_aligned w (by decide), List.getD_eq_default _ _ (by omega)]
    calc (b :: w).foldl feed r
        = shifts w.length (feed r b ^^^ aligned w) := ih (feed r b) (by omega)
      _ = shifts w.length (shift (r ^^^ scale b top ^^^ aligned w >>> 1)) := by
          rw [shift_xor (r ^^^ scale b top), shift_ushiftRight hlow]
          rfl
      _ = shifts (b :: w).length (r ^^^ aligned (b :: w)) := by
          rw [BitVec.xor_assoc]
          rfl

theorem aligned_octetBits (x : UInt8) :
    aligned (Bytes.octetBits x) = x.toBitVec.setWidth 16 <<< 8 := by
  apply BitVec.eq_of_getLsbD_eq
  intro i hi
  rw [getLsbD_aligned _ hi, BitVec.getLsbD_shiftLeft, BitVec.getLsbD_setWidth]
  by_cases hlow : i < 8
  · rw [List.getD_eq_default _ _ (by rw [Bytes.length_octetBits]; omega)]
    simp [hlow]
  · have hmirror : 7 - (15 - i) = i - 8 := by omega
    have hwidth : i - 8 < 16 := by omega
    rw [Bytes.getD_octetBits x (by omega), hmirror]
    simp [hlow, hi, hwidth, ← BitVec.testBit_toNat]

theorem absorb_eq (x : UInt8) : absorb r x = (Bytes.octetBits x).foldl feed r := by
  rw [foldl_feed r (by rw [Bytes.length_octetBits]; decide), aligned_octetBits,
    Bytes.length_octetBits]
  rfl

theorem register_eq (data : Bytes) : register r data = (Bytes.bits data).foldl feed r := by
  induction data generalizing r with
  | nil => rfl
  | cons x data ih =>
    rw [Bytes.bits, List.flatMap_cons, List.foldl_append, ← absorb_eq]
    exact ih (absorb r x)

/-! ### Errors close together -/

def IsBurst (bits : List Bool) : Prop :=
  true ∈ bits ∧ ∃ first, ∀ i, bits[i]? = some true → first ≤ i ∧ i < first + 16

theorem IsBurst.exists_window {bits : List Bool} (h : IsBurst bits) :
    ∃ k w m, bits = List.replicate k false ++ w ++ List.replicate m false ∧
      w.length ≤ 16 ∧ true ∈ w := by
  obtain ⟨hmem, first, hwindow⟩ := h
  have hfront : bits.take first = List.replicate (bits.take first).length false := by
    apply List.eq_replicate_of_mem
    intro b hb
    obtain ⟨i, hi, hget⟩ := List.mem_take_iff_getElem.mp hb
    cases b with
    | false => rfl
    | true =>
      have hfirst := (hwindow i (List.getElem?_eq_some_iff.mpr ⟨by omega, hget⟩)).1
      omega
  have hback : bits.drop (first + 16) = List.replicate (bits.drop (first + 16)).length false := by
    apply List.eq_replicate_of_mem
    intro b hb
    obtain ⟨i, hi, hget⟩ := List.mem_drop_iff_getElem.mp hb
    cases b with
    | false => rfl
    | true =>
      have hlast := (hwindow _ (List.getElem?_eq_some_iff.mpr ⟨by omega, hget⟩)).2
      omega
  have hbits : bits = bits.take first ++ (bits.drop first).take 16 ++ bits.drop (first + 16) := by
    rw [List.append_assoc, ← List.drop_drop, List.take_append_drop, List.take_append_drop]
  generalize (bits.take first).length = k at hfront
  generalize (bits.drop (first + 16)).length = m at hback
  rw [hfront, hback] at hbits
  refine ⟨k, (bits.drop first).take 16, m, hbits, List.length_take_le _ _, ?_⟩
  rw [hbits] at hmem
  simpa using hmem

theorem aligned_ne_zero {w : List Bool} (hw : w.length ≤ 16) (h : true ∈ w) : aligned w ≠ 0 := by
  intro hzero
  obtain ⟨i, hi, hget⟩ := List.mem_iff_getElem.mp h
  have hbit := getLsbD_aligned w (i := 15 - i) (by omega)
  have hindex : 15 - (15 - i) = i := by omega
  rw [hzero, hindex, List.getD_eq_getElem w false hi, hget] at hbit
  simp at hbit

theorem foldl_feed_replicate (n : Nat) : (List.replicate n false).foldl feed r = shifts n r := by
  induction n generalizing r with
  | zero => rfl
  | succ n ih =>
    have hfeed : feed r false = shift r := by simp [feed, scale]
    rw [List.replicate_succ, List.foldl_cons, hfeed, ih, shifts]

theorem foldl_feed_ne_zero_of_isBurst {bits : List Bool} (h : IsBurst bits) :
    bits.foldl feed 0 ≠ 0 := by
  intro hzero
  obtain ⟨k, w, m, rfl, hw, hmem⟩ := h.exists_window
  have hinput : 0 ^^^ aligned w = aligned w := BitVec.zero_xor
  rw [List.foldl_append, List.foldl_append, foldl_feed_replicate, foldl_feed_replicate,
    shifts_zero, foldl_feed 0 hw, hinput] at hzero
  exact aligned_ne_zero hw hmem (eq_zero_of_shifts (eq_zero_of_shifts hzero))

/-! ### Errors in an odd number of places -/

def bit (b : Bool) : ZMod 2 := if b then 1 else 0

def parity (r : BitVec 16) : ZMod 2 := ∑ i ∈ range 16, bit (r.getLsbD i)

theorem bit_xor : bit (a ^^ b) = bit a + bit b := by
  cases a <;> cases b <;> decide

theorem parity_xor : parity (r ^^^ s) = parity r + parity s := by
  simp only [parity, BitVec.getLsbD_xor, bit_xor, sum_add_distrib]

theorem parity_scale : parity (scale b v) = bit b * parity v := by
  cases b <;> simp [parity, scale, bit]

theorem parity_shiftLeft : parity (r <<< 1) + bit r.msb = parity r := by
  have hnext : ∀ i ∈ range 15, bit ((r <<< 1).getLsbD (i + 1)) = bit (r.getLsbD i) := by
    intro i hi
    have hlt : i < 15 := mem_range.mp hi
    rw [getLsbD_shiftLeft_succ r (by omega)]
  have hlow : bit ((r <<< 1).getLsbD 0) = 0 := by
    rw [BitVec.getLsbD_shiftLeft]
    rfl
  calc parity (r <<< 1) + bit r.msb
      = ∑ i ∈ range 15, bit (r.getLsbD i) + bit (r.getLsbD 15) := by
        rw [parity, sum_range_succ', sum_congr rfl hnext, hlow, add_zero,
          BitVec.msb_eq_getLsbD_last]
    _ = parity r := (sum_range_succ _ 15).symm

theorem parity_shift : parity (shift r) = parity r := by
  have hgenerator : parity generator = 1 := by decide
  rw [shift_eq, parity_xor, parity_scale, hgenerator, mul_one, parity_shiftLeft]

theorem parity_foldl_feed (bits : List Bool) :
    parity (bits.foldl feed r) = parity r + (bits.count true : ZMod 2) := by
  induction bits generalizing r with
  | nil => simp
  | cons b bits ih =>
    have htop : parity top = 1 := by decide
    have hfeed : parity (feed r b) = parity r + bit b := by
      rw [feed, parity_shift, parity_xor, parity_scale, htop, mul_one]
    rw [List.foldl_cons, ih, hfeed, add_assoc]
    cases b <;> simp [bit, add_comm]

theorem foldl_feed_ne_zero_of_odd {bits : List Bool} (h : Odd (bits.count true)) :
    bits.foldl feed 0 ≠ 0 := by
  intro hzero
  have hparity := parity_foldl_feed 0 bits
  rw [hzero, ZMod.natCast_eq_one_iff_odd.mpr h] at hparity
  exact absurd hparity (by decide)

theorem register_ne_zero {error : Bytes}
    (h : IsBurst (Bytes.bits error) ∨ Odd ((Bytes.bits error).count true)) :
    register 0 error ≠ 0 := by
  rw [register_eq]
  rcases h with hburst | hodd
  · exact foldl_feed_ne_zero_of_isBurst hburst
  · exact foldl_feed_ne_zero_of_odd hodd

end Crc16
end Reflash
