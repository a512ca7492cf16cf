import Reflash.Proofs.Crc16

/-! Data with their checksum behind them. The two octets that spell a register take it
back to zero, so data and checksum together leave nothing in it. After an error the
register is what it is after the error alone. -/

namespace Reflash

def Bytes.flip (b error : Bytes) : Bytes := b.zipWith (· ^^^ ·) error

theorem Bytes.length_flip {b error : Bytes} (h : error.length = b.length) :
    (b.flip error).length = b.length := by
  rw [flip, List.length_zipWith, h, Nat.min_self]

namespace Crc16

def guarded (packet : Bytes) : Bytes := packet ++ Bytes.ofNatBE 2 (checksum packet)

theorem length_guarded (packet : Bytes) : (guarded packet).length = packet.length + 2 := by
  rw [guarded, List.length_append, Bytes.length_ofNatBE]

theorem aligned_pair (x y : UInt8) :
    aligned (Bytes.bits [x, y]) = BitVec.ofNat 16 (Bytes.toNatBE [x, y]) := by
  have hy : y.toNat < 2 ^ 8 := y.toNat_lt
  have hbits : Bytes.bits [x, y] = Bytes.octetBits x ++ Bytes.octetBits y := by
    rw [Bytes.bits, List.flatMap_cons, List.flatMap_singleton]
  have hnumber : Bytes.toNatBE [x, y] = 2 ^ 8 * x.toNat + y.toNat := by
    simp [Bytes.toNatBE, Nat.mul_comm]
  apply BitVec.eq_of_getLsbD_eq
  intro i hi
  rw [getLsbD_aligned _ hi, hbits, hnumber, BitVec.getLsbD_ofNat, decide_eq_true hi,
    Bool.true_and, Nat.testBit_two_pow_mul_add _ hy]
  split
  · have hmirror : 7 - (15 - i - 8) = i := by omega
    rw [List.getD_append_right _ _ _ _ (by rw [Bytes.length_octetBits]; omega),
      Bytes.length_octetBits, Bytes.getD_octetBits y (by omega), hmirror]
  · have hmirror : 7 - (15 - i) = i - 8 := by omega
    rw [List.getD_append _ _ _ _ (by rw [Bytes.length_octetBits]; omega),
      Bytes.getD_octetBits x (by omega), hmirror]

theorem register_pair (r : BitVec 16) (x y : UInt8) :
    register r [x, y] = 0 ↔ r.toNat = Bytes.toNatBE [x, y] := by
  have hlength : (Bytes.bits [x, y]).length = 16 := Bytes.length_bits [x, y]
  have hx := x.toNat_lt
  have hy := y.toNat_lt
  have hnumber : Bytes.toNatBE [x, y] < 2 ^ 16 := by
    simp only [Bytes.toNatBE, List.foldl_cons, List.foldl_nil]
    omega
  rw [register_eq, foldl_feed r (Nat.le_of_eq hlength), aligned_pair]
  constructor
  · intro hzero
    have hequal := BitVec.xor_eq_zero_iff.mp (eq_zero_of_shifts hzero)
    rw [hequal, BitVec.toNat_ofNat, Nat.mod_eq_of_lt hnumber]
  · intro hequal
    rw [← hequal, BitVec.ofNat_toNat, BitVec.setWidth_eq, BitVec.xor_self]
    exact shifts_zero _

theorem register_eq_zero_iff {data : Bytes} (h : 2 ≤ data.length) :
    register 0 data = 0 ↔
      checksum (data.take (data.length - 2)) = Bytes.toNatBE (data.drop (data.length - 2)) := by
  obtain ⟨x, y, hxy⟩ : ∃ x y, data.drop (data.length - 2) = [x, y] := by
    apply List.length_eq_two.mp
    rw [List.length_drop]
    omega
  conv_lhs => rw [← List.take_append_drop (data.length - 2) data, register, List.foldl_append]
  rw [hxy]
  exact register_pair _ x y

theorem register_guarded (packet : Bytes) : register 0 (guarded packet) = 0 := by
  have hlength := length_guarded packet
  rw [register_eq_zero_iff (by omega), hlength, Nat.add_sub_cancel, guarded, List.take_left,
    List.drop_left]
  exact (Bytes.toNatBE_ofNatBE (checksum_lt packet)).symm

theorem register_flip_guarded {packet error : Bytes} (h : error.length = packet.length + 2) :
    register 0 ((guarded packet).flip error) = register 0 error := by
  have hlinear := register_zipWith_xor 0 0 (h.trans (length_guarded packet).symm)
  rw [register_guarded, BitVec.xor_self] at hlinear
  exact hlinear.trans BitVec.zero_xor

end Crc16
end Reflash
