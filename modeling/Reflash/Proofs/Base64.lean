import Reflash.Base64

/-! Base64 there and back. A reader of either kind that stands between two
groups reads what was written of any octets and gives them back. Whole groups of
a text are the text of whole groups of octets, so that the front of a text can be
read by itself. -/

namespace Reflash.Base64

theorem digitValue?_digit : ∀ n < 64, digitValue? (digit n) = some n := by decide

theorem digit_ne_pad : ∀ n < 64, digit n ≠ pad := by decide

theorem mem_encode {b : Bytes} {x : UInt8} (h : x ∈ encode b) :
    x = pad ∨ ∃ n < 64, x = digit n := by
  induction b using encode.induct with
  | case1 => cases h
  | case2 a =>
    have ha := a.toNat_lt
    simp only [encode, List.mem_cons, List.not_mem_nil, or_false] at h
    rcases h with rfl | rfl | rfl | rfl
    · exact .inr ⟨_, by omega, rfl⟩
    · exact .inr ⟨_, by omega, rfl⟩
    · exact .inl rfl
    · exact .inl rfl
  | case3 a b =>
    have ha := a.toNat_lt
    have hb := b.toNat_lt
    simp only [encode, List.mem_cons, List.not_mem_nil, or_false] at h
    rcases h with rfl | rfl | rfl | rfl
    · exact .inr ⟨_, by omega, rfl⟩
    · exact .inr ⟨_, by omega, rfl⟩
    · exact .inr ⟨_, by omega, rfl⟩
    · exact .inl rfl
  | case4 a b c rest ih =>
    have ha := a.toNat_lt
    have hb := b.toNat_lt
    have hc := c.toNat_lt
    simp only [encode, List.mem_cons] at h
    rcases h with rfl | rfl | rfl | rfl | h
    · exact .inr ⟨_, by omega, rfl⟩
    · exact .inr ⟨_, by omega, rfl⟩
    · exact .inr ⟨_, by omega, rfl⟩
    · exact .inr ⟨_, by omega, rfl⟩
    · exact ih h

theorem length_encode (b : Bytes) : (encode b).length = (b.length + 2) / 3 * 4 := by
  induction b using encode.induct with
  | case1 => rfl
  | case2 a => simp only [encode, List.length_cons, List.length_nil]
  | case3 a b => simp only [encode, List.length_cons, List.length_nil]
  | case4 a b c rest ih =>
    simp only [encode, List.length_cons, ih]
    omega

/-! The front of a text, in whole groups, and what follows it. -/

theorem take_encode (k : Nat) (b : Bytes) :
    (encode b).take (4 * k) = encode (b.take (3 * k)) := by
  induction k generalizing b with
  | zero => rfl
  | succ k ih =>
    have hfour : 4 * (k + 1) = 4 * k + 1 + 1 + 1 + 1 := rfl
    have hthree : 3 * (k + 1) = 3 * k + 1 + 1 + 1 := rfl
    match b with
    | [] | [_] | [_, _] => simp [hfour, hthree, encode]
    | a :: b :: c :: rest => simp only [hfour, hthree, encode, List.take_succ_cons, ih rest]

theorem drop_encode (k : Nat) (b : Bytes) :
    (encode b).drop (4 * k) = encode (b.drop (3 * k)) := by
  induction k generalizing b with
  | zero => rfl
  | succ k ih =>
    have hfour : 4 * (k + 1) = 4 * k + 1 + 1 + 1 + 1 := rfl
    have hthree : 3 * (k + 1) = 3 * k + 1 + 1 + 1 := rfl
    match b with
    | [] | [_] | [_, _] => simp [hfour, hthree, encode]
    | a :: b :: c :: rest => simp only [hfour, hthree, encode, List.drop_succ_cons, ih rest]

theorem encode_eq_nil {b : Bytes} : encode b = [] ↔ b = [] := by
  rw [← List.length_eq_zero_iff, length_encode, ← List.length_eq_zero_iff]
  omega

namespace Reader

variable {kind : Reading} {r : Reader} {rest out : Bytes}

theorem run_digit {n : Nat} (hn : n < 64) (hpadded : r.padded = false) :
    run kind r (digit n :: rest) = run kind (r.take n) rest := by
  rw [run, if_neg (digit_ne_pad n hn), digitValue?_digit n hn]
  simp only [hpadded, Bool.and_false, Bool.false_eq_true, if_false]

/-! An octet comes from two characters, of which the first or the second may hold bits of its
neighbours. -/

theorem first_octet (a : UInt8) {n : Nat} (hn : n < 16) :
    UInt8.ofNat (a.toNat / 4 * 4 + (a.toNat % 4 * 16 + n) / 16) = a := by
  have h : a.toNat / 4 * 4 + (a.toNat % 4 * 16 + n) / 16 = a.toNat := by omega
  rw [h, UInt8.ofNat_toNat]

theorem second_octet (b : UInt8) (m : Nat) {n : Nat} (hn : n < 4) :
    UInt8.ofNat ((m * 16 + b.toNat / 16) % 16 * 16 + (b.toNat % 16 * 4 + n) / 4) = b := by
  have hb := b.toNat_lt
  have h : (m * 16 + b.toNat / 16) % 16 * 16 + (b.toNat % 16 * 4 + n) / 4 = b.toNat := by omega
  rw [h, UInt8.ofNat_toNat]

theorem third_octet (c : UInt8) (m : Nat) :
    UInt8.ofNat ((m * 4 + c.toNat / 64) % 4 * 64 + c.toNat % 64) = c := by
  have hc := c.toNat_lt
  have h : (m * 4 + c.toNat / 64) % 4 * 64 + c.toNat % 64 = c.toNat := by omega
  rw [h, UInt8.ofNat_toNat]

theorem run_group (a b c : UInt8) :
    run kind { output := out } (digit (a.toNat / 4) :: digit (a.toNat % 4 * 16 + b.toNat / 16) ::
      digit (b.toNat % 16 * 4 + c.toNat / 64) :: digit (c.toNat % 64) :: rest) =
    run kind { output := c :: b :: a :: out } rest := by
  have ha := a.toNat_lt
  have hb := b.toNat_lt
  have hc := c.toNat_lt
  have hb' : b.toNat / 16 < 16 := by omega
  have hc' : c.toNat / 64 < 4 := by omega
  rw [run_digit (by omega) rfl, run_digit (by omega) rfl, run_digit (by omega) rfl,
    run_digit (by omega) rfl]
  simp only [take, first_octet a hb', second_octet b _ hc', third_octet c]

theorem run_encode (b : Bytes) :
    run kind { output := out } (encode b) = some (out.reverse ++ b) := by
  induction b using encode.induct generalizing out with
  | case1 => simp [encode, run]
  | case2 a =>
    have ha := a.toNat_lt
    have hoctet : UInt8.ofNat (a.toNat / 4 * 4 + a.toNat % 4 * 16 / 16) = a :=
      first_octet a (n := 0) (by decide)
    rw [encode, run_digit (by omega) rfl, run_digit (by omega) rfl]
    simp only [take, hoctet]
    simp [run]
  | case3 a b =>
    have ha := a.toNat_lt
    have hb := b.toNat_lt
    have hb' : b.toNat / 16 < 16 := by omega
    have hoctet : UInt8.ofNat ((a.toNat % 4 * 16 + b.toNat / 16) % 16 * 16 +
        b.toNat % 16 * 4 / 4) = b := second_octet b (a.toNat % 4) (n := 0) (by decide)
    rw [encode, run_digit (by omega) rfl, run_digit (by omega) rfl, run_digit (by omega) rfl]
    simp only [take, first_octet a hb', hoctet]
    simp [run]
  | case4 a b c rest ih =>
    rw [encode, run_group, ih]
    simp

end Reader

theorem head?_encode (b : Bytes) : (encode b).head? ≠ some pad := by
  have hdigit (a : UInt8) : digit (a.toNat / 4) ≠ pad := by
    have ha := a.toNat_lt
    exact digit_ne_pad _ (by omega)
  match b with
  | [] => simp [encode]
  | [a] | [a, _] | a :: _ :: _ :: _ => simpa [encode] using hdigit a

theorem decode_encode (kind : Reading) (b : Bytes) : decode kind (encode b) = some b := by
  have hstart : ¬ (decide (kind = .strict) && decide ((encode b).head? = some pad)) = true := by
    simp [head?_encode b]
  rw [decode, if_neg hstart, Reader.run_encode, List.reverse_nil, List.nil_append]

end Reflash.Base64
