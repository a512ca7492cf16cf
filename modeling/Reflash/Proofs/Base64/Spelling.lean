import Reflash.Proofs.Base64

/-! Which texts spell which octets. A text that the strict reader takes is made of
whole groups of the alphabet, of which the last may be filled up with padding; after
whole groups any amount of padding may follow. The lenient reader gives the same
octets for it. A front of such a text that holds groups for all octets spells them
too, so whatever is cut off there is padding. -/

namespace Reflash.Base64

/-! The octets of a group, from the values of neighbouring characters. -/

def octet₁ (m n : Nat) : UInt8 := UInt8.ofNat (m * 4 + n / 16)

def octet₂ (m n : Nat) : UInt8 := UInt8.ofNat (m % 16 * 16 + n / 4)

def octet₃ (m n : Nat) : UInt8 := UInt8.ofNat (m % 4 * 64 + n)

inductive Spells : Bytes → Bytes → Prop where
  | filler (n : Nat) : Spells (List.replicate n pad) []
  | one {x y : UInt8} {k l : Nat} (hx : digitValue? x = some k) (hy : digitValue? y = some l) :
      Spells [x, y, pad, pad] [octet₁ k l]
  | two {x y z : UInt8} {k l m : Nat} (hx : digitValue? x = some k) (hy : digitValue? y = some l)
      (hz : digitValue? z = some m) : Spells [x, y, z, pad] [octet₁ k l, octet₂ l m]
  | group {x y z w : UInt8} {k l m n : Nat} {text b : Bytes} (hx : digitValue? x = some k)
      (hy : digitValue? y = some l) (hz : digitValue? z = some m) (hw : digitValue? w = some n)
      (rest : Spells text b) :
      Spells (x :: y :: z :: w :: text) (octet₁ k l :: octet₂ l m :: octet₃ m n :: b)

theorem ne_pad_of_digitValue? {x : UInt8} {n : Nat} (h : digitValue? x = some n) : x ≠ pad := by
  rintro rfl
  cases h

namespace Reader

variable {kind : Reading} {r : Reader} {c : UInt8} {text rest out o : Bytes}

/-! ### One character -/

theorem run_digitValue? {n : Nat} (hc : digitValue? c = some n) (hpadded : r.padded = false) :
    run kind r (c :: rest) = run kind (r.take n) rest := by
  rw [run, if_neg (ne_pad_of_digitValue? hc), hc]
  simp only [hpadded, Bool.and_false, Bool.false_eq_true, if_false]

theorem run_pad_early (h : r.taken < 2) :
    run kind r (pad :: rest) = run kind { r with padded := true } rest := by
  rw [run, if_pos rfl, if_pos h]

theorem run_pad_more (h : 2 ≤ r.taken) (hroom : r.taken + (r.pads + 1) < 4) :
    run kind r (pad :: rest) = run kind { r with padded := true, pads := r.pads + 1 } rest := by
  rw [run, if_pos rfl, if_neg (Nat.not_lt.mpr h), if_neg (Nat.not_le.mpr hroom)]

theorem run_pad_last (h : 2 ≤ r.taken) (hroom : 4 ≤ r.taken + (r.pads + 1)) :
    run kind r [pad] = some r.output.reverse := by
  rw [run, if_pos rfl, if_neg (Nat.not_lt.mpr h), if_pos hroom, List.isEmpty_nil, Bool.not_true,
    Bool.and_false, if_neg Bool.false_ne_true]

theorem eq_nil_of_run_pad_last (h : 2 ≤ r.taken) (hroom : 4 ≤ r.taken + (r.pads + 1))
    (hrun : run .strict r (pad :: rest) = some o) : rest = [] := by
  cases rest with
  | nil => rfl
  | cons c rest =>
    rw [run, if_pos rfl, if_neg (Nat.not_lt.mpr h), if_pos hroom] at hrun
    cases hrun

theorem eq_of_run_nil (hrun : run .strict r [] = some o) : r.taken = 0 ∧ o = r.output.reverse := by
  rw [run] at hrun
  split at hrun
  · cases hrun
    exact ⟨‹_›, rfl⟩
  · cases hrun

theorem exists_digit_of_run (hc : c ≠ pad) (hrun : run .strict r (c :: rest) = some o) :
    r.padded = false ∧ ∃ n, digitValue? c = some n ∧ run .strict (r.take n) rest = some o := by
  rw [run, if_neg hc] at hrun
  cases hvalue : digitValue? c with
  | none =>
    rw [hvalue] at hrun
    cases hrun
  | some n =>
    rw [hvalue] at hrun
    cases hpadded : r.padded with
    | true =>
      simp [hpadded] at hrun
    | false =>
      refine ⟨rfl, n, rfl, ?_⟩
      simpa [hpadded] using hrun

/-! ### Reading what is spelled -/

theorem run_filler (h : r.taken = 0) (n : Nat) :
    run kind r (List.replicate n pad) = some r.output.reverse := by
  induction n generalizing r with
  | zero => rw [List.replicate_zero, run, if_pos h]
  | succ n ih =>
    have hearly : r.taken < 2 := by omega
    rw [List.replicate_succ, run_pad_early hearly]
    exact ih h

theorem run_one_pad (h : r.taken = 3) : run kind r [pad] = some r.output.reverse :=
  run_pad_last (by omega) (by omega)

theorem run_two_pads (h : r.taken = 2) (hpads : r.pads = 0) :
    run kind r [pad, pad] = some r.output.reverse := by
  rw [run_pad_more (by omega) (by omega)]
  exact run_pad_last (Nat.le_of_eq h.symm) (by simp [h, hpads])

theorem run_of_spells {b : Bytes} (h : Spells text b) :
    run kind { output := out } text = some (out.reverse ++ b) := by
  induction h generalizing out with
  | filler n => rw [run_filler rfl, List.append_nil]
  | one hx hy =>
    rw [run_digitValue? hx rfl, run_digitValue? hy rfl]
    simp only [take]
    rw [run_two_pads rfl rfl]
    simp [octet₁]
  | two hx hy hz =>
    rw [run_digitValue? hx rfl, run_digitValue? hy rfl, run_digitValue? hz rfl]
    simp only [take]
    rw [run_one_pad rfl]
    simp [octet₁, octet₂]
  | group hx hy hz hw rest ih =>
    rw [run_digitValue? hx rfl, run_digitValue? hy rfl, run_digitValue? hz rfl,
      run_digitValue? hw rfl]
    simp only [take]
    rw [ih]
    simp [octet₁, octet₂, octet₃]

/-! ### What was read is spelled -/

theorem filler_of_run (hpadded : r.padded = true) (h : r.taken < 2)
    (hrun : run .strict r text = some o) :
    r.taken = 0 ∧ (∃ n, text = List.replicate n pad) ∧ o = r.output.reverse := by
  induction text generalizing r with
  | nil =>
    obtain ⟨htaken, ho⟩ := eq_of_run_nil hrun
    exact ⟨htaken, ⟨0, rfl⟩, ho⟩
  | cons c rest ih =>
    by_cases hc : c = pad
    · rw [hc, run_pad_early h] at hrun
      obtain ⟨htaken, ⟨n, rfl⟩, ho⟩ := ih (r := { r with padded := true }) rfl h hrun
      exact ⟨htaken, ⟨n + 1, by rw [hc, List.replicate_succ]⟩, ho⟩
    · obtain ⟨hplain, _⟩ := exists_digit_of_run hc hrun
      rw [hpadded] at hplain
      cases hplain

theorem last_of_run (h : r.taken = 3) (hrun : run .strict r (pad :: rest) = some o) :
    rest = [] ∧ o = r.output.reverse := by
  have hnil := eq_nil_of_run_pad_last (by omega) (by omega) hrun
  rw [hnil, run_one_pad h] at hrun
  cases hrun
  exact ⟨hnil, rfl⟩

theorem last_two_of_run (h : r.taken = 2) (hpads : r.pads = 0)
    (hrun : run .strict r (pad :: rest) = some o) : rest = [pad] ∧ o = r.output.reverse := by
  rw [run_pad_more (by omega) (by omega)] at hrun
  obtain ⟨q, hq⟩ : ∃ q : Reader, q = { r with padded := true, pads := r.pads + 1 } := ⟨_, rfl⟩
  have htaken : q.taken = 2 := by rw [hq, h]
  have hpads : q.pads = 1 := by rw [hq, hpads]
  have houtput : q.output = r.output := by rw [hq]
  rw [← hq] at hrun
  cases rest with
  | nil =>
    obtain ⟨hzero, _⟩ := eq_of_run_nil hrun
    exact absurd (htaken.symm.trans hzero) (by decide)
  | cons c rest =>
    by_cases hc : c = pad
    · subst hc
      have hnil := eq_nil_of_run_pad_last (by omega) (by omega) hrun
      rw [hnil, run_pad_last (by omega) (by omega), houtput] at hrun
      cases hrun
      exact ⟨by rw [hnil], rfl⟩
    · obtain ⟨hplain, _⟩ := exists_digit_of_run hc hrun
      rw [hq] at hplain
      cases hplain

theorem exists_cons_of_run (h : r.taken ≠ 0) (hrun : run .strict r text = some o) :
    ∃ c rest, text = c :: rest := by
  cases text with
  | nil => exact absurd (eq_of_run_nil hrun).1 h
  | cons c rest => exact ⟨c, rest, rfl⟩

theorem exists_spells_of_run :
    ∀ {text out o : Bytes}, run .strict { output := out } text = some o →
      ∃ b, Spells text b ∧ o = out.reverse ++ b
  | [], out, o, hrun => by
    obtain ⟨_, ho⟩ := eq_of_run_nil hrun
    exact ⟨[], .filler 0, by simpa using ho⟩
  | x :: text, out, o, hrun => by
    by_cases hx : x = pad
    · subst hx
      rw [run_pad_early Nat.zero_lt_two] at hrun
      obtain ⟨_, ⟨n, rfl⟩, ho⟩ := filler_of_run rfl Nat.zero_lt_two hrun
      exact ⟨[], .filler (n + 1), by simpa using ho⟩
    obtain ⟨_, k, hk, hrun⟩ := exists_digit_of_run hx hrun
    obtain ⟨y, text, rfl⟩ := exists_cons_of_run Nat.one_ne_zero hrun
    by_cases hy : y = pad
    · -- one character is too few for an octet
      subst hy
      rw [run_pad_early Nat.one_lt_two] at hrun
      obtain ⟨htaken, _⟩ := filler_of_run rfl Nat.one_lt_two hrun
      cases htaken
    obtain ⟨_, l, hl, hrun⟩ := exists_digit_of_run hy hrun
    obtain ⟨z, text, rfl⟩ := exists_cons_of_run (Nat.succ_ne_zero 1) hrun
    by_cases hz : z = pad
    · subst hz
      obtain ⟨rfl, ho⟩ := last_two_of_run rfl rfl hrun
      exact ⟨_, .one hk hl, by simpa [take, octet₁] using ho⟩
    obtain ⟨_, m, hm, hrun⟩ := exists_digit_of_run hz hrun
    obtain ⟨w, text, rfl⟩ := exists_cons_of_run (Nat.succ_ne_zero 2) hrun
    by_cases hw : w = pad
    · subst hw
      obtain ⟨rfl, ho⟩ := last_of_run rfl hrun
      exact ⟨_, .two hk hl hm, by simpa [take, octet₁, octet₂] using ho⟩
    obtain ⟨_, n, hn, hrun⟩ := exists_digit_of_run hw hrun
    change run .strict { output := octet₃ m n :: octet₂ l m :: octet₁ k l :: out } text = some o
      at hrun
    obtain ⟨b, hb, ho⟩ := exists_spells_of_run hrun
    exact ⟨_, .group hk hl hm hn hb, by simpa using ho⟩

end Reader

variable {text front b : Bytes}

theorem decode_strict_eq_some_iff :
    decode .strict text = some b ↔ text.head? ≠ some pad ∧ Spells text b := by
  rw [decode]
  by_cases hpad : text.head? = some pad
  · simp [hpad]
  · have hstart :
        ¬ (decide (Reading.strict = .strict) && decide (text.head? = some pad)) = true := by
      simp [hpad]
    rw [if_neg hstart]
    constructor
    · intro hrun
      obtain ⟨_, hb, rfl⟩ := Reader.exists_spells_of_run hrun
      exact ⟨hpad, hb⟩
    · rintro ⟨_, h⟩
      exact Reader.run_of_spells h

theorem decode_lenient_of_spells (h : Spells text b) : decode .lenient text = some b :=
  Reader.run_of_spells h

namespace Spells

theorem length_le (h : Spells text b) : b.length ≤ 3 * (text.length / 4) := by
  induction h with
  | filler n => exact Nat.zero_le _
  | one | two => simp
  | group hx hy hz hw rest ih =>
    simp only [List.length_cons]
    omega

theorem take (h : Spells text b) {n : Nat} (hn : 4 * n ≤ text.length) :
    Spells (text.take (4 * n)) (b.take (3 * n)) := by
  induction h generalizing n with
  | filler k =>
    rw [List.take_replicate, List.take_nil]
    exact .filler _
  | one hx hy =>
    match n, hn with
    | 0, _ => exact .filler 0
    | 1, _ => exact .one hx hy
  | two hx hy hz =>
    match n, hn with
    | 0, _ => exact .filler 0
    | 1, _ => exact .two hx hy hz
  | group hx hy hz hw rest ih =>
    cases n with
    | zero => exact .filler 0
    | succ n =>
      simp only [List.length_cons] at hn
      exact .group hx hy hz hw (ih (by omega))

theorem of_front (h : Spells text b) (hfront : front <+: text)
    (hlong : b.length ≤ 3 * (front.length / 4)) : Spells front b := by
  induction h generalizing front with
  | filler n =>
    rw [(List.prefix_replicate_iff.mp hfront).2]
    exact .filler _
  | one hx hy =>
    simp only [List.length_cons, List.length_nil] at hlong
    rw [hfront.eq_of_length_le (by simp only [List.length_cons, List.length_nil]; omega)]
    exact .one hx hy
  | two hx hy hz =>
    simp only [List.length_cons, List.length_nil] at hlong
    rw [hfront.eq_of_length_le (by simp only [List.length_cons, List.length_nil]; omega)]
    exact .two hx hy hz
  | group hx hy hz hw rest ih =>
    simp only [List.length_cons] at hlong
    match front, hlong with
    | [], hlong | [_], hlong | [_, _], hlong | [_, _, _], hlong =>
      simp only [List.length_cons, List.length_nil] at hlong
      omega
    | _ :: _ :: _ :: _ :: front, hlong =>
      simp only [List.cons_prefix_cons] at hfront
      obtain ⟨rfl, rfl, rfl, rfl, hfront⟩ := hfront
      simp only [List.length_cons] at hlong
      exact .group hx hy hz hw (ih hfront (by omega))

end Spells
end Reflash.Base64
