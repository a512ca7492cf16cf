import Mathlib.Data.List.Forall2
import Mathlib.Data.Nat.Digits.Lemmas
import Reflash.Text.Numeral

/-! Numerals as a grammar. A run of digits is read as the values of its digits, with at most
one underscore between two of them, and a decimal number may have a sign. What writes a
number in a base, with zeros in front or letters in either case, is such a run, and
stands for the number. -/

namespace Reflash.Text

variable {value : Char → Option Nat} {s : List Char} {ds : List Nat} {i : Int}

/-! ### Runs of digits -/

/-- Digits with the values that they stand for, and at most one underscore between two of them. -/
inductive Run (value : Char → Option Nat) : List Char → List Nat → Prop where
  | last {c : Char} {d : Nat} (hd : value c = some d) : Run value [c] [d]
  | next {c : Char} {d : Nat} {s : List Char} {ds : List Nat} (hd : value c = some d)
      (hrest : Run value s ds) : Run value (c :: s) (d :: ds)
  | gap {c : Char} {d : Nat} {s : List Char} {ds : List Nat} (hd : value c = some d)
      (hrest : Run value s ds) : Run value (c :: '_' :: s) (d :: ds)

theorem digitsFrom_of_run (hvalue : value '_' = none) (h : Run value s ds) (inRun : Bool) :
    digitsFrom value inRun s = some ds := by
  have hdigit {c : Char} {d : Nat} (hd : value c = some d) : c ≠ '_' := by
    rintro rfl
    rw [hvalue] at hd
    cases hd
  induction h generalizing inRun with
  | last hd => simp [digitsFrom, hdigit hd, hd]
  | next hd _ ih => simp [digitsFrom, hdigit hd, hd, ih]
  | gap hd _ ih => simp [digitsFrom, hdigit hd, hd, ih]

theorem run_of_digitsFrom {inRun : Bool} (h : digitsFrom value inRun s = some ds) :
    Run value s ds ∨
      inRun = true ∧ (s = [] ∧ ds = [] ∨ ∃ rest, s = '_' :: rest ∧ Run value rest ds) := by
  induction s generalizing inRun ds with
  | nil =>
    cases inRun <;> cases h
    exact .inr ⟨rfl, .inl ⟨rfl, rfl⟩⟩
  | cons c rest ih =>
    rw [digitsFrom] at h
    split_ifs at h with hc hrun
    · rcases ih h with hrest | ⟨hfalse, _⟩
      · exact .inr ⟨hrun, .inr ⟨rest, by rw [hc], hrest⟩⟩
      · cases hfalse
    · cases hd : value c with
      | none =>
        rw [hd] at h
        cases h
      | some d =>
        simp only [hd] at h
        obtain ⟨others, hothers, rfl⟩ := Option.map_eq_some_iff.mp h
        rcases ih hothers with hrest | ⟨_, ⟨rfl, rfl⟩ | ⟨after, rfl, hrest⟩⟩
        · exact .inl (.next hd hrest)
        · exact .inl (.last hd)
        · exact .inl (.gap hd hrest)

theorem digits?_eq_some_iff (hvalue : value '_' = none) :
    digits? value s = some ds ↔ Run value s ds := by
  refine ⟨fun h => ?_, fun h => digitsFrom_of_run hvalue h false⟩
  rcases run_of_digitsFrom h with hrun | ⟨hfalse, _⟩
  · exact hrun
  · cases hfalse

theorem Run.digit_or_underscore (h : Run value s ds) :
    ∀ c ∈ s, c = '_' ∨ ∃ d ∈ ds, value c = some d := by
  induction h with
  | last hd => exact List.forall_mem_singleton.mpr (.inr ⟨_, List.mem_cons_self, hd⟩)
  | next hd _ ih =>
    refine List.forall_mem_cons.mpr ⟨.inr ⟨_, List.mem_cons_self, hd⟩, fun c hc => ?_⟩
    exact (ih c hc).imp_right fun ⟨d, hmem, hd⟩ => ⟨d, List.mem_cons_of_mem _ hmem, hd⟩
  | gap hd _ ih =>
    refine List.forall_mem_cons.mpr ⟨.inr ⟨_, List.mem_cons_self, hd⟩,
      List.forall_mem_cons.mpr ⟨.inl rfl, fun c hc => ?_⟩⟩
    exact (ih c hc).imp_right fun ⟨d, hmem, hd⟩ => ⟨d, List.mem_cons_of_mem _ hmem, hd⟩

theorem Run.exists_digit (h : Run value s ds) : ∀ d ∈ ds, ∃ c ∈ s, value c = some d := by
  induction h with
  | last hd => exact List.forall_mem_singleton.mpr ⟨_, List.mem_cons_self, hd⟩
  | next hd _ ih =>
    refine List.forall_mem_cons.mpr ⟨⟨_, List.mem_cons_self, hd⟩, fun d hmem => ?_⟩
    obtain ⟨c, hc, hd⟩ := ih d hmem
    exact ⟨c, List.mem_cons_of_mem _ hc, hd⟩
  | gap hd _ ih =>
    refine List.forall_mem_cons.mpr ⟨⟨_, List.mem_cons_self, hd⟩, fun d hmem => ?_⟩
    obtain ⟨c, hc, hd⟩ := ih d hmem
    exact ⟨c, List.mem_cons_of_mem _ (List.mem_cons_of_mem _ hc), hd⟩

theorem run_of_forall₂ (h : List.Forall₂ (fun c d => value c = some d) s ds) (hne : s ≠ []) :
    Run value s ds := by
  induction h with
  | nil => exact absurd rfl hne
  | @cons c d s ds hd hrest ih =>
    cases s with
    | nil =>
      cases hrest
      exact .last hd
    | cons c' s => exact .next hd (ih (List.cons_ne_nil _ _))

theorem not_run_cons {c : Char} (hc : value c = none) : ¬ Run value (c :: s) ds := by
  intro h
  cases h with
  | last hd | next hd | gap hd =>
    rw [hc] at hd
    cases hd

theorem hexadecimal?_eq_some_iff {n : Nat} :
    hexadecimal? s = some n ↔
      ∃ front body ds, (front = [] ∨ front = ['_']) ∧ s = front ++ body ∧
        Run hexDigitValue? body ds ∧ n = ofDigits 16 ds := by
  have hvalue : hexDigitValue? '_' = none := by decide
  simp only [hexadecimal?, Option.map_eq_some_iff, digits?_eq_some_iff hvalue]
  constructor
  · rintro ⟨ds, hrun, rfl⟩
    split at hrun
    · exact ⟨['_'], _, ds, .inr rfl, rfl, hrun, rfl⟩
    · exact ⟨[], s, ds, .inl rfl, rfl, hrun, rfl⟩
  · rintro ⟨front, body, ds, rfl | rfl, rfl, hrun, rfl⟩
    · refine ⟨ds, ?_, rfl⟩
      split
      · exact absurd hrun (not_run_cons hvalue)
      · exact hrun
    · exact ⟨ds, hrun, rfl⟩

theorem ofDigits_pos_iff {base : Nat} (hbase : 0 < base) :
    0 < ofDigits base ds ↔ ∃ d ∈ ds, d ≠ 0 := by
  induction ds using List.reverseRecOn with
  | nil => simp [ofDigits]
  | append_singleton ds d ih =>
    rw [ofDigits, List.foldl_append, List.foldl_cons, List.foldl_nil, ← ofDigits,
      Nat.add_pos_iff_pos_or_pos, Nat.mul_pos_iff_of_pos_right hbase, ih]
    simp [or_and_right, exists_or, Nat.pos_iff_ne_zero]

/-! ### Signs -/

inductive Signed (value : Char → Option Nat) : List Char → Int → Prop where
  | unsigned {s : List Char} {ds : List Nat} (h : Run value s ds)
      (hlength : ds.length ≤ Decimal.maxDigits) : Signed value s (ofDigits 10 ds)
  | plus {s : List Char} {ds : List Nat} (h : Run value s ds)
      (hlength : ds.length ≤ Decimal.maxDigits) : Signed value ('+' :: s) (ofDigits 10 ds)
  | minus {s : List Char} {ds : List Nat} (h : Run value s ds)
      (hlength : ds.length ≤ Decimal.maxDigits) : Signed value ('-' :: s) (-ofDigits 10 ds)

theorem decimalWith_eq_some_iff_of_sign (hvalue : value '_' = none) {negative : Bool}
    {body : List Char} (hsign : sign s = (negative, body)) :
    decimalWith value s = some i ↔
      ∃ ds, Run value body ds ∧ ds.length ≤ Decimal.maxDigits ∧
        i = if negative then -(ofDigits 10 ds : Int) else ofDigits 10 ds := by
  simp only [decimalWith, hsign, ← digits?_eq_some_iff hvalue]
  cases digits? value body with
  | none => simp
  | some ds =>
    by_cases hlength : ds.length ≤ Decimal.maxDigits
    · simp [hlength, eq_comm]
    · simp [hlength]

theorem decimalWith_eq_some_iff (hvalue : value '_' = none) (hplus : value '+' = none)
    (hminus : value '-' = none) : decimalWith value s = some i ↔ Signed value s i := by
  constructor
  · intro h
    rcases hsign : sign s with ⟨negative, body⟩
    obtain ⟨ds, hrun, hlength, rfl⟩ := (decimalWith_eq_some_iff_of_sign hvalue hsign).mp h
    unfold sign at hsign
    split at hsign <;> cases hsign
    · exact .minus hrun hlength
    · exact .plus hrun hlength
    · exact .unsigned hrun hlength
  · intro h
    cases h with
    | @unsigned _ ds hrun hlength =>
      have hsign : sign s = (false, s) := by
        unfold sign
        split
        · exact absurd hrun (not_run_cons hminus)
        · exact absurd hrun (not_run_cons hplus)
        · rfl
      exact (decimalWith_eq_some_iff_of_sign hvalue hsign).mpr ⟨ds, hrun, hlength, rfl⟩
    | plus hrun hlength =>
      exact (decimalWith_eq_some_iff_of_sign hvalue rfl).mpr ⟨_, hrun, hlength, rfl⟩
    | minus hrun hlength =>
      exact (decimalWith_eq_some_iff_of_sign hvalue rfl).mpr ⟨_, hrun, hlength, rfl⟩

theorem Signed.neg_iff (hvalue : value '_' = none) (hminus : value '-' = none)
    (h : Signed value s i) :
    i < 0 ↔ ∃ rest, s = '-' :: rest ∧ ∃ c ∈ rest, ∃ d, value c = some d ∧ d ≠ 0 := by
  have hnonneg (n : Nat) : ¬ (n : Int) < 0 := Int.not_lt.mpr (Int.natCast_nonneg n)
  cases h with
  | @unsigned _ ds hrun _ =>
    refine iff_of_false (hnonneg _) ?_
    rintro ⟨rest, rfl, -⟩
    exact not_run_cons hminus hrun
  | plus =>
    refine iff_of_false (hnonneg _) ?_
    rintro ⟨rest, hsign, -⟩
    cases hsign
  | @minus body ds hrun _ =>
    rw [Int.neg_neg_iff_pos, Int.natCast_pos, ofDigits_pos_iff (by decide)]
    constructor
    · rintro ⟨d, hmem, hd⟩
      obtain ⟨c, hc, hchar⟩ := hrun.exists_digit d hmem
      exact ⟨body, rfl, c, hc, d, hchar, hd⟩
    · rintro ⟨rest, hrest, c, hc, d, hchar, hd⟩
      cases hrest
      rcases hrun.digit_or_underscore c hc with rfl | ⟨d', hmem, hd'⟩
      · rw [hvalue] at hchar
        cases hchar
      · cases hchar.symm.trans hd'
        exact ⟨d, hmem, hd⟩

/-! ### Written numbers -/

def Writes (base n : Nat) (s : List Char) : Prop :=
  ∃ zeros, List.Forall₂ (fun c d => c = d ∨ c = d.toUpper) s
    (List.replicate zeros '0' ++ Nat.toDigits base n)

theorem exists_digits {base : Nat} (hbase : 1 < base) (n : Nat) :
    ∃ ds, Nat.toDigits base n = ds.map Nat.digitChar ∧ (∀ d ∈ ds, d < base) ∧
      ofDigits base ds = n ∧ ds ≠ [] := by
  induction n using Nat.strong_induction_on with
  | _ n ih =>
    by_cases hn : n < base
    · exact ⟨[n], Nat.toDigits_of_lt_base hn, List.forall_mem_singleton.mpr hn, by simp [ofDigits],
        List.cons_ne_nil _ _⟩
    · have hle : base ≤ n := Nat.le_of_not_lt hn
      have hpos : 0 < base := Nat.zero_lt_of_lt hbase
      obtain ⟨ds, hchars, hlt, hvalue, _⟩ :=
        ih (n / base) (Nat.div_lt_self (hpos.trans_le hle) hbase)
      refine ⟨ds ++ [n % base], ?_, ?_, ?_, by simp⟩
      · rw [Nat.toDigits_of_base_le hbase hle, hchars, List.map_append]
        rfl
      · exact List.forall_mem_append.mpr ⟨hlt, List.forall_mem_singleton.mpr (Nat.mod_lt n hpos)⟩
      · rw [ofDigits] at hvalue ⊢
        rw [List.foldl_append, hvalue, List.foldl_cons, List.foldl_nil]
        exact Nat.div_add_mod' n base

theorem ofDigits_zeros (base zeros : Nat) (ds : List Nat) :
    ofDigits base (List.replicate zeros 0 ++ ds) = ofDigits base ds := by
  have hzeros : (List.replicate zeros 0).foldl (fun n d => n * base + d) 0 = 0 := by
    induction zeros with
    | zero => rfl
    | succ zeros ih => rw [List.replicate_succ, List.foldl_cons, Nat.zero_mul, ih]
  rw [ofDigits, List.foldl_append, hzeros]
  rfl

theorem Writes.exists_digits {base n : Nat} (hbase : 1 < base) (h : Writes base n s) :
    s ≠ [] ∧ ∃ ds, ofDigits base ds = n ∧ List.Forall₂ (fun c d =>
      d < base ∧ (c = Nat.digitChar d ∨ c = (Nat.digitChar d).toUpper)) s ds := by
  obtain ⟨zeros, hs⟩ := h
  obtain ⟨ds, hchars, hlt, hvalue, hne⟩ := Text.exists_digits hbase n
  have hall : ∀ d ∈ List.replicate zeros 0 ++ ds, d < base :=
    List.forall_mem_append.mpr
      ⟨fun d hd => (List.mem_replicate.mp hd).2 ▸ Nat.zero_lt_of_lt hbase, hlt⟩
  have hzeros : List.replicate zeros '0' = (List.replicate zeros 0).map Nat.digitChar := by
    rw [List.map_replicate]
    rfl
  rw [hchars, hzeros, ← List.map_append, List.forall₂_map_right_iff] at hs
  refine ⟨?_, _, (ofDigits_zeros base zeros ds).trans hvalue, ?_⟩
  · rintro rfl
    exact hne (List.append_eq_nil_iff.mp (List.forall₂_nil_left_iff.mp hs)).2
  · exact ((List.forall₂_and_left _ _).mpr ⟨hall, hs.flip⟩).flip

theorem Writes.run {base n : Nat} (hbase : 1 < base) (h : Writes base n s)
    (hvalue : ∀ d < base, value (Nat.digitChar d) = some d ∧
      value (Nat.digitChar d).toUpper = some d) :
    ∃ ds, Run value s ds ∧ ds.length = s.length ∧ ofDigits base ds = n := by
  obtain ⟨hne, ds, hn, hs⟩ := h.exists_digits hbase
  refine ⟨ds, run_of_forall₂ (hs.imp ?_) hne, hs.length_eq.symm, hn⟩
  rintro c d ⟨hd, rfl | rfl⟩
  · exact (hvalue d hd).1
  · exact (hvalue d hd).2

theorem digitValue?_digitChar : ∀ d < 10,
    digitValue? (Nat.digitChar d) = some d ∧ digitValue? (Nat.digitChar d).toUpper = some d := by
  decide

theorem hexDigitValue?_digitChar : ∀ d < 16,
    hexDigitValue? (Nat.digitChar d) = some d ∧
      hexDigitValue? (Nat.digitChar d).toUpper = some d := by
  decide

end Reflash.Text
