import Mathlib.Data.List.TakeWhile
import Reflash.Argument
import Reflash.Proofs.Outcome
import Reflash.Proofs.Text.Numeral

/-! Arguments as a grammar. An image argument is a path, or a path after a destination of one
or two numerals, and a cache argument a path after a numeral; they are read exactly if they
have this form. A numeral holds no separator, so where a text is cut does not depend on
what its path holds, and an argument that was written in this form is read back. -/

namespace Reflash

namespace Text

/-! ### Margins -/

section Trim

variable {p : Char → Bool} {s before after : List Char}

def IsBlankText (s : List Char) : Prop := ∀ c ∈ s, isBlank c = true

def BeginsPlain (s : List Char) : Prop := ∀ c ∈ s.head?, isBlank c = false

def EndsPlain (s : List Char) : Prop := ∀ c ∈ s.getLast?, isBlank c = false

theorem trimWhile_append (hbefore : ∀ c ∈ before, p c = true) (hafter : ∀ c ∈ after, p c = true)
    (hfirst : ∀ c ∈ s.head?, p c = false) (hlast : ∀ c ∈ s.getLast?, p c = false) :
    trimWhile p (before ++ s ++ after) = s := by
  have hback : ∀ c ∈ after.reverse, p c = true := fun c hc => hafter c (List.mem_reverse.mp hc)
  have hkept (l : List Char) (hl : ∀ c ∈ l.head?, p c = false) : l.dropWhile p = l := by
    cases l with
    | nil => rfl
    | cons c rest => rw [List.dropWhile_cons_of_neg (Bool.eq_false_iff.mp (hl c rfl))]
  rw [trimWhile, List.append_assoc, List.dropWhile_append_of_pos hbefore, List.dropWhile_append,
    hkept s hfirst]
  split
  · rename_i hempty
    have hnothing : after.dropWhile p = [] := List.dropWhile_eq_nil_iff.mpr hafter
    rw [hnothing, List.isEmpty_iff.mp hempty]
    rfl
  · rw [List.reverse_append, List.dropWhile_append_of_pos hback,
      hkept s.reverse (by rwa [List.head?_reverse]), List.reverse_reverse]

theorem mem_trimWhile {c : Char} (hc : c ∈ s) (hp : p c = false) : c ∈ trimWhile p s := by
  have hkept {l : List Char} (hl : c ∈ l) : c ∈ l.dropWhile p := by
    rw [← List.takeWhile_append_dropWhile (p := p) (l := l), List.mem_append] at hl
    refine hl.resolve_left fun hfront => ?_
    rw [List.mem_takeWhile_imp hfront] at hp
    cases hp
  exact List.mem_reverse.mpr (hkept (List.mem_reverse.mpr (hkept hc)))

end Trim

end Text

namespace Argument

open Outcome
open Text (Run Signed Writes trimWhile isBlank digitValue? hexDigitValue? ofDigits)
open Text (IsBlankText BeginsPlain EndsPlain)

variable {s front path : List Char} {i : Int} {text : String}

/-! ### Numerals -/

/-- A numeral of an argument: a decimal number with or without a sign, or hexadecimal digits after
`0x`, with at most one underscore in front of them. -/
inductive Numeral : List Char → Int → Prop where
  | decimal {s : List Char} {i : Int} (h : Signed digitValue? s i) : Numeral s i
  | hexadecimal {x : Char} {gap digits : List Char} {ds : List Nat} (hx : x = 'x' ∨ x = 'X')
      (hgap : gap = [] ∨ gap = ['_']) (h : Run hexDigitValue? digits ds) :
      Numeral ('0' :: x :: (gap ++ digits)) (ofDigits 16 ds)

theorem decimal_eq_some_iff :
    Text.decimalWith digitValue? s = some i ↔ Signed digitValue? s i :=
  Text.decimalWith_eq_some_iff (by decide) (by decide) (by decide)

theorem number?_eq_some_iff : number? s = some i ↔ Numeral s i := by
  constructor
  · intro h
    unfold number? at h
    split at h
    next x rest =>
      split_ifs at h with hx
      · obtain ⟨n, hn, rfl⟩ := Option.map_eq_some_iff.mp h
        obtain ⟨gap, digits, ds, hgap, rfl, hrun, rfl⟩ := Text.hexadecimal?_eq_some_iff.mp hn
        exact .hexadecimal (by simpa using hx) hgap hrun
      · exact .decimal (decimal_eq_some_iff.mp h)
    · exact .decimal (decimal_eq_some_iff.mp h)
  · intro h
    cases h with
    | decimal h =>
      have hdecimal := decimal_eq_some_iff.mpr h
      unfold number?
      split
      next x rest =>
        have hx : ¬ ((x = 'x' || x = 'X') = true) := by
          intro hx
          have hvalue : x ≠ '_' ∧ digitValue? x = none := by
            rcases (by simpa using hx : x = 'x' ∨ x = 'X') with rfl | rfl <;> decide
          cases h with
          | unsigned hrun =>
            rcases hrun.digit_or_underscore x (by simp) with hunderscore | ⟨d, _, hd⟩
            · exact hvalue.1 hunderscore
            · rw [hvalue.2] at hd
              cases hd
        rw [if_neg hx]
        exact hdecimal
      · exact hdecimal
    | @hexadecimal x gap digits ds hx hgap hrun =>
      have hdigits : Text.hexadecimal? (gap ++ digits) = some (ofDigits 16 ds) :=
        Text.hexadecimal?_eq_some_iff.mpr ⟨gap, digits, ds, hgap, rfl, hrun, rfl⟩
      simp [number?, hx, hdigits]

theorem number_eq_ok_iff : number s = .ok i ↔ Numeral (trimWhile isBlank s) i := by
  rw [← number?_eq_some_iff, number]
  cases number? (trimWhile isBlank s) <;> simp

def marks : List Char := ['_', '+', '-', '0', 'x', 'X']

theorem not_mem_of_numeral {c : Char} (hmarks : c ∉ marks) (hdigit : digitValue? c = none)
    (hhex : hexDigitValue? c = none) (h : Numeral s i) : c ∉ s := by
  have hrun {value : Char → Option Nat} {s : List Char} {ds : List Nat} (hvalue : value c = none)
      (hrun : Run value s ds) : c ∉ s := by
    intro hc
    rcases hrun.digit_or_underscore c hc with rfl | ⟨d, _, hd⟩
    · exact hmarks (by decide)
    · rw [hvalue] at hd
      cases hd
  simp only [marks, List.mem_cons, List.not_mem_nil, or_false, not_or] at hmarks
  obtain ⟨hunderscore, hplus, hminus, hzero, hx, hX⟩ := hmarks
  cases h with
  | decimal h =>
    cases h with
    | unsigned h => exact hrun hdigit h
    | plus h => simpa [hplus] using hrun hdigit h
    | minus h => simpa [hminus] using hrun hdigit h
  | hexadecimal hmark hgap h =>
    rcases hmark with rfl | rfl <;> rcases hgap with rfl | rfl <;>
      simpa [hzero, hx, hX, hunderscore] using hrun hhex h

theorem not_mem_of_number {c : Char} (hc : c = '=' ∨ c = ':')
    (h : Numeral (trimWhile isBlank s) i) : c ∉ s := by
  intro hmem
  have hplain : isBlank c = false ∧ c ∉ marks ∧ digitValue? c = none ∧ hexDigitValue? c = none := by
    rcases hc with rfl | rfl <;> decide
  obtain ⟨hblank, hmarks, hdigit, hhex⟩ := hplain
  exact not_mem_of_numeral hmarks hdigit hhex h (Text.mem_trimWhile hmem hblank)

theorem not_numeral_nil : ¬ Numeral [] i := by
  rintro ⟨⟨⟨⟩⟩⟩

theorem ne_nil_of_number (h : Numeral (trimWhile isBlank s) i) : s ≠ [] := by
  rintro rfl
  exact not_numeral_nil h

/-! ### Cutting -/

theorem cutAt?_eq_some_iff {c : Char} {a b : List Char} :
    cutAt? c s = some (a, b) ↔ s = a ++ c :: b ∧ c ∉ a := by
  induction s generalizing a b with
  | nil => simp [cutAt?]
  | cons x rest ih =>
    rw [cutAt?]
    split_ifs with hx
    · subst hx
      cases a with
      | nil => simp
      | cons y a =>
        refine iff_of_false (by simp) ?_
        rintro ⟨heq, hmem⟩
        cases heq
        exact hmem List.mem_cons_self
    · simp only [Option.map_eq_some_iff, Prod.exists, Prod.mk.injEq, ih]
      constructor
      · rintro ⟨a, b, ⟨rfl, hmem⟩, rfl, rfl⟩
        exact ⟨rfl, List.not_mem_cons_of_ne_of_not_mem (Ne.symm hx) hmem⟩
      · rintro ⟨heq, hmem⟩
        cases a with
        | nil =>
          cases heq
          exact absurd rfl hx
        | cons y a =>
          cases heq
          exact ⟨a, b, ⟨rfl, mt (List.mem_cons_of_mem _) hmem⟩, rfl, rfl⟩

theorem cutAt?_eq_none_iff {c : Char} : cutAt? c s = none ↔ c ∉ s := by
  induction s with
  | nil => simp [cutAt?]
  | cons x rest ih =>
    rw [cutAt?]
    split_ifs with hx
    · simp [hx]
    · simp [ih, Ne.symm hx]

theorem cutAt?_append {c : Char} {a : List Char} (h : c ∉ a) (b : List Char) :
    cutAt? c (a ++ c :: b) = some (a, b) := cutAt?_eq_some_iff.mpr ⟨rfl, h⟩

/-! ### Images -/

theorem destination_eq_ok_iff {whole : String} {core slot : Int} :
    destination whole s = .ok (core, slot) ↔
      Numeral (trimWhile isBlank s) core ∧ slot = secondarySlot ∨
      ∃ first second, s = first ++ ':' :: second ∧ Numeral (trimWhile isBlank first) core ∧
        Numeral (trimWhile isBlank second) slot := by
  constructor
  · intro h
    rw [destination] at h
    split at h
    · split_ifs at h with hempty
      cases hnumber : number s with
      | error fault =>
        rw [hnumber] at h
        cases h
      | ok i =>
        rw [hnumber] at h
        cases h
        exact .inl ⟨number_eq_ok_iff.mp hnumber, rfl⟩
    next first second hcut =>
      split_ifs at h with hempty
      obtain ⟨i, hi, h⟩ := bind_eq_ok.mp h
      obtain ⟨j, hj, h⟩ := bind_eq_ok.mp h
      cases h
      exact .inr ⟨first, second, (cutAt?_eq_some_iff.mp hcut).1, number_eq_ok_iff.mp hi,
        number_eq_ok_iff.mp hj⟩
  · rintro (⟨hcore, rfl⟩ | ⟨first, second, rfl, hcore, hslot⟩)
    · have hcut : cutAt? ':' s = none := cutAt?_eq_none_iff.mpr (not_mem_of_number (.inr rfl) hcore)
      rw [destination, hcut]
      simp [ne_nil_of_number hcore, number_eq_ok_iff.mpr hcore, Except.map]
    · have hcut : cutAt? ':' (first ++ ':' :: second) = some (first, second) :=
        cutAt?_append (not_mem_of_number (.inr rfl) hcore) second
      have hsecond : ':' ∉ second := not_mem_of_number (.inr rfl) hslot
      rw [destination, hcut]
      simp [ne_nil_of_number hcore, hsecond, number_eq_ok_iff.mpr hcore, number_eq_ok_iff.mpr hslot,
        bind, Except.bind, pure, Except.pure]

inductive NamesImage : List Char → ImageArgument → Prop where
  | path {path : List Char} (hpath : path ≠ []) (hequals : '=' ∉ path) :
      NamesImage path { path := String.ofList path }
  | core {front path : List Char} {core : Int} (hcore : Numeral (trimWhile isBlank front) core)
      (hrange : 0 ≤ core) (hpath : path ≠ []) :
      NamesImage (front ++ '=' :: path) { core, path := String.ofList path }
  | slot {first second path : List Char} {core slot : Int}
      (hcore : Numeral (trimWhile isBlank first) core)
      (hslot : Numeral (trimWhile isBlank second) slot) (hrange : 0 ≤ core ∧ 0 ≤ slot)
      (hpath : path ≠ []) :
      NamesImage (first ++ ':' :: second ++ '=' :: path)
        { core, slot, path := String.ofList path }

theorem image_of_destination {core slot : Int}
    (hcut : trimWhile isBlank text.toList = front ++ '=' :: path) (hequals : '=' ∉ front)
    (hpath : path ≠ []) (hrange : 0 ≤ core ∧ 0 ≤ slot)
    (h : ∀ whole, destination whole front = .ok (core, slot)) :
    image text = .ok { core, slot, path := String.ofList path } := by
  have hnegative : ¬ (core < 0 ∨ slot < 0) := by omega
  simp only [image, hcut, cutAt?_append hequals, h]
  simp [hpath, hnegative, bind, Except.bind, pure, Except.pure]

theorem image_eq_ok_iff {a : ImageArgument} :
    image text = .ok a ↔ NamesImage (trimWhile isBlank text.toList) a := by
  constructor
  · intro h
    simp only [image] at h
    split at h
    next hcut =>
      split_ifs at h with hempty
      cases h
      exact .path (by simpa using hempty) (cutAt?_eq_none_iff.mp hcut)
    next front path hcut =>
      obtain ⟨hsplit, _⟩ := cutAt?_eq_some_iff.mp hcut
      obtain ⟨⟨core, slot⟩, hdestination, h⟩ := bind_eq_ok.mp h
      simp only [bind, Except.bind] at h
      split_ifs at h with hempty hnegative
      cases h
      have hpath : path ≠ [] := by simpa using hempty
      have hrange : 0 ≤ core ∧ 0 ≤ slot := by simpa using hnegative
      rw [hsplit]
      rcases destination_eq_ok_iff.mp hdestination with
        ⟨hcore, rfl⟩ | ⟨first, second, rfl, hcore, hslot⟩
      · exact .core hcore hrange.1 hpath
      · exact .slot hcore hslot hrange hpath
  · intro h
    generalize htext : trimWhile isBlank text.toList = s at h
    cases h with
    | path hpath hequals => simp [image, htext, cutAt?_eq_none_iff.mpr hequals, hpath]
    | core hcore hrange hpath =>
      have hslot : (0 : Int) ≤ secondarySlot := by decide
      exact image_of_destination htext (not_mem_of_number (.inl rfl) hcore) hpath ⟨hrange, hslot⟩
        fun _ => destination_eq_ok_iff.mpr (.inl ⟨hcore, rfl⟩)
    | slot hcore hslot hrange hpath =>
      have hfirst : '=' ∉ _ := not_mem_of_number (.inl rfl) hcore
      have hsecond : '=' ∉ _ := not_mem_of_number (.inl rfl) hslot
      have hequals := List.not_mem_append hfirst
        (List.not_mem_cons_of_ne_of_not_mem (by decide : '=' ≠ ':') hsecond)
      exact image_of_destination htext hequals hpath hrange
        fun _ => destination_eq_ok_iff.mpr (.inr ⟨_, _, rfl, hcore, hslot⟩)

/-! ### Caches -/

inductive NamesCache : List Char → CacheArgument → Prop where
  | intro {front path : List Char} {partition : Int}
      (hpartition : Numeral (trimWhile isBlank front) partition)
      (hpath : trimWhile isBlank path ≠ []) :
      NamesCache (front ++ '=' :: path)
        { partition, path := String.ofList (trimWhile isBlank path) }

theorem cache_eq_ok_iff {a : CacheArgument} : cache text = .ok a ↔ NamesCache text.toList a := by
  constructor
  · intro h
    rw [cache] at h
    split at h
    · cases h
    next front path hcut =>
      dsimp only at h
      split_ifs at h with hempty
      obtain ⟨partition, hpartition, h⟩ := bind_eq_ok.mp h
      cases h
      rw [(cutAt?_eq_some_iff.mp hcut).1]
      exact .intro (number_eq_ok_iff.mp hpartition) (by simpa using hempty)
  · intro h
    generalize htext : text.toList = s at h
    cases h with
    | intro hpartition hpath =>
      simp [cache, htext, cutAt?_append (not_mem_of_number (.inl rfl) hpartition), hpath,
        number_eq_ok_iff.mpr hpartition, bind, Except.bind, pure, Except.pure]

/-- In front of the first equals sign, with blanks around it, stands what is read as a number below
zero: a minus sign and then a digit that is not zero. -/
def IsBelowZero (text : String) : Prop :=
  ∃ front path rest, text.toList = front ++ '=' :: path ∧ '=' ∉ front ∧
    trimWhile isBlank front = '-' :: rest ∧ ∃ c ∈ rest, ∃ d, digitValue? c = some d ∧ d ≠ 0

theorem Numeral.neg_iff (h : Numeral s i) :
    i < 0 ↔ ∃ rest, s = '-' :: rest ∧ ∃ c ∈ rest, ∃ d, digitValue? c = some d ∧ d ≠ 0 := by
  cases h with
  | decimal h => exact h.neg_iff (by decide) (by decide)
  | hexadecimal =>
    refine iff_of_false (Int.not_lt.mpr (Int.natCast_nonneg _)) ?_
    rintro ⟨rest, hsign, -⟩
    cases hsign

theorem partition_neg_iff {a : CacheArgument} (h : cache text = .ok a) :
    a.partition < 0 ↔ IsBelowZero text := by
  have hnames := cache_eq_ok_iff.mp h
  generalize htext : text.toList = s at hnames
  cases hnames with
  | @intro front path partition hpartition hpath =>
    have hequals : '=' ∉ front := not_mem_of_number (.inl rfl) hpartition
    rw [hpartition.neg_iff]
    constructor
    · rintro ⟨rest, hsign, hdigit⟩
      exact ⟨front, path, rest, htext, hequals, hsign, hdigit⟩
    · rintro ⟨other, behind, rest, hsplit, hother, hsign, hdigit⟩
      have hcut := cutAt?_append hequals path
      rw [← htext, hsplit, cutAt?_append hother] at hcut
      cases hcut
      exact ⟨rest, hsign, hdigit⟩

/-! ### Reading back -/

inductive Written (n : Nat) : List Char → Prop where
  | decimal {s : List Char} (h : Writes 10 n s) (hlength : s.length ≤ Decimal.maxDigits) :
      Written n s
  | hexadecimal {x : Char} {digits : List Char} (hx : x = 'x' ∨ x = 'X') (h : Writes 16 n digits) :
      Written n ('0' :: x :: digits)

section Written

variable {n : Nat}

theorem written_repr (hn : n < Nat.pow 10 Decimal.maxDigits) : Written n (Nat.repr n).toList := by
  have hlength : ∀ k, 0 < k → n < Nat.pow 10 k → (Nat.toDigits 10 n).length ≤ k :=
    fun k hk hn => (Nat.length_toDigits_le_iff (by decide) hk).mpr hn
  rw [Nat.toList_repr]
  exact .decimal ⟨0, List.forall₂_same.mpr fun _ _ => .inl rfl⟩ (hlength _ (by decide) hn)

theorem written_hexadecimal (n : Nat) :
    Written n ('0' :: 'x' :: Nat.toDigits 16 n) ∧
      Written n ('0' :: 'X' :: (Nat.toDigits 16 n).map Char.toUpper) := by
  constructor
  · exact .hexadecimal (.inl rfl) ⟨0, List.forall₂_same.mpr fun _ _ => .inl rfl⟩
  · refine .hexadecimal (.inr rfl) ⟨0, ?_⟩
    rw [List.replicate_zero, List.nil_append, List.forall₂_map_left_iff]
    exact List.forall₂_same.mpr fun _ _ => .inr rfl

theorem Written.numeral (h : Written n s) : Numeral s n := by
  cases h with
  | decimal h hlength =>
    obtain ⟨ds, hrun, hsame, rfl⟩ := h.run (by decide) Text.digitValue?_digitChar
    exact .decimal (.unsigned hrun (hsame ▸ hlength))
  | @hexadecimal x digits hx h =>
    obtain ⟨ds, hrun, _, rfl⟩ := h.run (by decide) Text.hexDigitValue?_digitChar
    have hnumeral : Numeral ('0' :: x :: ([] ++ digits)) (ofDigits 16 ds) :=
      .hexadecimal hx (.inl rfl) hrun
    exact hnumeral

theorem isBlank_of_writes {base : Nat} (hbase : 1 < base ∧ base ≤ 16) (h : Writes base n s) :
    ∀ c ∈ s, isBlank c = false := by
  have hdigit : ∀ d < 16, isBlank (Nat.digitChar d) = false ∧
      isBlank (Nat.digitChar d).toUpper = false := by decide
  obtain ⟨_, ds, _, hs⟩ := h.exists_digits hbase.1
  intro c hc
  obtain ⟨d, _, hd, hchar⟩ := exists_of_forall₂ hs hc
  have hplain := hdigit d (hd.trans_le hbase.2)
  rcases hchar with rfl | rfl
  · exact hplain.1
  · exact hplain.2

theorem Written.isPlain (h : Written n s) : ∀ c ∈ s, isBlank c = false := by
  cases h with
  | decimal h => exact isBlank_of_writes (by decide) h
  | hexadecimal hx h =>
    refine List.forall_mem_cons.mpr ⟨by decide, List.forall_mem_cons.mpr ⟨?_, ?_⟩⟩
    · rcases hx with rfl | rfl <;> decide
    · exact isBlank_of_writes (by decide) h

theorem trimWhile_of_written (h : Written n s) : trimWhile isBlank s = s := by
  have htrim : trimWhile isBlank ([] ++ s ++ []) = s :=
    Text.trimWhile_append (List.forall_mem_nil _) (List.forall_mem_nil _)
      (fun c hc => h.isPlain c (List.mem_of_head? hc))
      (fun c hc => h.isPlain c (List.mem_of_getLast? hc))
  rwa [List.nil_append, List.append_nil] at htrim

theorem Written.trimmed (h : Written n s) : Numeral (trimWhile isBlank s) n := by
  rw [trimWhile_of_written h]
  exact h.numeral

theorem Written.beginsPlain (h : Written n s) (rest : List Char) : BeginsPlain (s ++ rest) := by
  intro c hc
  cases s with
  | nil => exact absurd h.numeral not_numeral_nil
  | cons x s =>
    cases hc
    exact h.isPlain c List.mem_cons_self

theorem endsPlain_append {path : List Char} (hpath : path ≠ []) (h : EndsPlain path)
    (front : List Char) : EndsPlain (front ++ path) := by
  intro c hc
  rw [List.getLast?_append_of_ne_nil _ hpath] at hc
  exact h c hc

end Written

section ReadBack

variable {core slot : Nat} {c s path before after : String}

theorem image_of_names {inner : String} {a : ImageArgument} (hbefore : IsBlankText before.toList)
    (hafter : IsBlankText after.toList) (hbegins : BeginsPlain inner.toList)
    (hends : EndsPlain inner.toList) (h : NamesImage inner.toList a) :
    image (before ++ inner ++ after) = .ok a := by
  rw [image_eq_ok_iff, String.toList_append, String.toList_append,
    Text.trimWhile_append hbefore hafter hbegins hends]
  exact h

theorem image_of_front {front : String} {a : ImageArgument}
    (h : NamesImage (front.toList ++ '=' :: path.toList) a)
    (hbegins : BeginsPlain (front.toList ++ '=' :: path.toList)) (hpath : path.toList ≠ [])
    (hends : EndsPlain path.toList) (hbefore : IsBlankText before.toList)
    (hafter : IsBlankText after.toList) :
    image (before ++ (front ++ "=" ++ path) ++ after) = .ok a := by
  have hinner : (front ++ "=" ++ path).toList = front.toList ++ '=' :: path.toList := by simp
  rw [← hinner] at h hbegins
  refine image_of_names hbefore hafter hbegins ?_ h
  rw [hinner, List.append_cons]
  exact endsPlain_append hpath hends _

theorem image_of_slot (hcore : Written core c.toList) (hslot : Written slot s.toList)
    (hpath : path ≠ "") (hends : EndsPlain path.toList) (hbefore : IsBlankText before.toList)
    (hafter : IsBlankText after.toList) :
    image (before ++ (c ++ ":" ++ s ++ "=" ++ path) ++ after) = .ok { core, slot, path } := by
  have hne : path.toList ≠ [] := mt String.toList_eq_nil_iff.mp hpath
  have hfront : (c ++ ":" ++ s).toList = c.toList ++ ':' :: s.toList := by simp
  have hnames : NamesImage (c.toList ++ ':' :: s.toList ++ '=' :: path.toList)
      { core, slot, path := String.ofList path.toList } :=
    .slot hcore.trimmed hslot.trimmed ⟨Int.natCast_nonneg _, Int.natCast_nonneg _⟩ hne
  have hbegins : BeginsPlain (c.toList ++ ':' :: s.toList ++ '=' :: path.toList) := by
    rw [List.append_assoc]
    exact hcore.beginsPlain _
  rw [String.ofList_toList, ← hfront] at hnames
  exact image_of_front hnames (hfront ▸ hbegins) hne hends hbefore hafter

theorem image_of_core (hcore : Written core c.toList) (hpath : path ≠ "")
    (hends : EndsPlain path.toList) (hbefore : IsBlankText before.toList)
    (hafter : IsBlankText after.toList) :
    image (before ++ (c ++ "=" ++ path) ++ after) = .ok { core, slot := 1, path } := by
  have hne : path.toList ≠ [] := mt String.toList_eq_nil_iff.mp hpath
  have hnames : NamesImage (c.toList ++ '=' :: path.toList)
      { core, path := String.ofList path.toList } :=
    .core hcore.trimmed (Int.natCast_nonneg _) hne
  rw [String.ofList_toList] at hnames
  exact image_of_front hnames (hcore.beginsPlain _) hne hends hbefore hafter

theorem cache_of_partition (hcore : Written core c.toList) (hpath : path ≠ "")
    (hbegins : BeginsPlain path.toList) (hends : EndsPlain path.toList)
    (hbefore : IsBlankText before.toList) (hafter : IsBlankText after.toList) :
    cache (before ++ (c ++ "=" ++ path) ++ after) = .ok { partition := core, path } := by
  have hne : path.toList ≠ [] := mt String.toList_eq_nil_iff.mp hpath
  have hnothing : ∀ x ∈ ([] : List Char), isBlank x = true := List.forall_mem_nil _
  have hnumber : trimWhile isBlank (before.toList ++ c.toList) = c.toList := by
    have htrim : trimWhile isBlank (before.toList ++ c.toList ++ []) = c.toList :=
      Text.trimWhile_append hbefore hnothing
        (fun x hx => hcore.isPlain x (List.mem_of_head? hx))
        (fun x hx => hcore.isPlain x (List.mem_of_getLast? hx))
    rwa [List.append_nil] at htrim
  have hname : trimWhile isBlank (path.toList ++ after.toList) = path.toList := by
    have htrim : trimWhile isBlank ([] ++ path.toList ++ after.toList) = path.toList :=
      Text.trimWhile_append hnothing hafter hbegins hends
    rwa [List.nil_append] at htrim
  have htext : (before ++ (c ++ "=" ++ path) ++ after).toList =
      before.toList ++ c.toList ++ '=' :: (path.toList ++ after.toList) := by simp
  have hnames : NamesCache (before.toList ++ c.toList ++ '=' :: (path.toList ++ after.toList))
      { partition := core
        path := String.ofList (trimWhile isBlank (path.toList ++ after.toList)) } := by
    apply NamesCache.intro
    · rw [hnumber]
      exact hcore.numeral
    · rwa [hname]
  rw [hname, String.ofList_toList, ← htext] at hnames
  exact cache_eq_ok_iff.mpr hnames

theorem image_of_path (hpath : path ≠ "") (hequals : '=' ∉ path.toList)
    (hbegins : BeginsPlain path.toList) (hends : EndsPlain path.toList)
    (hbefore : IsBlankText before.toList) (hafter : IsBlankText after.toList) :
    image (before ++ path ++ after) = .ok { core := 0, slot := 1, path } := by
  have hnames : NamesImage path.toList { path := String.ofList path.toList } :=
    .path (mt String.toList_eq_nil_iff.mp hpath) hequals
  rw [String.ofList_toList] at hnames
  exact image_of_names hbefore hafter hbegins hends hnames

end ReadBack

/-- Every number that is short enough has its decimal numeral and every number its hexadecimal ones,
and what is written with them is read back, whatever blanks stand around it: a core, a slot and a
path, a core and a path, a partition and a path, and a path that has no equals sign. -/
theorem arguments_read_back :
    (∀ n < Nat.pow 10 Decimal.maxDigits, Written n (Nat.repr n).toList) ∧
    (∀ n, Written n ('0' :: 'x' :: Nat.toDigits 16 n) ∧
      Written n ('0' :: 'X' :: (Nat.toDigits 16 n).map Char.toUpper)) ∧
    ∀ {core slot : Nat} {c s path before after : String}, Written core c.toList →
      Written slot s.toList → path ≠ "" → EndsPlain path.toList → IsBlankText before.toList →
      IsBlankText after.toList →
        image (before ++ (c ++ ":" ++ s ++ "=" ++ path) ++ after) = .ok { core, slot, path } ∧
        image (before ++ (c ++ "=" ++ path) ++ after) = .ok { core, slot := 1, path } ∧
        (BeginsPlain path.toList →
          cache (before ++ (c ++ "=" ++ path) ++ after) = .ok { partition := core, path } ∧
          ('=' ∉ path.toList →
            image (before ++ path ++ after) = .ok { core := 0, slot := 1, path })) := by
  refine ⟨fun n => written_repr, written_hexadecimal, ?_⟩
  intro core slot c s path before after hcore hslot hpath hends hbefore hafter
  refine ⟨image_of_slot hcore hslot hpath hends hbefore hafter,
    image_of_core hcore hpath hends hbefore hafter, fun hbegins => ⟨?_, fun hequals => ?_⟩⟩
  · exact cache_of_partition hcore hpath hbegins hends hbefore hafter
  · exact image_of_path hpath hequals hbegins hends hbefore hafter

theorem arguments_read_back_mixed_case :
    image " 0XfF:010=C:a=b " = .ok { core := 255, slot := 10, path := "C:a=b" } ∧
    image " 0XfF=C:a=b " = .ok { core := 255, slot := 1, path := "C:a=b" } ∧
    cache " 0XfF=C:a=b " = .ok { partition := 255, path := "C:a=b" } ∧
    image " C:a " = .ok { core := 0, slot := 1, path := "C:a" } := by
  have hcore : Written 255 "0XfF".toList := .hexadecimal (.inr rfl) ⟨0, by decide⟩
  have hslot : Written 10 "010".toList := .decimal ⟨1, by decide⟩ (by decide)
  have hblank : IsBlankText " ".toList := List.forall_mem_singleton.mpr (by decide)
  have hbegins {s : List Char} : BeginsPlain ('C' :: s) := by
    intro c hc
    cases hc
    decide
  have hends : EndsPlain "C:a=b".toList ∧ EndsPlain "C:a".toList := by
    constructor <;> (intro c hc; cases hc; decide)
  obtain ⟨hboth, hone, hcache⟩ :=
    arguments_read_back.2.2 hcore hslot (by decide) hends.1 hblank hblank
  have hpath := (arguments_read_back.2.2 hcore hslot (by decide) hends.2 hblank hblank).2.2 hbegins
  exact ⟨hboth, hone, (hcache hbegins).1, hpath.2 (by decide)⟩

end Argument
end Reflash
