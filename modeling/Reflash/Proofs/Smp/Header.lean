import Mathlib.Order.Basic
import Reflash.Smp.Header

/-! Headers that can be written: those of which every field has room for its
number. A header is read back as it was written, save for the high bits of operation
and version, and only its eight octets are looked at. -/

namespace Reflash.Smp.Header

structure Fits (h : Header) : Prop where
  flags : 0 ≤ h.flags ∧ h.flags < 256
  length : 0 ≤ h.length ∧ h.length < 65536
  group : 0 ≤ h.group ∧ h.group < 65536
  sequence : 0 ≤ h.sequence ∧ h.sequence < 256
  command : 0 ≤ h.command ∧ h.command < 256

theorem isSome_field? (width : Nat) (i : Int) :
    (field? width i).isSome = true ↔ 0 ≤ i ∧ i < (Nat.pow 256 width : Nat) := by
  cases i with
  | ofNat n =>
    have hpos : (0 : Int) ≤ Int.ofNat n := Int.natCast_nonneg n
    have hlt : Int.ofNat n < (Nat.pow 256 width : Nat) ↔ n < Nat.pow 256 width := Int.ofNat_lt
    rw [field?, hlt]
    split
    · exact ⟨fun _ => ⟨hpos, ‹_›⟩, fun _ => rfl⟩
    · exact ⟨fun h => absurd h Bool.false_ne_true, fun h => absurd h.2 ‹_›⟩
  | negSucc n =>
    have hneg : ¬ (0 : Int) ≤ Int.negSucc n := Int.not_le.mpr (Int.negSucc_lt_zero n)
    exact ⟨fun h => absurd h Bool.false_ne_true, fun h => absurd h.1 hneg⟩

theorem isSome_pack? (h : Header) : h.pack?.isSome = true ↔ h.Fits := by
  have hpack : h.pack?.isSome = true ↔
      (field? 1 h.flags).isSome = true ∧ (field? 2 h.length).isSome = true ∧
        (field? 2 h.group).isSome = true ∧ (field? 1 h.sequence).isSome = true ∧
        (field? 1 h.command).isSome = true := by
    simp only [pack?]
    cases field? 1 h.flags <;> cases field? 2 h.length <;> cases field? 2 h.group <;>
      cases field? 1 h.sequence <;> cases field? 1 h.command <;> simp
  simp only [hpack, isSome_field?]
  constructor
  · rintro ⟨hflags, hlength, hgroup, hsequence, hcommand⟩
    exact ⟨hflags, hlength, hgroup, hsequence, hcommand⟩
  · rintro ⟨hflags, hlength, hgroup, hsequence, hcommand⟩
    exact ⟨hflags, hlength, hgroup, hsequence, hcommand⟩

theorem field?_eq_some {width : Nat} {i : Int} {b : Bytes} (h : field? width i = some b) :
    ∃ n : Nat, i = n ∧ n < Nat.pow 256 width ∧ b = Bytes.ofNatBE width n := by
  cases i with
  | ofNat n =>
    rw [field?] at h
    split at h
    · cases h
      exact ⟨n, rfl, ‹_›, rfl⟩
    · cases h
  | negSucc n => cases h

/-! ### Reading -/

theorem unpack?_eq_some {b : Bytes} {h : Header} (hb : unpack? b = some h) :
    ∃ x flags l₁ l₀ g₁ g₀ sequence command rest,
      b = x :: flags :: l₁ :: l₀ :: g₁ :: g₀ :: sequence :: command :: rest ∧
      h = { op := (x.toNat % 8 : Nat)
            flags := flags.toNat
            length := Bytes.toNatBE [l₁, l₀]
            group := Bytes.toNatBE [g₁, g₀]
            sequence := sequence.toNat
            command := command.toNat
            version := (x.toNat / 8 % 4 : Nat) } := by
  unfold unpack? at hb
  split at hb
  · cases hb
    exact ⟨_, _, _, _, _, _, _, _, _, rfl, rfl⟩
  · cases hb

section Unpacked

variable {b : Bytes} {h : Header} (hb : unpack? b = some h)
include hb

theorem size_le_of_unpack? : size ≤ b.length := by
  obtain ⟨_, _, _, _, _, _, _, _, rest, rfl, _⟩ := unpack?_eq_some hb
  exact Nat.le_add_left 8 rest.length

theorem op_range_of_unpack? : 0 ≤ h.op ∧ h.op < 8 := by
  obtain ⟨x, _, _, _, _, _, _, _, _, _, rfl⟩ := unpack?_eq_some hb
  exact ⟨Int.natCast_nonneg _, Int.ofNat_lt.mpr (Nat.mod_lt _ (by decide))⟩

theorem sequence_range_of_unpack? : 0 ≤ h.sequence ∧ h.sequence < 256 := by
  obtain ⟨_, _, _, _, _, _, sequence, _, _, _, rfl⟩ := unpack?_eq_some hb
  exact ⟨Int.natCast_nonneg _, Int.ofNat_lt.mpr sequence.toNat_lt⟩

theorem length_nonneg_of_unpack? : 0 ≤ h.length := by
  obtain ⟨_, _, _, _, _, _, _, _, _, _, rfl⟩ := unpack?_eq_some hb
  exact Int.natCast_nonneg _

end Unpacked

theorem unpack?_take {b : Bytes} {n : Nat} (hn : size ≤ n) : unpack? (b.take n) = unpack? b := by
  obtain ⟨m, rfl⟩ : ∃ m, n = m + 8 := ⟨n - 8, (Nat.sub_add_cancel hn).symm⟩
  match b with
  | [] | [_] | [_, _] | [_, _, _] | [_, _, _, _] | [_, _, _, _, _] | [_, _, _, _, _, _]
  | [_, _, _, _, _, _, _] => rfl
  | _ :: _ :: _ :: _ :: _ :: _ :: _ :: _ :: _ => rfl

theorem toNat_first (op version : Int) :
    ((first op version).toNat : Int) = op % 8 + version % 4 * 8 := by
  have hop : 0 ≤ op % 8 ∧ op % 8 < 8 := by omega
  have hversion : 0 ≤ version % 4 ∧ version % 4 < 4 := by omega
  rw [first, UInt8.toNat_ofNat']
  omega

theorem length_pack? {h : Header} {b : Bytes} (hb : h.pack? = some b) : b.length = size := by
  simp only [pack?, bind, Option.bind_eq_some_iff, pure, Option.some.injEq] at hb
  obtain ⟨_, hflags, _, hlength, _, hgroup, _, hsequence, _, hcommand, rfl⟩ := hb
  have hwidth {width : Nat} {i : Int} {b : Bytes} (hfield : field? width i = some b) :
      b.length = width := by
    obtain ⟨n, -, -, rfl⟩ := field?_eq_some hfield
    exact Bytes.length_ofNatBE width n
  simp only [List.length_cons, List.length_append, hwidth hflags, hwidth hlength, hwidth hgroup,
    hwidth hsequence, hwidth hcommand]
  rfl

theorem unpack?_pack? {h : Header} {b : Bytes} (hb : h.pack? = some b) (rest : Bytes) :
    unpack? (b ++ rest) = some { h with op := h.op % 8, version := h.version % 4 } := by
  obtain ⟨op, flags, length, group, sequence, command, version⟩ := h
  simp only [pack?, bind, Option.bind_eq_some_iff, pure, Option.some.injEq] at hb
  obtain ⟨_, hfs, _, hls, _, hgs, _, hss, _, hcs, rfl⟩ := hb
  obtain ⟨flags, rfl, hflags, rfl⟩ := field?_eq_some hfs
  obtain ⟨length, rfl, hlength, rfl⟩ := field?_eq_some hls
  obtain ⟨group, rfl, hgroup, rfl⟩ := field?_eq_some hgs
  obtain ⟨sequence, rfl, hsequence, rfl⟩ := field?_eq_some hss
  obtain ⟨command, rfl, hcommand, rfl⟩ := field?_eq_some hcs
  have hoctet {n : Nat} (hn : n < Nat.pow 256 1) : (UInt8.ofNat n).toNat = n := by
    rw [UInt8.toNat_ofNat']
    exact Nat.mod_eq_of_lt hn
  have hpair {n : Nat} (hn : n < Nat.pow 256 2) :
      Bytes.toNatBE [UInt8.ofNat (n / 256), UInt8.ofNat n] = n := Bytes.toNatBE_ofNatBE hn
  have hfirst := toNat_first op version
  have hop : ((first op version).toNat % 8 : Nat) = op % 8 := by omega
  have hversion : ((first op version).toNat / 8 % 4 : Nat) = version % 4 := by omega
  change unpack? (first op version :: UInt8.ofNat flags :: UInt8.ofNat (length / 256) ::
    UInt8.ofNat length :: UInt8.ofNat (group / 256) :: UInt8.ofNat group :: UInt8.ofNat sequence ::
      UInt8.ofNat command :: rest) = _
  rw [unpack?, hop, hversion, hoctet hflags, hpair hlength, hpair hgroup, hoctet hsequence,
    hoctet hcommand]

end Reflash.Smp.Header
