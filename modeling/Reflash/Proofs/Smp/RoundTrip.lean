import Reflash.Proofs.Smp.Request

/-! Headers there and back. What is read from eight octets and written again is these octets,
save for the three bits of the first one that mean nothing. A header that is written and read
again is the same one exactly if every field is in its range; if only the operation or the
version is not, the header is written all the same. -/

namespace Reflash.Smp.Header

variable {h : Header} {b : Bytes}

structure InRange (h : Header) : Prop extends Fits h where
  op : 0 ≤ h.op ∧ h.op < 8
  version : 0 ≤ h.version ∧ h.version < 4

def cleared (b : Bytes) : Bytes := (b.take size).modifyHead (· &&& 0x1F)

theorem field?_octet (x : UInt8) : field? 1 x.toNat = some [x] := by
  have hx : x.toNat < Nat.pow 256 1 := x.toNat_lt
  have hoctet : Bytes.ofNatBE 1 x.toNat = [x] := by
    simp [Bytes.ofNatBE]
  rw [← hoctet]
  exact if_pos hx

theorem field?_pair (x y : UInt8) : field? 2 (Bytes.toNatBE [x, y]) = some [x, y] := by
  have hvalue : Bytes.toNatBE [x, y] = x.toNat * 256 + y.toNat := by
    simp [Bytes.toNatBE]
  have hx := x.toNat_lt
  have hy := y.toNat_lt
  have hlt : Bytes.toNatBE [x, y] < Nat.pow 256 2 := by
    rw [hvalue]
    change _ < 65536
    omega
  have hhigh : UInt8.ofNat (Bytes.toNatBE [x, y] / 256) = x := by
    rw [hvalue, show (x.toNat * 256 + y.toNat) / 256 = x.toNat by omega, UInt8.ofNat_toNat]
  have hlow : UInt8.ofNat (Bytes.toNatBE [x, y]) = y := by
    apply UInt8.toNat_inj.mp
    rw [hvalue, UInt8.toNat_ofNat']
    omega
  have hoctets : Bytes.ofNatBE 2 (Bytes.toNatBE [x, y]) = [x, y] := by
    simp [Bytes.ofNatBE, hhigh, hlow]
  exact (if_pos hlt).trans (congrArg some hoctets)

theorem first_of_octet (x : UInt8) :
    first (x.toNat % 8 : Nat) (x.toNat / 8 % 4 : Nat) = x &&& 0x1F := by
  have hmask : (x &&& 0x1F).toNat = x.toNat % 32 := by
    rw [UInt8.toNat_and]
    exact Nat.and_two_pow_sub_one_eq_mod x.toNat 5
  have hfirst := toNat_first (x.toNat % 8 : Nat) (x.toNat / 8 % 4 : Nat)
  apply UInt8.toNat_inj.mp
  rw [hmask]
  omega

theorem pack?_of_unpack? (hb : unpack? b = some h) : h.pack? = some (cleared b) := by
  obtain ⟨x, flags, l₁, l₀, g₁, g₀, sequence, command, rest, rfl, rfl⟩ := unpack?_eq_some hb
  simp only [pack?, field?_octet, field?_pair, first_of_octet]
  rfl

theorem unpack?_eq_none_iff : unpack? b = none ↔ b.length < size := by
  constructor
  · intro hb
    by_contra hsize
    match b with
    | [] | [_] | [_, _] | [_, _, _] | [_, _, _, _] | [_, _, _, _, _] | [_, _, _, _, _, _]
    | [_, _, _, _, _, _, _] => exact hsize (by simp [size])
    | _ :: _ :: _ :: _ :: _ :: _ :: _ :: _ :: _ => cases hb
  · intro hsize
    cases hb : unpack? b with
    | none => rfl
    | some h => exact absurd hsize (Nat.not_lt.mpr (size_le_of_unpack? hb))

theorem pack?_eq_none_iff : h.pack? = none ↔ ¬ h.Fits := by
  rw [← isSome_pack?, Bool.not_eq_true, Option.isSome_eq_false_iff, Option.isNone_iff_eq_none]

theorem inRange_iff :
    h.InRange ↔ ∃ b, h.pack? = some b ∧ ∀ rest, unpack? (b ++ rest) = some h := by
  constructor
  · intro hrange
    obtain ⟨b, hb⟩ := Option.isSome_iff_exists.mp ((isSome_pack? h).mpr hrange.toFits)
    have hop : h.op % 8 = h.op := Int.emod_eq_of_lt hrange.op.1 hrange.op.2
    have hversion : h.version % 4 = h.version :=
      Int.emod_eq_of_lt hrange.version.1 hrange.version.2
    refine ⟨b, hb, fun rest => ?_⟩
    rw [unpack?_pack? hb, hop, hversion]
  · rintro ⟨b, hb, hback⟩
    have hfits : h.Fits := (isSome_pack? h).mp (Option.isSome_iff_exists.mpr ⟨b, hb⟩)
    have hsame := (unpack?_pack? hb []).symm.trans (hback [])
    have hop : h.op % 8 = h.op := congrArg op (Option.some.inj hsame)
    have hversion : h.version % 4 = h.version := congrArg version (Option.some.inj hsame)
    refine { hfits with op := ?_, version := ?_ } <;> omega

/-- Headers and the octets in front of a message stand for each other: a header in its ranges is
read back, whatever follows it, and eight octets are written again as they were but for three
bits. Where there are fewer, the reply is refused, and a field without room for its number is the
one thing that keeps a header from being written. -/
theorem round_trips :
    (∀ h : Header, h.InRange ↔
      ∃ b, h.pack? = some b ∧ ∀ rest, unpack? (b ++ rest) = some h) ∧
    (∀ b : Bytes, size ≤ b.length → ∃ h, unpack? b = some h ∧ h.pack? = some (cleared b)) ∧
    (∀ b : Bytes, b.length < size → unpack? b = none ∧ ∀ (r : Request) (sequence : Int),
      ∃ fault, r.answer sequence b = .error fault ∧
        (Error.reply fault).nature? = some .protocol ∧
        fault.message = "SMP packet too short: " ++ Nat.repr b.length ++ " bytes") ∧
    ∀ h : Header, (h.pack? = none ↔ ¬ h.Fits) ∧ ∀ b, h.pack? = some b → b.length = size := by
  refine ⟨fun h => inRange_iff, ?_, ?_, fun h => ⟨pack?_eq_none_iff, fun b => length_pack?⟩⟩
  · intro b hsize
    have hsome : unpack? b ≠ none := mt unpack?_eq_none_iff.mp (Nat.not_lt.mpr hsize)
    obtain ⟨h, hb⟩ := Option.ne_none_iff_exists'.mp hsome
    exact ⟨h, hb, pack?_of_unpack? hb⟩
  · intro b hsize
    have hnone := unpack?_eq_none_iff.mpr hsize
    refine ⟨hnone, fun r sequence => ⟨.tooShort b.length, ?_, rfl, rfl⟩⟩
    simp only [Request.answer, hnone]

namespace Sample

def widest : Header where
  op := 7
  flags := 255
  length := 65535
  group := 256
  sequence := 255
  command := 255
  version := 3

end Sample

theorem round_trips_widest :
    (∀ rest, unpack? ([0x1F, 0xFF, 0xFF, 0xFF, 0x01, 0x00, 0xFF, 0xFF] ++ rest) =
      some Sample.widest) ∧
    (∃ h : Header, unpack? [0xFF, 0xFF, 0xFF, 0xFF, 0x01, 0x00, 0xFF, 0xFF, 0xA0] = some h ∧
      h.pack? = some [0x1F, 0xFF, 0xFF, 0xFF, 0x01, 0x00, 0xFF, 0xFF]) ∧
    unpack? [0x1F, 0xFF, 0xFF, 0xFF, 0x01, 0x00, 0xFF] = none := by
  obtain ⟨hrange, hoctets, hshort, _⟩ := round_trips
  have hwidest : Sample.widest.InRange := by
    constructor
    · constructor <;> decide
    · decide
    · decide
  obtain ⟨b, hb, hback⟩ := (hrange Sample.widest).mp hwidest
  have hpacked : Sample.widest.pack? =
      some [0x1F, 0xFF, 0xFF, 0xFF, 0x01, 0x00, 0xFF, 0xFF] := by decide
  rw [hpacked] at hb
  cases hb
  exact ⟨hback, hoctets _ (by decide), (hshort _ (by decide)).1⟩

end Reflash.Smp.Header
