import Reflash.Proofs.Crc16.Guarded
import Reflash.Proofs.Serial.Frame

/-! Damaged frames. The lines of a frame may be cut anywhere and end in any way:
what they carry is read as a whole. A packet together with its checksum takes the
register back to zero, so every error that leaves it other than zero is found. -/

namespace Reflash.Serial.Frame

/-- Lines that carry a text in pieces, the first behind a start and the others behind
continuations, each with its end of line. -/
inductive Carries : Bytes → List Bytes → Prop where
  | first (piece ending : Bytes) (hending : ∀ x ∈ ending, IsLineEnd x) :
      Carries piece [start ++ piece ++ ending]
  | next {text : Bytes} {lines : List Bytes} (h : Carries text lines) (piece ending : Bytes)
      (hending : ∀ x ∈ ending, IsLineEnd x) :
      Carries (text ++ piece) (lines ++ [continuation ++ piece ++ ending])

variable {text packet error : Bytes} {lines : List Bytes}

theorem gather_of_carries (hplain : IsPlain text) (h : Carries text lines) :
    gather lines = some text := by
  induction h with
  | first piece ending hending =>
    rw [gather, List.foldl_cons, List.foldl_nil, absorb,
      trimEnd_append (isPlain_start.append hplain) hending]
    rfl
  | @next text lines h piece ending hending ih =>
    have htext : IsPlain text := fun x hx => hplain x (List.mem_append_left _ hx)
    have hpiece : IsPlain piece := fun x hx => hplain x (List.mem_append_right _ hx)
    have hlines : lines.foldl absorb none = some text := ih htext
    rw [gather, List.foldl_append, hlines, List.foldl_cons, List.foldl_nil, absorb,
      trimEnd_append (isPlain_continuation.append hpiece) hending]
    rfl

theorem decode_of_carries {b : Bytes} (h : Carries (Base64.encode b) lines) :
    decode lines = unwrap b := by
  have hgather := gather_of_carries (isPlain_encode b) h
  simp only [decode, hgather, Base64.decode_encode]

theorem body_eq (packet : Bytes) :
    body packet = Bytes.ofNatBE 2 (packet.length + 2) ++ Crc16.guarded packet := by
  rw [body, Crc16.guarded, List.append_assoc]

theorem unwrap_announced {data : Bytes} (hlow : 2 ≤ data.length) (hhigh : data.length < 65536)
    (hregister : Crc16.register 0 data ≠ 0) :
    ∃ computed carried, computed ≠ carried ∧
      unwrap (Bytes.ofNatBE 2 data.length ++ data) = .error (.wrongChecksum computed carried) := by
  have hback : (data.drop (data.length - 2)).length = 2 := by
    rw [List.length_drop]
    omega
  have hlength : (data.take (data.length - 2)).length + 2 = data.length := by
    rw [List.length_take]
    omega
  have hannounced : Bytes.toNatBE (Bytes.ofNatBE 2 data.length) = data.length :=
    Bytes.toNatBE_ofNatBE hhigh
  have hchecksum := mt (Crc16.register_eq_zero_iff hlow).mpr hregister
  have hparts := unwrap_parts (Bytes.length_ofNatBE 2 data.length) hback
    (data.take (data.length - 2))
  rw [List.take_append_drop, hannounced, hlength, if_neg (not_not.mpr rfl),
    if_pos hchecksum] at hparts
  exact ⟨_, _, hchecksum, hparts⟩

/-- Lines that carry the body of a frame are read as its packet, however they are cut. After an
error within sixteen bits in a row, or in an odd number of bits, they are not read as any packet:
the checksum is found to be wrong. -/
theorem decode_damaged (hpacket : packet.length ≤ maxPacket) :
    (∀ lines, Carries (Base64.encode
        (Bytes.ofNatBE 2 (packet.length + 2) ++ Crc16.guarded packet)) lines →
      decode lines = .ok packet) ∧
    ∀ error lines, error.length = packet.length + 2 →
      Crc16.IsBurst (Bytes.bits error) ∨ Odd ((Bytes.bits error).count true) →
      Carries (Base64.encode
        (Bytes.ofNatBE 2 (packet.length + 2) ++ (Crc16.guarded packet).flip error)) lines →
      ∃ computed carried, computed ≠ carried ∧
        decode lines = .error (.wrongChecksum computed carried) := by
  constructor
  · intro lines hlines
    rw [decode_of_carries hlines, ← body_eq, unwrap_body hpacket]
  · intro error lines hlength herror hlines
    have hdamaged : ((Crc16.guarded packet).flip error).length = packet.length + 2 := by
      rw [Bytes.length_flip (hlength.trans (Crc16.length_guarded packet).symm),
        Crc16.length_guarded]
    have hregister : Crc16.register 0 ((Crc16.guarded packet).flip error) ≠ 0 := by
      rw [Crc16.register_flip_guarded hlength]
      exact Crc16.register_ne_zero herror
    change packet.length ≤ 65533 at hpacket
    rw [decode_of_carries hlines, ← hdamaged]
    exact unwrap_announced (by omega) (by omega) hregister

theorem decode_damaged_sample :
    Crc16.IsBurst (Bytes.bits [0, 1, 255, 254, 0]) ∧
      (Crc16.guarded [1, 2, 3]).flip [0, 1, 255, 254, 0] = [1, 3, 252, 159, 49] ∧
      ∃ computed carried, computed ≠ carried ∧
        decode [[6, 9, 65, 65, 85, 66, 65, 13, 10], [4, 20, 10],
          [4, 20, 47, 121, 102, 77, 81, 61, 61]] = .error (.wrongChecksum computed carried) := by
  have hburst : Crc16.IsBurst (Bytes.bits [0, 1, 255, 254, 0]) := by
    refine ⟨by decide, 15, ?_⟩
    intro i hi
    have hlt : i < 40 := (List.getElem?_eq_some_iff.mp hi).1
    have hplaces : ∀ i < 40, (Bytes.bits [0, 1, 255, 254, 0])[i]? = some true →
        15 ≤ i ∧ i < 15 + 16 := by decide
    exact hplaces i hlt hi
  have hdata : (Crc16.guarded [1, 2, 3]).flip [0, 1, 255, 254, 0] = [1, 3, 252, 159, 49] := by
    decide +kernel
  have hlines : Carries (Base64.encode (Bytes.ofNatBE 2 5 ++ [1, 3, 252, 159, 49]))
      [[6, 9, 65, 65, 85, 66, 65, 13, 10], [4, 20, 10], [4, 20, 47, 121, 102, 77, 81, 61, 61]] :=
    .next (.next (.first [65, 65, 85, 66, 65] [13, 10] (by decide +kernel)) [] [10]
      (by decide +kernel)) [47, 121, 102, 77, 81, 61, 61] [] (by decide +kernel)
  rw [← hdata] at hlines
  have hdecode := (@decode_damaged [1, 2, 3] (by decide)).2
  exact ⟨hburst, hdata, hdecode [0, 1, 255, 254, 0] _ rfl (.inl hburst) hlines⟩

end Reflash.Serial.Frame
