import Reflash.Proofs.Serial.Reception

/-! Lines that are too short for a group of base64. Where the room beside the marker comes to
nothing a packet is refused. Where it comes to less than nothing there are no lines to write, and
whatever is read then passes for the answer. -/

namespace Reflash.Serial

namespace Frame

variable {packet : Bytes} {maxLine : Int}

/-- What the room in a line makes of a packet that a frame can announce. -/
inductive Wraps (maxLine : Int) : Except Unsendable Bytes → Prop where
  | nothing (h : maxLine < 3) : Wraps maxLine (.ok [])
  | refused (h : 3 ≤ maxLine ∧ maxLine < 7) : Wraps maxLine (.error .noRoom)
  | written {octets : Bytes} (h : 7 ≤ maxLine) (hne : octets ≠ []) : Wraps maxLine (.ok octets)

theorem flatten_mark_ne_nil {pieces : List Bytes} (h : pieces ≠ []) :
    (mark pieces).flatten ≠ [] := by
  cases pieces with
  | nil => exact absurd rfl h
  | cons piece rest => simp [mark]

theorem wraps_encode (hpacket : packet.length ≤ maxPacket) (maxLine : Int) :
    Wraps maxLine (encode maxLine packet) := by
  rcases Int.lt_or_le maxLine 7 with hless | hroom
  · rcases Int.lt_or_le maxLine 3 with hnothing | hmarker
    · have hroom : room maxLine ≠ 0 ∧ (room maxLine).toNat = 0 := by
        rw [room_eq]
        omega
      rw [encode, lines, if_neg (Nat.not_lt.mpr hpacket), if_neg hroom.1, hroom.2, cut]
      exact .nothing hnothing
    · have hroom : room maxLine = 0 := by
        rw [room_eq]
        omega
      rw [encode, lines, if_neg (Nat.not_lt.mpr hpacket), if_pos hroom]
      exact .refused ⟨hmarker, hless⟩
  · obtain ⟨groups, hgroups, _, hsize⟩ := room_of_le hroom
    rw [encode, lines_eq hroom hpacket]
    exact .written hroom (flatten_mark_ne_nil (cut_encode_body_ne_nil (by omega) packet))

theorem encode_eq_noRoom_iff (hpacket : packet.length ≤ maxPacket) :
    encode maxLine packet = .error .noRoom ↔ 3 ≤ maxLine ∧ maxLine < 7 := by
  have hwraps := wraps_encode hpacket maxLine
  generalize encode maxLine packet = outcome at hwraps
  cases hwraps with
  | nothing h => exact iff_of_false (by simp) (by omega)
  | refused h => exact iff_of_true rfl h
  | written h _ => exact iff_of_false (by simp) (by omega)

theorem encode_eq_nil_iff (hpacket : packet.length ≤ maxPacket) :
    encode maxLine packet = .ok [] ↔ maxLine < 3 := by
  have hwraps := wraps_encode hpacket maxLine
  generalize encode maxLine packet = outcome at hwraps
  cases hwraps with
  | nothing h => exact iff_of_true rfl h
  | refused h => exact iff_of_false (by simp) (by omega)
  | written h hne => exact iff_of_false (by simpa using hne) (by omega)

end Frame

namespace Link

variable {scene : Scene Link} {port : Port} {packet : Bytes}

/-- Nothing is written for a packet, and yet the port is flushed and what is read next passes for
the answer. -/
def WaitsForNothing (packet : Bytes) (scene : Scene Link) : Prop :=
  ∃ port after, scene.state.port = some port ∧ (exchange packet scene).2.state.port = some after ∧
    after.calls = port.calls ++ [.flush] ∧ after.written = port.written ∧
    after.script.reads = (receive [] port.script.reads).unread ∧
    (exchange packet scene).1 = (receive [] port.script.reads).answer.mapError .smp

theorem exchange_of_closed (h : scene.state.port.filter Port.isOpen = none) :
    exchange packet scene = (.error (.smp .notOpen), scene) := by
  simp only [exchange, Action.bind_apply, Action.state_apply, h, Action.fail_apply]

theorem exchange_of_noRoom (hport : scene.state.port = some port) (hopen : port.isOpen = true)
    (h : Frame.encode scene.state.settings.maxLine packet = .error .noRoom) :
    exchange packet scene = (.error .noRoom, scene) := by
  have hframed : framed scene.state.settings.maxLine packet = .error .noRoom := by
    rw [framed, h]
    rfl
  rw [exchange_apply hport hopen, exchangeOver_of_unframed hframed, List.append_nil, ← hport]

theorem waitsForNothing_iff (hpacket : packet.length ≤ Frame.maxPacket) :
    WaitsForNothing packet scene ↔
      scene.state.settings.maxLine < 3 ∧ ∃ port, scene.state.port = some port ∧
        port.isOpen = true ∧ port.script.writeFailure = none := by
  rw [← Frame.encode_eq_nil_iff hpacket, ← Outcome.mapError_eq_ok]
  constructor
  · rintro ⟨port, after, hport, hafter, hcalls, hwritten, -, -⟩
    have hflushed : port ≠ after := by
      rintro rfl
      exact List.cons_ne_nil _ _ (List.append_right_eq_self.mp hcalls.symm)
    cases hopen : port.isOpen with
    | false =>
      rw [exchange_of_closed (by simp [hport, hopen]), hport] at hafter
      exact absurd (Option.some.inj hafter) hflushed
    | true =>
      rw [exchange_apply hport hopen] at hafter
      cases hframed : framed scene.state.settings.maxLine packet with
      | error fault =>
        rw [exchangeOver_of_unframed hframed] at hafter
        exact absurd (Option.some.inj hafter) hflushed
      | ok octets =>
        cases hwrite : port.script.writeFailure with
        | some reason =>
          rw [exchangeOver_of_writeFailure hframed hwrite] at hafter
          exact absurd (Option.some.inj hafter) hflushed
        | none =>
          rw [exchangeOver_of_framed hframed hwrite] at hafter
          cases hafter
          have hoctets : octets = [] := List.append_right_eq_self.mp hwritten
          subst hoctets
          exact ⟨hframed, port, hport, hopen, hwrite⟩
  · rintro ⟨hframed, port, hport, hopen, hwrite⟩
    have hover := exchangeOver_of_framed hframed hwrite
    refine ⟨port, _, hport, by rw [exchange_apply hport hopen, hover], rfl, ?_, rfl, ?_⟩
    · exact List.append_nil _
    · rw [exchange_apply hport hopen, hover]

/-- A packet that a frame can announce is refused exactly in lines with room for the marker and not
for a group, and then nothing happens to the port. In shorter lines it is written as nothing, and a
port that can be written to then waits for an answer; in no other case is nothing written for the
packet and an answer waited for. -/
theorem exchange_without_room (hpacket : packet.length ≤ Frame.maxPacket) :
    (∀ maxLine, (Frame.encode maxLine packet = .error .noRoom ↔ 3 ≤ maxLine ∧ maxLine < 7) ∧
      (Frame.encode maxLine packet = .ok [] ↔ maxLine < 3)) ∧
    ∀ scene : Scene Link,
      (∀ port, scene.state.port = some port → port.isOpen = true →
        3 ≤ scene.state.settings.maxLine → scene.state.settings.maxLine < 7 →
          exchange packet scene = (.error .noRoom, scene)) ∧
      (WaitsForNothing packet scene ↔
        scene.state.settings.maxLine < 3 ∧ ∃ port, scene.state.port = some port ∧
          port.isOpen = true ∧ port.script.writeFailure = none) := by
  refine ⟨fun maxLine => ⟨Frame.encode_eq_noRoom_iff hpacket, Frame.encode_eq_nil_iff hpacket⟩,
    fun scene => ⟨fun port hport hopen hmarker hless => ?_, waitsForNothing_iff hpacket⟩⟩
  exact exchange_of_noRoom hport hopen ((Frame.encode_eq_noRoom_iff hpacket).mpr ⟨hmarker, hless⟩)

namespace Sample

def cramped (maxLine : Int) : Scene Link :=
  ⟨{ settings := { name := "/dev/ttyACM0", maxLine }, port := Sample.port }, []⟩

end Sample

theorem exchange_without_room_cramped :
    exchange [0, 7, 255] (Sample.cramped 6) = (.error .noRoom, Sample.cramped 6) ∧
    WaitsForNothing [0, 7, 255] (Sample.cramped (-1)) ∧
    ¬ WaitsForNothing [0, 7, 255] (Sample.cramped 7) := by
  have hpacket : ([0, 7, 255] : Bytes).length ≤ Frame.maxPacket := by decide
  obtain ⟨-, hscene⟩ := exchange_without_room hpacket
  have hport (maxLine : Int) : (Sample.cramped maxLine).state.port = some Sample.port := rfl
  refine ⟨(hscene _).1 _ (hport 6) rfl (by decide) (by decide), ?_, ?_⟩
  · exact (hscene _).2.mpr ⟨by decide, _, hport (-1), rfl, rfl⟩
  · exact fun hwaits => absurd ((hscene _).2.mp hwaits).1 (by decide)

/-- In lines of two octets a packet is not refused, and nothing is sent for it. -/
theorem sends_nothing_and_waits :
    (¬ ∀ packet maxLine, packet.length ≤ Frame.maxPacket → maxLine < 7 →
      ∃ cause, Frame.encode maxLine packet = .error cause) ∧
    ¬ ∀ packet scene, packet.length ≤ Frame.maxPacket → scene.state.settings.maxLine < 7 →
      ¬ WaitsForNothing packet scene := by
  have hpacket : ([1] : Bytes).length ≤ Frame.maxPacket := by decide
  constructor
  · intro h
    obtain ⟨cause, hcause⟩ := h [1] 2 hpacket (by decide)
    rw [(Frame.encode_eq_nil_iff hpacket).mpr (by decide)] at hcause
    cases hcause
  · intro h
    have hport : (Sample.cramped 2).state.port = some Sample.port := rfl
    exact h [1] (Sample.cramped 2) hpacket (by decide)
      ((waitsForNothing_iff hpacket).mpr ⟨by decide, _, hport, rfl, rfl⟩)

end Link
end Reflash.Serial
