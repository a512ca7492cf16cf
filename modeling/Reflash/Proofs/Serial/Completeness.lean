import Mathlib.Data.List.Forall2
import Mathlib.Data.List.Infix
import Reflash.Proofs.Base64.Spelling
import Reflash.Proofs.Serial.Wrapping

/-! When a frame is taken to be complete. The test reads the whole groups of what has
arrived in the lenient way, the frame itself is read strictly. They agree: lines that
give a packet are complete, and if a front of them is complete, nothing but padding is
missing from it, so it gives the same packet. Whoever reads until the lines are
complete has the packet then. In what is written of a packet there is no padding to
spare: it is complete with its last line and not before, whatever octets end the lines. -/

namespace Reflash.Serial

namespace Frame

variable {lines front received : List Bytes} {line other marker text body packet : Bytes}

/-! ### Both readings of a text -/

theorem unwrap_eq_ok (h : unwrap body = .ok packet) :
    4 ≤ body.length ∧ Bytes.toNatBE (body.take 2) + 2 = body.length := by
  simp only [unwrap] at h
  split_ifs at h with hshort hannounced
  simp only [List.length_drop] at hannounced
  omega

theorem exists_body_of_decode (h : IsMarkedAsOne lines) (hdecode : decode lines = .ok packet) :
    lines ≠ [] ∧ ∃ body, Base64.decode .strict (lines.flatMap payload) = some body ∧
      unwrap body = .ok packet := by
  have hne : lines ≠ [] := by
    rintro rfl
    cases hdecode
  refine ⟨hne, ?_⟩
  rw [decode, gather_of_isMarkedAsOne h hne] at hdecode
  cases hbody : Base64.decode .strict (lines.flatMap payload) with
  | none =>
    simp only [hbody] at hdecode
    cases hdecode
  | some body =>
    simp only [hbody] at hdecode
    exact ⟨body, rfl, hdecode⟩

theorem decode_of_strict (h : IsMarkedAsOne lines) (hne : lines ≠ [])
    (hbody : Base64.decode .strict (lines.flatMap payload) = some body) :
    decode lines = unwrap body := by
  simp only [decode, gather_of_isMarkedAsOne h hne, hbody]

theorem isComplete_eq (lines : List Bytes) :
    isComplete lines =
      let usable := (lines.flatMap payload).take ((lines.flatMap payload).length / 4 * 4)
      if usable.length < 4 then false
      else
        match Base64.decode .lenient usable with
        | none => false
        | some body => holdsAll body := rfl

theorem isComplete_of_spells (h : Base64.Spells text body)
    (hannounced : Bytes.toNatBE (body.take 2) + 2 = body.length)
    (hfront : lines.flatMap payload <+: text) :
    isComplete lines = decide (body.length ≤ 3 * ((lines.flatMap payload).length / 4)) := by
  rw [isComplete_eq]
  obtain ⟨back, rfl⟩ := hfront
  generalize lines.flatMap payload = front at h ⊢
  have hgroups : front.length / 4 * 4 ≤ front.length := Nat.div_mul_le_self _ _
  have hspells := h.take (n := front.length / 4) (by rw [List.length_append]; omega)
  rw [Nat.mul_comm 4, List.take_append_of_le_length hgroups] at hspells
  simp only [Base64.decode_lenient_of_spells hspells, List.length_take, holdsAll_take hannounced]
  split
  · exact (decide_eq_false (by omega)).symm
  · rfl

theorem isComplete_of_decode (h : IsMarkedAsOne lines) (hdecode : decode lines = .ok packet) :
    isComplete lines = true := by
  obtain ⟨_, body, hstrict, hbody⟩ := exists_body_of_decode h hdecode
  obtain ⟨_, hspells⟩ := Base64.decode_strict_eq_some_iff.mp hstrict
  rw [isComplete_of_spells hspells (unwrap_eq_ok hbody).2 (List.prefix_refl _)]
  exact decide_eq_true hspells.length_le

theorem decode_of_front (h : IsMarkedAsOne lines) (hfront : front <+: lines)
    (hcomplete : isComplete front = true) (hdecode : decode lines = .ok packet) :
    decode front = .ok packet := by
  obtain ⟨_, body, hstrict, hbody⟩ := exists_body_of_decode h hdecode
  obtain ⟨hstart, hspells⟩ := Base64.decode_strict_eq_some_iff.mp hstrict
  obtain ⟨hlength, hannounced⟩ := unwrap_eq_ok hbody
  have htext : front.flatMap payload <+: lines.flatMap payload := hfront.flatMap payload
  rw [isComplete_of_spells hspells hannounced htext, decide_eq_true_eq] at hcomplete
  have hfrontSpells := hspells.of_front htext hcomplete
  -- some octets are there, so the front starts as the whole text does
  have hne : front.flatMap payload ≠ [] := by
    rintro hnil
    rw [hnil, List.length_nil] at hcomplete
    omega
  have hfrontStart : (front.flatMap payload).head? ≠ some Base64.pad := by
    obtain ⟨back, hback⟩ := htext
    rw [← hback, List.head?_append_of_ne_nil _ hne] at hstart
    exact hstart
  have hfrontNe : front ≠ [] := by
    rintro rfl
    exact hne rfl
  have hfrontStrict := Base64.decode_strict_eq_some_iff.mpr ⟨hfrontStart, hfrontSpells⟩
  rw [decode_of_strict (h.of_front hfront) hfrontNe hfrontStrict, hbody]

/-! ### Lines with other ends -/

def SameText (line other : Bytes) : Prop :=
  ∃ text ending otherEnding, (∀ x ∈ ending, IsLineEnd x) ∧ (∀ x ∈ otherEnding, IsLineEnd x) ∧
    line = text ++ ending ∧ other = text ++ otherEnding

theorem payload_eq_of_sameText (h : SameText line other) : payload line = payload other := by
  obtain ⟨text, ending, otherEnding, hending, hotherEnding, rfl, rfl⟩ := h
  rw [payload, payload, trimEnd_append_ending text hending, trimEnd_append_ending text hotherEnding]

theorem map_payload_eq_of_sameText (h : List.Forall₂ SameText lines received) :
    lines.map payload = received.map payload := by
  induction h with
  | nil => rfl
  | cons hline _ ih => rw [List.map_cons, List.map_cons, payload_eq_of_sameText hline, ih]

theorem isComplete_congr (h : lines.map payload = received.map payload) :
    isComplete lines = isComplete received := by
  rw [isComplete_eq, isComplete_eq, List.flatMap_def, List.flatMap_def, h]

end Frame

namespace Link

open Reflash.Serial.Frame (IsMarkedAsOne)

variable {before rest lines : List Bytes} {line packet : Bytes}

/-! ### Reading until a frame is complete -/

theorem extend?_of_isMarkedAsOne (h : IsMarkedAsOne (before ++ line :: rest)) :
    extend? before line = some (before ++ [line]) := by
  cases before with
  | nil =>
    have hstart : start.isPrefixOf line = true := List.isPrefixOf_iff_prefix.mpr h.1
    rw [extend?, if_pos hstart, List.nil_append]
  | cons first others =>
    have hmem : line ∈ others ++ line :: rest :=
      List.mem_append_right _ List.mem_cons_self
    have hcontinuation : continuation.isPrefixOf line = true :=
      List.isPrefixOf_iff_prefix.mpr (h.2 line hmem)
    rw [extend?, not_start_of_continuation hcontinuation, if_neg Bool.false_ne_true, hcontinuation]
    rfl

theorem exists_front_of_receive (h : IsMarkedAsOne (before ++ rest)) (hne : rest ≠ [])
    (hcomplete : Frame.isComplete (before ++ rest) = true) (more : List Read) :
    ∃ front, front <+: before ++ rest ∧ Frame.isComplete front = true ∧
      (receive before (rest.map .line ++ more)).result = .ok front := by
  induction rest generalizing before with
  | nil => exact absurd rfl hne
  | cons line rest ih =>
    have happend : before ++ line :: rest = before ++ [line] ++ rest := by simp
    rw [List.map_cons, List.cons_append, receive_taken (extend?_of_isMarkedAsOne h)]
    rw [happend] at h hcomplete ⊢
    by_cases hfront : Frame.isComplete (before ++ [line]) = true
    · rw [if_pos hfront]
      exact ⟨before ++ [line], List.prefix_append _ _, hfront, rfl⟩
    · rw [if_neg hfront]
      refine ih h ?_ hcomplete
      rintro rfl
      rw [List.append_nil] at hcomplete
      exact hfront hcomplete

end Link

/-- Lines that give a packet are complete, every front of them that is complete gives the same
packet, and reading them until they are complete gives it. -/
theorem Frame.isComplete_agrees_decode {lines : List Bytes} {packet : Bytes}
    (h : Frame.IsMarkedAsOne lines) (hdecode : Frame.decode lines = .ok packet) :
    Frame.isComplete lines = true ∧
      (∀ front, front <+: lines → Frame.isComplete front = true →
        Frame.decode front = .ok packet) ∧
      ∀ more, (Link.receive [] (lines.map .line ++ more)).answer = .ok packet := by
  have hcomplete := Frame.isComplete_of_decode h hdecode
  have hfronts : ∀ front, front <+: lines → Frame.isComplete front = true →
      Frame.decode front = .ok packet :=
    fun front hfront hfrontComplete => Frame.decode_of_front h hfront hfrontComplete hdecode
  refine ⟨hcomplete, hfronts, fun more => ?_⟩
  obtain ⟨hne, _⟩ := Frame.exists_body_of_decode h hdecode
  have hlines : Frame.IsMarkedAsOne ([] ++ lines) := h
  obtain ⟨front, hfront, hfrontComplete, hresult⟩ :=
    Link.exists_front_of_receive hlines hne hcomplete more
  rw [Link.Reception.answer, hresult]
  simp only [hfronts front hfront hfrontComplete]
  rfl

namespace Frame.Sample

def padded : List Bytes :=
  [[6, 9, 65, 65, 81, 66, 13, 10], [4, 20, 65, 104, 78, 122, 61, 10], [4, 20, 61, 61]]

end Frame.Sample

theorem Frame.isComplete_agrees_decode_padded :
    Frame.IsMarkedAsOne Frame.Sample.padded ∧ Frame.decode Frame.Sample.padded = .ok [1, 2] ∧
      Frame.isComplete Frame.Sample.padded = true ∧
      Frame.isComplete (Frame.Sample.padded.take 2) = true ∧
      Frame.decode (Frame.Sample.padded.take 2) = .ok [1, 2] ∧
      (Link.receive [] (Frame.Sample.padded.map .line)).answer = .ok [1, 2] := by
  have hmarked : Frame.IsMarkedAsOne Frame.Sample.padded := by
    refine ⟨by decide, ?_⟩
    decide
  have hdecode : Frame.decode Frame.Sample.padded = .ok [1, 2] := by decide +kernel
  have hfront : Frame.isComplete (Frame.Sample.padded.take 2) = true := by decide +kernel
  have htwo : Frame.Sample.padded.take 2 <+: Frame.Sample.padded := List.take_prefix 2 _
  obtain ⟨hcomplete, hfronts, hreceive⟩ := Frame.isComplete_agrees_decode hmarked hdecode
  exact ⟨hmarked, hdecode, hcomplete, hfront, hfronts _ htwo hfront, hreceive []⟩

/-- What is written of a packet that a frame can announce is complete with its last line and not
before, whatever octets end the lines. -/
theorem Frame.isComplete_at_last_line {packet : Bytes} {maxLine : Int} (hroom : 7 ≤ maxLine)
    (hpacket : packet.length ≤ 65533) :
    ∃ octets, Frame.encode maxLine packet = .ok octets ∧
      ∀ received, List.Forall₂ Frame.SameText (Frame.split octets) received →
        ∀ front, front <+: received → (Frame.isComplete front = true ↔ front = received) := by
  obtain ⟨frame, hframe⟩ : ∃ frame, Frame.lines maxLine packet = .ok frame :=
    ⟨_, Frame.lines_eq hroom hpacket⟩
  refine ⟨frame.flatten, by rw [Frame.encode, hframe]; rfl,
    fun received hreceived front hfront => ?_⟩
  rw [Frame.split_lines hroom hframe] at hreceived
  have hpayload : (frame.take front.length).map Frame.payload = front.map Frame.payload := by
    rw [List.map_take, Frame.map_payload_eq_of_sameText hreceived, ← List.map_take,
      ← List.prefix_iff_eq_take.mp hfront]
  rw [← Frame.isComplete_congr hpayload, Frame.isComplete_take hroom hframe, decide_eq_true_eq,
    hreceived.length_eq]
  constructor
  · exact hfront.eq_of_length_le
  · rintro rfl
    exact Nat.le_refl _

namespace Frame.Sample

def reended : List Bytes :=
  [[6, 9, 65, 65, 85, 66, 13, 10], [4, 20, 65, 103, 78, 104], [4, 20, 77, 81, 61, 61, 10]]

theorem sameText_reended : List.Forall₂ SameText wrapped reended := by
  have hnewline : ∀ x ∈ [newline], IsLineEnd x := by simp [IsLineEnd, newline]
  have hreturn : ∀ x ∈ [13, newline], IsLineEnd x := by simp [IsLineEnd, newline]
  have hnothing : ∀ x ∈ ([] : Bytes), IsLineEnd x := by simp
  exact .cons ⟨[6, 9, 65, 65, 85, 66], [newline], [13, newline], hnewline, hreturn, rfl, rfl⟩
    (.cons ⟨[4, 20, 65, 103, 78, 104], [newline], [], hnewline, hnothing, rfl, rfl⟩
      (.cons ⟨[4, 20, 77, 81, 61, 61], [newline], [newline], hnewline, hnewline, rfl, rfl⟩ .nil))

end Frame.Sample

theorem Frame.isComplete_at_last_line_reended :
    Frame.encode 7 [1, 2, 3] = .ok Frame.Sample.wrapped.flatten ∧
      Frame.isComplete [] = false ∧ Frame.isComplete (Frame.Sample.reended.take 2) = false ∧
      Frame.isComplete Frame.Sample.reended = true := by
  have hwrapped : Frame.encode 7 [1, 2, 3] = .ok Frame.Sample.wrapped.flatten := by decide +kernel
  have hsplit : Frame.split Frame.Sample.wrapped.flatten = Frame.Sample.wrapped := by decide +kernel
  obtain ⟨octets, hencode, hcomplete⟩ :=
    @Frame.isComplete_at_last_line [1, 2, 3] 7 (by decide) (by decide)
  rw [hwrapped] at hencode
  cases hencode
  rw [hsplit] at hcomplete
  have hfronts := hcomplete _ Frame.Sample.sameText_reended
  refine ⟨hwrapped, ?_, ?_, (hfronts _ (List.prefix_refl _)).mpr rfl⟩
  · exact Bool.eq_false_iff.mpr (mt (hfronts [] (List.nil_prefix)).mp (by decide))
  · exact Bool.eq_false_iff.mpr (mt (hfronts _ (List.take_prefix 2 _)).mp (by decide))

end Reflash.Serial
