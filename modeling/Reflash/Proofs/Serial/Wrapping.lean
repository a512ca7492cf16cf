import Reflash.Proofs.Serial.Link

/-! Packets in lines. A packet that a frame can announce is written in lines of the
length that was asked for, with whole groups of base64 in each, so that every line can
be read by itself. The frame is found again whatever lines stand before it and
whatever console output stands between its lines. -/

namespace Reflash.Serial

namespace Frame

variable {n groups : Nat} {maxLine : Int} {packet b piece line : Bytes}
  {frame received : List Bytes}

/-! ### Lines that can be read by themselves -/

theorem ne_nil_of_mem_cut (h : piece ∈ cut n b) : piece ≠ [] ∧ piece.length ≤ n := by
  induction n, b using cut.induct with
  | case1 b => simp [cut] at h
  | case2 n => simp [cut_nil] at h
  | case3 n x rest ih =>
    rw [cut] at h
    rcases List.mem_cons.mp h with rfl | h
    · refine ⟨List.cons_ne_nil _ _, ?_⟩
      rw [List.length_cons, List.length_take]
      omega
    · exact ih h

theorem cut_encode (hgroups : 0 < groups) (b : Bytes) :
    cut (4 * groups) (Base64.encode b) = (cut (3 * groups) b).map Base64.encode := by
  have hfour : 0 < 4 * groups := by omega
  have hthree : 0 < 3 * groups := by omega
  induction hlength : b.length using Nat.strong_induction_on generalizing b with
  | _ length ih =>
    by_cases hb : b = []
    · rw [hb, cut_nil, Base64.encode, cut_nil, List.map_nil]
    · have hshorter : (b.drop (3 * groups)).length < length := by
        have hpos := List.length_pos_iff.mpr hb
        rw [List.length_drop]
        omega
      rw [cut_of_ne_nil hfour (mt Base64.encode_eq_nil.mp hb), cut_of_ne_nil hthree hb,
        Base64.take_encode, Base64.drop_encode, ih _ hshorter _ rfl, List.map_cons]

/-- A line of at most `maxLine` octets: a marker, base64 that stands for octets by itself, and the
end of the line. -/
def IsLine (maxLine : Int) (marker line : Bytes) : Prop :=
  ∃ chunk octets, chunk ≠ [] ∧ Base64.decode .strict chunk = some octets ∧
    line = marker ++ chunk ++ [newline] ∧ (line.length : Int) ≤ maxLine

theorem isLine_of_mem_cut {marker : Bytes} (hroom : 7 ≤ maxLine) (hmarker : marker.length = 2)
    (h : piece ∈ cut (room maxLine).toNat (Base64.encode b)) :
    IsLine maxLine marker (marker ++ piece ++ [newline]) := by
  obtain ⟨groups, hgroups, _, hsize⟩ := room_of_le hroom
  obtain ⟨hne, hlength⟩ := ne_nil_of_mem_cut h
  have hfits : (room maxLine).toNat ≤ maxLine - 3 := by
    rw [room_eq]
    omega
  rw [hsize, cut_encode hgroups] at h
  obtain ⟨octets, _, rfl⟩ := List.mem_map.mp h
  refine ⟨_, octets, hne, Base64.decode_encode .strict octets, rfl, ?_⟩
  simp only [List.length_append, List.length_singleton, hmarker]
  omega

/-! ### Lines among others -/

theorem isPrefix_trimEnd (line : Bytes) : trimEnd line <+: line := by
  rw [← List.reverse_suffix, trimEnd, List.reverse_reverse]
  exact List.dropWhile_suffix _

theorem absorb_of_not_isMarked (text : Option Bytes) (h : isMarked line = false) :
    absorb text line = text := by
  have hmarker {marker : Bytes} (hline : marker.isPrefixOf line = false) :
      marker.isPrefixOf (trimEnd line) = false := by
    rw [← Bool.not_eq_true, List.isPrefixOf_iff_prefix] at hline ⊢
    exact fun htrimmed => hline (htrimmed.trans (isPrefix_trimEnd line))
  obtain ⟨hstart, hcontinuation⟩ := Bool.or_eq_false_iff.mp h
  simp only [absorb, hmarker hstart, hmarker hcontinuation, Bool.false_eq_true, if_false]

theorem foldl_absorb_filter (text : Option Bytes) :
    (received.filter isMarked).foldl absorb text = received.foldl absorb text := by
  induction received generalizing text with
  | nil => rfl
  | cons line rest ih =>
    cases hmarked : isMarked line
    · rw [List.filter_cons_of_neg (by simp [hmarked]), List.foldl_cons,
        absorb_of_not_isMarked text hmarked, ih]
    · rw [List.filter_cons_of_pos hmarked, List.foldl_cons, List.foldl_cons, ih]

theorem decode_among (h : IsMarkedAsOne frame) (hne : frame ≠ [])
    (hreceived : received.filter isMarked = frame) (before : List Bytes) :
    decode (before ++ received) = decode frame := by
  have hgather : gather (before ++ received) = gather frame := by
    rw [gather, List.foldl_append, ← foldl_absorb_filter, hreceived, foldl_absorb _ h hne,
      gather_of_isMarkedAsOne h hne]
  rw [decode, decode, hgather]

/-- A packet that a frame can announce is written in lines that fit, each of which can be read by
itself, and is read from these lines, also among others; a longer packet is refused. -/
theorem encode_wraps (packet : Bytes) (maxLine : Int) :
    (7 ≤ maxLine → packet.length ≤ 65533 →
      ∃ first others, encode maxLine packet = .ok (first :: others).flatten ∧
        split (first :: others).flatten = first :: others ∧
        IsLine maxLine start first ∧ (∀ line ∈ others, IsLine maxLine continuation line) ∧
        ∀ before received, received.filter isMarked = first :: others →
          decode (before ++ received) = .ok packet) ∧
    (65533 < packet.length →
      ∃ error, Link.framed maxLine packet = .error (.smp error) ∧
        error.nature? = some .protocol) := by
  constructor
  · intro hroom hpacket
    have hlines := lines_eq hroom hpacket
    obtain ⟨groups, hgroups, _, hsize⟩ := room_of_le hroom
    have hsizePos : 0 < (room maxLine).toNat := by omega
    obtain ⟨piece, rest, hcut⟩ :=
      List.exists_cons_of_ne_nil (cut_encode_body_ne_nil hsizePos packet)
    have hpieces : ∀ piece' ∈ piece :: rest,
        piece' ∈ cut (room maxLine).toNat (Base64.encode (body packet)) := by
      rw [hcut]
      exact fun _ h => h
    rw [hcut] at hlines
    refine ⟨_, _, ?_, split_lines hroom hlines, ?_, ?_, ?_⟩
    · rw [encode, hlines]
      rfl
    · exact isLine_of_mem_cut hroom rfl (hpieces piece List.mem_cons_self)
    · intro line hline
      obtain ⟨piece', hpiece', rfl⟩ := List.mem_map.mp hline
      exact isLine_of_mem_cut hroom rfl (hpieces piece' (List.mem_cons_of_mem _ hpiece'))
    · intro before received hreceived
      rw [decode_among (isMarkedAsOne_mark (piece :: rest)) (List.cons_ne_nil _ _) hreceived]
      exact decode_lines hroom hlines
  · intro hpacket
    have hlines : lines maxLine packet = .error .tooLarge := by
      have hlarge : maxPacket < packet.length := hpacket
      rw [lines, if_pos hlarge]
    refine ⟨.tooLarge, ?_, rfl⟩
    rw [Link.framed, encode, hlines]
    rfl

namespace Sample

def wrapped : List Bytes :=
  [[6, 9, 65, 65, 85, 66, 10], [4, 20, 65, 103, 78, 104, 10], [4, 20, 77, 81, 61, 61, 10]]

def overheard : List Bytes :=
  [[6, 9, 65, 65, 10], [4, 20, 10]] ++
    [[104, 105, 10], [6, 9, 65, 65, 85, 66, 10], [4, 20, 65, 103, 78, 104, 10], [], [4, 10],
      [4, 20, 77, 81, 61, 61, 10], [98, 121, 101]]

end Sample

theorem encode_wraps_wrapped :
    encode 7 [1, 2, 3] = .ok Sample.wrapped.flatten ∧
      (∀ line ∈ Sample.wrapped.tail, IsLine 7 continuation line) ∧
      decode Sample.overheard = .ok [1, 2, 3] := by
  obtain ⟨first, others, hencode, hsplit, _, hothers, hreads⟩ :=
    (encode_wraps [1, 2, 3] 7).1 (by decide) (by decide)
  have hwrapped : encode 7 [1, 2, 3] = .ok Sample.wrapped.flatten := by cbv
  rw [hwrapped] at hencode
  have hflatten : Sample.wrapped.flatten = (first :: others).flatten := Except.ok.inj hencode
  rw [← hflatten] at hsplit
  have hlines : Sample.wrapped = first :: others := hsplit
  refine ⟨hwrapped, ?_, hreads _ _ ?_⟩
  · rw [hlines]
    exact hothers
  · rw [← hlines]
    rfl

end Frame
end Reflash.Serial
