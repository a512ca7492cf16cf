import Mathlib.Data.List.TakeWhile
import Reflash.Proofs.Base64
import Reflash.Serial.Frame

/-! Frames there and back. The lines of a frame carry the base64 text of its body
in pieces of whole groups, so the first of them carry the front of the body. The
body announces its own length: it takes all lines to hold what is announced, and
what they hold then is the packet. -/

namespace Reflash.Serial.Frame

variable {n : Nat} {maxLine : Int} {packet line : Bytes} {pieces frame : List Bytes}

/-! ### Cutting -/

theorem cut_nil (n : Nat) : cut n [] = [] := by
  cases n <;> simp [cut]

theorem cut_of_ne_nil (hn : 0 < n) {b : Bytes} (hb : b ≠ []) :
    cut n b = b.take n :: cut n (b.drop n) := by
  match n, b with
  | n + 1, x :: rest => simp [cut]

theorem flatten_cut (hn : 0 < n) (b : Bytes) : (cut n b).flatten = b := by
  induction n, b using cut.induct with
  | case1 b => exact absurd hn (Nat.lt_irrefl 0)
  | case2 n => rw [cut_nil, List.flatten_nil]
  | case3 n x rest ih =>
    rw [cut, List.flatten_cons, ih (Nat.succ_pos n), List.cons_append, List.take_append_drop]

theorem flatten_take_cut (hn : 0 < n) (j : Nat) (b : Bytes) :
    ((cut n b).take j).flatten = b.take (n * j) := by
  induction j generalizing b with
  | zero => simp
  | succ j ih =>
    by_cases hb : b = []
    · simp [hb, cut_nil]
    · rw [cut_of_ne_nil hn hb, List.take_succ_cons, List.flatten_cons, ih, Nat.mul_succ,
        Nat.add_comm, List.take_add]

theorem lt_length_of_lt_length_cut (hn : 0 < n) {j : Nat} {b : Bytes} (hj : j < (cut n b).length) :
    n * j < b.length := by
  induction j generalizing b with
  | zero =>
    apply List.length_pos_iff.mpr
    rintro rfl
    rw [cut_nil] at hj
    exact absurd hj (Nat.not_lt_zero 0)
  | succ j ih =>
    by_cases hb : b = []
    · rw [hb, cut_nil] at hj
      exact absurd hj (Nat.not_lt_zero _)
    · rw [cut_of_ne_nil hn hb, List.length_cons] at hj
      have hrest := ih (Nat.lt_of_succ_lt_succ hj)
      rw [List.length_drop] at hrest
      rw [Nat.mul_succ]
      omega

theorem cut_ne_nil (hn : 0 < n) {b : Bytes} (hb : b ≠ []) : cut n b ≠ [] := by
  rw [cut_of_ne_nil hn hb]
  exact List.cons_ne_nil _ _

theorem mem_of_mem_cut (hn : 0 < n) {b piece : Bytes} (hpiece : piece ∈ cut n b) {x : UInt8}
    (hx : x ∈ piece) : x ∈ b := by
  rw [← flatten_cut hn b]
  exact List.mem_flatten.mpr ⟨piece, hpiece, hx⟩

theorem room_eq (maxLine : Int) : room maxLine = (maxLine - 3) / 4 * 4 := by
  rw [room, Int.fdiv_eq_ediv_of_nonneg _ (by decide)]

theorem room_of_le (h : 7 ≤ maxLine) :
    ∃ groups, 0 < groups ∧ room maxLine ≠ 0 ∧ (room maxLine).toNat = 4 * groups := by
  rw [room_eq]
  refine ⟨((maxLine - 3) / 4).toNat, ?_, ?_, ?_⟩ <;> omega

theorem lines_eq (h : 7 ≤ maxLine) (hpacket : packet.length ≤ maxPacket) :
    lines maxLine packet =
      .ok (mark (cut (room maxLine).toNat (Base64.encode (body packet)))) := by
  obtain ⟨_, _, hroom, _⟩ := room_of_le h
  rw [lines, if_neg (Nat.not_lt.mpr hpacket), if_neg hroom]

theorem exists_cut_of_lines (hroom : 7 ≤ maxLine)
    (h : lines maxLine packet = .ok frame) :
    packet.length ≤ maxPacket ∧ ∃ groups, 0 < 4 * groups ∧
      frame = mark (cut (4 * groups) (Base64.encode (body packet))) := by
  have hpacket : packet.length ≤ maxPacket := by
    unfold lines at h
    split at h
    · cases h
    · exact Nat.le_of_not_lt ‹_›
  obtain ⟨groups, hpos, _, hn⟩ := room_of_le hroom
  rw [lines_eq hroom hpacket, hn] at h
  cases h
  exact ⟨hpacket, groups, by omega, rfl⟩

/-! ### The body -/

theorem length_body (packet : Bytes) : (body packet).length = packet.length + 4 := by
  simp only [body, List.length_append, Bytes.length_ofNatBE]
  omega

theorem take_body (packet : Bytes) :
    (body packet).take 2 = Bytes.ofNatBE 2 (packet.length + 2) := by
  rw [body, List.append_assoc]
  exact List.take_left' (Bytes.length_ofNatBE ..)

theorem announced_body (h : packet.length ≤ maxPacket) :
    Bytes.toNatBE ((body packet).take 2) = packet.length + 2 := by
  rw [take_body]
  apply Bytes.toNatBE_ofNatBE
  change packet.length + 2 < 65536
  change packet.length ≤ 65533 at h
  omega

theorem unwrap_parts {front back : Bytes} (hfront : front.length = 2) (hback : back.length = 2)
    (packet : Bytes) :
    unwrap (front ++ (packet ++ back)) =
      if Bytes.toNatBE front ≠ packet.length + 2 then
        .error (.wrongLength (Bytes.toNatBE front) (packet.length + 2))
      else if Crc16.checksum packet ≠ Bytes.toNatBE back then
        .error (.wrongChecksum (Crc16.checksum packet) (Bytes.toNatBE back))
      else .ok packet := by
  have hrest : (packet ++ back).length = packet.length + 2 := by
    rw [List.length_append, hback]
  have hlength : ¬ (front ++ (packet ++ back)).length < 4 := by
    rw [List.length_append, hfront, hrest]
    omega
  have htake : (front ++ (packet ++ back)).take 2 = front := List.take_left' hfront
  have hdrop : (front ++ (packet ++ back)).drop 2 = packet ++ back := List.drop_left' hfront
  unfold unwrap
  simp only [if_neg hlength, htake, hdrop, hrest, Nat.add_sub_cancel, List.take_left,
    List.drop_left]

theorem unwrap_body (h : packet.length ≤ maxPacket) : unwrap (body packet) = .ok packet := by
  have hannounced : Bytes.toNatBE (Bytes.ofNatBE 2 (packet.length + 2)) = packet.length + 2 := by
    rw [← take_body]
    exact announced_body h
  have hchecksum : Bytes.toNatBE (Bytes.ofNatBE 2 (Crc16.checksum packet)) =
      Crc16.checksum packet := Bytes.toNatBE_ofNatBE (Crc16.checksum_lt packet)
  rw [body, List.append_assoc, unwrap_parts (Bytes.length_ofNatBE ..) (Bytes.length_ofNatBE ..),
    if_neg (not_not.mpr hannounced), if_neg (not_not.mpr hchecksum.symm)]

theorem holdsAll_take {b : Bytes} (h : Bytes.toNatBE (b.take 2) + 2 = b.length) (k : Nat) :
    holdsAll (b.take k) = decide (b.length ≤ k) := by
  rw [Bool.eq_iff_iff, holdsAll, Bool.and_eq_true, decide_eq_true_eq, decide_eq_true_eq,
    decide_eq_true_eq, List.length_take]
  by_cases hk : 2 ≤ k
  · rw [List.take_take, Nat.min_eq_left hk]
    omega
  · omega

theorem holdsAll_take_body (h : packet.length ≤ maxPacket) (k : Nat) :
    holdsAll ((body packet).take k) = decide ((body packet).length ≤ k) := by
  apply holdsAll_take
  rw [announced_body h, length_body]

/-! ### The text of a line -/

def IsLineEnd (x : UInt8) : Prop := x = 13 ∨ x = 10

instance (x : UInt8) : Decidable (IsLineEnd x) := inferInstanceAs (Decidable (x = 13 ∨ x = 10))

def IsPlain (text : Bytes) : Prop := ∀ x ∈ text, ¬ IsLineEnd x

instance (text : Bytes) : Decidable (IsPlain text) := List.decidableBAll _ text

theorem IsPlain.append {a b : Bytes} (ha : IsPlain a) (hb : IsPlain b) : IsPlain (a ++ b) := by
  intro x hx
  rcases List.mem_append.mp hx with hx | hx
  · exact ha x hx
  · exact hb x hx

theorem IsPlain.newline_not_mem {text : Bytes} (h : IsPlain text) : newline ∉ text :=
  fun hmem => h newline hmem (.inr rfl)

theorem isPlain_start : IsPlain start := by decide

theorem isPlain_continuation : IsPlain continuation := by decide

theorem isPlain_encode (b : Bytes) : IsPlain (Base64.encode b) := by
  have hdigit : ∀ k < 64, ¬ IsLineEnd (Base64.digit k) := by decide
  intro x hx
  rcases Base64.mem_encode hx with rfl | ⟨k, hk, rfl⟩
  · decide
  · exact hdigit k hk

theorem isPlain_of_mem_cut (hn : 0 < n) {b piece : Bytes}
    (hpiece : piece ∈ cut n (Base64.encode b)) : IsPlain piece :=
  fun x hx => isPlain_encode b x (mem_of_mem_cut hn hpiece hx)

theorem trimEnd_append_ending (text : Bytes) {ending : Bytes}
    (hending : ∀ x ∈ ending, IsLineEnd x) : trimEnd (text ++ ending) = trimEnd text := by
  have hback : ∀ x ∈ ending.reverse, (decide (x = 13) || decide (x = 10)) = true := by
    intro x hx
    simpa [IsLineEnd] using hending x (List.mem_reverse.mp hx)
  rw [trimEnd, List.reverse_append, List.dropWhile_append_of_pos hback, trimEnd]

theorem trimEnd_of_isPlain {text : Bytes} (htext : IsPlain text) : trimEnd text = text := by
  have hback : text.reverse.dropWhile (fun x => x = 13 || x = 10) = text.reverse := by
    apply List.dropWhile_eq_self_iff.mpr
    intro hpos
    have hmem := List.mem_reverse.mp (List.getElem_mem hpos)
    simpa [IsLineEnd] using htext _ hmem
  rw [trimEnd, hback, List.reverse_reverse]

theorem trimEnd_append {text ending : Bytes} (htext : IsPlain text)
    (hending : ∀ x ∈ ending, IsLineEnd x) : trimEnd (text ++ ending) = text := by
  rw [trimEnd_append_ending text hending, trimEnd_of_isPlain htext]

theorem trimEnd_newline {text : Bytes} (htext : IsPlain text) :
    trimEnd (text ++ [newline]) = text :=
  trimEnd_append htext fun _ hx => .inr (List.mem_singleton.mp hx)

theorem trimEnd_marker {marker : Bytes} (hmarker : IsPlain marker) (rest : Bytes) :
    trimEnd (marker ++ rest) = marker ++ trimEnd rest := by
  have hback : marker.reverse.dropWhile (fun x => x = 13 || x = 10) = marker.reverse := by
    have htrim := trimEnd_of_isPlain hmarker
    rw [trimEnd] at htrim
    rw [← List.reverse_inj, htrim, List.reverse_reverse]
  rw [trimEnd, List.reverse_append, List.dropWhile_append]
  split
  · rename_i hempty
    rw [hback, trimEnd, List.isEmpty_iff.mp hempty, List.reverse_reverse, List.reverse_nil,
      List.append_nil]
  · rw [List.reverse_append, List.reverse_reverse, trimEnd]

def payload (line : Bytes) : Bytes := (trimEnd line).drop 2

theorem map_payload_mark (hplain : ∀ piece ∈ pieces, IsPlain piece) :
    (mark pieces).map payload = pieces := by
  cases pieces with
  | nil => rfl
  | cons piece rest =>
    have hrest : rest.map (payload ∘ fun piece => continuation ++ piece ++ [newline]) = rest := by
      refine (List.map_congr_left fun piece hpiece => ?_).trans (List.map_id rest)
      have hpiece := hplain piece (List.mem_cons_of_mem _ hpiece)
      rw [Function.comp_apply, payload, trimEnd_newline (isPlain_continuation.append hpiece)]
      rfl
    have hpiece := hplain piece List.mem_cons_self
    rw [mark, List.map_cons, List.map_map, hrest, payload,
      trimEnd_newline (isPlain_start.append hpiece)]
    rfl

theorem mem_mark {line : Bytes} (h : line ∈ mark pieces) :
    ∃ marker piece, (marker = start ∨ marker = continuation) ∧ piece ∈ pieces ∧
      line = marker ++ piece ++ [newline] := by
  cases pieces with
  | nil => cases h
  | cons piece rest =>
    rcases List.mem_cons.mp h with rfl | h
    · exact ⟨start, piece, .inl rfl, List.mem_cons_self, rfl⟩
    · obtain ⟨piece, hpiece, rfl⟩ := List.mem_map.mp h
      exact ⟨continuation, piece, .inr rfl, List.mem_cons_of_mem _ hpiece, rfl⟩

theorem length_mark (pieces : List Bytes) : (mark pieces).length = pieces.length := by
  cases pieces with
  | nil => rfl
  | cons piece rest => rw [mark, List.length_cons, List.length_map, List.length_cons]

theorem flatMap_payload_take_mark (hplain : ∀ piece ∈ pieces, IsPlain piece) (j : Nat) :
    ((mark pieces).take j).flatMap payload = (pieces.take j).flatten := by
  rw [List.flatMap_def, List.map_take, map_payload_mark hplain]

/-! ### Reading the lines -/

def IsMarkedAsOne : List Bytes → Prop
  | [] => True
  | first :: others => start <+: first ∧ ∀ line ∈ others, continuation <+: line

theorem absorb_of_start (text : Option Bytes) (h : start <+: line) :
    absorb text line = some (payload line) := by
  obtain ⟨rest, rfl⟩ := h
  rw [absorb, payload, trimEnd_marker isPlain_start]
  rfl

theorem absorb_of_continuation (text : Bytes) (h : continuation <+: line) :
    absorb (some text) line = some (text ++ payload line) := by
  obtain ⟨rest, rfl⟩ := h
  rw [absorb, payload, trimEnd_marker isPlain_continuation]
  rfl

theorem foldl_absorb_of_continuation (text : Bytes) (h : ∀ line ∈ frame, continuation <+: line) :
    frame.foldl absorb (some text) = some (text ++ frame.flatMap payload) := by
  induction frame generalizing text with
  | nil => simp
  | cons line rest ih =>
    have hrest := ih (text ++ payload line) fun l hl => h l (List.mem_cons_of_mem _ hl)
    rw [List.foldl_cons, absorb_of_continuation text (h line List.mem_cons_self), hrest,
      List.flatMap_cons, List.append_assoc]

theorem foldl_absorb (text : Option Bytes) (h : IsMarkedAsOne frame) (hne : frame ≠ []) :
    frame.foldl absorb text = some (frame.flatMap payload) := by
  cases frame with
  | nil => exact absurd rfl hne
  | cons first others =>
    rw [List.foldl_cons, absorb_of_start text h.1, foldl_absorb_of_continuation _ h.2,
      List.flatMap_cons]

theorem gather_of_isMarkedAsOne (h : IsMarkedAsOne frame) (hne : frame ≠ []) :
    gather frame = some (frame.flatMap payload) := foldl_absorb none h hne

theorem IsMarkedAsOne.of_front {front : List Bytes} (h : IsMarkedAsOne frame)
    (hfront : front <+: frame) : IsMarkedAsOne front := by
  cases front with
  | nil => trivial
  | cons first others =>
    obtain ⟨back, rfl⟩ := hfront
    exact ⟨h.1, fun line hline => h.2 line (List.mem_append_left _ hline)⟩

theorem isMarkedAsOne_mark (pieces : List Bytes) : IsMarkedAsOne (mark pieces) := by
  cases pieces with
  | nil => trivial
  | cons piece rest =>
    refine ⟨⟨piece ++ [newline], by simp⟩, fun line hline => ?_⟩
    obtain ⟨piece, _, rfl⟩ := List.mem_map.mp hline
    exact ⟨piece ++ [newline], by simp⟩

theorem gather_mark (hplain : ∀ piece ∈ pieces, IsPlain piece) (hne : pieces ≠ []) :
    gather (mark pieces) = some pieces.flatten := by
  have hmark : mark pieces ≠ [] := by
    rw [← List.length_pos_iff, length_mark]
    exact List.length_pos_iff.mpr hne
  rw [gather_of_isMarkedAsOne (isMarkedAsOne_mark pieces) hmark, List.flatMap_def,
    map_payload_mark hplain]

theorem isComplete_of_payload {b : Bytes}
    (h : frame.flatMap payload = Base64.encode b) : isComplete frame = holdsAll b := by
  have hlength := Base64.length_encode b
  have husable : (Base64.encode b).take ((Base64.encode b).length / 4 * 4) = Base64.encode b := by
    apply List.take_of_length_le
    omega
  change frame.flatMap (fun line => (trimEnd line).drop 2) = _ at h
  simp only [isComplete, h, husable, Base64.decode_encode]
  split
  · -- only the empty text is shorter than one group
    have hb : b = [] := by
      apply List.eq_nil_of_length_eq_zero
      omega
    rw [hb]
    rfl
  · rfl

theorem cut_encode_body_ne_nil (hn : 0 < n) (packet : Bytes) :
    cut n (Base64.encode (body packet)) ≠ [] := by
  apply cut_ne_nil hn
  apply List.length_pos_iff.mp
  rw [Base64.length_encode, length_body]
  omega

theorem ne_nil_of_lines (hroom : 7 ≤ maxLine)
    (h : lines maxLine packet = .ok frame) : frame ≠ [] := by
  obtain ⟨_, groups, hsize, rfl⟩ := exists_cut_of_lines hroom h
  apply List.length_pos_iff.mp
  rw [length_mark]
  exact List.length_pos_iff.mpr (cut_encode_body_ne_nil hsize packet)

theorem isComplete_take (hroom : 7 ≤ maxLine)
    (h : lines maxLine packet = .ok frame) (j : Nat) :
    isComplete (frame.take j) = decide (frame.length ≤ j) := by
  obtain ⟨hpacket, groups, hsize, rfl⟩ := exists_cut_of_lines hroom h
  have htext := flatMap_payload_take_mark (fun _ => isPlain_of_mem_cut hsize (b := body packet)) j
  rw [length_mark]
  by_cases hj : (cut (4 * groups) (Base64.encode (body packet))).length ≤ j
  · rw [List.take_of_length_le hj, flatten_cut hsize] at htext
    have hall := holdsAll_take_body hpacket (body packet).length
    rw [List.take_length] at hall
    rw [isComplete_of_payload htext, decide_eq_true hj, hall]
    exact decide_eq_true (Nat.le_refl _)
  · have hlt := lt_length_of_lt_length_cut hsize (Nat.lt_of_not_le hj)
    rw [Base64.length_encode, Nat.mul_assoc] at hlt
    rw [flatten_take_cut hsize, Nat.mul_assoc, Base64.take_encode] at htext
    rw [isComplete_of_payload htext, holdsAll_take_body hpacket, decide_eq_false hj]
    exact decide_eq_false (by omega)

theorem decode_lines (hroom : 7 ≤ maxLine)
    (h : lines maxLine packet = .ok frame) : decode frame = .ok packet := by
  obtain ⟨hpacket, groups, hsize, rfl⟩ := exists_cut_of_lines hroom h
  have hgather := gather_mark (fun _ => isPlain_of_mem_cut hsize)
    (cut_encode_body_ne_nil hsize packet)
  rw [flatten_cut hsize] at hgather
  simp only [decode, hgather, Base64.decode_encode, unwrap_body hpacket]

/-! ### Lines in a stream -/

def split : Bytes → List Bytes
  | [] => []
  | x :: rest =>
    if x = newline then [x] :: split rest
    else
      match split rest with
      | [] => [[x]]
      | line :: others => (x :: line) :: others

theorem split_line {line : Bytes} (h : newline ∉ line) (rest : Bytes) :
    split (line ++ [newline] ++ rest) = (line ++ [newline]) :: split rest := by
  induction line with
  | nil => simp [split]
  | cons x line ih =>
    obtain ⟨hx, hline⟩ := not_or.mp (mt List.mem_cons.mpr h)
    have hne : x ≠ newline := Ne.symm hx
    have hrest : split (line ++ newline :: rest) = (line ++ [newline]) :: split rest := by
      simpa using ih hline
    simp [split, hne, hrest]

theorem split_flatten (h : ∀ line ∈ frame, ∃ text, IsPlain text ∧ line = text ++ [newline]) :
    split frame.flatten = frame := by
  induction frame with
  | nil => rfl
  | cons line rest ih =>
    obtain ⟨text, htext, rfl⟩ := h line List.mem_cons_self
    rw [List.flatten_cons, split_line htext.newline_not_mem,
      ih fun l hl => h l (List.mem_cons_of_mem _ hl)]

theorem exists_plain_of_mem_mark (hplain : ∀ piece ∈ pieces, IsPlain piece) {line : Bytes}
    (hline : line ∈ mark pieces) : ∃ text, IsPlain text ∧ line = text ++ [newline] := by
  obtain ⟨marker, piece, hmarker, hpiece, rfl⟩ := mem_mark hline
  have hmarker : IsPlain marker := by
    rcases hmarker with rfl | rfl
    · exact isPlain_start
    · exact isPlain_continuation
  exact ⟨marker ++ piece, hmarker.append (hplain piece hpiece), rfl⟩

theorem split_lines (hroom : 7 ≤ maxLine)
    (h : lines maxLine packet = .ok frame) : split frame.flatten = frame := by
  obtain ⟨_, groups, hsize, rfl⟩ := exists_cut_of_lines hroom h
  exact split_flatten fun _ => exists_plain_of_mem_mark fun _ => isPlain_of_mem_cut hsize

end Reflash.Serial.Frame
