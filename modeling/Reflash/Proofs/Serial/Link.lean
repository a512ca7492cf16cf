import Reflash.Proofs.Serial.Frame
import Reflash.Serial.Link

/-! Replies over a noisy line. Lines of console output change nothing, and neither
do continuations to which there is no start. A start drops what came before it,
and what came before was not complete, so the first frame that is complete is the
one that was sent whole. -/

namespace Reflash.Serial

def isMarked (line : Bytes) : Bool := start.isPrefixOf line || continuation.isPrefixOf line

/-- The first lines of a frame, or none, without the last. -/
def Frame.IsAbandoned (front : List Bytes) : Prop :=
  ∃ packet maxLine frame, 7 ≤ maxLine ∧ lines maxLine packet = .ok frame ∧
    ∃ j < frame.length, front = frame.take j

/-- What a line gives up to the end of an answer: continuations to which there is no start, frames
that were abandoned, and the frame of the answer, between lines of console output. -/
structure NoisyReply (answer : Bytes) where
  received : List Bytes
  strays : List Bytes
  abandoned : List (List Bytes)
  maxLine : Int
  frame : List Bytes
  strays_continue : ∀ line ∈ strays, continuation.isPrefixOf line = true
  isAbandoned : ∀ front ∈ abandoned, Frame.IsAbandoned front
  room : 7 ≤ maxLine
  framed : Frame.lines maxLine answer = .ok frame
  ne_nil : ∀ line ∈ received, line ≠ []
  marked : received.filter isMarked = strays ++ abandoned.flatten ++ frame
  ends : received.getLast? = frame.getLast?

namespace Frame

variable {packet : Bytes} {maxLine : Int} {frame : List Bytes}

theorem isPrefixOf_getElem_lines (hroom : 7 ≤ maxLine) (h : lines maxLine packet = .ok frame)
    {j : Nat} (hj : j < frame.length) :
    (if j = 0 then start else continuation).isPrefixOf frame[j] = true := by
  obtain ⟨_, groups, hsize, rfl⟩ := exists_cut_of_lines hroom h
  generalize cut (4 * groups) (Base64.encode (body packet)) = pieces at hj ⊢
  cases pieces with
  | nil => exact absurd hj (Nat.not_lt_zero j)
  | cons piece rest =>
    cases j with
    | zero => simp [mark, start]
    | succ j => simp [mark, continuation]

end Frame

theorem not_start_of_continuation {line : Bytes} (h : continuation.isPrefixOf line = true) :
    start.isPrefixOf line = false := by
  cases line with
  | nil => rfl
  | cons x rest =>
    simp only [continuation, List.isPrefixOf, Bool.and_eq_true, beq_iff_eq] at h
    rw [← h.1]
    rfl

namespace Link

/-! ### Waiting for the end of a frame -/

theorem extend?_of_not_isMarked (lines : List Bytes) {line : Bytes} (h : isMarked line = false) :
    extend? lines line = none := by
  obtain ⟨hstart, hcontinuation⟩ := Bool.or_eq_false_iff.mp h
  simp [extend?, hstart, hcontinuation]

theorem ne_nil_of_extend? {lines next : List Bytes} {line : Bytes}
    (h : extend? lines line = some next) : line ≠ [] := by
  rintro rfl
  cases h

def Reception.outcome (r : Reception) : Except Smp.Error (List Bytes) × List Read :=
  (r.result, r.unread)

theorem receive_passed {lines : List Bytes} {line : Bytes} (hne : line ≠ [])
    (h : extend? lines line = none) (rest : List Read) :
    (receive lines (.line line :: rest)).outcome = (receive lines rest).outcome := by
  cases line with
  | nil => exact absurd rfl hne
  | cons x line =>
    simp only [receive, h]
    rfl

theorem receive_taken {lines next : List Bytes} {line : Bytes} (h : extend? lines line = some next)
    (rest : List Read) :
    receive lines (.line line :: rest) =
      if Frame.isComplete next then ⟨.ok next, rest, []⟩ else receive next rest := by
  cases line with
  | nil => exact absurd rfl (ne_nil_of_extend? h)
  | cons x line => simp only [receive, h]

inductive Waits : List Bytes → List Bytes → List Bytes → Prop where
  | done (lines : List Bytes) : Waits lines [] lines
  | passed {lines after rest : List Bytes} {line : Bytes} (hne : line ≠ [])
      (h : extend? lines line = none) (hrest : Waits lines rest after) :
      Waits lines (line :: rest) after
  | taken {lines next after rest : List Bytes} {line : Bytes} (h : extend? lines line = some next)
      (hopen : Frame.isComplete next = false) (hrest : Waits next rest after) :
      Waits lines (line :: rest) after

theorem Waits.append {lines middle after front back : List Bytes}
    (hfront : Waits lines front middle) (hback : Waits middle back after) :
    Waits lines (front ++ back) after := by
  induction hfront with
  | done => exact hback
  | passed hne h _ ih => exact .passed hne h (ih hback)
  | taken h hopen _ ih => exact .taken h hopen (ih hback)

theorem Waits.receive {lines after received : List Bytes} (h : Waits lines received after)
    (more : List Read) :
    (receive lines (received.map .line ++ more)).outcome = (Link.receive after more).outcome := by
  induction h with
  | done => rfl
  | passed hne h _ ih => exact (receive_passed hne h _).trans ih
  | taken h hopen _ ih =>
    rw [List.map_cons, List.cons_append, receive_taken h, hopen, if_neg Bool.false_ne_true]
    exact ih

theorem Waits.of_filter {lines after received : List Bytes} (hne : ∀ line ∈ received, line ≠ [])
    (h : Waits lines (received.filter isMarked) after) : Waits lines received after := by
  induction received generalizing lines with
  | nil => exact h
  | cons line rest ih =>
    have hrest : ∀ l ∈ rest, l ≠ [] := fun l hl => hne l (List.mem_cons_of_mem _ hl)
    cases hmarked : isMarked line
    · rw [List.filter_cons_of_neg (by simp [hmarked])] at h
      exact .passed (hne line List.mem_cons_self) (extend?_of_not_isMarked lines hmarked)
        (ih hrest h)
    · rw [List.filter_cons_of_pos hmarked] at h
      cases h with
      | passed hne h hafter => exact .passed hne h (ih hrest hafter)
      | taken h hopen hafter => exact .taken h hopen (ih hrest hafter)

theorem waits_strays {strays : List Bytes}
    (h : ∀ line ∈ strays, continuation.isPrefixOf line = true) : Waits [] strays [] := by
  induction strays with
  | nil => exact .done []
  | cons line rest ih =>
    have hline := h line List.mem_cons_self
    have hextend : extend? [] line = none := by
      simp [extend?, not_start_of_continuation hline]
    refine .passed ?_ hextend (ih fun l hl => h l (List.mem_cons_of_mem _ hl))
    rintro rfl
    cases hline

section Frame

variable {packet : Bytes} {maxLine : Int} {frame : List Bytes} (hroom : 7 ≤ maxLine)
  (hframe : Frame.lines maxLine packet = .ok frame)
include hroom hframe

theorem extend?_getElem {lines : List Bytes} {j : Nat} (hj : j < frame.length)
    (hlines : j ≠ 0 → lines = frame.take j) :
    extend? lines frame[j] = some (frame.take (j + 1)) := by
  have hprefix := Frame.isPrefixOf_getElem_lines hroom hframe hj
  rw [List.take_succ_eq_append_getElem hj]
  by_cases hzero : j = 0
  · subst hzero
    rw [if_pos rfl] at hprefix
    rw [extend?, if_pos hprefix, List.take_zero, List.nil_append]
  · have hne : lines.isEmpty = false := by
      rw [hlines hzero, List.isEmpty_eq_false_iff]
      apply List.length_pos_iff.mp
      rw [List.length_take]
      omega
    rw [if_neg hzero] at hprefix
    rw [extend?, not_start_of_continuation hprefix, if_neg Bool.false_ne_true, hprefix, hne,
      hlines hzero]
    rfl

theorem waits_take (lines : List Bytes) {j : Nat} (hj : j < frame.length) :
    ∃ after, Waits lines (frame.take j) after ∧ (j ≠ 0 → after = frame.take j) := by
  induction j with
  | zero => exact ⟨lines, .done lines, fun h => absurd rfl h⟩
  | succ j ih =>
    obtain ⟨after, hwaits, hafter⟩ := ih (Nat.lt_of_succ_lt hj)
    have hextend := extend?_getElem hroom hframe (Nat.lt_of_succ_lt hj) hafter
    have hopen : Frame.isComplete (frame.take (j + 1)) = false := by
      rw [Frame.isComplete_take hroom hframe]
      exact decide_eq_false (Nat.not_le.mpr hj)
    refine ⟨frame.take (j + 1), ?_, fun _ => rfl⟩
    rw [List.take_succ_eq_append_getElem (Nat.lt_of_succ_lt hj)] at hextend hopen ⊢
    exact hwaits.append (.taken hextend hopen (.done _))

end Frame

theorem waits_abandoned (lines : List Bytes) {abandoned : List (List Bytes)}
    (h : ∀ front ∈ abandoned, Frame.IsAbandoned front) :
    ∃ after, Waits lines abandoned.flatten after := by
  induction abandoned generalizing lines with
  | nil => exact ⟨lines, .done lines⟩
  | cons front rest ih =>
    obtain ⟨packet, maxLine, frame, hroom, hframe, j, hj, rfl⟩ := h front List.mem_cons_self
    obtain ⟨middle, hfront, _⟩ := waits_take hroom hframe lines hj
    obtain ⟨after, hrest⟩ := ih middle fun f hf => h f (List.mem_cons_of_mem _ hf)
    exact ⟨after, hfront.append hrest⟩

end Link

namespace NoisyReply

variable {answer : Bytes} (noise : NoisyReply answer)

theorem isMarked_getElem {j : Nat} (hj : j < noise.frame.length) :
    isMarked noise.frame[j] = true := by
  have hprefix := Frame.isPrefixOf_getElem_lines noise.room noise.framed hj
  rw [isMarked, Bool.or_eq_true]
  split at hprefix
  · exact .inl hprefix
  · exact .inr hprefix

theorem exists_heard (noise : NoisyReply answer) :
    ∃ heard last, noise.received = heard ++ [last] ∧
      ∃ lines, Link.Waits [] heard lines ∧ Link.extend? lines last = some noise.frame := by
  have hne := Frame.ne_nil_of_lines noise.room noise.framed
  obtain ⟨j, hlength⟩ : ∃ j, noise.frame.length = j + 1 :=
    Nat.exists_eq_succ_of_ne_zero (mt List.eq_nil_of_length_eq_zero hne)
  have hj : j < noise.frame.length := by omega
  have hframe : noise.frame.take j ++ [noise.frame[j]] = noise.frame := by
    rw [← List.take_succ_eq_append_getElem hj, ← hlength, List.take_length]
  have hends := noise.ends
  rw [← hframe, List.getLast?_concat] at hends
  obtain ⟨heard, hheard⟩ := List.getLast?_eq_some_iff.mp hends
  refine ⟨heard, noise.frame[j], hheard, ?_⟩
  -- without the console output, the lines before the last one are known
  have hmarked : heard.filter isMarked ++ [noise.frame[j]] =
      noise.strays ++ noise.abandoned.flatten ++ noise.frame.take j ++ [noise.frame[j]] := by
    rw [List.append_assoc _ (noise.frame.take j), hframe, ← noise.marked, hheard,
      List.filter_append, List.filter_cons_of_pos (noise.isMarked_getElem hj), List.filter_nil]
  obtain ⟨hfilter, _⟩ := List.append_inj' hmarked rfl
  obtain ⟨middle, habandoned⟩ := Link.waits_abandoned [] noise.isAbandoned
  obtain ⟨lines, hfront, hlines⟩ := Link.waits_take noise.room noise.framed middle hj
  have hwaits := ((Link.waits_strays noise.strays_continue).append habandoned).append hfront
  rw [← hfilter] at hwaits
  have hheard_ne : ∀ line ∈ heard, line ≠ [] := by
    intro line hline
    apply noise.ne_nil line
    rw [hheard]
    exact List.mem_append_left _ hline
  have hextend := Link.extend?_getElem noise.room noise.framed hj hlines
  rw [← hlength, List.take_length] at hextend
  exact ⟨lines, hwaits.of_filter hheard_ne, hextend⟩

theorem outcome_receive (rest : List Read) :
    (Link.receive [] (noise.received.map .line ++ rest)).outcome = (.ok noise.frame, rest) := by
  obtain ⟨heard, last, hreceived, lines, hwaits, hextend⟩ := noise.exists_heard
  have hcomplete : Frame.isComplete noise.frame = true := by
    have htake := Frame.isComplete_take noise.room noise.framed noise.frame.length
    rw [List.take_length] at htake
    rw [htake]
    exact decide_eq_true (Nat.le_refl _)
  rw [hreceived, List.map_append, List.append_assoc, hwaits.receive]
  change (Link.receive lines (.line last :: rest)).outcome = _
  rw [Link.receive_taken hextend, if_pos hcomplete]
  rfl

end NoisyReply

namespace Link

theorem exchange_apply {scene : Scene Link} {port : Port} (hport : scene.state.port = some port)
    (hopen : port.isOpen = true) (packet : Bytes) :
    exchange packet scene =
      ((exchangeOver port scene.state.settings.maxLine packet).2.1,
        { state := { scene.state with
            port := some (exchangeOver port scene.state.settings.maxLine packet).1 }
          log := scene.log ++ (exchangeOver port scene.state.settings.maxLine packet).2.2 }) := by
  simp only [exchange, Action.bind_apply, Action.state_apply, hport, Option.filter, hopen, if_true,
    Action.setState_apply]
  rfl

theorem framed_eq {maxLine : Int} {packet : Bytes} {frame : List Bytes}
    (h : Frame.lines maxLine packet = .ok frame) : framed maxLine packet = .ok frame.flatten := by
  rw [framed, Frame.encode, h]
  rfl

theorem exchangeOver_of_framed {port : Port} {maxLine : Int} {packet octets : Bytes}
    (h : framed maxLine packet = .ok octets) (hwrite : port.script.writeFailure = none) :
    exchangeOver port maxLine packet =
      ({ port.call .flush with
          written := port.written ++ octets
          script := { port.script with reads := (receive [] port.script.reads).unread } },
        (receive [] port.script.reads).answer.mapError .smp,
        exchangeEntries packet (receive [] port.script.reads)) := by
  simp only [exchangeOver, h, hwrite]

/-- Over a noisy line, the answer to a packet is read to its last line and no further, and what is
written for the packet is a frame of it. -/
theorem exchange_noisy {scene : Scene Link} {port : Port} {packet answer : Bytes}
    {rest : List Read} (hport : scene.state.port = some port) (hopen : port.isOpen = true)
    (hwrite : port.script.writeFailure = none) (hroom : 7 ≤ scene.state.settings.maxLine)
    (hpacket : packet.length ≤ Frame.maxPacket) (noise : NoisyReply answer)
    (hreads : port.script.reads = noise.received.map .line ++ rest) :
    ∃ octets after, exchange packet scene = (.ok answer, after) ∧
      after.state.port = some { port.call .flush with
        written := port.written ++ octets
        script := { port.script with reads := rest } } ∧
      Frame.decode (Frame.split octets) = .ok packet := by
  obtain ⟨frame, hframe⟩ : ∃ frame, Frame.lines scene.state.settings.maxLine packet = .ok frame :=
    ⟨_, Frame.lines_eq hroom hpacket⟩
  have houtcome := noise.outcome_receive rest
  rw [← hreads] at houtcome
  obtain ⟨hresult, hunread⟩ := Prod.mk.inj houtcome
  have hanswer : (receive [] port.script.reads).answer = .ok answer := by
    simp only [Reception.answer, hresult, Frame.decode_lines noise.room noise.framed]
    rfl
  have hexchange := exchange_apply hport hopen packet
  rw [exchangeOver_of_framed (framed_eq hframe) hwrite, hanswer, hunread] at hexchange
  refine ⟨frame.flatten, _, hexchange, rfl, ?_⟩
  rw [Frame.split_lines hroom hframe, Frame.decode_lines hroom hframe]

namespace Sample

def noise : NoisyReply [1] where
  received := [[104, 105, 10], [4, 20, 69, 67, 69, 61, 10], [6, 9, 65, 65, 81, 67, 10],
    [6, 9, 65, 65, 77, 66, 10], [119, 97, 114, 110, 10], [4, 20, 69, 67, 69, 61, 10]]
  strays := [[4, 20, 69, 67, 69, 61, 10]]
  abandoned := [[[6, 9, 65, 65, 81, 67, 10]]]
  maxLine := 7
  frame := [[6, 9, 65, 65, 77, 66, 10], [4, 20, 69, 67, 69, 61, 10]]
  strays_continue := by decide
  isAbandoned := by
    intro front hfront
    cases List.mem_singleton.mp hfront
    exact ⟨[2, 3], 7, _, by decide, by cbv, 1, by decide, rfl⟩
  room := by decide
  framed := by cbv
  ne_nil := by decide
  marked := by decide
  ends := rfl

def port : Port where
  script := { reads := noise.received.map .line ++ [.line [98, 121, 101, 10]] }

def scene : Scene Link := ⟨{ settings := { name := "/dev/ttyACM0" }, port }, []⟩

end Sample

theorem exchange_noisy_sample :
    ∃ octets after, exchange [0, 7, 255] Sample.scene = (.ok [1], after) ∧
      after.state.port = some { Sample.port.call .flush with
        written := octets
        script := { reads := [.line [98, 121, 101, 10]] } } ∧
      Frame.decode (Frame.split octets) = .ok [0, 7, 255] := by
  have hport : Sample.scene.state.port = some Sample.port := rfl
  exact exchange_noisy hport rfl rfl (by decide) (by decide) Sample.noise rfl

end Link
end Reflash.Serial
