import Reflash.Proofs.Outcome
import Reflash.Proofs.Serial.Completeness

/-! Where an answer comes from. The lines that are kept while reading are the last
start that was received and the continuations after it. What is given for an answer
was in those lines as the body of a frame, length and checksum included, and nothing
else is given. Every other exchange over lines with room for data ends in one of the
failures of an exchange, at the latest when a read comes back empty. -/

namespace Reflash

namespace Bytes

theorem toNatBE_lt (b : Bytes) : toNatBE b < Nat.pow 256 b.length := by
  induction b using List.reverseRecOn with
  | nil => exact Nat.one_pos
  | append_singleton front x ih =>
    have hx := x.toNat_lt
    have hpow : Nat.pow 256 (front ++ [x]).length = Nat.pow 256 front.length * 256 := by
      rw [List.length_append]
      rfl
    rw [toNatBE_append_singleton, hpow]
    omega

theorem ofNatBE_toNatBE (b : Bytes) : ofNatBE b.length (toNatBE b) = b := by
  induction b using List.reverseRecOn with
  | nil => rfl
  | append_singleton front x ih =>
    have hx := x.toNat_lt
    have hfront : (toNatBE front * 256 + x.toNat) / 256 = toNatBE front := by omega
    have hlast : UInt8.ofNat (toNatBE front * 256 + x.toNat) = x := by
      apply UInt8.toNat_inj.mp
      rw [UInt8.toNat_ofNat']
      omega
    rw [List.length_append, List.length_singleton, toNatBE_append_singleton, ofNatBE, hfront,
      hlast, ih]

end Bytes

namespace Serial

namespace Frame

variable {packet body : Bytes} {frame : List Bytes}

theorem exists_parts (h : 4 ≤ body.length) :
    ∃ front packet back, body = front ++ (packet ++ back) ∧ front.length = 2 ∧
      back.length = 2 := by
  refine ⟨body.take 2, (body.drop 2).take (body.length - 4),
    (body.drop 2).drop (body.length - 4), ?_, ?_, ?_⟩
  · rw [List.take_append_drop, List.take_append_drop]
  · rw [List.length_take]
    omega
  · rw [List.length_drop, List.length_drop]
    omega

theorem unwrap_eq_ok_iff :
    unwrap body = .ok packet ↔ packet.length ≤ maxPacket ∧ body = Frame.body packet := by
  constructor
  · intro h
    obtain ⟨front, inner, back, rfl, hfront, hback⟩ := exists_parts (unwrap_eq_ok h).1
    rw [unwrap_parts hfront hback] at h
    split_ifs at h with hlength hchecksum
    rw [Decidable.not_not] at hlength hchecksum
    cases h
    have hspelled := Bytes.ofNatBE_toNatBE front
    have hchecked := Bytes.ofNatBE_toNatBE back
    have hlt := Bytes.toNatBE_lt front
    rw [hfront, hlength] at hspelled hlt
    rw [hback, ← hchecksum] at hchecked
    constructor
    · show packet.length ≤ 65533
      have hlt : packet.length + 2 < 65536 := hlt
      omega
    · rw [Frame.body, hspelled, hchecked, List.append_assoc]
  · rintro ⟨hpacket, rfl⟩
    exact unwrap_body hpacket

theorem decode_eq_ok_iff (h : IsMarkedAsOne frame) (hne : frame ≠ []) :
    decode frame = .ok packet ↔ packet.length ≤ maxPacket ∧
      Base64.decode .strict (frame.flatMap payload) = some (Frame.body packet) := by
  constructor
  · intro hdecode
    obtain ⟨_, body, hstrict, hbody⟩ := exists_body_of_decode h hdecode
    obtain ⟨hpacket, rfl⟩ := unwrap_eq_ok_iff.mp hbody
    exact ⟨hpacket, hstrict⟩
  · rintro ⟨hpacket, hstrict⟩
    rw [decode_of_strict h hne hstrict]
    exact unwrap_body hpacket

end Frame

namespace Link

/-! ### The lines that are kept -/

/-- The lines that are kept of those that were received: none before the first start, and then the
last start with the continuations after it. -/
inductive Keeps : List Bytes → List Bytes → Prop where
  | nothing {received : List Bytes} (h : ∀ line ∈ received, ¬ start <+: line) : Keeps received []
  | frame (before : List Bytes) {first : Bytes} {after : List Bytes} (hfirst : start <+: first)
      (hafter : ∀ line ∈ after, ¬ start <+: line) :
      Keeps (before ++ first :: after)
        (first :: after.filter fun line => continuation.isPrefixOf line)

variable {received lines next : List Bytes} {line : Bytes}

theorem Keeps.isMarkedAsOne (h : Keeps received lines) : Frame.IsMarkedAsOne lines := by
  cases h with
  | nothing => trivial
  | frame before hfirst hafter =>
    refine ⟨hfirst, fun line hline => ?_⟩
    exact List.isPrefixOf_iff_prefix.mp (List.mem_filter.mp hline).2

theorem not_start_of_extend?_eq_none (h : extend? lines line = none) : ¬ start <+: line := by
  intro hstart
  rw [extend?, if_pos (List.isPrefixOf_iff_prefix.mpr hstart)] at h
  cases h

theorem Keeps.passed (h : Keeps received lines) (hline : extend? lines line = none) :
    Keeps (received ++ [line]) lines := by
  have hstart : ∀ l ∈ [line], ¬ start <+: l :=
    List.forall_mem_singleton.mpr (not_start_of_extend?_eq_none hline)
  cases h with
  | nothing hnone => exact .nothing (List.forall_mem_append.mpr ⟨hnone, hstart⟩)
  | @frame before first after hfirst hafter =>
    have hcontinuation : continuation.isPrefixOf line = false := by
      by_contra hcontinues
      rw [Bool.not_eq_false] at hcontinues
      rw [extend?, not_start_of_continuation hcontinues, if_neg Bool.false_ne_true,
        hcontinues] at hline
      cases hline
    have hkept : (after ++ [line]).filter (fun l => continuation.isPrefixOf l) =
        after.filter fun l => continuation.isPrefixOf l := by
      rw [List.filter_append, List.filter_singleton, hcontinuation]
      exact List.append_nil _
    rw [List.append_assoc, List.cons_append, ← hkept]
    exact .frame before hfirst (List.forall_mem_append.mpr ⟨hafter, hstart⟩)

theorem Keeps.taken (h : Keeps received lines) (hline : extend? lines line = some next) :
    Keeps (received ++ [line]) next := by
  rw [extend?] at hline
  split_ifs at hline with hstart hcontinues
  · cases hline
    exact .frame received (List.isPrefixOf_iff_prefix.mp hstart) (List.forall_mem_nil _)
  · cases hline
    rw [Bool.and_eq_true] at hcontinues
    have hline : ∀ l ∈ [line], ¬ start <+: l :=
      List.forall_mem_singleton.mpr (mt List.isPrefixOf_iff_prefix.mpr hstart)
    cases h with
    | nothing => cases hcontinues.2
    | @frame before first after hfirst hafter =>
      have hkept : (after ++ [line]).filter (fun l => continuation.isPrefixOf l) =
          (after.filter fun l => continuation.isPrefixOf l) ++ [line] := by
        rw [List.filter_append, List.filter_singleton, hcontinues.1]
        rfl
      rw [List.append_assoc, List.cons_append, List.cons_append, ← hkept]
      exact .frame before hfirst (List.forall_mem_append.mpr ⟨hafter, hline⟩)

/-! ### How reading ends -/

inductive Ends (received : List Bytes) :
    List Read → Except Smp.Error (List Bytes) → List Read → Prop where
  | complete {heard frame : List Bytes} (hframe : Keeps (received ++ heard) frame)
      (hcomplete : Frame.isComplete frame = true) (rest : List Read) :
      Ends received (heard.map .line ++ rest) (.ok frame) rest
  | silent (heard : List Bytes) (rest : List Read) :
      Ends received (heard.map .line ++ .line [] :: rest) (.error .silent) rest
  | exhausted (heard : List Bytes) : Ends received (heard.map .line) (.error .silent) []
  | failed (heard : List Bytes) (reason : String) (rest : List Read) :
      Ends received (heard.map .line ++ .failure reason :: rest) (.error (.port reason)) rest

theorem Ends.cons {result : Except Smp.Error (List Bytes)} {reads rest : List Read}
    (h : Ends (received ++ [line]) reads result rest) :
    Ends received (.line line :: reads) result rest := by
  cases h with
  | @complete heard _ hframe hcomplete =>
    rw [List.append_assoc, List.singleton_append] at hframe
    exact .complete hframe hcomplete rest
  | silent heard => exact .silent (line :: heard) rest
  | exhausted heard => exact .exhausted (line :: heard)
  | failed heard reason => exact .failed (line :: heard) reason rest

theorem ends_receive (h : Keeps received lines) (reads : List Read) :
    Ends received reads (receive lines reads).result (receive lines reads).unread := by
  induction reads generalizing received lines with
  | nil => exact .exhausted []
  | cons read rest ih =>
    cases read with
    | failure reason => exact .failed [] reason rest
    | line line =>
      by_cases hempty : line = []
      · subst hempty
        exact .silent [] rest
      · cases hline : extend? lines line with
        | none =>
          obtain ⟨hresult, hunread⟩ := Prod.mk.inj (receive_passed hempty hline rest)
          rw [hresult, hunread]
          exact (ih (h.passed hline)).cons
        | some next =>
          rw [receive_taken hline]
          split_ifs with hcomplete
          · have hframe : Keeps (received ++ [line] ++ []) next := by
              rw [List.append_nil]
              exact h.taken hline
            have hends : Ends (received ++ [line]) (List.map .line [] ++ rest) (.ok next) rest :=
              .complete hframe hcomplete rest
            exact hends.cons
          · exact (ih (h.taken hline)).cons

theorem unread_of_empty (lines : List Bytes) (front rest : List Read) :
    rest <:+ (receive lines (front ++ .line [] :: rest)).unread := by
  have hrest : rest <:+ Read.line [] :: rest := List.suffix_cons _ _
  induction front generalizing lines with
  | nil => exact List.suffix_refl rest
  | cons read front ih =>
    have hlater : rest <:+ front ++ .line [] :: rest := hrest.trans (List.suffix_append _ _)
    cases read with
    | failure reason => exact hlater
    | line line =>
      by_cases hempty : line = []
      · subst hempty
        exact hlater
      · rw [List.cons_append]
        cases hline : extend? lines line with
        | none =>
          obtain ⟨_, hunread⟩ :=
            Prod.mk.inj (receive_passed hempty hline (front ++ .line [] :: rest))
          rw [hunread]
          exact ih lines
        | some next =>
          rw [receive_taken hline]
          split_ifs
          · exact hlater
          · exact ih next

/-! ### Exchanges -/

section Exchange

variable {port : Port} {maxLine : Int} {packet octets : Bytes} {fault : Fault}

theorem exchangeOver_of_unframed (h : framed maxLine packet = .error fault) :
    exchangeOver port maxLine packet = (port, .error fault, []) := by
  simp only [exchangeOver, h]

theorem exchangeOver_of_writeFailure (h : framed maxLine packet = .ok octets) {reason : String}
    (hwrite : port.script.writeFailure = some reason) :
    exchangeOver port maxLine packet = (port, .error (.smp (.port reason)), []) := by
  simp only [exchangeOver, h, hwrite]

theorem eq_tooLarge_of_framed (hroom : 7 ≤ maxLine)
    (h : framed maxLine packet = .error fault) : fault = .smp .tooLarge := by
  by_cases hpacket : packet.length ≤ Frame.maxPacket
  · rw [framed_eq (Frame.lines_eq hroom hpacket)] at h
    cases h
  · have hlines : Frame.lines maxLine packet = .error .tooLarge := by
      rw [Frame.lines, if_pos (Nat.lt_of_not_le hpacket)]
    rw [framed, Frame.encode, hlines] at h
    cases h
    rfl

inductive Exchanges (port : Port) (maxLine : Int) (packet : Bytes) :
    Except Fault Bytes → List Read → Prop where
  | unframed {fault : Fault} (h : framed maxLine packet = .error fault) :
      Exchanges port maxLine packet (.error fault) port.script.reads
  | unwritten (reason : String) :
      Exchanges port maxLine packet (.error (.smp (.port reason))) port.script.reads
  | read : Exchanges port maxLine packet ((receive [] port.script.reads).answer.mapError .smp)
      (receive [] port.script.reads).unread

theorem exchanges_exchangeOver (port : Port) (maxLine : Int) (packet : Bytes) :
    Exchanges port maxLine packet (exchangeOver port maxLine packet).2.1
      (exchangeOver port maxLine packet).1.script.reads := by
  cases hframed : framed maxLine packet with
  | error fault =>
    rw [exchangeOver_of_unframed hframed]
    exact .unframed hframed
  | ok octets =>
    cases hwrite : port.script.writeFailure with
    | some reason =>
      rw [exchangeOver_of_writeFailure hframed hwrite]
      exact .unwritten reason
    | none =>
      simp only [exchangeOver, hframed, hwrite]
      exact .read

theorem Reception.answer_eq_ok {r : Reception} {answer : Bytes} :
    r.answer = .ok answer ↔ ∃ frame, r.result = .ok frame ∧ Frame.decode frame = .ok answer := by
  rw [Reception.answer]
  cases r.result with
  | error error => simp
  | ok frame => simp [Outcome.mapError_eq_ok]

theorem Reception.answer_eq_error {r : Reception} {error : Smp.Error} :
    r.answer = .error error ↔ r.result = .error error ∨
      ∃ frame fault, r.result = .ok frame ∧ Frame.decode frame = .error fault ∧
        Smp.Error.frame fault = error := by
  rw [Reception.answer]
  cases r.result with
  | error error => simp
  | ok frame => simp [Outcome.mapError_eq_error]

theorem frame_of_answer {answer : Bytes} {reads : List Read}
    (h : (receive [] reads).answer = .ok answer) :
    ∃ before first between,
      reads = (before ++ first :: between).map .line ++ (receive [] reads).unread ∧
      start <+: first ∧ (∀ line ∈ between, ¬ start <+: line) ∧
      Base64.decode .strict ((first :: between.filter fun line =>
        continuation.isPrefixOf line).flatMap Frame.payload) = some (Frame.body answer) ∧
      answer.length ≤ Frame.maxPacket := by
  obtain ⟨frame, hresult, hdecode⟩ := Reception.answer_eq_ok.mp h
  have hnothing : Keeps [] [] := .nothing (List.forall_mem_nil _)
  have hends := ends_receive hnothing reads
  generalize (receive [] reads).unread = unread at hends ⊢
  rw [hresult] at hends
  cases hends with
  | @complete heard _ hframe _ =>
    have hne : frame ≠ [] := by
      rintro rfl
      cases hdecode
    obtain ⟨hanswer, hbody⟩ := (Frame.decode_eq_ok_iff hframe.isMarkedAsOne hne).mp hdecode
    rw [List.nil_append] at hframe
    cases hframe with
    | nothing => exact absurd rfl hne
    | frame before hfirst hafter => exact ⟨before, _, _, rfl, hfirst, hafter, hbody, hanswer⟩

theorem nature_of_answer {error : Smp.Error} {reads : List Read}
    (h : (receive [] reads).answer = .error error) :
    ∃ nature, error.nature? = some nature ∧ nature ≠ .general := by
  rcases Reception.answer_eq_error.mp h with hresult | ⟨_, fault, _, _, rfl⟩
  · have hnothing : Keeps [] [] := .nothing (List.forall_mem_nil _)
    have hends := ends_receive hnothing reads
    generalize (receive [] reads).unread = unread at hends
    rw [hresult] at hends
    cases hends with
    | silent | exhausted => exact ⟨.silence, rfl, nofun⟩
    | failed => exact ⟨.port, rfl, nofun⟩
  · exact ⟨.protocol, rfl, nofun⟩

/-- What an exchange gives for an answer was in the lines that it read as the body of a frame: after
a start, in the continuations before any other start. Over lines with room for data it fails in no
other way than an exchange does, and nothing is read after an empty read. -/
theorem exchange_framed {scene : Scene Link} {port : Port} (hport : scene.state.port = some port)
    (hopen : port.isOpen = true) (packet : Bytes) :
    ∃ result after later, exchange packet scene = (result, after) ∧
      after.state.port = some later ∧
      (∀ answer, result = .ok answer →
        ∃ before first between,
          port.script.reads = (before ++ first :: between).map .line ++ later.script.reads ∧
          start <+: first ∧ (∀ line ∈ between, ¬ start <+: line) ∧
          Base64.decode .strict ((first :: between.filter fun line =>
              continuation.isPrefixOf line).flatMap fun line => (Frame.trimEnd line).drop 2) =
            some (Bytes.ofNatBE 2 (answer.length + 2) ++ answer ++
              Bytes.ofNatBE 2 (Crc16.checksum answer)) ∧
          answer.length + 2 ≤ 65535) ∧
      (7 ≤ scene.state.settings.maxLine → ∀ fault, result = .error fault →
        ∃ error nature, fault = .smp error ∧ error.nature? = some nature ∧ nature ≠ .general) ∧
      ∀ front rest, port.script.reads = front ++ .line [] :: rest →
        rest <:+ later.script.reads := by
  have hexchanges := exchanges_exchangeOver port scene.state.settings.maxLine packet
  refine ⟨_, _, _, exchange_apply hport hopen packet, rfl, ?_⟩
  generalize (exchangeOver port scene.state.settings.maxLine packet).2.1 = result,
    (exchangeOver port scene.state.settings.maxLine packet).1.script.reads = unread at hexchanges ⊢
  have hunread : ∀ front rest, port.script.reads = front ++ .line [] :: rest →
      rest <:+ port.script.reads := by
    intro front rest hreads
    rw [hreads]
    exact (List.suffix_cons _ _).trans (List.suffix_append _ _)
  cases hexchanges with
  | unframed hframed =>
    refine ⟨nofun, ?_, hunread⟩
    rintro hroom fault ⟨⟩
    exact ⟨.tooLarge, .protocol, eq_tooLarge_of_framed hroom hframed, rfl, nofun⟩
  | unwritten reason =>
    refine ⟨nofun, ?_, hunread⟩
    rintro _ fault ⟨⟩
    exact ⟨.port reason, .port, rfl, rfl, nofun⟩
  | read =>
    refine ⟨?_, ?_, ?_⟩
    · intro answer hanswer
      obtain ⟨before, first, between, hreads, hfirst, hbetween, hbody, hlength⟩ :=
        frame_of_answer (Outcome.mapError_eq_ok.mp hanswer)
      refine ⟨before, first, between, hreads, hfirst, hbetween, hbody, ?_⟩
      exact Nat.add_le_add_right hlength 2
    · intro _ fault hfault
      obtain ⟨error, herror, rfl⟩ := Outcome.mapError_eq_error.mp hfault
      obtain ⟨nature, hnature, hspecific⟩ := nature_of_answer herror
      exact ⟨error, nature, rfl, hnature, hspecific⟩
    · intro front rest hreads
      rw [hreads]
      exact unread_of_empty [] front rest

end Exchange

theorem exchange_framed_sample :
    ∃ after before first between, exchange [0, 7, 255] Sample.scene = (.ok [1], after) ∧
      Sample.port.script.reads =
        (before ++ first :: between).map .line ++ [.line [98, 121, 101, 10]] ∧
      start <+: first ∧ (∀ line ∈ between, ¬ start <+: line) ∧
      Base64.decode .strict ((first :: between.filter fun line =>
          continuation.isPrefixOf line).flatMap fun line => (Frame.trimEnd line).drop 2) =
        some [0, 3, 1, 16, 33] := by
  have hport : Sample.scene.state.port = some Sample.port := rfl
  obtain ⟨result, after, later, hexchange, hlater, hframed, _, _⟩ :=
    exchange_framed hport rfl [0, 7, 255]
  have hresult : (exchange [0, 7, 255] Sample.scene).1.toOption = some [1] := by decide +kernel
  have hunread : (exchange [0, 7, 255] Sample.scene).2.state.port.map (·.script.reads) =
      some [.line [98, 121, 101, 10]] := by decide +kernel
  rw [hexchange] at hresult hunread
  rw [hlater] at hunread
  cases result with
  | error fault => cases hresult
  | ok answer =>
    cases hresult
    obtain ⟨before, first, between, hreads, hfirst, hbetween, hbody, _⟩ := hframed [1] rfl
    have hrest : later.script.reads = [.line [98, 121, 101, 10]] := Option.some.inj hunread
    rw [hrest] at hreads
    exact ⟨after, before, first, between, hexchange, hreads, hfirst, hbetween, hbody⟩

end Link
end Serial
end Reflash
