import Reflash.Proofs.Outcome
import Reflash.Proofs.Recording
import Reflash.Proofs.Smp.Request
import Reflash.Value.Equality

/-! Replies and the requests that they answer. A reply is taken for the answer to a
request if its header repeats what the request asked and its sequence number, if the
map that the header announces is there as a whole, and if the map carries no return
code; what follows the map is never looked at. The sequence number moves on with
every request that can be encoded, whatever comes of it, so that a reply to one of the
requests around it is refused. -/

namespace Reflash.Smp

/-- No return code of the map is set, neither alone nor under `err`. -/
structure IsAccepting (entries : Value.Entries) : Prop where
  alone : ∀ code, Value.get? "rc" entries = some code → code.isSet = false
  grouped : ∀ err code, Value.get? "err" entries = some (.map err) →
    Value.get? "rc" err = some code → code.isSet = false

theorem filter_isSet_eq_none {found : Option Value} :
    found.filter Value.isSet = none ↔ ∀ code, found = some code → code.isSet = false := by
  cases found <;> simp

theorem returnCode?_eq_none {entries : Value.Entries} :
    returnCode? entries = none ↔ IsAccepting entries := by
  have halone : ((Value.get? "rc" entries).filter Value.isSet).map
      (fun code => (code, Value.null)) = none ↔
        ∀ code, Value.get? "rc" entries = some code → code.isSet = false := by
    rw [Option.map_eq_none_iff, filter_isSet_eq_none]
  rw [returnCode?, Option.or_eq_none_iff, halone]
  constructor
  · rintro ⟨hgrouped, halone⟩
    refine ⟨halone, fun err code herr => ?_⟩
    rw [herr] at hgrouped
    exact filter_isSet_eq_none.mp (Option.map_eq_none_iff.mp hgrouped) code
  · rintro ⟨halone, hgrouped⟩
    refine ⟨?_, halone⟩
    split
    · rename_i err herr
      exact Option.map_eq_none_iff.mpr
        (filter_isSet_eq_none.mpr fun code => hgrouped err code herr)
    · rfl

def Header.payload (h : Header) (reply : Bytes) : Bytes :=
  (reply.drop size).take h.length.toNat

namespace Request

/-- A reply with this header is the answer to a request and says that it succeeded, with this
map. -/
structure Answers (r : Request) (codec : Cbor.Codec) (sequence : Int) (reply : Bytes) (h : Header)
    (entries : Value.Entries) : Prop where
  header : Header.unpack? reply = some h
  op : h.op = r.op + 1
  group : h.group = r.group
  sequence : h.sequence = sequence
  command : h.command = r.command
  whole : Header.size + h.length ≤ reply.length
  map : h.payload reply = [] ∧ entries = [] ∨
    h.payload reply ≠ [] ∧ codec.decode (h.payload reply) = .ok (.map entries)
  accepting : IsAccepting entries

variable {codec : Cbor.Codec} {r : Request} {sequence : Int} {reply other payload : Bytes}
  {h : Header} {entries : Value.Entries}

theorem length_payload (hreply : Header.unpack? reply = some h) :
    ((h.payload reply).length : Int) = h.length ↔ Header.size + h.length ≤ reply.length := by
  have hsize := Header.size_le_of_unpack? hreply
  have hlength := Header.length_nonneg_of_unpack? hreply
  rw [Header.payload, List.length_take, List.length_drop]
  omega

theorem answer_eq_ok :
    r.answer sequence reply = .ok payload ↔
      ∃ h, Header.unpack? reply = some h ∧ h.op = r.op + 1 ∧ h.group = r.group ∧
        h.sequence = sequence ∧ h.command = r.command ∧
        Header.size + h.length ≤ reply.length ∧ h.payload reply = payload := by
  rw [answer]
  cases hreply : Header.unpack? reply with
  | none => simp
  | some h =>
    have hwhole := length_payload hreply
    simp only [Option.some.injEq, exists_eq_left']
    split_ifs with hop hothers hshort
    · simp only [false_iff]
      exact fun hmatch => hop hmatch.1
    · simp only [false_iff]
      rintro ⟨_, hgroup, hsequence, hcommand, _⟩
      rcases hothers with hne | hne | hne
      · exact hne hgroup
      · exact hne hsequence
      · exact hne hcommand
    · simp only [false_iff]
      rintro ⟨_, _, _, _, hfits, _⟩
      exact hshort (hwhole.mpr hfits)
    · simp only [not_or, Decidable.not_not] at hop hothers hshort
      constructor
      · rintro ⟨⟩
        exact ⟨hop, hothers.1, hothers.2.1, hothers.2.2, hwhole.mp hshort, rfl⟩
      · rintro ⟨_, _, _, _, _, rfl⟩
        rfl

theorem payloadMap_eq_ok :
    payloadMap codec payload = .ok entries ↔
      payload = [] ∧ entries = [] ∨ payload ≠ [] ∧ codec.decode payload = .ok (.map entries) := by
  rw [payloadMap]
  by_cases hnil : payload = []
  · simp [hnil, eq_comm]
  · rw [if_neg hnil]
    cases codec.decode payload with
    | error failure => cases failure <;> simp [hnil]
    | ok v => cases v <;> simp [hnil]

theorem reading_eq_ok :
    r.reading codec sequence reply = .ok entries ∧ returnCode? entries = none ↔
      ∃ h, r.Answers codec sequence reply h entries := by
  have hbind : r.reading codec sequence reply = .ok entries ↔
      ∃ payload, r.answer sequence reply = .ok payload ∧
        payloadMap codec payload = .ok entries := by
    unfold reading
    simp only [Outcome.bind_eq_ok, Outcome.mapError_eq_ok]
  rw [hbind, returnCode?_eq_none]
  constructor
  · rintro ⟨⟨payload, hanswer, hmap⟩, haccepting⟩
    obtain ⟨h, hheader, hop, hgroup, hsequence, hcommand, hwhole, rfl⟩ := answer_eq_ok.mp hanswer
    exact ⟨h, hheader, hop, hgroup, hsequence, hcommand, hwhole, payloadMap_eq_ok.mp hmap,
      haccepting⟩
  · rintro ⟨h, hheader, hop, hgroup, hsequence, hcommand, hwhole, hmap, haccepting⟩
    exact ⟨⟨h.payload reply, answer_eq_ok.mpr ⟨h, hheader, hop, hgroup, hsequence, hcommand,
      hwhole, rfl⟩, payloadMap_eq_ok.mpr hmap⟩, haccepting⟩

theorem outcome_eq_ok :
    (r.outcome codec sequence reply).1 = .ok entries ↔
      (Value.map entries).isWritable = true ∧ ∃ h, r.Answers codec sequence reply h entries := by
  rw [← reading_eq_ok]
  cases hreading : r.reading codec sequence reply with
  | error fault => simp [outcome_of_error hreading]
  | ok found =>
    rw [outcome_of_ok hreading, checkReturnCode_eq]
    cases hwritable : (Value.map found).isWritable with
    | false =>
      refine iff_of_false nofun ?_
      rintro ⟨hentries, ⟨⟩, _⟩
      exact Bool.false_ne_true (hwritable.symm.trans hentries)
    | true =>
      rw [if_pos rfl]
      cases hcode : returnCode? found with
      | none =>
        constructor
        · rintro ⟨⟩
          exact ⟨hwritable, rfl, hcode⟩
        · rintro ⟨_, ⟨⟩, _⟩
          rfl
      | some refused =>
        refine iff_of_false nofun ?_
        rintro ⟨_, ⟨⟩, hnone⟩
        cases hcode.symm.trans hnone

theorem answer_congr (hreply : Header.unpack? reply = some h)
    (hother : other.take (Header.size + h.length.toNat) =
      reply.take (Header.size + h.length.toNat)) :
    r.answer sequence other = r.answer sequence reply := by
  have hsize : Header.size ≤ Header.size + h.length.toNat := Nat.le_add_right _ _
  have hheader : Header.unpack? other = some h := by
    rw [← Header.unpack?_take hsize, hother, Header.unpack?_take hsize, hreply]
  have hpayload : (other.drop Header.size).take h.length.toNat =
      (reply.drop Header.size).take h.length.toNat := by
    rw [List.take_drop, List.take_drop, hother]
  simp only [answer, hheader, hreply, hpayload]

theorem outcome_congr (hreply : Header.unpack? reply = some h)
    (hother : other.take (Header.size + h.length.toNat) =
      reply.take (Header.size + h.length.toNat)) :
    r.outcome codec sequence other = r.outcome codec sequence reply := by
  rw [outcome, outcome, reading, reading, answer_congr hreply hother]

theorem answer_of_sequence_ne (hreply : Header.unpack? reply = some h)
    (hne : h.sequence ≠ sequence) :
    ∃ fault, r.answer sequence reply = .error fault ∧
      (fault.isWritable = true ↔ Decimal.isWritable r.op = true) := by
  simp only [answer, hreply]
  split_ifs with hop hothers
  · exact ⟨_, rfl, Iff.rfl⟩
  · -- the operation that was asked for is one below that of a header, which is short
    refine ⟨_, rfl, iff_of_true rfl ?_⟩
    have hrange := Header.op_range_of_unpack? hreply
    apply Decimal.isWritable_of_natAbs_lt
    omega
  all_goals exact absurd (.inr (.inl hne)) hothers

end Request

def recording {σ : Type} (transport : Transport σ) : Transport (Recorded σ Bytes) := fun packet =>
  (transport packet).recorded fun _ => packet

namespace Client

variable {σ : Type} {codec : Cbor.Codec} {transport : Transport σ} {r : Request}
  {scene : Scene (Client σ)}

def after (codec : Cbor.Codec) (transport : Transport σ) :
    List Request → Scene (Client σ) → Scene (Client σ)
  | [], scene => scene
  | r :: requests, scene => after codec transport requests (request codec transport r scene).2

def fresh (link : σ) (version : Int) (log : List Log.Entry) : Scene (Client σ) :=
  ⟨{ link, version }, log⟩

def watched (scene : Scene (Client σ)) : Scene (Client (Recorded σ Bytes)) :=
  ⟨⟨⟨scene.state.link, []⟩, scene.state.version, scene.state.sequence⟩, scene.log⟩

def handed (codec : Cbor.Codec) (transport : Transport σ) (r : Request)
    (scene : Scene (Client σ)) : List Bytes :=
  (request codec (recording transport) r (watched scene)).2.state.link.events

theorem sequence_request (transport : Transport σ) {r : Request} {body : Bytes}
    (hbody : r.body codec = .ok body) (scene : Scene (Client σ)) :
    (request codec transport r scene).2.state.sequence = (scene.state.sequence + 1) % 256 := by
  cases hwritable : r.isWritable scene.state.sequence with
  | false => rw [request_of_not_isWritable transport hbody hwritable, advanced]
  | true =>
    cases hpacket : r.packet? body scene.state.version scene.state.sequence with
    | none => rw [request_of_no_packet transport hbody hwritable hpacket, advanced]
    | some packet =>
      rw [request_of_packet transport hwritable ⟨body, hbody, hpacket⟩]
      rcases transport packet (handover r scene) with ⟨received, later⟩
      cases received <;> rfl

theorem sequence_after (transport : Transport σ) {requests : List Request} {n : Nat}
    (hbodies : ∀ r ∈ requests, ∃ body, r.body codec = .ok body)
    (h : scene.state.sequence = n % 256) :
    (after codec transport requests scene).state.sequence = (n + requests.length : Nat) % 256 := by
  induction requests generalizing scene n with
  | nil => exact h
  | cons r requests ih =>
    obtain ⟨body, hbody⟩ := hbodies r List.mem_cons_self
    have hnext : (request codec transport r scene).2.state.sequence = (n + 1 : Nat) % 256 := by
      rw [sequence_request transport hbody, h]
      omega
    rw [after, ih (fun r hr => hbodies r (List.mem_cons_of_mem _ hr)) hnext, List.length_cons,
      Nat.add_right_comm, Nat.add_assoc]

theorem sequence_after_fresh (transport : Transport σ) {requests : List Request}
    (hbodies : ∀ r ∈ requests, ∃ body, r.body codec = .ok body) (link : σ) (version : Int)
    (log : List Log.Entry) :
    (after codec transport requests (fresh link version log)).state.sequence =
      (requests.length % 256 : Nat) := by
  have hstart : (fresh link version log).state.sequence = (0 % 256 : Nat) := rfl
  rw [sequence_after transport hbodies hstart, Nat.zero_add]
  rfl

theorem handed_of_isSendable (h : r.IsSendable codec scene.state.sequence) :
    ∃ packet header, handed codec transport r scene = [packet] ∧
      Header.unpack? packet = some header ∧ header.sequence = scene.state.sequence := by
  obtain ⟨hwritable, packet, hpacket⟩ := (r.isSendable_iff codec scene.state.version _).mp h
  have hunpack : ∃ header, Header.unpack? packet = some header ∧
      header.sequence = scene.state.sequence := by
    obtain ⟨body, -, hpacket⟩ := hpacket
    obtain ⟨octets, hoctets, rfl⟩ := Option.map_eq_some_iff.mp hpacket
    exact ⟨_, Header.unpack?_pack? hoctets body, rfl⟩
  obtain ⟨header, hheader, hsequence⟩ := hunpack
  refine ⟨packet, header, ?_, hheader, hsequence⟩
  have hwatched : r.isWritable (watched scene).state.sequence = true := hwritable
  rw [handed, request_of_packet (recording transport) hwatched hpacket]
  simp only [recording, Action.recorded]
  rcases transport packet _ with ⟨received, later⟩
  cases received <;> rfl

section Reply

variable {reply other : Bytes} {h : Header} (hreply : Receives codec transport r scene reply)
include hreply

theorem isWritable_iff_of_receives :
    r.isWritable scene.state.sequence = true ↔ r.content.isWritable = true := by
  obtain ⟨packet, ⟨body, -, hpacket⟩, _⟩ := hreply
  have hfits : (r.header body scene.state.version scene.state.sequence).Fits := by
    rw [← Request.isSome_packet?, hpacket]
    rfl
  exact Request.isWritable_iff_of_fits hfits

theorem result_of_content (hcontent : r.content.isWritable = true) :
    (request codec transport r scene).1 = (r.outcome codec scene.state.sequence reply).1 :=
  result_of_receives ((isWritable_iff_of_receives hreply).mpr hcontent) hreply

theorem result_of_not_content (hcontent : r.content.isWritable = false) :
    (request codec transport r scene).1 = .error .unwritable := by
  have hwritable : r.isWritable scene.state.sequence = false := by
    rw [← Bool.not_eq_true, isWritable_iff_of_receives hreply, hcontent]
    exact Bool.false_ne_true
  obtain ⟨packet, ⟨body, hbody, -⟩, -⟩ := hreply
  rw [request_of_not_isWritable transport hbody hwritable]

theorem request_eq_ok {entries : Value.Entries} :
    (request codec transport r scene).1 = .ok entries ↔
      (∃ h, r.Answers codec scene.state.sequence reply h entries) ∧
        r.content.isWritable = true ∧ (Value.map entries).isWritable = true := by
  cases hcontent : r.content.isWritable with
  | false =>
    rw [result_of_not_content hreply hcontent]
    exact iff_of_false nofun fun hall => Bool.false_ne_true hall.2.1
  | true =>
    rw [result_of_content hreply hcontent, Request.outcome_eq_ok, and_comm, and_iff_right rfl]

theorem request_congr {transport' : Transport σ} (hother : Receives codec transport' r scene other)
    (hheader : Header.unpack? reply = some h)
    (hsame : other.take (Header.size + h.length.toNat) =
      reply.take (Header.size + h.length.toNat)) :
    (request codec transport' r scene).1 = (request codec transport r scene).1 := by
  cases hcontent : r.content.isWritable with
  | false => rw [result_of_not_content hreply hcontent, result_of_not_content hother hcontent]
  | true =>
    rw [result_of_content hreply hcontent, result_of_content hother hcontent,
      Request.outcome_congr hheader hsame]

theorem refused_iff_of_sequence_ne (hheader : Header.unpack? reply = some h)
    (hne : h.sequence ≠ scene.state.sequence) :
    (∃ error, (request codec transport r scene).1 = .error (.smp error) ∧
        error.nature? = some .protocol) ↔
      r.content.isWritable = true ∧ Decimal.isWritable r.op = true := by
  cases hcontent : r.content.isWritable with
  | false =>
    rw [result_of_not_content hreply hcontent]
    exact iff_of_false (by rintro ⟨_, h, _⟩; cases h) fun hall => Bool.false_ne_true hall.1
  | true =>
    obtain ⟨fault, hanswer, hfault⟩ := Request.answer_of_sequence_ne (r := r) hheader hne
    rw [result_of_content hreply hcontent,
      Request.outcome_of_error (Request.reading_of_answer_error hanswer), ← hfault]
    unfold ReplyFault.report
    cases fault.isWritable with
    | false =>
      exact iff_of_false (by rintro ⟨_, h, _⟩; cases h) fun hall => Bool.false_ne_true hall.2
    | true => exact iff_of_true ⟨_, rfl, rfl⟩ ⟨rfl, rfl⟩

end Reply

/-- A request comes to a map if and only if its reply answers it with that map and neither the map
nor the payload has a number that cannot be written; what follows the map changes nothing. The
sequence numbers of a client count the requests that can be encoded, whatever comes of them, and a
reply to another of the 255 before and after is refused. -/
theorem request_accepts_iff_answered (codec : Cbor.Codec) (transport : Transport σ) :
    (∀ (r : Request) (scene : Scene (Client σ)) (reply : Bytes),
      Receives codec transport r scene reply →
        (∀ entries, (request codec transport r scene).1 = .ok entries ↔
          (∃ h, r.Answers codec scene.state.sequence reply h entries) ∧
            r.content.isWritable = true ∧ (Value.map entries).isWritable = true) ∧
        ∀ (transport' : Transport σ) (other : Bytes) (h : Header),
          Receives codec transport' r scene other → Header.unpack? reply = some h →
            other.take (Header.size + h.length.toNat) =
              reply.take (Header.size + h.length.toNat) →
            (request codec transport' r scene).1 = (request codec transport r scene).1) ∧
    ∀ (link : σ) (version : Int) (log : List Log.Entry) (before : List Request) (r : Request),
      (∀ r ∈ before, ∃ body, r.body codec = .ok body) →
      (after codec transport before (fresh link version log)).state.sequence =
        (before.length % 256 : Nat) ∧
      (r.IsSendable codec (before.length % 256 : Nat) →
        ∃ packet h,
          handed codec transport r (after codec transport before (fresh link version log)) =
            [packet] ∧
          Header.unpack? packet = some h ∧ h.sequence = (before.length % 256 : Nat)) ∧
      ∀ (reply : Bytes) (h : Header) (j : Nat),
        Receives codec transport r (after codec transport before (fresh link version log)) reply →
          Header.unpack? reply = some h → h.sequence = (j % 256 : Nat) → j ≠ before.length →
          j < before.length + 256 → before.length < j + 256 →
          ((∃ error,
              (request codec transport r
                  (after codec transport before (fresh link version log))).1 =
                .error (.smp error) ∧ error.nature? = some .protocol) ↔
            r.content.isWritable = true ∧ Decimal.isWritable r.op = true) := by
  refine ⟨fun r scene reply hreply => ⟨fun entries => request_eq_ok hreply, ?_⟩, ?_⟩
  · intro transport' other h hother hheader hsame
    exact request_congr hreply hother hheader hsame
  · intro link version log before r hbodies
    have hsequence := sequence_after_fresh transport hbodies link version log
    refine ⟨hsequence, ?_, ?_⟩
    · intro hsendable
      rw [← hsequence] at hsendable ⊢
      exact handed_of_isSendable hsendable
    · intro reply h j hreply hheader hj hne hbelow habove
      refine refused_iff_of_sequence_ne hreply hheader ?_
      rw [hj, hsequence]
      omega

namespace Sample

def second : Bytes := [0x09, 0, 0, 6, 0, 0, 1, 8, 0xA1, 0x63, 0x6F, 0x66, 0x66, 0x13, 0xFF]

def secondHeader : Header where
  op := 1
  flags := 0
  length := 6
  group := 0
  sequence := 1
  command := 8

def long : Bytes :=
  [0x09, 0, 0x07, 0x07, 0, 0, 0, 8, 0xA1, 0x61, 0x78, 0xC2, 0x59, 0x07, 0x00] ++
    List.replicate 1792 0xFF

def longHeader : Header where
  op := 1
  flags := 0
  length := 1799
  group := 0
  sequence := 0
  command := 8

theorem body_request : request.body Cbor.plain = .ok [0xA0] := rfl

theorem receives_replying (reply : Bytes) {scene : Scene (Client Unit)}
    (h : 0 ≤ scene.state.sequence ∧ scene.state.sequence < 256) :
    Receives Cbor.plain (replying reply) request scene reply := by
  have hsendable : request.IsSendable Cbor.plain scene.state.sequence :=
    ⟨⟨_, body_request, by decide⟩, by decide, by decide, h, rfl⟩
  obtain ⟨_, packet, hpacket⟩ := (request.isSendable_iff _ scene.state.version _).mp hsendable
  exact ⟨packet, hpacket, rfl⟩

theorem answers_second :
    request.Answers Cbor.plain 1 second secondHeader [(.text "off", .int 19)] where
  header := by decide
  op := by decide
  group := by decide
  sequence := by decide
  command := by decide
  whole := by decide
  map := .inr ⟨by decide, rfl⟩
  accepting := returnCode?_eq_none.mp rfl

end Sample

theorem request_accepts_second :
    (request Cbor.plain (Sample.replying Sample.second) Sample.request
        (after Cbor.plain (Sample.replying Sample.second) [Sample.request] (fresh () 1 []))).1 =
      .ok [(.text "off", .int 19)] ∧
    (request Cbor.plain (Sample.replying (Sample.second.take 14)) Sample.request
        (after Cbor.plain (Sample.replying Sample.second) [Sample.request] (fresh () 1 []))).1 =
      .ok [(.text "off", .int 19)] ∧
    ∃ error, (request Cbor.plain (Sample.replying Sample.second) Sample.request
        (fresh () 1 [])).1 = .error (.smp error) ∧ error.nature? = some .protocol := by
  have hbodies : ∀ r ∈ [Sample.request], ∃ body, r.body Cbor.plain = .ok body :=
    List.forall_mem_singleton.mpr ⟨_, Sample.body_request⟩
  have hsequence : (after Cbor.plain (Sample.replying Sample.second) [Sample.request]
      (fresh () 1 [])).state.sequence = 1 := by
    rw [sequence_after_fresh _ hbodies]
    rfl
  have hlater (reply : Bytes) : Receives Cbor.plain (Sample.replying reply) Sample.request
      (after Cbor.plain (Sample.replying Sample.second) [Sample.request] (fresh () 1 []))
      reply := by
    refine Sample.receives_replying reply ?_
    rw [hsequence]
    decide
  obtain ⟨haccepts, hrun⟩ :=
    request_accepts_iff_answered Cbor.plain (Sample.replying Sample.second)
  obtain ⟨hmap, hrest⟩ := haccepts _ _ _ (hlater Sample.second)
  have hok := (hmap [(.text "off", .int 19)]).mpr
    ⟨⟨_, hsequence.symm ▸ Sample.answers_second⟩, by decide +kernel, by decide +kernel⟩
  refine ⟨hok, ?_, ?_⟩
  · rw [hrest _ _ _ (hlater (Sample.second.take 14)) Sample.answers_second.header rfl, hok]
  · refine ((hrun () 1 [] [] Sample.request nofun).2.2 Sample.second _ 1 ?_
      Sample.answers_second.header rfl (by decide) (by decide) (by decide)).mpr
        ⟨by decide +kernel, by decide +kernel⟩
    exact Sample.receives_replying _ (by decide)

/-- An answer with a number of more than 4300 digits in its map comes to no map. -/
theorem request_refuses_long :
    ¬ ∀ (transport : Transport Unit) (r : Request) (scene : Scene (Client Unit)) (reply : Bytes),
      Receives Cbor.plain transport r scene reply →
        ∀ entries, (request Cbor.plain transport r scene).1 = .ok entries ↔
          ∃ h, r.Answers Cbor.plain scene.state.sequence reply h entries := by
  intro h
  have hreceives : Receives Cbor.plain (Sample.replying Sample.long) Sample.request Sample.scene
      Sample.long := Sample.receives_replying _ (by decide)
  have hdecode : Cbor.plain.decode (Sample.longHeader.payload Sample.long) =
      .ok (.map [(.text "x", .int (256 ^ 1792 - 1))]) :=
    Cbor.plain_decode (by decide +kernel)
  have hanswers : Sample.request.Answers Cbor.plain 0 Sample.long Sample.longHeader
      [(.text "x", .int (256 ^ 1792 - 1))] := by
    refine ⟨by decide, by decide, by decide, by decide, by decide,
      by decide +kernel, .inr ⟨?_, hdecode⟩, returnCode?_eq_none.mp rfl⟩
    decide +kernel
  have hok := (h _ _ _ _ hreceives _).mpr ⟨_, hanswers⟩
  have hlong : (Value.map [(.text "x", .int (256 ^ 1792 - 1))]).isWritable = false := by
    decide +kernel
  have hwritable := (request_eq_ok hreceives).mp hok
  rw [hlong] at hwritable
  exact Bool.false_ne_true hwritable.2.2

end Client
end Reflash.Smp
