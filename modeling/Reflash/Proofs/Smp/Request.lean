import Reflash.Cbor.Decode
import Reflash.Cbor.Encode
import Reflash.Proofs.Outcome
import Reflash.Proofs.Smp.Header
import Reflash.Proofs.Value
import Reflash.Smp.Client

/-! What a request can end with. A request is packed if the fields of its header
have room for it, and its reply is read as a map or refused. A map with a return
code is refused with the number that the code stands for. Where the code stands
for no number the request still fails, but not as one that the device refused. All
this holds of every codec. -/

namespace Reflash.Smp

def FailsInExchange {σ : Type} (transport : Transport σ) : Prop :=
  ∀ packet scene fault, (transport packet scene).1 = .error fault → ∃ error, fault = .smp error

/-! ### Return codes -/

def returnCode? (entries : Value.Entries) : Option (Value × Value) :=
  let grouped := match Value.get? "err" entries with
    | some (.map err) =>
      ((Value.get? "rc" err).filter Value.isSet).map fun code =>
        (code, (Value.get? "group" err).getD .null)
    | _ => none
  let alone := ((Value.get? "rc" entries).filter Value.isSet).map fun code => (code, .null)
  grouped.or alone

section ReturnCode

variable {entries : Value.Entries} {code group : Value}

theorem checkReturnCode_eq (entries : Value.Entries) :
    checkReturnCode entries =
      match returnCode? entries with
      | some (code, group) => .error (refusal code group)
      | none => .ok () := by
  rw [checkReturnCode, returnCode?]
  cases Value.get? "err" entries with
  | none => cases (Value.get? "rc" entries).filter Value.isSet <;> rfl
  | some err =>
    cases err with
    | map err =>
      dsimp only
      cases (Value.get? "rc" err).filter Value.isSet <;>
        cases (Value.get? "rc" entries).filter Value.isSet <;> rfl
    | _ => cases (Value.get? "rc" entries).filter Value.isSet <;> rfl

theorem isWritable_group_of_returnCode? (hentries : (Value.map entries).isWritable = true)
    (h : returnCode? entries = some (code, group)) : group.isWritable = true := by
  rcases Option.or_eq_some_iff.mp h with hgrouped | ⟨_, halone⟩
  · split at hgrouped
    · rename_i err herr
      have hwritable : (Value.map err).isWritable = true := Value.isWritable_get? hentries herr
      obtain ⟨c, hc, heq⟩ := Option.map_eq_some_iff.mp hgrouped
      cases heq
      cases hgroup : Value.get? "group" err with
      | none => rfl
      | some g => exact Value.isWritable_get? hwritable hgroup
    · cases hgrouped
  · obtain ⟨c, hc, heq⟩ := Option.map_eq_some_iff.mp halone
    cases heq
    rfl

theorem refusal_of_whole (hgroup : group.isWritable = true) {n : Int} (h : code.toInt = .ok n) :
    refusal code group =
      if Decimal.isWritable n then .smp (.refused n group) else .unwritable := by
  simp [refusal, h, hgroup]

theorem refusal_of_notWhole {cause : Value.NotWhole} (h : code.toInt = .error cause) :
    refusal code group = .notWhole cause := by
  rw [refusal, h]

theorem refusal_eq_smp_iff (hgroup : group.isWritable = true) :
    (∃ error, refusal code group = .smp error) ↔
      ∃ n, code.toInt = .ok n ∧ Decimal.isWritable n = true := by
  cases hn : code.toInt with
  | error cause =>
    rw [refusal_of_notWhole hn]
    exact ⟨nofun, nofun⟩
  | ok n =>
    rw [refusal_of_whole hgroup hn]
    split_ifs with hshort
    · exact ⟨fun _ => ⟨n, rfl, hshort⟩, fun _ => ⟨_, rfl⟩⟩
    · refine ⟨nofun, ?_⟩
      rintro ⟨_, ⟨⟩, hwritable⟩
      exact absurd hwritable hshort

end ReturnCode

/-! ### Sending -/

namespace Request

/-- A request whose payload can be encoded and of which every number has its place in the packet
or the log. -/
structure IsSendable (r : Request) (codec : Cbor.Codec) (sequence : Int) : Prop where
  body : ∃ body, r.body codec = .ok body ∧ body.length < 65536
  group : 0 ≤ r.group ∧ r.group < 65536
  command : 0 ≤ r.command ∧ r.command < 256
  sequence : 0 ≤ sequence ∧ sequence < 256
  content : r.content.isWritable = true

def IsCarriedBy (r : Request) (codec : Cbor.Codec) (version sequence : Int) (packet : Bytes) :
    Prop :=
  ∃ body, r.body codec = .ok body ∧ r.packet? body version sequence = some packet

theorem IsCarriedBy.unique {r : Request} {codec : Cbor.Codec} {version sequence : Int}
    {packet other : Bytes} (h : r.IsCarriedBy codec version sequence packet)
    (hother : r.IsCarriedBy codec version sequence other) : packet = other := by
  obtain ⟨body, hbody, hpacket⟩ := h
  obtain ⟨_, hsame, hother⟩ := hother
  cases hbody.symm.trans hsame
  cases hpacket.symm.trans hother
  rfl

theorem isSome_packet? (r : Request) (body : Bytes) (version sequence : Int) :
    (r.packet? body version sequence).isSome = true ↔ (r.header body version sequence).Fits := by
  rw [packet?, Option.isSome_map, Header.isSome_pack?]

theorem isWritable_iff_of_fits {r : Request} {body : Bytes} {version sequence : Int}
    (h : (r.header body version sequence).Fits) :
    r.isWritable sequence = true ↔ r.content.isWritable = true := by
  have hshort {i : Int} (hi : 0 ≤ i ∧ i < 65536) : Decimal.isWritable i = true := by
    apply Decimal.isWritable_of_natAbs_lt
    omega
  obtain ⟨_, _, hgroup, hsequence, hcommand⟩ := h
  have hgroup : Decimal.isWritable r.group = true := hshort hgroup
  have hsequence : Decimal.isWritable sequence = true :=
    hshort ⟨hsequence.1, Int.lt_trans hsequence.2 (by decide)⟩
  have hcommand : Decimal.isWritable r.command = true :=
    hshort ⟨hcommand.1, Int.lt_trans hcommand.2 (by decide)⟩
  rw [isWritable, hgroup, hcommand, hsequence, Bool.and_self, Bool.and_self, Bool.true_and]

theorem isSendable_iff (r : Request) (codec : Cbor.Codec) (version sequence : Int) :
    r.IsSendable codec sequence ↔
      r.isWritable sequence = true ∧ ∃ packet, r.IsCarriedBy codec version sequence packet := by
  constructor
  · rintro ⟨⟨body, hbody, hsize⟩, hgroup, hcommand, hsequence, hcontent⟩
    have hflags : (0 : Int) ≤ 0 ∧ (0 : Int) < 256 := by decide
    have hlength : (body.length : Int) < 65536 := Int.ofNat_lt.mpr hsize
    have hfits : (r.header body version sequence).Fits :=
      ⟨hflags, ⟨Int.natCast_nonneg _, hlength⟩, hgroup, hsequence, hcommand⟩
    obtain ⟨packet, hpacket⟩ :=
      Option.isSome_iff_exists.mp ((r.isSome_packet? body version sequence).mpr hfits)
    exact ⟨(isWritable_iff_of_fits hfits).mpr hcontent, packet, body, hbody, hpacket⟩
  · rintro ⟨hwritable, packet, body, hbody, hpacket⟩
    have hfits := (r.isSome_packet? body version sequence).mp
      (Option.isSome_iff_exists.mpr ⟨packet, hpacket⟩)
    have hcontent := (isWritable_iff_of_fits hfits).mp hwritable
    obtain ⟨_, hlength, hgroup, hsequence, hcommand⟩ := hfits
    exact ⟨⟨body, hbody, Int.ofNat_lt.mp hlength.2⟩, hgroup, hcommand, hsequence, hcontent⟩

/-! ### Reading the reply -/

/-- No number in the reply or in what is said about it is too long to be written, its payload does
not break the codec, and its return code, if it has one, stands for a whole number. -/
structure IsReadable (r : Request) (codec : Cbor.Codec) (sequence : Int) (reply : Bytes) :
    Prop where
  answer : ∀ fault, r.answer sequence reply = .error fault → fault.isWritable = true
  item : ∀ payload failure, r.answer sequence reply = .ok payload → payload ≠ [] →
    codec.decode payload = .error failure → failure = .malformed
  map : ∀ entries, r.reading codec sequence reply = .ok entries →
    (Value.map entries).isWritable = true
  code : ∀ entries code group, r.reading codec sequence reply = .ok entries →
    returnCode? entries = some (code, group) →
      ∃ n, code.toInt = .ok n ∧ Decimal.isWritable n = true

/-- What a reply should come to: its map, if that has no return code, or a failure of the exchange
that says what is wrong with the reply or what the device refused. -/
inductive Concludes (r : Request) (codec : Cbor.Codec) (sequence : Int) (reply : Bytes) :
    Except Fault Value.Entries → Prop where
  | map {entries : Value.Entries} (hreading : r.reading codec sequence reply = .ok entries)
      (hcode : returnCode? entries = none) : Concludes r codec sequence reply (.ok entries)
  | fault {fault : ReplyFault}
      (hreading : r.reading codec sequence reply = .error (.smp (.reply fault))) :
      Concludes r codec sequence reply (.error (.smp (.reply fault)))
  | refused {entries : Value.Entries} {code group : Value} {n : Int}
      (hreading : r.reading codec sequence reply = .ok entries)
      (hcode : returnCode? entries = some (code, group)) (hn : code.toInt = .ok n) :
      Concludes r codec sequence reply (.error (.smp (.refused n group)))

section Outcome

variable {codec : Cbor.Codec} {r : Request} {sequence : Int} {reply payload : Bytes}
  {entries : Value.Entries}

theorem reading_of_decode (hanswer : r.answer sequence reply = .ok payload) (hne : payload ≠ [])
    (hdecode : codec.decode payload = .ok (.map entries)) :
    r.reading codec sequence reply = .ok entries := by
  rw [reading, hanswer]
  change payloadMap codec payload = .ok entries
  rw [payloadMap, if_neg hne, hdecode]

theorem payloadMap_eq_error {fault : Fault} (h : payloadMap codec payload = .error fault) :
    (∃ cause, fault = .smp (.reply cause)) ∨
      payload ≠ [] ∧ ∃ failure text, codec.decode payload = .error failure ∧
        failure ≠ .malformed ∧ fault = .foreign .decoding text := by
  rw [payloadMap] at h
  split_ifs at h with hne
  split at h
  · cases h
    exact .inl ⟨_, rfl⟩
  · rename_i text hdecode
    cases h
    exact .inr ⟨hne, _, text, hdecode, nofun, rfl⟩
  · rename_i mishap hdecode
    cases h
    exact .inr ⟨hne, _, mishap.text, hdecode, nofun, rfl⟩
  · cases h
  · cases h
    exact .inl ⟨_, rfl⟩

theorem reading_eq_error {fault : Fault} (h : r.reading codec sequence reply = .error fault) :
    (∃ cause, fault = .smp (.reply cause)) ∨
      (∃ cause, r.answer sequence reply = .error cause ∧ cause.isWritable = false ∧
        fault = .unwritable) ∨
      ∃ payload failure text, r.answer sequence reply = .ok payload ∧ payload ≠ [] ∧
        codec.decode payload = .error failure ∧ failure ≠ .malformed ∧
          fault = .foreign .decoding text := by
  rcases Outcome.bind_eq_error.mp h with h | ⟨payload, hanswer, h⟩
  · obtain ⟨cause, hcause, rfl⟩ := Outcome.mapError_eq_error.mp h
    cases hwritable : cause.isWritable with
    | true => exact .inl ⟨cause, by rw [ReplyFault.report, hwritable, if_pos rfl]⟩
    | false =>
      exact .inr (.inl ⟨cause, hcause, hwritable, by simp [ReplyFault.report, hwritable]⟩)
  · rcases payloadMap_eq_error h with h | ⟨hne, failure, text, hdecode, hother, rfl⟩
    · exact .inl h
    · exact .inr (.inr
        ⟨payload, failure, text, Outcome.mapError_eq_ok.mp hanswer, hne, hdecode, hother, rfl⟩)

theorem reading_of_answer_error {cause : ReplyFault}
    (h : r.answer sequence reply = .error cause) :
    r.reading codec sequence reply = .error cause.report := by
  rw [reading, h]
  rfl

theorem reading_of_broken {failure : Cbor.Failure} (hother : failure ≠ .malformed)
    (hanswer : r.answer sequence reply = .ok payload) (hne : payload ≠ [])
    (hdecode : codec.decode payload = .error failure) :
    ∃ text, r.reading codec sequence reply = .error (.foreign .decoding text) := by
  rw [reading, hanswer]
  change ∃ text, payloadMap codec payload = .error (.foreign .decoding text)
  rw [payloadMap, if_neg hne, hdecode]
  cases failure with
  | malformed => exact absurd rfl hother
  | unfit text => exact ⟨text, rfl⟩
  | broken mishap => exact ⟨mishap.text, rfl⟩

theorem outcome_of_error {fault : Fault} (h : r.reading codec sequence reply = .error fault) :
    (r.outcome codec sequence reply).1 = .error fault := by
  rw [outcome, h]

theorem outcome_of_ok (h : r.reading codec sequence reply = .ok entries) :
    (r.outcome codec sequence reply).1 =
      if (Value.map entries).isWritable then (checkReturnCode entries).map fun () => entries
      else .error .unwritable := by
  simp only [outcome, h]
  split <;> rfl

theorem isReadable_of_error {fault : Fault} (h : r.reading codec sequence reply = .error fault) :
    r.IsReadable codec sequence reply ↔ ∃ cause, fault = .smp (.reply cause) := by
  constructor
  · rintro ⟨hanswer, hitem, -, -⟩
    rcases reading_eq_error h with hcause | ⟨cause, hcause, hwritable, -⟩ |
      ⟨payload, failure, text, hpayload, hne, hdecode, hother, -⟩
    · exact hcause
    · rw [hanswer cause hcause] at hwritable
      cases hwritable
    · exact absurd (hitem payload failure hpayload hne hdecode) hother
  · rintro ⟨cause, rfl⟩
    refine ⟨?_, ?_, ?_, ?_⟩
    · intro fault hfault
      by_contra hwritable
      rw [reading_of_answer_error hfault, ReplyFault.report, if_neg hwritable] at h
      cases h
    · intro payload failure hpayload hne hdecode
      by_contra hother
      obtain ⟨text, hbroken⟩ := reading_of_broken hother hpayload hne hdecode
      cases h.symm.trans hbroken
    · intro entries hentries
      rw [h] at hentries
      cases hentries
    · intro entries code group hentries
      rw [h] at hentries
      cases hentries

theorem isReadable_of_ok (h : r.reading codec sequence reply = .ok entries) :
    r.IsReadable codec sequence reply ↔ (Value.map entries).isWritable = true ∧
      ∀ code group, returnCode? entries = some (code, group) →
        ∃ n, code.toInt = .ok n ∧ Decimal.isWritable n = true := by
  constructor
  · rintro ⟨-, -, hmap, hcode⟩
    exact ⟨hmap entries h, fun code group => hcode entries code group h⟩
  · rintro ⟨hmap, hcode⟩
    refine ⟨?_, ?_, ?_, ?_⟩
    · intro fault hfault
      rw [reading_of_answer_error hfault] at h
      cases h
    · intro payload failure hpayload hne hdecode
      by_contra hother
      obtain ⟨text, hbroken⟩ := reading_of_broken hother hpayload hne hdecode
      cases h.symm.trans hbroken
    · intro entries' hentries
      cases h.symm.trans hentries
      exact hmap
    · intro entries' code group hentries
      cases h.symm.trans hentries
      exact hcode code group

theorem Concludes.exists_error {fault : Fault}
    (h : r.Concludes codec sequence reply (.error fault)) : ∃ error, fault = .smp error := by
  cases h <;> exact ⟨_, rfl⟩

theorem not_concludes_unwritable : ¬ r.Concludes codec sequence reply (.error .unwritable) := nofun

theorem concludes_refusal {code group : Value}
    (hreading : r.reading codec sequence reply = .ok entries)
    (hentries : (Value.map entries).isWritable = true)
    (hcode : returnCode? entries = some (code, group)) :
    r.Concludes codec sequence reply (.error (refusal code group)) ↔
      ∃ n, code.toInt = .ok n ∧ Decimal.isWritable n = true := by
  have hgroup := isWritable_group_of_returnCode? hentries hcode
  constructor
  · exact fun h => (refusal_eq_smp_iff hgroup).mp h.exists_error
  · rintro ⟨n, hn, hshort⟩
    rw [refusal_of_whole hgroup hn, if_pos hshort]
    exact .refused hreading hcode hn

theorem concludes_outcome (r : Request) (codec : Cbor.Codec) (sequence : Int) (reply : Bytes) :
    r.Concludes codec sequence reply (r.outcome codec sequence reply).1 ↔
      r.IsReadable codec sequence reply := by
  cases hreading : r.reading codec sequence reply with
  | error fault =>
    rw [outcome_of_error hreading, isReadable_of_error hreading]
    constructor
    · intro h
      cases h with
      | fault => exact ⟨_, rfl⟩
      | refused hother => exact nomatch hreading.symm.trans hother
    · rintro ⟨cause, rfl⟩
      exact .fault hreading
  | ok entries =>
    rw [outcome_of_ok hreading, isReadable_of_ok hreading]
    split
    · rename_i hentries
      rw [checkReturnCode_eq]
      cases hcode : returnCode? entries with
      | none =>
        exact ⟨fun _ => ⟨hentries, nofun⟩, fun _ => .map hreading hcode⟩
      | some found =>
        have hrefusal := concludes_refusal hreading hentries hcode
        constructor
        · intro h
          refine ⟨hentries, ?_⟩
          rintro _ _ ⟨⟩
          exact hrefusal.mp h
        · exact fun h => hrefusal.mpr (h.2 _ _ rfl)
    · exact ⟨fun h => absurd h not_concludes_unwritable, fun h => absurd h.1 ‹_›⟩

theorem isReadable_iff_outcome (r : Request) (codec : Cbor.Codec) (sequence : Int)
    (reply : Bytes) :
    r.IsReadable codec sequence reply ↔
      ∀ fault, (r.outcome codec sequence reply).1 = .error fault → ∃ error, fault = .smp error := by
  constructor
  · intro hreadable fault hfault
    have hconcludes := (concludes_outcome r codec sequence reply).mpr hreadable
    rw [hfault] at hconcludes
    exact hconcludes.exists_error
  · intro h
    cases hreading : r.reading codec sequence reply with
    | error fault =>
      rw [isReadable_of_error hreading]
      obtain ⟨error, rfl⟩ := h fault (outcome_of_error hreading)
      rcases reading_eq_error hreading with
        hcause | ⟨_, _, _, hfault⟩ | ⟨_, _, _, _, _, _, _, hfault⟩
      · exact hcause
      · cases hfault
      · cases hfault
    | ok entries =>
      rw [isReadable_of_ok hreading]
      rw [outcome_of_ok hreading] at h
      have hentries : (Value.map entries).isWritable = true := by
        by_contra hwritable
        rw [if_neg hwritable] at h
        obtain ⟨_, hfault⟩ := h _ rfl
        cases hfault
      refine ⟨hentries, fun code group hcode => ?_⟩
      rw [if_pos hentries, checkReturnCode_eq, hcode] at h
      exact (refusal_eq_smp_iff (isWritable_group_of_returnCode? hentries hcode)).mp (h _ rfl)

end Outcome

end Request

namespace Client

variable {σ : Type}

def handover (r : Request) (scene : Scene (Client σ)) : Scene σ :=
  ⟨scene.state.link, scene.log ++ [⟨.debug, .client, r.description scene.state.sequence⟩]⟩

def advanced (client : Client σ) : Client σ :=
  { client with sequence := (client.sequence + 1) % 256 }

section Run

variable {codec : Cbor.Codec} (transport : Transport σ) {r : Request} {scene : Scene (Client σ)}
  {body packet : Bytes}

theorem request_of_not_encoded {text : String} (h : r.body codec = .error text) :
    request codec transport r scene = (.error (.foreign .encoding text), scene) := by
  rw [request, h]
  rfl

theorem request_of_not_isWritable (hbody : r.body codec = .ok body)
    (h : r.isWritable scene.state.sequence = false) :
    request codec transport r scene =
      (.error .unwritable, ⟨scene.state.advanced, scene.log⟩) := by
  simp only [request, hbody, takeSequence, Action.bind_apply, Action.state_apply,
    Action.setState_apply, Action.pure_apply, Action.requireWritable_apply, h]
  rfl

theorem request_of_no_packet (hbody : r.body codec = .ok body)
    (hwritable : r.isWritable scene.state.sequence = true)
    (hpacket : r.packet? body scene.state.version scene.state.sequence = none) :
    request codec transport r scene =
      (.error .headerField, ⟨scene.state.advanced, (handover r scene).log⟩) := by
  simp only [request, hbody, takeSequence, Action.bind_apply, Action.state_apply,
    Action.setState_apply, Action.pure_apply, Action.requireWritable_apply, hwritable, if_true,
    Action.debug_apply, hpacket]
  rfl

theorem request_of_packet (hwritable : r.isWritable scene.state.sequence = true)
    (hpacket : r.IsCarriedBy codec scene.state.version scene.state.sequence packet) :
    request codec transport r scene =
      match transport packet (handover r scene) with
      | (.ok reply, after) =>
        ((r.outcome codec scene.state.sequence reply).1,
          ⟨{ scene.state.advanced with link := after.state },
            after.log ++ (r.outcome codec scene.state.sequence reply).2⟩)
      | (.error fault, after) =>
        (.error fault, ⟨{ scene.state.advanced with link := after.state }, after.log⟩) := by
  obtain ⟨body, hbody, hpacket⟩ := hpacket
  simp only [request, hbody, takeSequence, Action.bind_apply, Action.state_apply,
    Action.setState_apply, Action.pure_apply, Action.requireWritable_apply, hwritable, if_true,
    Action.debug_apply, hpacket, overLink, Action.within, Action.conclude, handover]
  rcases transport packet _ with ⟨received, after⟩
  cases received <;> rfl

end Run

section

variable {codec : Cbor.Codec}

theorem result_of_packet (transport : Transport σ) {r : Request} {scene : Scene (Client σ)}
    {packet : Bytes} (hwritable : r.isWritable scene.state.sequence = true)
    (hpacket : r.IsCarriedBy codec scene.state.version scene.state.sequence packet) :
    (request codec transport r scene).1 =
      (transport packet (handover r scene)).1 >>= fun reply =>
        (r.outcome codec scene.state.sequence reply).1 := by
  rw [request_of_packet transport hwritable hpacket]
  rcases transport packet (handover r scene) with ⟨received, after⟩
  cases received <;> rfl

theorem request_of_not_isSendable (transport : Transport σ) {r : Request}
    {scene : Scene (Client σ)} {body : Bytes} (hbody : r.body codec = .ok body)
    (h : ¬ r.IsSendable codec scene.state.sequence) :
    ∃ fault log, request codec transport r scene = (.error fault, ⟨scene.state.advanced, log⟩) ∧
      (fault = .unwritable ∨ fault = .headerField) := by
  cases hwritable : r.isWritable scene.state.sequence with
  | false => exact ⟨_, _, request_of_not_isWritable transport hbody hwritable, .inl rfl⟩
  | true =>
    have hpacket : r.packet? body scene.state.version scene.state.sequence = none := by
      cases hpacket : r.packet? body scene.state.version scene.state.sequence with
      | none => rfl
      | some packet =>
        have hcarried : r.IsCarriedBy codec scene.state.version scene.state.sequence packet :=
          ⟨body, hbody, hpacket⟩
        exact absurd ((r.isSendable_iff codec _ _).mpr ⟨hwritable, packet, hcarried⟩) h
    exact ⟨_, _, request_of_no_packet transport hbody hwritable hpacket, .inr rfl⟩

theorem result_of_not_isSendable (transport : Transport σ) {r : Request}
    {scene : Scene (Client σ)} (h : ¬ r.IsSendable codec scene.state.sequence) :
    ∃ fault, (request codec transport r scene).1 = .error fault ∧ ∀ error, fault ≠ .smp error := by
  cases hbody : r.body codec with
  | error text =>
    rw [request_of_not_encoded transport hbody]
    exact ⟨_, rfl, nofun⟩
  | ok body =>
    obtain ⟨fault, log, hrequest, hfault⟩ := request_of_not_isSendable transport hbody h
    rw [hrequest]
    rcases hfault with rfl | rfl
    · exact ⟨_, rfl, nofun⟩
    · exact ⟨_, rfl, nofun⟩

end

def Receives (codec : Cbor.Codec) (transport : Transport σ) (r : Request)
    (scene : Scene (Client σ)) (reply : Bytes) : Prop :=
  ∃ packet, r.IsCarriedBy codec scene.state.version scene.state.sequence packet ∧
    (transport packet (handover r scene)).1 = .ok reply

inductive Concludes (codec : Cbor.Codec) (transport : Transport σ) (r : Request)
    (scene : Scene (Client σ)) : Except Fault Value.Entries → Prop where
  | answered {reply : Bytes} {result : Except Fault Value.Entries}
      (hreply : Receives codec transport r scene reply)
      (h : r.Concludes codec scene.state.sequence reply result) :
      Concludes codec transport r scene result
  | failed {packet : Bytes} {error : Smp.Error}
      (hpacket : r.IsCarriedBy codec scene.state.version scene.state.sequence packet)
      (h : (transport packet (handover r scene)).1 = .error (.smp error)) :
      Concludes codec transport r scene (.error (.smp error))

section

variable {codec : Cbor.Codec} {transport : Transport σ} {r : Request} {scene : Scene (Client σ)}
  {reply : Bytes}

theorem result_of_receives (hwritable : r.isWritable scene.state.sequence = true)
    (hreply : Receives codec transport r scene reply) :
    (request codec transport r scene).1 = (r.outcome codec scene.state.sequence reply).1 := by
  obtain ⟨packet, hpacket, hreceived⟩ := hreply
  rw [result_of_packet transport hwritable hpacket, hreceived]
  rfl

theorem Receives.unique {other : Bytes} (h : Receives codec transport r scene reply)
    (hother : Receives codec transport r scene other) : reply = other := by
  obtain ⟨packet, hpacket, hreply⟩ := h
  obtain ⟨_, hsame, hother⟩ := hother
  cases hpacket.unique hsame
  cases hreply.symm.trans hother
  rfl

theorem Concludes.exists_error {fault : Fault}
    (h : Concludes codec transport r scene (.error fault)) : ∃ error, fault = .smp error := by
  cases h with
  | answered _ h => exact h.exists_error
  | failed => exact ⟨_, rfl⟩

theorem concludes_of_receives (hreply : Receives codec transport r scene reply)
    (result : Except Fault Value.Entries) :
    Concludes codec transport r scene result ↔
      r.Concludes codec scene.state.sequence reply result := by
  constructor
  · intro h
    cases h with
    | answered hother h => exact hreply.unique hother ▸ h
    | failed hpacket h =>
      obtain ⟨_, hsame, hreply⟩ := hreply
      cases hpacket.unique hsame
      cases hreply.symm.trans h
  · exact .answered hreply

end

/-- A request comes to what it should if and only if it can be sent, its reply has no number that
cannot be written and does not break the codec, and its return code, if it has one, stands for a
whole number. -/
theorem request_concludes_iff (codec : Cbor.Codec) {transport : Transport σ}
    (htransport : FailsInExchange transport) (r : Request) (scene : Scene (Client σ)) :
    Concludes codec transport r scene (request codec transport r scene).1 ↔
      r.IsSendable codec scene.state.sequence ∧
        ∀ reply, Receives codec transport r scene reply →
          r.IsReadable codec scene.state.sequence reply := by
  by_cases hsendable : r.IsSendable codec scene.state.sequence
  · obtain ⟨hwritable, packet, hpacket⟩ :=
      (r.isSendable_iff codec scene.state.version _).mp hsendable
    -- from here on the transport decides, and its own failures are of the exchange
    cases hreceived : (transport packet (handover r scene)).1 with
    | error fault =>
      obtain ⟨error, rfl⟩ := htransport _ _ _ hreceived
      rw [result_of_packet transport hwritable hpacket, hreceived]
      refine ⟨fun _ => ⟨hsendable, ?_⟩, fun _ => .failed hpacket hreceived⟩
      rintro reply ⟨_, hsame, hreply⟩
      cases hpacket.unique hsame
      cases hreceived.symm.trans hreply
    | ok reply =>
      have hreply : Receives codec transport r scene reply := ⟨packet, hpacket, hreceived⟩
      rw [result_of_receives hwritable hreply, concludes_of_receives hreply,
        Request.concludes_outcome]
      constructor
      · intro hreadable
        exact ⟨hsendable, fun _ hother => hreply.unique hother ▸ hreadable⟩
      · exact fun h => h.2 reply hreply
  · refine ⟨fun h => ?_, fun h => absurd h.1 hsendable⟩
    obtain ⟨fault, hfault, hother⟩ := result_of_not_isSendable transport hsendable
    rw [hfault] at h
    obtain ⟨error, herror⟩ := h.exists_error
    exact absurd herror (hother error)

namespace Sample

def replying (reply : Bytes) : Transport Unit := fun _ => pure reply

theorem failsInExchange_replying (reply : Bytes) : FailsInExchange (replying reply) :=
  fun _ _ _ h => nomatch h

def request : Request where
  op := 0
  group := 0
  command := 8

def scene : Scene (Client Unit) := ⟨{ link := () }, []⟩

def refused : Bytes := [0x09, 0, 0, 5, 0, 0, 0, 8, 0xA1, 0x62, 0x72, 0x63, 0x08]

def busy : Bytes :=
  [0x09, 0, 0, 9, 0, 0, 0, 8, 0xA1, 0x62, 0x72, 0x63, 0x64, 0x62, 0x75, 0x73, 0x79]

end Sample

theorem request_concludes_refused :
    FailsInExchange (Sample.replying Sample.refused) ∧
      Concludes Cbor.plain (Sample.replying Sample.refused) Sample.request Sample.scene
        (request Cbor.plain (Sample.replying Sample.refused) Sample.request Sample.scene).1 := by
  have htransport := Sample.failsInExchange_replying Sample.refused
  have hanswer : Sample.request.answer 0 Sample.refused = .ok [0xA1, 0x62, 0x72, 0x63, 0x08] := by
    cbv
  have hdecode : Cbor.plain.decode [0xA1, 0x62, 0x72, 0x63, 0x08] =
      .ok (.map [(.text "rc", .int 8)]) := rfl
  have hreading := Request.reading_of_decode hanswer (List.cons_ne_nil _ _) hdecode
  have hreadable : Sample.request.IsReadable Cbor.plain 0 Sample.refused := by
    rw [Request.isReadable_of_ok hreading]
    refine ⟨by decide +kernel, ?_⟩
    rintro code group ⟨⟩
    exact ⟨8, rfl, by decide +kernel⟩
  refine ⟨htransport, (request_concludes_iff Cbor.plain htransport _ _).mpr ⟨?_, ?_⟩⟩
  · exact ⟨⟨[0xA0], rfl, by decide⟩, by decide, by decide, by decide, rfl⟩
  · rintro reply ⟨packet, _, hreply⟩
    cases hreply
    exact hreadable

/-- A word for a return code stands for no number, and the failure is none of the exchange. -/
theorem request_fails_otherwise :
    ¬ ∀ (transport : Transport Unit) (r : Request) (scene : Scene (Client Unit)) (body : Bytes),
      FailsInExchange transport → r.body Cbor.plain = .ok body → body.length < 65536 →
        ∀ fault, (request Cbor.plain transport r scene).1 = .error fault →
          ∃ error, fault = .smp error := by
  intro h
  have hanswer : Sample.request.answer 0 Sample.busy =
      .ok [0xA1, 0x62, 0x72, 0x63, 0x64, 0x62, 0x75, 0x73, 0x79] := by cbv
  have hdecode : Cbor.plain.decode [0xA1, 0x62, 0x72, 0x63, 0x64, 0x62, 0x75, 0x73, 0x79] =
      .ok (.map [(.text "rc", .text "busy")]) := rfl
  have hreading := Request.reading_of_decode hanswer (List.cons_ne_nil _ _) hdecode
  have hbody : Sample.request.body Cbor.plain = .ok [0xA0] := rfl
  have hreply : Receives Cbor.plain (Sample.replying Sample.busy) Sample.request Sample.scene
      Sample.busy := ⟨_, ⟨_, hbody, rfl⟩, rfl⟩
  have hresult :
      (request Cbor.plain (Sample.replying Sample.busy) Sample.request Sample.scene).1 =
        .error (.notWhole .noNumeral) := by
    rw [result_of_receives (by decide +kernel) hreply]
    refine (Request.outcome_of_ok hreading).trans ?_
    rw [if_pos (by decide +kernel), checkReturnCode_eq]
    rfl
  obtain ⟨_, hfault⟩ :=
    h _ _ _ _ (Sample.failsInExchange_replying _) hbody (by decide) _ hresult
  cases hfault

end Client

end Reflash.Smp
