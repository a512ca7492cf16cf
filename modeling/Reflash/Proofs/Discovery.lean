import Reflash.Device
import Reflash.Proofs.Smp.Acceptance
import Reflash.Rehearsal

/-! What is found out about a bootloader. A device is asked once or twice, and it is
taken to swap and to revert unless both answers are accepted, the first names MCUboot,
and the second gives one of the two modes that execute in place. No failure of the
exchange comes out of this; what does is a reply that cannot be written about or that
breaks the codec, or a return code in it that stands for no number. -/

namespace Reflash

open Smp

/-! ### Modes -/

theorem BootMode.ofValue?_int {i : Int} {m : BootMode} :
    ofValue? (.int i) = some m ↔ i = m.code := by
  have hsame (j : Int) : (Value.int i).same (.int j) = decide (i = j) := by
    rw [Value.same, Value.sameNumber] <;> simp
  constructor
  · intro h
    have hfound := List.find?_some h
    rw [hsame] at hfound
    exact of_decide_eq_true hfound
  · rintro rfl
    cases m <;> rfl

namespace Capabilities

/-- A mode that is not given, or any kind of number. -/
def IsModeNumber (mode : Value) : Prop :=
  mode = .null ∨ (∃ i, mode = .int i) ∨ ∃ x, mode = .bool x

theorem ofMode?_of_isModeNumber {mode : Value} (h : IsModeNumber mode)
    (bootloader noDowngrade : Value) :
    ofMode? bootloader mode noDowngrade = some {
      noSwap := .bool (mode = .int 4 ∨ mode = .int 5)
      allowRevert := .bool (mode ≠ .int 4)
      bootloader, mode, noDowngrade } := by
  rcases h with rfl | ⟨i, rfl⟩ | ⟨x, rfl⟩
  · rfl
  · have hdirect : BootMode.ofValue? (.int i) = some .directXip ↔ Value.int i = .int 4 := by
      rw [BootMode.ofValue?_int, Value.int.injEq, BootMode.code]
    have hreverts : BootMode.ofValue? (.int i) = some .directXipWithRevert ↔
        Value.int i = .int 5 := by
      rw [BootMode.ofValue?_int, Value.int.injEq, BootMode.code]
    rw [ofMode?, if_pos (by rfl)]
    simp only [hdirect, hreverts, ne_eq, Bool.decide_or]
  · cases x <;> rfl

end Capabilities

theorem isMcuBoot_iff (v : Value) : isMcuBoot v = true ↔ v = .text "MCUboot" := by
  cases v with
  | text name =>
    rw [Value.text.injEq]
    exact decide_eq_true_iff
  | _ => simp [isMcuBoot]

namespace Discovery

/-! ### One exchange -/

abbrev Exchanged := Except Smp.Error Bytes

def receiving (coming : List Exchanged) (sent : List Bytes) (version sequence : Int)
    (log : List Log.Entry) : Scene (Client Rehearsal.Replies) :=
  ⟨{ link := ⟨coming.map (Except.mapError Fault.smp), sent⟩, version, sequence }, log⟩

def infoOf (entries : Value.Entries) : BootloaderInfo where
  bootloader := (Value.get? "bootloader" entries).getD .null
  mode := (Value.get? "mode" entries).getD .null
  noDowngrade := .bool (((Value.get? "no-downgrade" entries).map Value.isSet).getD false)

/-- A reply that is accepted as information about the bootloader: it answers the question with a
map that can be written about, and the mode in the map, if there is one, is a number. -/
structure Informs (codec : Cbor.Codec) (query : Query) (sequence : Int) (reply : Bytes)
    (entries : Value.Entries) : Prop where
  answers : ∃ h, (bootloaderInfoRequest query).Answers codec sequence reply h entries
  writable : (Value.map entries).isWritable = true
  mode : Capabilities.IsModeNumber ((Value.get? "mode" entries).getD .null)

/-- What was received, if it is a reply, can be written about. -/
def IsLegible (codec : Cbor.Codec) (query : Query) (sequence : Int) (received : Exchanged) :
    Prop :=
  ∀ reply, received = .ok reply → (bootloaderInfoRequest query).IsReadable codec sequence reply

def learnt (codec : Cbor.Codec) (query : Query) (sequence : Int) :
    Exchanged → Except Fault BootloaderInfo
  | .error error => .error (.smp error)
  | .ok reply => do
    let entries ← ((bootloaderInfoRequest query).outcome codec sequence reply).1
    (bootloaderInfoOf entries).mapError fun f => Fault.smp (.reply f)

variable {codec : Cbor.Codec} {query : Query} {sequence : Int} {reply : Bytes}
  {entries : Value.Entries} {info : BootloaderInfo} {received first second : Exchanged}

theorem bootloaderInfoOf_eq_ok :
    bootloaderInfoOf entries = .ok info ↔
      Capabilities.IsModeNumber ((Value.get? "mode" entries).getD .null) ∧
        info = infoOf entries := by
  rw [bootloaderInfoOf, infoOf]
  cases (Value.get? "mode" entries).getD .null with
  | null => simp [Capabilities.IsModeNumber, eq_comm]
  | int i => simp [Capabilities.IsModeNumber, eq_comm]
  | bool x => simp [Capabilities.IsModeNumber, eq_comm]
  | _ => simp [Capabilities.IsModeNumber]

theorem learnt_of_outcome_error {fault : Fault}
    (h : ((bootloaderInfoRequest query).outcome codec sequence reply).1 = .error fault) :
    learnt codec query sequence (.ok reply) = .error fault := by
  rw [learnt, h]
  rfl

theorem learnt_of_outcome_ok
    (h : ((bootloaderInfoRequest query).outcome codec sequence reply).1 = .ok entries) :
    learnt codec query sequence (.ok reply) =
      (bootloaderInfoOf entries).mapError fun f => Fault.smp (.reply f) := by
  rw [learnt, h]
  rfl

theorem learnt_eq_ok :
    learnt codec query sequence received = .ok info ↔
      ∃ reply entries, received = .ok reply ∧ Informs codec query sequence reply entries ∧
        info = infoOf entries := by
  constructor
  · intro h
    cases received with
    | error error => cases h
    | ok reply =>
      cases houtcome : ((bootloaderInfoRequest query).outcome codec sequence reply).1 with
      | error fault =>
        rw [learnt_of_outcome_error houtcome] at h
        cases h
      | ok entries =>
        rw [learnt_of_outcome_ok houtcome] at h
        obtain ⟨hwritable, hanswers⟩ := Request.outcome_eq_ok.mp houtcome
        cases hinfo : bootloaderInfoOf entries with
        | error fault =>
          rw [hinfo] at h
          cases h
        | ok found =>
          rw [hinfo] at h
          cases h
          obtain ⟨hmode, rfl⟩ := bootloaderInfoOf_eq_ok.mp hinfo
          exact ⟨reply, entries, rfl, ⟨hanswers, hwritable, hmode⟩, rfl⟩
  · rintro ⟨reply, entries, rfl, ⟨hanswers, hwritable, hmode⟩, rfl⟩
    rw [learnt_of_outcome_ok (Request.outcome_eq_ok.mpr ⟨hwritable, hanswers⟩),
      bootloaderInfoOf_eq_ok.mpr ⟨hmode, rfl⟩]
    rfl

theorem isLegible_iff :
    IsLegible codec query sequence received ↔
      ∀ fault, learnt codec query sequence received = .error fault →
        ∃ error, fault = .smp error := by
  cases received with
  | error error =>
    refine iff_of_true nofun ?_
    rintro fault ⟨⟩
    exact ⟨error, rfl⟩
  | ok reply =>
    have hreply : IsLegible codec query sequence (.ok reply) ↔
        (bootloaderInfoRequest query).IsReadable codec sequence reply :=
      ⟨fun h => h reply rfl, by rintro h _ ⟨⟩; exact h⟩
    rw [hreply, Request.isReadable_iff_outcome]
    cases houtcome : ((bootloaderInfoRequest query).outcome codec sequence reply).1 with
    | error fault => simp only [learnt_of_outcome_error houtcome, Except.error.injEq]
    | ok entries =>
      rw [learnt_of_outcome_ok houtcome]
      refine iff_of_true nofun ?_
      cases bootloaderInfoOf entries with
      | error fault =>
        rintro _ ⟨⟩
        exact ⟨_, rfl⟩
      | ok info => nofun

theorem isLegible_of_ok (h : learnt codec query sequence received = .ok info) :
    IsLegible codec query sequence received := by
  rw [isLegible_iff, h]
  exact nofun

theorem isLegible_of_smp {error : Smp.Error}
    (h : learnt codec query sequence received = .error (.smp error)) :
    IsLegible codec query sequence received := by
  rw [isLegible_iff, h]
  rintro fault ⟨⟩
  exact ⟨error, rfl⟩

theorem not_isLegible {fault : Fault} (h : learnt codec query sequence received = .error fault)
    (hother : ∀ error, fault ≠ .smp error) : ¬ IsLegible codec query sequence received := by
  rw [isLegible_iff]
  intro hall
  obtain ⟨error, rfl⟩ := hall fault h
  exact hother error rfl

/-- The codec writes both questions about the bootloader, and neither of them is long. -/
structure WritesQuestions (codec : Cbor.Codec) : Prop where
  identity : ∃ body, codec.encode (.map []) = .ok body ∧ body.length < 65536
  mode : ∃ body, codec.encode (.map [(.text "query", .text "mode")]) = .ok body ∧
    body.length < 65536

theorem WritesQuestions.body (hcodec : WritesQuestions codec)
    (hquery : query = none ∨ query = modeQuery) :
    ∃ body, (bootloaderInfoRequest query).body codec = .ok body ∧ body.length < 65536 := by
  rcases hquery with rfl | rfl
  · exact hcodec.identity
  · exact hcodec.mode

theorem isSendable_iff_of_query (hcodec : WritesQuestions codec)
    (hquery : query = none ∨ query = modeQuery) :
    (bootloaderInfoRequest query).IsSendable codec sequence ↔ 0 ≤ sequence ∧ sequence < 256 := by
  refine ⟨fun h => h.sequence, fun h => ?_⟩
  have hbody := hcodec.body hquery
  rcases hquery with rfl | rfl
  · exact ⟨hbody, by decide, by decide, h, rfl⟩
  · exact ⟨hbody, by decide, by decide, h, rfl⟩

theorem request_receiving {r : Request} (h : r.IsSendable codec sequence) (received : Exchanged)
    (later : List Exchanged) (sent : List Bytes) (version : Int) (log : List Log.Entry) :
    ∃ packet log', Client.request codec Rehearsal.transport r
        (receiving (received :: later) sent version sequence log) =
      (received.mapError Fault.smp >>= fun reply => (r.outcome codec sequence reply).1,
        receiving later (sent ++ [packet]) version ((sequence + 1) % 256) log') := by
  have hsendable : r.IsSendable codec
      (receiving (received :: later) sent version sequence log).state.sequence := h
  obtain ⟨hwritable, packet, hpacket⟩ := (r.isSendable_iff codec version _).mp hsendable
  refine ⟨packet, ?_⟩
  rw [Client.request_of_packet Rehearsal.transport hwritable hpacket]
  cases received <;> exact ⟨_, rfl⟩

theorem bootloaderInfo_apply {σ : Type} (transport : Transport σ) (scene : Scene (Client σ)) :
    (Client.device codec transport).bootloaderInfo query scene =
      match Client.request codec transport (bootloaderInfoRequest query) scene with
      | (.ok entries, after) =>
        ((bootloaderInfoOf entries).mapError fun f => Fault.smp (.reply f), after)
      | (.error fault, after) => (.error fault, after) := by
  change (Client.request codec transport (bootloaderInfoRequest query) >>= fun entries =>
    Action.ofExcept ((bootloaderInfoOf entries).mapError fun f => Fault.smp (.reply f))) scene = _
  rw [Action.bind_apply]
  rcases Client.request codec transport (bootloaderInfoRequest query) scene with
    ⟨_ | entries, after⟩ <;> rfl

theorem bootloaderInfo_receiving (hcodec : WritesQuestions codec)
    (hquery : query = none ∨ query = modeQuery) (hsequence : 0 ≤ sequence ∧ sequence < 256)
    (received : Exchanged) (later : List Exchanged)
    (sent : List Bytes) (version : Int) (log : List Log.Entry) :
    ∃ packet log', (Client.device codec Rehearsal.transport).bootloaderInfo query
        (receiving (received :: later) sent version sequence log) =
      (learnt codec query sequence received,
        receiving later (sent ++ [packet]) version ((sequence + 1) % 256) log') := by
  obtain ⟨packet, log', hrequest⟩ := request_receiving
    ((isSendable_iff_of_query hcodec hquery).mpr hsequence) received later sent version log
  refine ⟨packet, log', ?_⟩
  rw [bootloaderInfo_apply, hrequest]
  cases received with
  | error error => rfl
  | ok reply =>
    cases houtcome : ((bootloaderInfoRequest query).outcome codec sequence reply).1 with
    | error fault =>
      rw [learnt_of_outcome_error houtcome]
      simp only [Except.mapError, bind, Except.bind, houtcome]
    | ok entries =>
      rw [learnt_of_outcome_ok houtcome]
      simp only [Except.mapError, bind, Except.bind, houtcome]

/-! ### Both exchanges -/

/-- How a discovery goes on after what is learnt from the first packet and perhaps the second; the
number is that of the packets. -/
inductive Discovers (codec : Cbor.Codec) (sequence : Int) (first second : Exchanged) :
    Nat → Except Fault Capabilities → Prop where
  | unidentified {error : Smp.Error}
      (identity : learnt codec none sequence first = .error (.smp error)) :
      Discovers codec sequence first second 1 (.ok {})
  | illegible {fault : Fault} (identity : learnt codec none sequence first = .error fault)
      (other : ∀ error, fault ≠ .smp error) : Discovers codec sequence first second 1 (.error fault)
  | foreign {info : BootloaderInfo} (identity : learnt codec none sequence first = .ok info)
      (name : isMcuBoot info.bootloader = false) :
      Discovers codec sequence first second 1 (.ok { bootloader := info.bootloader })
  | modeless {info : BootloaderInfo} {error : Smp.Error}
      (identity : learnt codec none sequence first = .ok info)
      (name : isMcuBoot info.bootloader = true)
      (mode : learnt codec modeQuery ((sequence + 1) % 256) second = .error (.smp error)) :
      Discovers codec sequence first second 2 (.ok { bootloader := info.bootloader })
  | modeIllegible {info : BootloaderInfo} {fault : Fault}
      (identity : learnt codec none sequence first = .ok info)
      (name : isMcuBoot info.bootloader = true)
      (mode : learnt codec modeQuery ((sequence + 1) % 256) second = .error fault)
      (other : ∀ error, fault ≠ .smp error) : Discovers codec sequence first second 2 (.error fault)
  | reported {info found : BootloaderInfo} {c : Capabilities}
      (identity : learnt codec none sequence first = .ok info)
      (name : isMcuBoot info.bootloader = true)
      (mode : learnt codec modeQuery ((sequence + 1) % 256) second = .ok found)
      (known : Capabilities.ofMode? info.bootloader found.mode found.noDowngrade = some c) :
      Discovers codec sequence first second 2 (.ok c)

theorem isWritable_of_learnt (h : learnt codec query sequence received = .ok info) :
    info.bootloader.isWritable = true ∧ info.mode.isWritable = true ∧
      info.noDowngrade.isWritable = true := by
  obtain ⟨_, entries, _, ⟨_, hwritable, _⟩, rfl⟩ := learnt_eq_ok.mp h
  have hgiven (key : String) : ((Value.get? key entries).getD .null).isWritable = true := by
    cases hget : Value.get? key entries with
    | none => rfl
    | some v => exact Value.isWritable_get? hwritable hget
  exact ⟨hgiven "bootloader", hgiven "mode", rfl⟩

theorem isModeNumber_of_learnt (h : learnt codec query sequence received = .ok info) :
    Capabilities.IsModeNumber info.mode := by
  obtain ⟨_, entries, _, hinforms, rfl⟩ := learnt_eq_ok.mp h
  exact hinforms.mode

theorem discovers_receiving (hcodec : WritesQuestions codec)
    (hsequence : 0 ≤ sequence ∧ sequence < 256) (first second : Exchanged)
    (later : List Exchanged) (sent : List Bytes) (version : Int) (log : List Log.Entry) :
    ∃ result packets after, discover (Client.device codec Rehearsal.transport)
        (receiving (first :: second :: later) sent version sequence log) = (result, after) ∧
      after.state.link.sent = sent ++ packets ∧
      Discovers codec sequence first second packets.length result := by
  obtain ⟨packet, log₁, hfirst⟩ := bootloaderInfo_receiving hcodec (.inl rfl) hsequence first
    (second :: later) sent version log
  unfold discover
  rw [Action.bind_apply, Action.attempt, hfirst]
  cases hidentity : learnt codec none sequence first with
  | error fault =>
    cases fault with
    | smp error => exact ⟨_, [packet], _, rfl, rfl, .unidentified hidentity⟩
    | _ => exact ⟨_, [packet], _, rfl, rfl, .illegible hidentity nofun⟩
  | ok info =>
    simp only [Action.bind_apply, Action.requireWritable_apply, (isWritable_of_learnt hidentity).1,
      if_true, Action.debug_apply]
    cases hname : isMcuBoot info.bootloader with
    | false => exact ⟨_, [packet], _, rfl, rfl, .foreign hidentity hname⟩
    | true =>
      -- only now there is a second packet, with the next number
      have hnext : 0 ≤ (sequence + 1) % 256 ∧ (sequence + 1) % 256 < 256 := by omega
      obtain ⟨next, log₂, hsecond⟩ := bootloaderInfo_receiving hcodec (.inr rfl) hnext second later
        (sent ++ [packet]) version
        (log₁ ++ [⟨.debug, .probe, "Bootloader name: " ++ info.bootloader.written⟩])
      have hsent : (sent ++ [packet]) ++ [next] = sent ++ [packet, next] := List.append_assoc ..
      simp only [Bool.not_true, Bool.false_eq_true, if_false, Action.bind_apply, Action.attempt]
      unfold receiving at hsecond ⊢
      rw [hsecond]
      cases hmode : learnt codec modeQuery ((sequence + 1) % 256) second with
      | error fault =>
        cases fault with
        | smp error =>
          exact ⟨_, [packet, next], _, rfl, hsent, .modeless hidentity hname hmode⟩
        | _ => exact ⟨_, [packet, next], _, rfl, hsent, .modeIllegible hidentity hname hmode nofun⟩
      | ok found =>
        obtain ⟨_, hmodeWritable, hdowngrade⟩ := isWritable_of_learnt hmode
        have hknown := Capabilities.ofMode?_of_isModeNumber (isModeNumber_of_learnt hmode)
          info.bootloader found.noDowngrade
        simp only [hknown, Action.bind_apply, Action.requireWritable_apply, hmodeWritable,
          hdowngrade, Bool.and_self, if_true]
        exact ⟨_, [packet, next], _, rfl, hsent, .reported hidentity hname hmode hknown⟩

/-! ### What the result rests on -/

def NamesMcuBoot (codec : Cbor.Codec) (sequence : Int) (first : Exchanged) : Prop :=
  ∃ reply entries, first = .ok reply ∧ Informs codec none sequence reply entries ∧
    Value.get? "bootloader" entries = some (.text "MCUboot")

def ReportsMode (codec : Cbor.Codec) (sequence : Int) (second : Exchanged) (mode : Int) : Prop :=
  ∃ reply entries, second = .ok reply ∧ Informs codec modeQuery sequence reply entries ∧
    Value.get? "mode" entries = some (.int mode)

/-- What is known of a device that says in two answers that it is MCUboot in this mode. -/
def Evidence (codec : Cbor.Codec) (sequence : Int) (first second : Exchanged) (mode : Int) :
    Prop :=
  NamesMcuBoot codec sequence first ∧ ReportsMode codec ((sequence + 1) % 256) second mode

theorem getD_null_eq {given : Option Value} {v : Value} (h : v ≠ .null) :
    given.getD .null = v ↔ given = some v := by
  cases given with
  | none => exact iff_of_false (fun heq => h heq.symm) nofun
  | some w => rw [Option.getD_some, Option.some.injEq]

theorem bootloader_infoOf {name : String} :
    (infoOf entries).bootloader = .text name ↔
      Value.get? "bootloader" entries = some (.text name) :=
  getD_null_eq (v := .text name) nofun

theorem mode_infoOf {mode : Int} :
    (infoOf entries).mode = .int mode ↔ Value.get? "mode" entries = some (.int mode) :=
  getD_null_eq (v := .int mode) nofun

theorem namesMcuBoot_iff :
    NamesMcuBoot codec sequence first ↔
      ∃ info, learnt codec none sequence first = .ok info ∧ isMcuBoot info.bootloader = true := by
  constructor
  · rintro ⟨reply, entries, hreply, hinforms, hname⟩
    refine ⟨infoOf entries, learnt_eq_ok.mpr ⟨reply, entries, hreply, hinforms, rfl⟩, ?_⟩
    exact (isMcuBoot_iff _).mpr (bootloader_infoOf.mpr hname)
  · rintro ⟨info, hlearnt, hname⟩
    obtain ⟨reply, entries, hreply, hinforms, rfl⟩ := learnt_eq_ok.mp hlearnt
    exact ⟨reply, entries, hreply, hinforms, bootloader_infoOf.mp ((isMcuBoot_iff _).mp hname)⟩

theorem not_namesMcuBoot_of_error {fault : Fault}
    (h : learnt codec none sequence first = .error fault) :
    ¬ NamesMcuBoot codec sequence first := by
  rw [namesMcuBoot_iff, h]
  rintro ⟨_, ⟨⟩, _⟩

theorem not_namesMcuBoot_of_ok (h : learnt codec none sequence first = .ok info)
    (hname : isMcuBoot info.bootloader = false) : ¬ NamesMcuBoot codec sequence first := by
  rw [namesMcuBoot_iff, h]
  rintro ⟨_, ⟨⟩, hother⟩
  exact Bool.false_ne_true (hname.symm.trans hother)

theorem reportsMode_iff {mode : Int} :
    ReportsMode codec sequence second mode ↔
      ∃ info, learnt codec modeQuery sequence second = .ok info ∧ info.mode = .int mode := by
  constructor
  · rintro ⟨reply, entries, hreply, hinforms, hmode⟩
    exact ⟨infoOf entries, learnt_eq_ok.mpr ⟨reply, entries, hreply, hinforms, rfl⟩,
      mode_infoOf.mpr hmode⟩
  · rintro ⟨info, hlearnt, hmode⟩
    obtain ⟨reply, entries, hreply, hinforms, rfl⟩ := learnt_eq_ok.mp hlearnt
    exact ⟨reply, entries, hreply, hinforms, mode_infoOf.mp hmode⟩

theorem not_reportsMode_of_error {fault : Fault} {mode : Int}
    (h : learnt codec modeQuery sequence second = .error fault) :
    ¬ ReportsMode codec sequence second mode := by
  rw [reportsMode_iff, h]
  rintro ⟨_, ⟨⟩, _⟩

theorem sequence_range_of_namesMcuBoot (h : NamesMcuBoot codec sequence first) :
    0 ≤ sequence ∧ sequence < 256 := by
  obtain ⟨_, _, _, ⟨⟨_, hanswers⟩, _, _⟩, _⟩ := h
  rw [← hanswers.sequence]
  exact Header.sequence_range_of_unpack? hanswers.header

structure RestsOn (codec : Cbor.Codec) (sequence : Int) (first second : Exchanged)
    (c : Capabilities) : Prop where
  noSwap : c.noSwap = .bool true ∧
      (Evidence codec sequence first second 4 ∨ Evidence codec sequence first second 5) ∨
    c.noSwap = .bool false ∧
      ¬ (Evidence codec sequence first second 4 ∨ Evidence codec sequence first second 5)
  allowRevert : c.allowRevert = .bool false ∧ Evidence codec sequence first second 4 ∨
    c.allowRevert = .bool true ∧ ¬ Evidence codec sequence first second 4

namespace Discovers

variable {n : Nat} {result : Except Fault Capabilities} {c : Capabilities}

theorem restsOn_of_no_evidence (h : ∀ mode, ¬ Evidence codec sequence first second mode)
    (hswap : c.noSwap = .bool false) (hrevert : c.allowRevert = .bool true) :
    RestsOn codec sequence first second c :=
  ⟨.inr ⟨hswap, not_or.mpr ⟨h 4, h 5⟩⟩, .inr ⟨hrevert, h 4⟩⟩

theorem evidence_iff {info found : BootloaderInfo} {mode : Int}
    (hidentity : learnt codec none sequence first = .ok info)
    (hname : isMcuBoot info.bootloader = true)
    (hmode : learnt codec modeQuery ((sequence + 1) % 256) second = .ok found) :
    Evidence codec sequence first second mode ↔ found.mode = .int mode := by
  rw [Evidence, and_iff_right (namesMcuBoot_iff.mpr ⟨info, hidentity, hname⟩), reportsMode_iff,
    hmode]
  simp only [Except.ok.injEq, exists_eq_left']

theorem restsOn (h : Discovers codec sequence first second n (.ok c)) :
    RestsOn codec sequence first second c := by
  cases h with
  | unidentified hidentity =>
    exact restsOn_of_no_evidence (fun _ h => not_namesMcuBoot_of_error hidentity h.1) rfl rfl
  | foreign hidentity hname =>
    exact restsOn_of_no_evidence (fun _ h => not_namesMcuBoot_of_ok hidentity hname h.1) rfl rfl
  | modeless _ _ hmode =>
    exact restsOn_of_no_evidence (fun _ h => not_reportsMode_of_error hmode h.2) rfl rfl
  | @reported info found _ hidentity hname hmode hknown =>
    rw [Capabilities.ofMode?_of_isModeNumber (isModeNumber_of_learnt hmode)] at hknown
    cases hknown
    constructor
    · rw [evidence_iff hidentity hname hmode, evidence_iff hidentity hname hmode]
      by_cases hdirect : found.mode = .int 4 ∨ found.mode = .int 5
      · exact .inl ⟨congrArg Value.bool (decide_eq_true hdirect), hdirect⟩
      · exact .inr ⟨congrArg Value.bool (decide_eq_false hdirect), hdirect⟩
    · rw [evidence_iff hidentity hname hmode]
      by_cases hdirect : found.mode = .int 4
      · exact .inl ⟨congrArg Value.bool (decide_eq_false (not_not.mpr hdirect)), hdirect⟩
      · exact .inr ⟨congrArg Value.bool (decide_eq_true hdirect), hdirect⟩

theorem of_evidence {mode : Int} (h : Discovers codec sequence first second n result)
    (hevidence : Evidence codec sequence first second mode) :
    ∃ c, result = .ok c ∧ c.noSwap = .bool (mode = 4 ∨ mode = 5) ∧
      c.allowRevert = .bool (mode ≠ 4) := by
  cases h with
  | unidentified hidentity | illegible hidentity =>
    exact absurd hevidence.1 (not_namesMcuBoot_of_error hidentity)
  | foreign hidentity hother => exact absurd hevidence.1 (not_namesMcuBoot_of_ok hidentity hother)
  | modeless _ _ hmode | modeIllegible _ _ hmode =>
    exact absurd hevidence.2 (not_reportsMode_of_error hmode)
  | reported hidentity hname hmode hknown =>
    have hgiven := (evidence_iff hidentity hname hmode).mp hevidence
    rw [Capabilities.ofMode?_of_isModeNumber (isModeNumber_of_learnt hmode)] at hknown
    cases hknown
    refine ⟨_, rfl, ?_, ?_⟩ <;> simp only [hgiven, Value.int.injEq, ne_eq]

theorem exists_ok_iff (h : Discovers codec sequence first second n result) :
    (∃ c, result = .ok c) ↔ IsLegible codec none sequence first ∧
      (NamesMcuBoot codec sequence first →
        IsLegible codec modeQuery ((sequence + 1) % 256) second) := by
  cases h with
  | unidentified hidentity =>
    refine iff_of_true ⟨_, rfl⟩ ⟨isLegible_of_smp hidentity, fun hnames => ?_⟩
    exact absurd hnames (not_namesMcuBoot_of_error hidentity)
  | illegible hidentity hother =>
    exact iff_of_false nofun fun hall => not_isLegible hidentity hother hall.1
  | foreign hidentity hname =>
    refine iff_of_true ⟨_, rfl⟩ ⟨isLegible_of_ok hidentity, fun hnames => ?_⟩
    exact absurd hnames (not_namesMcuBoot_of_ok hidentity hname)
  | modeless hidentity _ hmode =>
    exact iff_of_true ⟨_, rfl⟩ ⟨isLegible_of_ok hidentity, fun _ => isLegible_of_smp hmode⟩
  | modeIllegible hidentity hname hmode hother =>
    have hnames := namesMcuBoot_iff.mpr ⟨_, hidentity, hname⟩
    exact iff_of_false nofun fun hall => not_isLegible hmode hother (hall.2 hnames)
  | reported hidentity _ hmode =>
    exact iff_of_true ⟨_, rfl⟩ ⟨isLegible_of_ok hidentity, fun _ => isLegible_of_ok hmode⟩

theorem ne_smp (h : Discovers codec sequence first second n result) (error : Smp.Error) :
    result ≠ .error (.smp error) := by
  cases h with
  | illegible _ hother | modeIllegible _ _ _ hother =>
    rintro ⟨⟩
    exact hother error rfl
  | _ => nofun

theorem le_two (h : Discovers codec sequence first second n result) : n ≤ 2 := by
  cases h <;> decide

end Discovers

theorem stopped_of_not_sendable (hcodec : WritesQuestions codec)
    (hsequence : ¬ (0 ≤ sequence ∧ sequence < 256))
    (coming : List Exchanged) (sent : List Bytes) (version : Int) (log : List Log.Entry) :
    ∃ fault after, discover (Client.device codec Rehearsal.transport)
        (receiving coming sent version sequence log) = (.error fault, after) ∧
      after.state.link.sent = sent ∧ ∀ error, fault ≠ .smp error := by
  have hsendable : ¬ (bootloaderInfoRequest none).IsSendable codec
      (receiving coming sent version sequence log).state.sequence :=
    mt (isSendable_iff_of_query hcodec (.inl rfl)).mp hsequence
  obtain ⟨body, hbody, -⟩ := hcodec.body (.inl rfl)
  obtain ⟨fault, log', hrequest, hfault⟩ :=
    Client.request_of_not_isSendable Rehearsal.transport hbody hsendable
  have hinfo : (Client.device codec Rehearsal.transport).bootloaderInfo none
      (receiving coming sent version sequence log) =
        (.error fault, ⟨(receiving coming sent version sequence log).state.advanced, log'⟩) := by
    rw [bootloaderInfo_apply, hrequest]
  unfold discover
  rw [Action.bind_apply, Action.attempt, hinfo]
  rcases hfault with rfl | rfl <;> exact ⟨_, _, rfl, rfl, nofun⟩

/-- A discovery sends two packets at most, and the capabilities that it returns are those of a
device that swaps and reverts unless both answers say otherwise. It returns no failure of the
exchange, and it returns capabilities exactly where the client can send and the answers can be
written about. -/
theorem capabilities_rest_on_evidence {codec : Cbor.Codec} (hcodec : WritesQuestions codec)
    (first second : Exchanged) (later : List Exchanged) (sent : List Bytes)
    (version sequence : Int) (log : List Log.Entry) :
    ∃ result packets after, discover (Client.device codec Rehearsal.transport)
        (receiving (first :: second :: later) sent version sequence log) = (result, after) ∧
      after.state.link.sent = sent ++ packets ∧ packets.length ≤ 2 ∧
      (∀ c, result = .ok c → RestsOn codec sequence first second c) ∧
      (∀ mode, Evidence codec sequence first second mode →
        ∃ c, result = .ok c ∧ c.noSwap = .bool (mode = 4 ∨ mode = 5) ∧
          c.allowRevert = .bool (mode ≠ 4)) ∧
      ((∃ c, result = .ok c) ↔
        (0 ≤ sequence ∧ sequence < 256) ∧ IsLegible codec none sequence first ∧
        (NamesMcuBoot codec sequence first →
          IsLegible codec modeQuery ((sequence + 1) % 256) second)) ∧
      ∀ error, result ≠ .error (.smp error) := by
  by_cases hsequence : 0 ≤ sequence ∧ sequence < 256
  · obtain ⟨result, packets, after, hrun, hsent, h⟩ :=
      discovers_receiving hcodec hsequence first second later sent version log
    refine ⟨result, packets, after, hrun, hsent, h.le_two, ?_, ?_, ?_, h.ne_smp⟩
    · rintro c rfl
      exact h.restsOn
    · exact fun mode => h.of_evidence
    · rw [h.exists_ok_iff, and_iff_right hsequence]
  · obtain ⟨fault, after, hrun, hsent, hother⟩ :=
      stopped_of_not_sendable hcodec hsequence (first :: second :: later) sent version log
    refine ⟨.error fault, [], after, hrun, ?_, Nat.zero_le _, nofun, ?_, ?_, ?_⟩
    · rw [hsent, List.append_nil]
    · exact fun _ hevidence => absurd (sequence_range_of_namesMcuBoot hevidence.1) hsequence
    · exact iff_of_false nofun fun hall => hsequence hall.1
    · rintro error ⟨⟩
      exact hother error rfl

namespace Sample

def named : Bytes :=
  [0x09, 0, 0, 20, 0, 0, 0, 8, 0xA1, 0x6A, 0x62, 0x6F, 0x6F, 0x74, 0x6C, 0x6F, 0x61, 0x64, 0x65,
    0x72, 0x67, 0x4D, 0x43, 0x55, 0x62, 0x6F, 0x6F, 0x74]

def direct : Bytes := [0x09, 0, 0, 7, 0, 0, 1, 8, 0xA1, 0x64, 0x6D, 0x6F, 0x64, 0x65, 0x04]

def header (length sequence : Int) : Header where
  op := 1
  flags := 0
  length
  group := 0
  sequence
  command := 8

theorem answers_named : (bootloaderInfoRequest none).Answers Cbor.plain 0 named (header 20 0)
    [(.text "bootloader", .text "MCUboot")] where
  header := by decide
  op := rfl
  group := rfl
  sequence := rfl
  command := rfl
  whole := by decide
  map := .inr ⟨by decide, rfl⟩
  accepting := returnCode?_eq_none.mp rfl

theorem answers_direct : (bootloaderInfoRequest modeQuery).Answers Cbor.plain 1 direct (header 7 1)
    [(.text "mode", .int 4)] where
  header := by decide
  op := rfl
  group := rfl
  sequence := rfl
  command := rfl
  whole := by decide
  map := .inr ⟨by decide, rfl⟩
  accepting := returnCode?_eq_none.mp rfl

theorem writesQuestions : WritesQuestions Cbor.plain :=
  ⟨⟨[0xA0], rfl, by decide⟩,
    [0xA1, 0x65, 0x71, 0x75, 0x65, 0x72, 0x79, 0x64, 0x6D, 0x6F, 0x64, 0x65], rfl, by decide⟩

theorem evidence : Evidence Cbor.plain 0 (.ok named) (.ok direct) 4 :=
  ⟨⟨named, _, rfl, ⟨⟨_, answers_named⟩, by decide +kernel, .inl rfl⟩, rfl⟩,
    direct, _, rfl, ⟨⟨_, answers_direct⟩, by decide +kernel, .inr (.inl ⟨4, rfl⟩)⟩, rfl⟩

end Sample

theorem capabilities_rest_on_evidence_direct :
    (∃ c after, discover (Client.device Cbor.plain Rehearsal.transport)
        (receiving [.ok Sample.named, .ok Sample.direct] [] 1 0 []) = (.ok c, after) ∧
      c.noSwap = .bool true ∧ c.allowRevert = .bool false) ∧
    ∃ c after, discover (Client.device Cbor.plain Rehearsal.transport)
        (receiving [.ok Sample.named, .error .silent] [] 1 0 []) = (.ok c, after) ∧
      c.noSwap = .bool false ∧ c.allowRevert = .bool true := by
  constructor
  · obtain ⟨_, _, after, hrun, _, _, _, hevidence, _⟩ :=
      capabilities_rest_on_evidence Sample.writesQuestions (.ok Sample.named) (.ok Sample.direct)
        [] [] 1 0 []
    obtain ⟨c, rfl, hswap, hrevert⟩ :=
      hevidence 4 Sample.evidence
    exact ⟨c, after, hrun, hswap, hrevert⟩
  · obtain ⟨_, _, after, hrun, _, _, hrests, _, hreturns, _⟩ :=
      capabilities_rest_on_evidence Sample.writesQuestions (.ok Sample.named) (.error .silent)
        [] [] 1 0 []
    have hlegible : IsLegible Cbor.plain none 0 (.ok Sample.named) := by
      obtain ⟨_, hlearnt, _⟩ := namesMcuBoot_iff.mp Sample.evidence.1
      exact isLegible_of_ok hlearnt
    have hsilent (mode : Int) : ¬ Evidence Cbor.plain 0 (.ok Sample.named) (.error .silent) mode :=
      fun h => not_reportsMode_of_error rfl h.2
    obtain ⟨c, rfl⟩ := hreturns.mpr ⟨by decide, hlegible, fun _ => nofun⟩
    refine ⟨c, after, hrun, ?_, ?_⟩
    · exact ((hrests c rfl).noSwap.resolve_left fun h => h.2.elim (hsilent 4) (hsilent 5)).1
    · exact ((hrests c rfl).allowRevert.resolve_left fun h => hsilent 4 h.2).1

end Discovery
end Reflash
