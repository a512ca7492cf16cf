import Reflash.Device
import Reflash.Proofs.Slot
import Reflash.Proofs.Smp.Acceptance

/-! Listings of the slots. A device that lists its slots is read back record by record
in its order, if every number of its map can be written. A map without a listing lists
nothing, and a listing that cannot be read is a failure of the protocol, save where it
breaks off at a number beyond every bound. -/

namespace Reflash.Smp

abbrev Lists (items : List Value) (slots : List Slot) : Prop :=
  List.Forall₂ (fun item slot => Slot.ofEntry item = .ok slot) items slots

/-- What comes of a map that is asked for the slots: nothing where it has no listing, a failure
where it has something else in its place, a slot for each entry where all can be read, and otherwise
the failure of the first that cannot. -/
inductive Tells (entries : Value.Entries) : Except Fault (Option (List Slot)) → Prop where
  | nothing (h : Value.get? "images" entries = none ∨ Value.get? "images" entries = some .null) :
      Tells entries (.ok none)
  | noListing {v : Value} (h : Value.get? "images" entries = some v) (hnull : v ≠ .null)
      (harray : ∀ items, v ≠ .array items) :
      Tells entries (.error (.smp (.reply (.imagesNoList v.kind))))
  | slots {items : List Value} {slots : List Slot}
      (h : Value.get? "images" entries = some (.array items)) (hlists : Lists items slots) :
      Tells entries (.ok (some slots))
  | unreadable {before after : List Value} {item : Value} {slots : List Slot} {cause : Slot.Fault}
      (h : Value.get? "images" entries = some (.array (before ++ item :: after)))
      (hbefore : Lists before slots) (hitem : Slot.ofEntry item = .error cause) :
      Tells entries (.error (slotFault cause))

def IsProtocolFault (fault : Fault) : Prop :=
  ∃ error, fault = .smp error ∧ error.nature? = some .protocol

/-- A listing that breaks off at a number beyond every bound: the entries before can be read. -/
def BreaksOff (items : List Value) (cause : Value.NotWhole) : Prop :=
  ∃ before item after slots, items = before ++ item :: after ∧ Lists before slots ∧
    Slot.Overflows item cause

variable {codec : Cbor.Codec} {entries : Value.Entries} {items : List Value} {slots : List Slot}
  {fault : Fault}

/-! ### The slots in a map -/

theorem slotsOf_of_nothing
    (h : Value.get? "images" entries = none ∨ Value.get? "images" entries = some .null) :
    slotsOf entries = .ok none := by
  unfold slotsOf
  rcases h with h | h
  · rw [h]
    rfl
  · rw [h]
    rfl

theorem slotsOf_of_array (h : Value.get? "images" entries = some (.array items)) :
    slotsOf entries = ((items.mapM Slot.ofEntry).map some).mapError slotFault := by
  unfold slotsOf
  rw [h]
  rfl

theorem tells_slotsOf (entries : Value.Entries) : Tells entries (slotsOf entries) := by
  cases hget : Value.get? "images" entries with
  | none =>
    rw [slotsOf_of_nothing (.inl hget)]
    exact .nothing (.inl hget)
  | some v =>
    cases v with
    | null =>
      rw [slotsOf_of_nothing (.inr hget)]
      exact .nothing (.inr hget)
    | array items =>
      rw [slotsOf_of_array hget]
      cases hread : items.mapM Slot.ofEntry with
      | ok slots => exact .slots hget (Outcome.mapM_eq_ok.mp hread)
      | error cause =>
        obtain ⟨before, item, after, slots, rfl, hbefore, hitem⟩ := Outcome.mapM_eq_error.mp hread
        exact .unreadable hget (Outcome.mapM_eq_ok.mp hbefore) hitem
    | _ =>
      unfold slotsOf
      rw [hget]
      exact .noListing hget nofun nofun

theorem slotsOf_of_tells {r : Except Fault (Option (List Slot))} (h : Tells entries r) :
    slotsOf entries = r := by
  cases h with
  | nothing h => exact slotsOf_of_nothing h
  | @noListing v h hnull harray =>
    unfold slotsOf
    rw [h]
    cases v with
    | null => exact absurd rfl hnull
    | array items => exact absurd rfl (harray items)
    | _ => rfl
  | slots h hlists =>
    rw [slotsOf_of_array h, Outcome.mapM_eq_ok.mpr hlists]
    rfl
  | @unreadable before after item slots cause h hbefore hitem =>
    have hread : (before ++ item :: after).mapM Slot.ofEntry = .error cause :=
      Outcome.mapM_eq_error.mpr
        ⟨before, item, after, slots, rfl, Outcome.mapM_eq_ok.mpr hbefore, hitem⟩
    rw [slotsOf_of_array h, hread]
    rfl

theorem slotsOf_eq_none_iff :
    slotsOf entries = .ok none ↔
      Value.get? "images" entries = none ∨ Value.get? "images" entries = some .null := by
  constructor
  · intro h
    have htells := tells_slotsOf entries
    rw [h] at htells
    cases htells with
    | nothing h => exact h
  · intro h
    exact slotsOf_of_tells (.nothing h)

theorem slotsOf_eq_some_iff :
    slotsOf entries = .ok (some slots) ↔
      ∃ items, Value.get? "images" entries = some (.array items) ∧ Lists items slots := by
  constructor
  · intro h
    have htells := tells_slotsOf entries
    rw [h] at htells
    cases htells with
    | slots h hlists => exact ⟨_, h, hlists⟩
  · rintro ⟨items, h, hlists⟩
    exact slotsOf_of_tells (.slots h hlists)

theorem slotFault_endless_or (cause : Slot.Fault) :
    (∃ number, cause = .badNumber number ∧ number.isEndless = true ∧
      slotFault cause = .notWhole number) ∨ IsProtocolFault (slotFault cause) := by
  unfold slotFault
  split
  · exact .inl ⟨_, rfl, rfl, rfl⟩
  · exact .inl ⟨_, rfl, rfl, rfl⟩
  · exact .inr ⟨_, rfl, rfl⟩

theorem slotFault_of_endless {cause : Value.NotWhole} (h : cause.isEndless = true) :
    slotFault (.badNumber cause) = .notWhole cause := by
  cases cause with
  | infinite | tooGreat => rfl
  | noNumeral | noNumber => cases h

theorem slotsOf_eq_error (h : slotsOf entries = .error fault) :
    IsProtocolFault fault ∨ ∃ cause, fault = .notWhole cause := by
  have htells := tells_slotsOf entries
  rw [h] at htells
  cases htells with
  | noListing h => exact .inl ⟨_, rfl, rfl⟩
  | @unreadable _ _ _ _ cause h hbefore hitem =>
    rcases slotFault_endless_or cause with ⟨number, -, -, hfault⟩ | hfault
    · exact .inr ⟨number, hfault⟩
    · exact .inl hfault

theorem slotsOf_eq_notWhole_iff {cause : Value.NotWhole} :
    slotsOf entries = .error (.notWhole cause) ↔
      ∃ items, Value.get? "images" entries = some (.array items) ∧ BreaksOff items cause := by
  constructor
  · intro h
    have htells := tells_slotsOf entries
    rw [h] at htells
    generalize hfault : Fault.notWhole cause = fault at htells
    cases htells with
    | noListing => cases hfault
    | @unreadable before after item slots failure hget hbefore hitem =>
      rcases slotFault_endless_or failure with ⟨number, rfl, hendless, hnumber⟩ | hprotocol
      · cases hfault.trans hnumber
        exact ⟨_, hget, before, item, after, slots, rfl, hbefore,
          Slot.ofEntry_eq_endless_iff.mp ⟨hitem, hendless⟩⟩
      · rw [← hfault] at hprotocol
        obtain ⟨error, herror, -⟩ := hprotocol
        cases herror
  · rintro ⟨items, hget, before, item, after, slots, rfl, hbefore, hitem⟩
    obtain ⟨hentry, hendless⟩ := Slot.ofEntry_eq_endless_iff.mpr hitem
    rw [← slotFault_of_endless hendless]
    exact slotsOf_of_tells (.unreadable hget hbefore hentry)

/-! ### Maps with a listing -/

def listing (records : List Value.Entries) : Value.Entries :=
  [(.text "images", .array (records.map .map))]

theorem holds_listing (records : List Value.Entries) :
    Value.Holds (listing records) "images" (.array (records.map .map)) := by
  intro w
  simp [listing]

theorem isAccepting_listing (records : List Value.Entries) : IsAccepting (listing records) := by
  have hcode : Value.get? "rc" (listing records) = none := by
    apply Value.get?_of_omits
    intro w
    simp [listing]
  have herr : Value.get? "err" (listing records) = none := by
    apply Value.get?_of_omits
    intro w
    simp [listing]
  constructor
  · intro code h
    rw [hcode] at h
    cases h
  · intro err code h
    rw [herr] at h
    cases h

/-! ### Answers to the question about the slots -/

def Request.replyHeader (r : Request) (sequence flags version : Int) (payload : Bytes) :
    Header where
  op := r.op + 1
  flags
  length := payload.length
  group := r.group
  sequence
  command := r.command
  version

theorem Header.payload_packed {h h' : Header} {octets payload rest : Bytes}
    (hpack : h'.pack? = some octets) (hlength : h.length = payload.length) :
    h.payload (octets ++ payload ++ rest) = payload := by
  have hsize := Header.length_pack? hpack
  unfold Header.payload
  rw [List.append_assoc, List.drop_left' hsize, hlength, Int.toNat_natCast, List.take_left' rfl]

theorem Request.answers_packed_iff {r : Request} {sequence flags version : Int}
    {octets payload : Bytes} (rest : Bytes) (hop : 0 ≤ r.op + 1 ∧ r.op + 1 < 8)
    (hheader : (r.replyHeader sequence flags version payload).pack? = some octets)
    (hne : payload ≠ []) :
    (∃ h, r.Answers codec sequence (octets ++ payload ++ rest) h entries) ↔
      codec.decode payload = .ok (.map entries) ∧ IsAccepting entries := by
  have hunpack := Header.unpack?_pack? hheader (payload ++ rest)
  rw [← List.append_assoc] at hunpack
  constructor
  · rintro ⟨h, hanswers⟩
    have hlength : h.length = payload.length := by
      have hsame := hanswers.header
      rw [hunpack] at hsame
      cases hsame
      rfl
    have hmap := hanswers.map
    rw [Header.payload_packed hheader hlength] at hmap
    rcases hmap with ⟨hnil, -⟩ | ⟨-, hmap⟩
    · exact absurd hnil hne
    · exact ⟨hmap, hanswers.accepting⟩
  · rintro ⟨hmap, haccepting⟩
    refine ⟨_, hunpack, ?_, rfl, rfl, rfl, ?_, ?_, haccepting⟩
    · exact Int.emod_eq_of_lt hop.1 hop.2
    · show Header.size + (payload.length : Int) ≤ (octets ++ payload ++ rest).length
      have hsize := Header.length_pack? hheader
      rw [List.length_append, List.length_append, hsize]
      omega
    · right
      rw [Header.payload_packed hheader rfl]
      exact ⟨hne, hmap⟩

namespace Client

variable {σ : Type} {transport : Transport σ} {scene : Scene (Client σ)}

theorem listImages_eq (codec : Cbor.Codec) (transport : Transport σ) (scene : Scene (Client σ)) :
    ((device codec transport).listImages scene).1 =
      (request codec transport imageStateRequest scene).1 >>= slotsOf := by
  show ((request codec transport imageStateRequest >>= fun entries =>
    Action.ofExcept (slotsOf entries)) scene).1 = _
  rw [Action.bind_apply]
  rcases request codec transport imageStateRequest scene with ⟨result, later⟩
  cases result with
  | error fault => rfl
  | ok entries => rfl

theorem listImages_of_ok (h : (request codec transport imageStateRequest scene).1 = .ok entries) :
    ((device codec transport).listImages scene).1 = slotsOf entries := by
  rw [listImages_eq, h]
  rfl

theorem request_packed_iff {r : Request} {flags version : Int} {octets payload rest : Bytes}
    {found : Value.Entries} (hop : 0 ≤ r.op + 1 ∧ r.op + 1 < 8)
    (hcontent : r.content.isWritable = true)
    (hheader : (r.replyHeader scene.state.sequence flags version payload).pack? = some octets)
    (hreply : Receives codec transport r scene (octets ++ payload ++ rest)) (hne : payload ≠ [])
    (hmap : codec.decode payload = .ok (.map entries)) :
    (request codec transport r scene).1 = .ok found ↔
      found = entries ∧ IsAccepting entries ∧ (Value.map entries).isWritable = true := by
  rw [request_eq_ok hreply, Request.answers_packed_iff rest hop hheader hne, and_assoc,
    and_iff_right hcontent, hmap]
  constructor
  · rintro ⟨hfound, hanswer⟩
    cases hfound
    exact ⟨rfl, hanswer⟩
  · rintro ⟨rfl, hanswer⟩
    exact ⟨rfl, hanswer⟩

/-- Once the device has answered, it lists nothing exactly where its map has no listing, and a slot
for each entry exactly where each can be read. All else is a failure of the protocol, but for a
listing that breaks off at a number beyond every bound. -/
theorem listImages_outcomes (codec : Cbor.Codec) (transport : Transport σ)
    {scene : Scene (Client σ)} {entries : Value.Entries}
    (h : (request codec transport imageStateRequest scene).1 = .ok entries) :
    (((device codec transport).listImages scene).1 = .ok none ↔
      Value.get? "images" entries = none ∨ Value.get? "images" entries = some .null) ∧
    (∀ slots, ((device codec transport).listImages scene).1 = .ok (some slots) ↔
      ∃ items, Value.get? "images" entries = some (.array items) ∧ Lists items slots) ∧
    (∀ fault, ((device codec transport).listImages scene).1 = .error fault →
      IsProtocolFault fault ∨ ∃ cause, fault = .notWhole cause) ∧
    ∀ cause, ((device codec transport).listImages scene).1 = .error (.notWhole cause) ↔
      ∃ items, Value.get? "images" entries = some (.array items) ∧ BreaksOff items cause := by
  rw [listImages_of_ok h]
  refine ⟨slotsOf_eq_none_iff, ?_, ?_, fun cause => slotsOf_eq_notWhole_iff⟩
  · intro slots
    exact slotsOf_eq_some_iff
  · intro fault hfault
    exact slotsOf_eq_error hfault

namespace Sample

theorem body_imageState : imageStateRequest.body Cbor.plain = .ok [0xA0] := rfl

theorem receives_imageState (reply : Bytes) :
    Receives Cbor.plain (replying reply) imageStateRequest Sample.scene reply :=
  ⟨_, ⟨_, body_imageState, rfl⟩, rfl⟩

theorem request_imageState {octets payload rest : Bytes}
    (hheader : (imageStateRequest.replyHeader 0 0 1 payload).pack? = some octets)
    (hne : payload ≠ []) (hmap : Cbor.plain.decode payload = .ok (.map entries))
    (haccepting : returnCode? entries = none) (hwritable : (Value.map entries).isWritable = true) :
    (Client.request Cbor.plain (replying (octets ++ payload ++ rest)) imageStateRequest
      Sample.scene).1 = .ok entries := by
  rw [request_packed_iff (by decide) rfl hheader (receives_imageState _) hne hmap]
  exact ⟨rfl, returnCode?_eq_none.mp haccepting, hwritable⟩

def worded : Value.Entries := [(.text "images", .text "none")]

def wordedHeader : Bytes := [0x09, 0, 0, 0x0D, 0, 1, 0, 0]

def wordedPayload : Bytes :=
  [0xA1, 0x66, 0x69, 0x6D, 0x61, 0x67, 0x65, 0x73, 0x64, 0x6E, 0x6F, 0x6E, 0x65]

def endless : Value.Entries :=
  [(.text "images", .array [.map [(.text "slot", .float ⟨0x7FF0000000000000⟩)]])]

def endlessHeader : Bytes := [0x09, 0, 0, 0x12, 0, 1, 0, 0]

def endlessPayload : Bytes :=
  [0xA1, 0x66, 0x69, 0x6D, 0x61, 0x67, 0x65, 0x73, 0x81, 0xA1, 0x64, 0x73, 0x6C, 0x6F, 0x74, 0xF9,
    0x7C, 0x00]

end Sample

theorem listImages_outcomes_worded :
    ∃ fault, ((device Cbor.plain (Sample.replying (Sample.wordedHeader ++ Sample.wordedPayload ++
      []))).listImages Sample.scene).1 = .error fault ∧ IsProtocolFault fault := by
  have hrequest : (request Cbor.plain (Sample.replying (Sample.wordedHeader ++
      Sample.wordedPayload ++ [])) imageStateRequest Sample.scene).1 = .ok Sample.worded :=
    Sample.request_imageState (by decide +kernel) (by decide)
      (Cbor.plain_decode (by decide +kernel)) rfl (by decide +kernel)
  have hget : Value.get? "images" Sample.worded = some (.text "none") := by decide +kernel
  obtain ⟨hnone, hslots, herror, hendless⟩ := listImages_outcomes _ _ hrequest
  rw [hget] at hnone
  simp only [hget] at hslots hendless
  cases hresult : ((device Cbor.plain (Sample.replying (Sample.wordedHeader ++
      Sample.wordedPayload ++ []))).listImages Sample.scene).1 with
  | error fault =>
    rcases herror fault hresult with hprotocol | ⟨cause, rfl⟩
    · exact ⟨fault, rfl, hprotocol⟩
    · obtain ⟨items, hitems, -⟩ := (hendless cause).mp hresult
      cases hitems
  | ok listing =>
    cases listing with
    | none => rcases hnone.mp hresult with h | h <;> cases h
    | some slots =>
      obtain ⟨items, hitems, -⟩ := (hslots slots).mp hresult
      cases hitems

/-- The number of a slot may be infinite, and what then fails is not the protocol. -/
theorem listImages_breaks_off :
    ¬ ∀ (transport : Transport Unit) (scene : Scene (Client Unit)) (entries : Value.Entries),
      (request Cbor.plain transport imageStateRequest scene).1 = .ok entries →
        ∀ fault, ((device Cbor.plain transport).listImages scene).1 = .error fault →
          IsProtocolFault fault := by
  intro h
  have hrequest : (request Cbor.plain (Sample.replying (Sample.endlessHeader ++
      Sample.endlessPayload ++ [])) imageStateRequest Sample.scene).1 = .ok Sample.endless :=
    Sample.request_imageState (by decide +kernel) (by decide)
      (Cbor.plain_decode (by decide +kernel)) rfl (by decide +kernel)
  have hresult : ((device Cbor.plain (Sample.replying (Sample.endlessHeader ++
      Sample.endlessPayload ++ []))).listImages Sample.scene).1 =
        .error (.notWhole .infinite) := by
    rw [listImages_of_ok hrequest]
    rfl
  obtain ⟨error, herror, -⟩ := h _ _ _ hrequest _ hresult
  cases herror

section Packed

variable {flags version : Int} {octets payload rest : Bytes} {records : List Value.Entries}

theorem listImages_of_packed
    (hheader : (imageStateRequest.replyHeader scene.state.sequence flags version payload).pack? =
      some octets)
    (hreply : Receives codec transport imageStateRequest scene (octets ++ payload ++ rest))
    (hne : payload ≠ []) (hmap : codec.decode payload = .ok (.map entries))
    (haccepting : IsAccepting entries) (hwritable : (Value.map entries).isWritable = true)
    (hlisting : Value.Holds entries "images" (.array (records.map .map)))
    (hslots : List.Forall₂ Slot.Describes records slots) :
    ((device codec transport).listImages scene).1 = .ok (some slots) := by
  have hrequest : (request codec transport imageStateRequest scene).1 = .ok entries :=
    (request_packed_iff (by decide) rfl hheader hreply hne hmap).mpr ⟨rfl, haccepting, hwritable⟩
  have hlists : Lists (records.map .map) slots := by
    rw [Lists, List.forall₂_map_left_iff]
    exact hslots.imp fun _ _ => Slot.ofEntry_of_describes
  rw [listImages_of_ok hrequest]
  exact slotsOf_eq_some_iff.mpr ⟨_, Value.get?_of_holds hlisting, hlists⟩

theorem accepting_of_listImages {listing : Option (List Slot)}
    (hheader : (imageStateRequest.replyHeader scene.state.sequence flags version payload).pack? =
      some octets)
    (hreply : Receives codec transport imageStateRequest scene (octets ++ payload ++ rest))
    (hne : payload ≠ []) (hmap : codec.decode payload = .ok (.map entries))
    (h : ((device codec transport).listImages scene).1 = .ok listing) :
    IsAccepting entries ∧ (Value.map entries).isWritable = true := by
  rw [listImages_eq, Outcome.bind_eq_ok] at h
  obtain ⟨found, hrequest, -⟩ := h
  exact ((request_packed_iff (by decide) rfl hheader hreply hne hmap).mp hrequest).2

end Packed

/-- A device that answers with a map of its slots, each described by an entry, is read back as
those slots in that order, if the map carries no return code and each of its numbers can be
written. -/
theorem listImages_reads_slots {codec : Cbor.Codec} (transport : Transport σ)
    {scene : Scene (Client σ)} {flags version : Int} {octets payload rest : Bytes}
    {entries : Value.Entries} {records : List Value.Entries} {slots : List Slot}
    (hinverts : codec.Inverts (.map entries)) (hpayload : codec.encode (.map entries) = .ok payload)
    (hne : payload ≠ [])
    (hheader : (imageStateRequest.replyHeader scene.state.sequence flags version payload).pack? =
      some octets)
    (hreply : Receives codec transport imageStateRequest scene (octets ++ payload ++ rest))
    (hlisting : Value.Holds entries "images" (.array (records.map .map)))
    (hslots : List.Forall₂ Slot.Describes records slots) :
    ((device codec transport).listImages scene).1 = .ok (some slots) ↔
      IsAccepting entries ∧ (Value.map entries).isWritable = true := by
  have hmap := hinverts payload hpayload
  constructor
  · intro h
    exact accepting_of_listImages hheader hreply hne hmap h
  · rintro ⟨haccepting, hwritable⟩
    exact listImages_of_packed hheader hreply hne hmap haccepting hwritable hlisting hslots

namespace Sample

def described : List Value.Entries :=
  [[(.text "slot", .int 0), (.text "active", .bool true), (.text "version", .text "1.0"),
      (.text "hash", .bytes [0xAA, 0xBB]), (.text "fw", .int 5)],
    [(.text "image", .int 1), (.text "slot", .int 1)]]

def running : Slot where
  core := 0
  number := 0
  hash := [0xAA, 0xBB]
  version := "1.0"
  active := true

def spare : Slot where
  core := 1
  number := 1

theorem describes_described : List.Forall₂ Slot.Describes described [running, spare] := by
  have hrunning : Slot.Arranges running
      [(.text "slot", .int 0), (.text "hash", .bytes [0xAA, 0xBB]), (.text "version", .text "1.0"),
        (.text "active", .bool true)]
      [(.text "image", .int 0), (.text "pending", .bool false), (.text "permanent", .bool false),
        (.text "confirmed", .bool false), (.text "bootable", .bool false)]
      [(.text "fw", .int 5)]
      [(.text "slot", .int 0), (.text "active", .bool true), (.text "version", .text "1.0"),
        (.text "hash", .bytes [0xAA, 0xBB]), (.text "fw", .int 5)] :=
    ⟨by decide +kernel, by decide +kernel, by decide +kernel, by decide +kernel⟩
  have hspare : Slot.Arranges spare [(.text "image", .int 1), (.text "slot", .int 1)]
      [(.text "hash", .bytes []), (.text "version", .text ""), (.text "active", .bool false),
        (.text "pending", .bool false), (.text "permanent", .bool false),
        (.text "confirmed", .bool false), (.text "bootable", .bool false)]
      [] [(.text "image", .int 1), (.text "slot", .int 1)] :=
    ⟨by decide +kernel, by decide +kernel, by decide +kernel, by decide +kernel⟩
  exact .cons (Slot.describes_of_arranges hrunning) (.cons (Slot.describes_of_arranges hspare) .nil)

def describedHeader : Bytes := [0x09, 0, 0, 0x3E, 0, 1, 0, 0]

def describedPayload : Bytes :=
  [0xA1, 0x66, 0x69, 0x6D, 0x61, 0x67, 0x65, 0x73, 0x82, 0xA5, 0x64, 0x73, 0x6C, 0x6F, 0x74, 0x00,
    0x66, 0x61, 0x63, 0x74, 0x69, 0x76, 0x65, 0xF5, 0x67, 0x76, 0x65, 0x72, 0x73, 0x69, 0x6F, 0x6E,
    0x63, 0x31, 0x2E, 0x30, 0x64, 0x68, 0x61, 0x73, 0x68, 0x42, 0xAA, 0xBB, 0x62, 0x66, 0x77, 0x05,
    0xA2, 0x65, 0x69, 0x6D, 0x61, 0x67, 0x65, 0x01, 0x64, 0x73, 0x6C, 0x6F, 0x74, 0x01]

def distant (k : Nat) : Slot where
  core := 0
  number := (Nat.pow 256 k - 1 : Nat)

theorem describes_distant (k : Nat) :
    List.Forall₂ Slot.Describes [[(.text "slot", .int (distant k).number)]] [distant k] := by
  have hdistant : Slot.Describes [(.text "slot", .int (distant k).number)] (distant k) := by
    refine ⟨.omitted ?_, ?_, .omitted ?_, .omitted ?_, .omitted ?_, .omitted ?_, .omitted ?_,
      .omitted ?_, .omitted ?_⟩
    all_goals
      intro w
      simp
  exact .cons hdistant .nil

def distantHeader : Bytes := [0x09, 0, 0x07, 0x13, 0, 1, 0, 0]

def distantPayload (k : Nat) : Bytes :=
  [0xA1, 0x66, 0x69, 0x6D, 0x61, 0x67, 0x65, 0x73, 0x81,
    0xA1, 0x64, 0x73, 0x6C, 0x6F, 0x74, 0xC2] ++
    (Cbor.writeHead 2 k ++ List.replicate k 0xFF)

theorem writeInt_distant {k : Nat} (hk : 9 ≤ k) :
    Cbor.writeInt (distant k).number =
      0xC2 :: (Cbor.writeHead 2 k ++ List.replicate k 0xFF) := by
  have hpow : Nat.pow 256 9 ≤ Nat.pow 256 k := Nat.pow_le_pow_right (by decide) hk
  have hbeyond : ¬ Nat.pow 256 k - 1 < Nat.pow 2 64 := by
    have hnine : Nat.pow 2 64 < Nat.pow 256 9 := by decide
    omega
  show Cbor.writeWhole 0 (Nat.pow 256 k - 1) = _
  rw [Cbor.writeWhole, if_neg hbeyond, Bytes.minimalBE_pow_pred, Cbor.writeBytes,
    List.length_replicate]
  rfl

theorem encode_distant {k : Nat} (hk : 9 ≤ k) :
    Cbor.plain.encode (.map (listing [[(.text "slot", .int (distant k).number)]])) =
      .ok (distantPayload k) := by
  have hencode (i : Int) : Cbor.plain.encode (.map (listing [[(.text "slot", .int i)]])) =
      .ok ([0xA1, 0x66, 0x69, 0x6D, 0x61, 0x67, 0x65, 0x73, 0x81, 0xA1, 0x64, 0x73, 0x6C, 0x6F,
        0x74] ++ (Cbor.writeInt i ++ [] ++ [] ++ [])) := rfl
  rw [hencode, writeInt_distant hk]
  simp only [List.append_nil]
  rfl

end Sample

theorem listImages_reads_slots_described :
    ((device Cbor.plain (Sample.replying (Sample.describedHeader ++ Sample.describedPayload ++
      [0xFF]))).listImages Sample.scene).1 = .ok (some [Sample.running, Sample.spare]) := by
  have hencode : Cbor.plain.encode (.map (listing Sample.described)) =
      .ok Sample.describedPayload := Outcome.eq_ok_of_toOption (by decide +kernel)
  have hdecode : Cbor.plain.decode Sample.describedPayload =
      .ok (.map (listing Sample.described)) := Cbor.plain_decode (by decide +kernel)
  have hheader : (imageStateRequest.replyHeader 0 0 1 Sample.describedPayload).pack? =
      some Sample.describedHeader := by decide +kernel
  refine (listImages_reads_slots _ (Cbor.inverts_of_decode hencode hdecode) hencode (by decide)
    hheader (Sample.receives_imageState _) (holds_listing _) Sample.describes_described).mpr
      ⟨isAccepting_listing _, ?_⟩
  decide +kernel

/-- A slot whose number has more than 4300 digits is not read back. -/
theorem listImages_loses_distant :
    ¬ ∀ (transport : Transport Unit) (scene : Scene (Client Unit)) (flags version : Int)
        (octets payload rest : Bytes) (entries : Value.Entries) (records : List Value.Entries)
        (slots : List Slot),
      Cbor.plain.Inverts (.map entries) → Cbor.plain.encode (.map entries) = .ok payload →
        (imageStateRequest.replyHeader scene.state.sequence flags version payload).pack? =
            some octets →
          Receives Cbor.plain transport imageStateRequest scene (octets ++ payload ++ rest) →
          IsAccepting entries → Value.Holds entries "images" (.array (records.map .map)) →
          List.Forall₂ Slot.Describes records slots →
            ((device Cbor.plain transport).listImages scene).1 = .ok (some slots) := by
  intro h
  have hencode := Sample.encode_distant (k := 1792) (by decide)
  have hdecode : Cbor.plain.decode (Sample.distantPayload 1792) =
      .ok (.map (listing [[(.text "slot", .int (Sample.distant 1792).number)]])) :=
    Cbor.plain_decode (by decide +kernel)
  have hheader : (imageStateRequest.replyHeader Sample.scene.state.sequence 0 1
      (Sample.distantPayload 1792)).pack? = some Sample.distantHeader := by decide +kernel
  have hreply :=
    Sample.receives_imageState (Sample.distantHeader ++ Sample.distantPayload 1792 ++ [])
  have hok := h _ _ _ _ _ _ _ _ _ _ (Cbor.inverts_of_decode hencode hdecode) hencode hheader
    hreply (isAccepting_listing _) (holds_listing _) (Sample.describes_distant 1792)
  have hwritable := (accepting_of_listImages hheader hreply (by decide) hdecode hok).2
  have hlong : (Value.map (listing
      [[(.text "slot", .int (Sample.distant 1792).number)]])).isWritable = false := by
    decide +kernel
  rw [hlong] at hwritable
  exact Bool.false_ne_true hwritable

end Client

end Reflash.Smp
