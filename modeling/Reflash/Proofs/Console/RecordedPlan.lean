import Reflash.Proofs.Console.Record
import Reflash.Proofs.Validation.Handover

/-! Plans as records for other programs. All that a report says is made of exact scalars
but for the name that the bootloader gives itself. The mode is a number or the answer is
refused, and the downgrade is made a flag; the name is taken as it comes, so that a
plan can be printed exactly if the name can. -/

namespace Reflash

namespace Action

variable {σ α β : Type} {scene after : Scene σ}

theorem ok_of_bind {action : Action σ α} {next : α → Action σ β} {b : β}
    (h : ((action >>= next) scene).1 = .ok b) :
    ∃ a after, action scene = (.ok a, after) ∧ (next a after).1 = .ok b := by
  rw [bind_apply] at h
  rcases hrun : action scene with ⟨fault | a, after⟩
  · rw [hrun] at h
    cases h
  · rw [hrun] at h
    exact ⟨a, after, rfl, h⟩

theorem ok_of_attempt {action : Action σ α} {a : α}
    (h : action.attempt scene = (.ok (.ok a), after)) : (action scene).1 = .ok a := by
  unfold attempt at h
  split at h
  · rename_i hrun
    cases h
    rw [hrun]
  · cases h
  · cases h

end Action

open Reflash.Action

structure Capabilities.IsReported (c : Capabilities) : Prop where
  noSwap : ∃ x, c.noSwap = .bool x
  allowRevert : ∃ x, c.allowRevert = .bool x
  mode : IsModeNumber c.mode
  noDowngrade : ∃ x, c.noDowngrade = .bool x

namespace Report

open Value (Admits isMadeOf areMadeOf_map)

variable {leaf key : Value → Bool} {r : Report} {c : Capabilities}

theorem isMadeOf_capabilitiesValue (h : Admits leaf key) (hc : c.IsReported) :
    isMadeOf leaf key (capabilitiesValue c) = isMadeOf leaf key c.bootloader := by
  obtain ⟨⟨noSwap, hswap⟩, ⟨allowRevert, hrevert⟩, hmode, ⟨noDowngrade, hdowngrade⟩⟩ := hc
  have hnumber : isMadeOf leaf key c.mode = true := by
    rcases hmode with hmode | ⟨i, hmode⟩ | ⟨x, hmode⟩ <;> rw [hmode]
    · exact h.null
    · exact h.int i
    · exact h.bool x
  rw [capabilitiesValue, isMadeOf_record h]
  simp only [List.all_cons, List.all_nil, hnumber, hswap, hrevert, hdowngrade, isMadeOf, h.bool,
    h.text, Bool.and_true]

theorem plain_capabilitiesValue_eq_error_iff {cause : Value.Unprintable} (hc : c.IsReported) :
    (capabilitiesValue c).plain = .error cause ↔ c.bootloader.plain = .error cause := by
  obtain ⟨⟨noSwap, hswap⟩, ⟨allowRevert, hrevert⟩, hmode, ⟨noDowngrade, hdowngrade⟩⟩ := hc
  have hnumber : c.mode.plain.isOk = true := by
    rcases hmode with hmode | ⟨i, hmode⟩ | ⟨x, hmode⟩ <;> rw [hmode] <;> rfl
  refine plain_eq_error_iff List.mem_cons_self ?_
  intro f hf
  simp only [List.mem_cons, List.not_mem_nil, or_false, hswap, hrevert, hdowngrade] at hf
  rcases hf with rfl | rfl | rfl | rfl | rfl | rfl
  · exact .inr rfl
  · exact .inl hnumber
  · exact .inl rfl
  · exact .inl rfl
  · exact .inl rfl
  · exact .inl rfl

theorem capabilities_mem_fields (r : Report) :
    ("capabilities", capabilitiesValue r.capabilities) ∈ r.fields := by
  simp [fields]

theorem isMadeOf_field (h : Admits leaf key) {f : String × Value} (hf : f ∈ r.fields) :
    isMadeOf leaf key f.2 = true ∨ f.2 = capabilitiesValue r.capabilities := by
  have hstep (s : Step) : isMadeOf leaf key (stepValue s) = true := by
    simp [stepValue, isMadeOf_record h, isMadeOf, h.text, h.int]
  have htarget (t : Target) : isMadeOf leaf key (targetValue t) = true := by
    simp [targetValue, isMadeOf_record h, isMadeOf, h.text, h.int]
  have hnotice (n : Notice) : isMadeOf leaf key (noticeValue n) = true := by
    simp [noticeValue, isMadeOf_record h, isMadeOf, h.text]
  simp only [fields, List.mem_cons, List.not_mem_nil, or_false] at hf
  rcases hf with rfl | rfl | rfl | rfl | rfl | rfl | rfl | rfl | rfl
  · exact .inl (h.bool _)
  · exact .inl (h.text _)
  · exact .inl (areMadeOf_map hstep _)
  · exact .inr rfl
  · exact .inl (areMadeOf_map h.int _)
  · exact .inl (areMadeOf_map htarget _)
  · exact .inl (areMadeOf_map hnotice _)
  · exact .inl (areMadeOf_map h.text _)
  · exact .inl (areMadeOf_map h.text _)

theorem all_fields (h : Admits leaf key) (hc : r.capabilities.IsReported) :
    (r.fields.all fun f => isMadeOf leaf key f.2) =
      isMadeOf leaf key r.capabilities.bootloader := by
  rw [← isMadeOf_capabilitiesValue h hc, Bool.eq_iff_iff, List.all_eq_true]
  constructor
  · exact fun hall => hall _ r.capabilities_mem_fields
  · intro hcapabilities f hf
    rcases isMadeOf_field h hf with hmade | hsame
    · exact hmade
    · rw [hsame]
      exact hcapabilities

theorem isOk_planRecord (hc : r.capabilities.IsReported) (pending : List Step) :
    (Console.planRecord r pending).isOk = r.capabilities.bootloader.isPrintable := by
  have horder : Value.areMadeOf Value.isScalar Value.isScalar
      (pending.map fun s => .text s.describe) = true :=
    areMadeOf_map (fun _ => rfl) _
  rw [Console.planRecord, Value.isOk_plain, isMadeOf_record Value.admits_scalar, List.all_append,
    all_fields Value.admits_scalar hc, List.all_cons, isMadeOf, horder, List.all_nil, Bool.and_true,
    Bool.and_true]

theorem planRecord_eq_error_iff {pending : List Step} {cause : Value.Unprintable}
    (hc : r.capabilities.IsReported) :
    Console.planRecord r pending = .error cause ↔
      r.capabilities.bootloader.plain = .error cause := by
  rw [← plain_capabilitiesValue_eq_error_iff hc]
  refine plain_eq_error_iff (List.mem_append_left _ r.capabilities_mem_fields) ?_
  intro f hf
  rw [Value.isOk_plain]
  rcases List.mem_append.mp hf with hf | hf
  · exact isMadeOf_field Value.admits_scalar hf
  · cases List.mem_singleton.mp hf
    exact .inl (areMadeOf_map (fun _ => rfl) pending)

end Report

namespace Discovery

variable {σ : Type} {device : Device σ} {scene : Scene σ} {c : Capabilities}

inductive Found (device : Device σ) (scene : Scene σ) : Capabilities → Prop where
  | assumed : Found device scene {}
  | named {identity : BootloaderInfo}
      (answer : (device.bootloaderInfo none scene).1 = .ok identity) :
      Found device scene { bootloader := identity.bootloader }
  | reported {identity info : BootloaderInfo} {later : Scene σ} {c : Capabilities}
      (answer : (device.bootloaderInfo none scene).1 = .ok identity)
      (mode : (device.bootloaderInfo modeQuery later).1 = .ok info)
      (known : Capabilities.ofMode? identity.bootloader info.mode info.noDowngrade = some c) :
      Found device scene c

theorem found_of_discover (h : (discover device scene).1 = .ok c) : Found device scene c := by
  obtain ⟨identity, after, hidentity, h⟩ := ok_of_bind h
  cases identity with
  | error e =>
    cases h
    exact .assumed
  | ok identity =>
    have hanswer := ok_of_attempt hidentity
    obtain ⟨_, _, _, h⟩ := ok_of_bind h
    obtain ⟨_, later, _, h⟩ := ok_of_bind h
    split at h
    · cases h
      exact .named hanswer
    · obtain ⟨info, last, hinfo, h⟩ := ok_of_bind h
      cases info with
      | error e =>
        cases h
        exact .named hanswer
      | ok info =>
        cases hknown : Capabilities.ofMode? identity.bootloader info.mode info.noDowngrade with
        | none =>
          simp only [hknown] at h
          cases h
        | some known =>
          simp only [hknown] at h
          obtain ⟨_, _, _, h⟩ := ok_of_bind h
          cases h
          exact .reported hanswer (ok_of_attempt hinfo) hknown

section Client

open Smp

variable {codec : Cbor.Codec} {transport : Transport σ} {query : Query} {scene : Scene (Client σ)}

theorem ok_of_bootloaderInfo {info : BootloaderInfo}
    (h : ((Client.device codec transport).bootloaderInfo query scene).1 = .ok info) :
    ∃ entries,
      (Client.request codec transport (bootloaderInfoRequest query) scene).1 = .ok entries ∧
      Capabilities.IsModeNumber ((Value.get? "mode" entries).getD .null) ∧
      info = infoOf entries := by
  rw [bootloaderInfo_apply] at h
  rcases hrequest : Client.request codec transport (bootloaderInfoRequest query) scene with
    ⟨_ | entries, after⟩
  · rw [hrequest] at h
    cases h
  · rw [hrequest] at h
    exact ⟨entries, rfl, bootloaderInfoOf_eq_ok.mp (Outcome.mapError_eq_ok.mp h)⟩

theorem bootloaderInfoOf_outcome (entries : Value.Entries) :
    match bootloaderInfoOf entries with
    | .ok info => info = infoOf entries ∧ Capabilities.IsModeNumber info.mode
    | .error fault => fault = .badMode ((Value.get? "mode" entries).getD .null) := by
  cases hof : bootloaderInfoOf entries with
  | ok info =>
    obtain ⟨hmode, rfl⟩ := bootloaderInfoOf_eq_ok.mp hof
    exact ⟨rfl, hmode⟩
  | error fault =>
    unfold bootloaderInfoOf at hof
    split at hof <;> cases hof
    rfl

theorem reported_of_found (h : Found (Client.device codec transport) scene c) :
    c.IsReported ∧ (c.bootloader = .null ∨ ∃ entries,
      (Client.request codec transport (bootloaderInfoRequest none) scene).1 = .ok entries ∧
        c.bootloader = (Value.get? "bootloader" entries).getD .null) := by
  cases h with
  | assumed => exact ⟨⟨⟨_, rfl⟩, ⟨_, rfl⟩, .inl rfl, _, rfl⟩, .inl rfl⟩
  | named answer =>
    obtain ⟨entries, hrequest, _, rfl⟩ := ok_of_bootloaderInfo answer
    exact ⟨⟨⟨_, rfl⟩, ⟨_, rfl⟩, .inl rfl, _, rfl⟩, .inr ⟨entries, hrequest, rfl⟩⟩
  | reported answer mode known =>
    obtain ⟨entries, hrequest, _, rfl⟩ := ok_of_bootloaderInfo answer
    obtain ⟨_, _, hmode, rfl⟩ := ok_of_bootloaderInfo mode
    have hknown := Capabilities.ofMode?_of_isModeNumber hmode
    cases known.symm.trans (hknown _ _)
    exact ⟨⟨⟨_, rfl⟩, ⟨_, rfl⟩, hmode, _, rfl⟩, .inr ⟨entries, hrequest, rfl⟩⟩

end Client
end Discovery

namespace Validation

open Smp

variable {σ : Type} (codec : Cbor.Codec) (transport : Transport σ) (client : Client σ)
  (b : Bundle) (mode : Option UpgradeMode) (settings : Settings) (level : Int)
  (log : List Log.Entry) {r : Report} {after : Scene (Client σ × Agenda)}

/-- Whatever the replies of a device, a report on it is made of exact scalars exactly if the name of
the bootloader is, and the plan can be printed as a record exactly if the name can; what is said
against the name is said against the plan. The name is the one thing that is taken from a reply as
it stands: all else is a flag, or a mode that is a number, for which no other value is accepted. -/
theorem record_rests_on_name (h : validate (Client.device codec transport) Agenda.performer b mode
    settings level ⟨(client, {}), log⟩ = (.ok r, after)) :
    r.toValue.isExact = r.capabilities.bootloader.isExact ∧
    (Console.planRecord r after.state.2.pending).isOk = r.capabilities.bootloader.isPrintable ∧
    (∀ cause, Console.planRecord r after.state.2.pending = .error cause ↔
      r.capabilities.bootloader.plain = .error cause) ∧
    r.capabilities.IsReported ∧
    (r.capabilities.bootloader = .null ∨ ∃ entries,
      (Client.request codec transport (bootloaderInfoRequest none) ⟨client, log⟩).1 = .ok entries ∧
        r.capabilities.bootloader = (Value.get? "bootloader" entries).getD .null) ∧
    ∀ entries, match bootloaderInfoOf entries with
      | .ok info => info = Discovery.infoOf entries ∧ Capabilities.IsModeNumber info.mode
      | .error fault => fault = .badMode ((Value.get? "mode" entries).getD .null) := by
  have hover :=
    validate_handsOver (Client.device codec transport) b mode settings level client {} log
  simp only [h] at hover
  obtain ⟨hreported, hname⟩ := Discovery.reported_of_found (Discovery.found_of_discover hover.known)
  refine ⟨?_, ?_, ?_, hreported, hname, ?_⟩
  · exact (Report.isMadeOf_record Value.admits_exact r.fields).trans
      (Report.all_fields Value.admits_exact hreported)
  · exact Report.isOk_planRecord hreported _
  · exact fun cause => Report.planRecord_eq_error_iff hreported
  · exact Discovery.bootloaderInfoOf_outcome

namespace Sample

def receiving (coming : List (Except Fault Bytes)) : Client Rehearsal.Replies :=
  { link := { coming } }

def octetName : Bytes :=
  [0x09, 0, 0, 14, 0, 0, 0, 8, 0xA1, 0x6A, 0x62, 0x6F, 0x6F, 0x74, 0x6C, 0x6F, 0x61, 0x64, 0x65,
    0x72, 0x41, 0x00]

def oneSlot (sequence : UInt8) : Bytes :=
  [0x09, 0, 0, 24, 0, 1, sequence, 0, 0xA1, 0x66, 0x69, 0x6D, 0x61, 0x67, 0x65, 0x73, 0x81, 0xA2,
    0x64, 0x73, 0x6C, 0x6F, 0x74, 0x00, 0x66, 0x61, 0x63, 0x74, 0x69, 0x76, 0x65, 0xF5]

def plannedOver (coming : List (Except Fault Bytes)) :
    Except Fault Report × Scene (Client Rehearsal.Replies × Agenda) :=
  validate (Client.device Cbor.plain Rehearsal.transport) Agenda.performer Plan.Sample.single none
    {} 20 ⟨(receiving coming, {}), []⟩

end Sample

theorem record_rests_on_name_direct :
    ∃ r after, Sample.plannedOver [.ok Discovery.Sample.named, .ok Discovery.Sample.direct,
        .ok (Sample.oneSlot 2)] = (.ok r, after) ∧ r.ok = true ∧ r.toValue.isExact = true ∧
      (Console.planRecord r after.state.2.pending).isOk = true := by
  let run := Sample.plannedOver [.ok Discovery.Sample.named, .ok Discovery.Sample.direct,
    .ok (Sample.oneSlot 2)]
  have hevaluated : run.1.toOption.map (fun r => (r.ok, r.capabilities.bootloader)) =
      some (true, .text "MCUboot") := by
    decide +kernel
  rcases hrun : run with ⟨_ | r, after⟩
  · rw [hrun] at hevaluated
    cases hevaluated
  · rw [hrun] at hevaluated
    obtain ⟨hok, hname⟩ := Prod.mk.inj (Option.some.inj hevaluated)
    obtain ⟨hexact, hprinted, _⟩ := record_rests_on_name _ _ _ _ _ _ _ _ hrun
    refine ⟨r, after, hrun, hok, ?_, ?_⟩
    · rw [hexact, hname]
      rfl
    · rw [hprinted, hname]
      rfl

/-- One that names itself in octets is planned for, and the plan cannot be printed. -/
theorem unprinted_name :
    ¬ ∀ (transport : Transport Rehearsal.Replies) (client : Client Rehearsal.Replies) (b : Bundle)
        (mode : Option UpgradeMode) (settings : Settings) (level : Int) (log : List Log.Entry)
        (r : Report) (after : Scene (Client Rehearsal.Replies × Agenda)),
      validate (Client.device Cbor.plain transport) Agenda.performer b mode settings level
          ⟨(client, {}), log⟩ = (.ok r, after) →
        r.toValue.isExact = true ∧
          (Console.planRecord r after.state.2.pending).isOk = true := by
  intro h
  let run := Sample.plannedOver [.ok Sample.octetName, .ok (Sample.oneSlot 1)]
  have hevaluated : run.1.toOption.map
      (fun r => (Console.planRecord r run.2.state.2.pending).isOk) = some false := by
    decide +kernel
  rcases hrun : run with ⟨_ | r, after⟩
  · rw [hrun] at hevaluated
    cases hevaluated
  · rw [hrun] at hevaluated
    have hunprinted : (Console.planRecord r after.state.2.pending).isOk = false :=
      Option.some.inj hevaluated
    obtain ⟨_, hprinted⟩ := h _ _ _ _ _ _ _ r after hrun
    rw [hunprinted] at hprinted
    cases hprinted

end Validation
end Reflash
