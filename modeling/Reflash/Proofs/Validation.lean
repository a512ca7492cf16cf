import Reflash.Proofs.Agenda
import Reflash.Proofs.Discovery
import Reflash.Proofs.Plan

/-! How a validation ends. Whatever a device answers or fails to answer, it is asked
who it is, of MCUboot also its mode, and then once for its slots; after that the
agenda is told either the whole plan and that it is complete, or the one failure. The
exception are numbers too long to write: the answer or the step that holds one stops
the validation, and the agenda is told neither. -/

namespace Reflash

variable {σ : Type}

structure BootloaderInfo.IsTyped (info : BootloaderInfo) : Prop where
  bootloader : info.bootloader = .null ∨ ∃ name, info.bootloader = .text name
  mode : info.mode = .null ∨ (∃ i, info.mode = .int i) ∨ ∃ x, info.mode = .bool x
  noDowngrade : ∃ x, info.noDowngrade = .bool x

/-- The answers of a device are what they are declared to be, and it fails only in the exchange. -/
structure Device.IsTyped (device : Device σ) : Prop where
  info : ∀ query scene info, (device.bootloaderInfo query scene).1 = .ok info → info.IsTyped
  infoFails : ∀ query scene fault, (device.bootloaderInfo query scene).1 = .error fault →
    ∃ e, fault = .smp e
  listingFails : ∀ scene fault, (device.listImages scene).1 = .error fault → ∃ e, fault = .smp e

def Exchange.isNameable (b : Bundle) : Exchange → Bool
  | .bootloaderInfo (some _) (.ok info) => info.mode.isWritable
  | .listImages (.ok (some (s :: rest))) =>
    Plan.isWritable b (s :: rest) && b.caches.all fun c => Decimal.isWritable c.partition
  | _ => true

namespace Validation

open Reflash.Action

def NamesMcuBoot (answer : Except Fault BootloaderInfo) : Prop :=
  ∃ info, answer = .ok info ∧ info.bootloader = .text "MCUboot"

inductive Inquiry : List Exchange → Prop where
  | identity {answer : Except Fault BootloaderInfo} (h : ¬ NamesMcuBoot answer) :
      Inquiry [.bootloaderInfo none answer]
  | mode {answer info : Except Fault BootloaderInfo} (h : NamesMcuBoot answer) :
      Inquiry [.bootloaderInfo none answer, .bootloaderInfo (some "mode") info]

section

variable (b : Bundle) (mode : UpgradeMode) (settings : Settings)

/-- The end of a validation: the report is the plan for the slots that the device listed, and the
agenda was told all of it, or it is one of failure, and the agenda was told the same failure. -/
inductive Ending (listing : Except Fault (Option (List Slot))) (r : Report)
    (told : List Rehearsal.Event) (agenda : Agenda) : Prop where
  | completed {slots : List Slot} (listing : listing = .ok (some slots))
      (made : Plan.Made b slots r.capabilities mode settings { r with logs := [] })
      (ok : r.ok = true) (told : told = r.steps.map .enqueued ++ [.completed])
      (completed : agenda.completed = true) (failed : agenda.failed = false)
      (pending : Step.IsStableSort agenda.pending r.steps)
  | failed {fault : Fault} (listing : listing = .error fault ∨
        (listing = .ok none ∨ listing = .ok (some [])) ∧ fault = .noImages)
      (ok : r.ok = false) (told : told = [.failed fault]) (steps : r.steps = [])
      (cause : r.failure = some fault) (completed : agenda.completed = false)
      (failure : agenda.failure = some fault) (waiting : agenda.waiting = [])

abbrev Watched (σ : Type) := Recorded σ Exchange × Recorded Agenda Rehearsal.Event

def Concludes (run : Except Fault Report × Scene (Watched σ)) : Prop :=
  ∃ r inquiry listing, run.1 = .ok r ∧ Inquiry inquiry ∧
    run.2.state.1.events = inquiry ++ [.listImages listing] ∧
    Ending b mode settings listing r run.2.state.2.events run.2.state.2.state

end

/-! ### The inquiry -/

theorem isWritable_of_isTyped {info : BootloaderInfo} (h : info.IsTyped) :
    info.bootloader.isWritable = true ∧ info.noDowngrade.isWritable = true := by
  obtain ⟨x, hx⟩ := h.noDowngrade
  rw [hx]
  rcases h.bootloader with hb | ⟨name, hb⟩ <;> rw [hb] <;> exact ⟨rfl, rfl⟩

theorem exists_ofMode? {info : BootloaderInfo} (h : info.IsTyped) (bootloader : Value) :
    ∃ c, Capabilities.ofMode? bootloader info.mode info.noDowngrade = some c ∧
      c.mode = info.mode ∧ c.noDowngrade = info.noDowngrade ∧ c.noSwap.isWritable = true := by
  rw [Capabilities.ofMode?_of_isModeNumber h.mode]
  exact ⟨_, rfl, rfl, rfl, rfl⟩

theorem namesMcuBoot_ok {info : BootloaderInfo} :
    NamesMcuBoot (.ok info) ↔ isMcuBoot info.bootloader = true := by
  rw [isMcuBoot_iff]
  constructor
  · rintro ⟨_, ⟨⟩, hname⟩
    exact hname
  · exact fun hname => ⟨info, rfl, hname⟩

theorem not_namesMcuBoot_error (fault : Fault) : ¬ NamesMcuBoot (.error fault) := by
  rintro ⟨info, hinfo, _⟩
  cases hinfo

theorem attempt_recorded {ε α : Type} (entry : Except Fault α → ε) (action : Action σ α)
    (scene : Scene (Recorded σ ε)) :
    (action.recorded entry).attempt scene =
      match action ⟨scene.state.state, scene.log⟩ with
      | (result, after) =>
        (match result with
          | .ok a => .ok (.ok a)
          | .error (.smp e) => .ok (.error e)
          | .error f => .error f,
          ⟨⟨after.state, scene.state.events ++ [entry result]⟩, after.log⟩) := by
  simp only [attempt, recorded]
  rcases action ⟨scene.state.state, scene.log⟩ with ⟨result, after⟩
  cases result with
  | ok a => rfl
  | error f => cases f <;> rfl

inductive Learns (before : List Exchange) (b : Bundle) :
    Except Fault Capabilities × Scene (Recorded σ Exchange) → Prop where
  | learned {c : Capabilities} {after : Scene (Recorded σ Exchange)} {inquiry : List Exchange}
      (record : after.state.events = before ++ inquiry) (asked : Inquiry inquiry)
      (nameable : ∀ x ∈ inquiry, x.isNameable b = true) (noSwap : c.noSwap.isWritable = true) :
      Learns before b (.ok c, after)
  | stopped {after : Scene (Recorded σ Exchange)} {x : Exchange} (asked : x ∈ after.state.events)
      (nameable : x.isNameable b = false) : Learns before b (.error .unwritable, after)

theorem discover_learns {device : Device σ} (h : device.IsTyped) (b : Bundle)
    (scene : Scene (Recorded σ Exchange)) :
    Learns scene.state.events b (discover device.recorded scene) := by
  unfold discover
  rw [bind_apply, Device.recorded, attempt_recorded]
  rcases hidentity : device.bootloaderInfo none ⟨scene.state.state, scene.log⟩ with
    ⟨identity, after⟩
  cases identity with
  | error fault =>
    obtain ⟨e, rfl⟩ := h.infoFails none ⟨scene.state.state, scene.log⟩ fault (by rw [hidentity])
    refine .learned rfl (.identity (not_namesMcuBoot_error _)) ?_ rfl
    exact List.forall_mem_singleton.mpr rfl
  | ok identity =>
    have htyped : identity.IsTyped := h.info none _ identity (by rw [hidentity])
    simp only [bind_apply, requireWritable_apply, (isWritable_of_isTyped htyped).1, if_true,
      debug_apply]
    cases hname : isMcuBoot identity.bootloader with
    | false =>
      have hother : ¬ NamesMcuBoot (.ok identity) := by
        rw [namesMcuBoot_ok, hname]
        exact Bool.false_ne_true
      exact .learned rfl (.identity hother) (List.forall_mem_singleton.mpr rfl) rfl
    | true =>
      have hasked : NamesMcuBoot (.ok identity) := namesMcuBoot_ok.mpr hname
      simp only [Bool.not_true, Bool.false_eq_true, if_false, bind_apply, attempt_recorded]
      rcases hmode : device.bootloaderInfo modeQuery _ with ⟨info, later⟩
      cases info with
      | error fault =>
        obtain ⟨e, rfl⟩ := h.infoFails modeQuery _ fault (by rw [hmode])
        refine .learned (List.append_assoc ..) (.mode hasked) ?_ rfl
        exact List.forall_mem_cons.mpr ⟨rfl, List.forall_mem_singleton.mpr rfl⟩
      | ok info =>
        have hinfo : info.IsTyped := h.info modeQuery _ info (by rw [hmode])
        obtain ⟨c, hc, hcmode, hdowngrade, hswap⟩ := exists_ofMode? hinfo identity.bootloader
        simp only [hc, bind_apply, requireWritable_apply, hcmode, hdowngrade,
          (isWritable_of_isTyped hinfo).2, Bool.and_true]
        cases hwritable : info.mode.isWritable with
        | false => exact .stopped (List.mem_append_right _ (List.mem_singleton_self _)) hwritable
        | true =>
          refine .learned (List.append_assoc ..) (.mode hasked) ?_ hswap
          exact List.forall_mem_cons.mpr ⟨rfl, List.forall_mem_singleton.mpr hwritable⟩

/-! ### The steps -/

theorem isWritable_of_priority {s : Step} (h : s.priority = 3 ∨ s.priority = 6) :
    s.isWritable = true := by
  cases s with
  | upload _ _ | resetBeforeUpload _ | reset _ => rcases h with h | h <;> cases h
  | _ => rfl

theorem isWritable_of_mem_stepsFor {slots : List Slot} {c : Capabilities} {mode : UpgradeMode}
    {t : Target} {s : Step} (ht : t.isWritable = true) (hs : s ∈ Plan.stepsFor slots c mode t) :
    s.isWritable = true := by
  obtain ⟨_, ⟨_, rfl⟩ | hmark⟩ := Plan.mem_stepsFor.mp hs
  · exact (Bool.and_eq_true_iff.mp ht).1
  · exact isWritable_of_priority (Assessment.priority_of_mem_marks hmark)

theorem steps_writable_iff {b : Bundle} {slots : List Slot} {c : Capabilities}
    {mode : UpgradeMode} {settings : Settings} (hw : Plan.isWritable b slots = true)
    (hc : c.noSwap.isWritable = true) :
    (∀ s ∈ (Plan.report b slots c mode settings).steps, s.isWritable = true) ↔
      ∀ cache ∈ b.caches, Decimal.isWritable cache.partition = true := by
  constructor
  · intro hall cache hcache
    exact hall (Plan.cacheUpload cache)
      (Plan.mem_steps_report.mpr (.inr (.inl ⟨cache, hcache, rfl⟩)))
  · intro hall s hs
    rcases Plan.mem_steps_report.mp hs with ⟨t, ht, hstep⟩ | ⟨cache, hcache, rfl⟩ | hend
    · exact isWritable_of_mem_stepsFor (Plan.isWritable_of_mem_working hw ht) hstep
    · exact hall cache hcache
    · rcases Plan.mem_ending.mp hend with ⟨_, rfl⟩ | ⟨_, ⟨_, rfl⟩ | rfl⟩
      · exact hc
      · rfl
      · exact hc

theorem enqueue_apply (step : Step) (scene : Scene (Watched σ)) :
    ∃ log, onPerformer (Agenda.performer.recorded.enqueue step) scene =
      (if step.isWritable then .ok () else .error .unwritable,
        ⟨(scene.state.1, ⟨if step.isWritable then scene.state.2.state.enqueue step
          else scene.state.2.state, scene.state.2.events ++ [.enqueued step]⟩), log⟩) := by
  simp only [onPerformer, within, Performer.recorded, recorded, Agenda.performer, bind_apply,
    requireWritable_apply]
  cases step.isWritable <;> exact ⟨_, rfl⟩

inductive Tells (before : Recorded Agenda Rehearsal.Event) (steps : List Step) :
    Except Fault Unit → Recorded Agenda Rehearsal.Event → Prop where
  | all (writable : ∀ s ∈ steps, s.isWritable = true) :
      Tells before steps (.ok ())
        ⟨steps.foldl .enqueue before.state, before.events ++ steps.map .enqueued⟩
  | front {front back : List Step} {step : Step} (split : steps = front ++ step :: back)
      (writable : step.isWritable = false) :
      Tells before steps (.error .unwritable)
        ⟨front.foldl .enqueue before.state, before.events ++ (front ++ [step]).map .enqueued⟩

theorem Tells.cons {before after : Recorded Agenda Rehearsal.Event} {step : Step}
    {steps : List Step} {result : Except Fault Unit} (hw : step.isWritable = true)
    (h : Tells ⟨before.state.enqueue step, before.events ++ [.enqueued step]⟩ steps result after) :
    Tells before (step :: steps) result after := by
  cases h with
  | all writable =>
    rw [← List.append_cons]
    exact .all (List.forall_mem_cons.mpr ⟨hw, writable⟩)
  | @front front back last split writable =>
    rw [← List.append_cons]
    have hsplit : step :: steps = (step :: front) ++ last :: back := by
      rw [split, List.cons_append]
    exact .front hsplit writable

theorem forM_tells (steps : List Step) (scene : Scene (Watched σ)) :
    ∃ result after log,
      steps.forM (fun step => onPerformer (Agenda.performer.recorded.enqueue step)) scene =
        (result, ⟨(scene.state.1, after), log⟩) ∧ Tells scene.state.2 steps result after := by
  induction steps generalizing scene with
  | nil =>
    refine ⟨.ok (), scene.state.2, scene.log, rfl, ?_⟩
    have hnone : Tells scene.state.2 [] _ _ := .all (List.forall_mem_nil _)
    rwa [List.map_nil, List.append_nil] at hnone
  | cons step steps ih =>
    obtain ⟨log, hstep⟩ := enqueue_apply step scene
    rw [List.forM, bind_apply, hstep]
    cases hw : step.isWritable with
    | false => exact ⟨_, _, log, rfl, .front (List.nil_append _).symm hw⟩
    | true =>
      obtain ⟨result, after, log, hrun, htells⟩ := ih
        ⟨(scene.state.1, ⟨scene.state.2.state.enqueue step,
          scene.state.2.events ++ [.enqueued step]⟩), log⟩
      exact ⟨result, after, log, hrun, .cons hw htells⟩

/-! ### The end -/

def validating : Agenda := { phase := .validation }

/-- A validation of a bundle concludes with answers that can all be written about, or is stopped at
one that cannot. -/
inductive Ends (b : Bundle) (mode : UpgradeMode) (settings : Settings) :
    Except Fault Report × Scene (Watched σ) → Prop where
  | concluded {run : Except Fault Report × Scene (Watched σ)}
      (concludes : Concludes b mode settings run)
      (nameable : ∀ x ∈ run.2.state.1.events, x.isNameable b = true) : Ends b mode settings run
  | stopped {after : Scene (Watched σ)} {x : Exchange} (asked : x ∈ after.state.1.events)
      (nameable : x.isNameable b = false) (completed : after.state.2.state.completed = false)
      (failed : after.state.2.state.failed = false) :
      Ends b mode settings (.error .unwritable, after)

section

variable {b : Bundle} {mode : UpgradeMode} {settings : Settings} {r : Report}
  {inquiry : List Exchange} {listing : Except Fault (Option (List Slot))}
  {device : Recorded σ Exchange} {log : List Log.Entry} (asked : Inquiry inquiry)
  (nameable : ∀ x ∈ inquiry, x.isNameable b = true)
  (record : device.events = inquiry ++ [.listImages listing])
include nameable record

theorem forall_isNameable (hlast : (Exchange.listImages listing).isNameable b = true) :
    ∀ x ∈ device.events, x.isNameable b = true := by
  rw [record]
  exact List.forall_mem_append.mpr ⟨nameable, List.forall_mem_singleton.mpr hlast⟩

include asked

theorem ends_of_failure {fault : Fault} (hok : r.ok = false) (hsteps : r.steps = [])
    (hfailure : r.failure = some fault) (hlisting : listing = .error fault ∨
      (listing = .ok none ∨ listing = .ok (some [])) ∧ fault = .noImages) :
    Ends b mode settings ((do
      onPerformer (Agenda.performer.recorded.fail fault)
      return r : Action (Watched σ) Report) ⟨(device, ⟨validating, []⟩), log⟩) := by
  have hlast : (Exchange.listImages listing).isNameable b = true := by
    rcases hlisting with rfl | ⟨rfl | rfl, _⟩ <;> rfl
  refine .concluded ⟨r, inquiry, listing, rfl, asked, record, ?_⟩ ?_
  · exact .failed hlisting hok rfl hsteps hfailure rfl rfl rfl
  · exact forall_isNameable nameable record hlast

theorem ends_of_steps {slots : List Slot} (hlisting : listing = .ok (some slots))
    (hmade : Plan.Made b slots r.capabilities mode settings { r with logs := [] })
    (hsteps : (∀ s ∈ r.steps, s.isWritable = true) ↔
      (Exchange.listImages listing).isNameable b = true) :
    Ends b mode settings ((do
      r.steps.forM fun step => onPerformer (Agenda.performer.recorded.enqueue step)
      onPerformer Agenda.performer.recorded.complete
      return r : Action (Watched σ) Report) ⟨(device, ⟨validating, []⟩), log⟩) := by
  obtain ⟨result, after, log, hrun, htells⟩ :=
    forM_tells r.steps ⟨(device, ⟨validating, []⟩), log⟩
  rw [bind_apply, hrun]
  cases htells with
  | all writable =>
    refine .concluded ⟨r, inquiry, listing, rfl, asked, record,
      .completed hlisting hmade hmade.2 rfl rfl ?_ ?_⟩ ?_
    · exact congrArg Option.isSome (Agenda.failure_foldl r.steps validating)
    · have hpending : (r.steps.foldl Agenda.enqueue validating).complete.pending =
          Step.sorted r.steps := Agenda.pending_foldl r.steps rfl rfl
      exact hpending ▸ Step.isStableSort_sorted r.steps
    · exact forall_isNameable nameable record (hsteps.mp writable)
  | @front front back step split writable =>
    have hmem : step ∈ r.steps := by
      rw [split]
      exact List.mem_append_right _ List.mem_cons_self
    have hlast : (Exchange.listImages listing).isNameable b = false := by
      rw [← Bool.not_eq_true, ← hsteps]
      intro hall
      rw [hall step hmem] at writable
      cases writable
    have hasked : .listImages listing ∈ device.events := by
      rw [record]
      exact List.mem_append_right _ (List.mem_singleton_self _)
    refine .stopped hasked hlast (Agenda.completed_foldl front validating) ?_
    exact congrArg Option.isSome (Agenda.failure_foldl front validating)

end

theorem onDevice_apply {ρ α : Type} (action : Action σ α) (scene : Scene (σ × ρ)) :
    onDevice action scene =
      ((action ⟨scene.state.1, scene.log⟩).1,
        ⟨((action ⟨scene.state.1, scene.log⟩).2.state, scene.state.2),
          (action ⟨scene.state.1, scene.log⟩).2.log⟩) := rfl

theorem validateWith_ends {device : Device σ} (h : device.IsTyped) (b : Bundle) (mode : UpgradeMode)
    (settings : Settings) (d : σ) (log : List Log.Entry) :
    Ends b mode settings (validateWith device.recorded Agenda.performer.recorded b mode settings
      ⟨(⟨d, []⟩, ⟨validating, []⟩), log⟩) := by
  unfold validateWith
  rw [bind_apply, onDevice_apply]
  have hlearns := discover_learns h b ⟨⟨d, []⟩, log⟩
  generalize discover device.recorded ⟨⟨d, []⟩, log⟩ = learnt at hlearns ⊢
  cases hlearns with
  | stopped asked nameable => exact .stopped asked nameable rfl rfl
  | @learned c after inquiry record asked nameable noSwap =>
    rw [List.nil_append] at record
    simp only [bind_apply, onDevice_apply, Device.recorded, attempt_recorded]
    rcases hlisting : device.listImages ⟨after.state.state, after.log⟩ with ⟨listing, later⟩
    have hrecord : after.state.events ++ [.listImages listing] =
        inquiry ++ [.listImages listing] := by rw [record]
    cases listing with
    | error fault =>
      obtain ⟨e, rfl⟩ := h.listingFails ⟨after.state.state, after.log⟩ fault (by rw [hlisting])
      exact ends_of_failure asked nameable hrecord rfl rfl rfl (.inl rfl)
    | ok slots =>
      simp only [conclude, assessListing]
      rcases slots with _ | _ | ⟨s, rest⟩
      · exact ends_of_failure asked nameable hrecord rfl rfl rfl (.inr ⟨.inl rfl, rfl⟩)
      · exact ends_of_failure asked nameable hrecord rfl rfl rfl (.inr ⟨.inr rfl, rfl⟩)
      · simp only [Plan.make, Option.getD_some]
        cases hw : Plan.isWritable b (s :: rest) with
        | false =>
          refine .stopped (List.mem_append_right _ (List.mem_singleton_self _)) ?_ rfl rfl
          rw [Exchange.isNameable, hw, Bool.false_and]
        | true =>
          have hmade : Plan.Made b (s :: rest) c mode settings
              (Plan.report b (s :: rest) c mode settings) :=
            Plan.made_iff.mpr ⟨List.cons_ne_nil s rest, hw, rfl⟩
          refine ends_of_steps asked nameable hrecord rfl hmade ?_
          rw [steps_writable_iff hw noSwap, Exchange.isNameable, hw, Bool.true_and,
            List.all_eq_true]

def watched (device : Device σ) (b : Bundle) (mode : Option UpgradeMode) (settings : Settings)
    (level : Int) (d : σ) (log : List Log.Entry) : Except Fault Report × Scene (Watched σ) :=
  validate device.recorded Agenda.performer.recorded b mode settings level
    ⟨(⟨d, []⟩, ⟨{}, []⟩), log⟩

theorem Ends.withLogs {b : Bundle} {mode : UpgradeMode} {settings : Settings} {r : Report}
    {after : Scene (Watched σ)} (h : Ends b mode settings (.ok r, after)) (logs : List String) :
    Ends b mode settings (.ok { r with logs }, after) := by
  cases h with
  | concluded concludes nameable =>
    obtain ⟨_, inquiry, listing, ⟨⟩, asked, record, ending⟩ := concludes
    refine .concluded ⟨_, inquiry, listing, rfl, asked, record, ?_⟩ nameable
    cases ending with
    | completed listing made ok told completed failed pending =>
      exact .completed listing made ok told completed failed pending
    | failed listing ok told steps cause completed failure waiting =>
      exact .failed listing ok told steps cause completed failure waiting

theorem watched_ends {device : Device σ} (h : device.IsTyped) (b : Bundle)
    (mode : Option UpgradeMode) (settings : Settings) (level : Int) (d : σ)
    (log : List Log.Entry) :
    Ends b (mode.getD settings.mode) settings (watched device b mode settings level d log) := by
  have hends := validateWith_ends h b (mode.getD settings.mode) settings d log
  have hbegin : onPerformer Agenda.performer.recorded.begin
      ⟨((⟨d, []⟩, ⟨{}, []⟩) : Watched σ), log⟩ =
        (.ok (), ⟨(⟨d, []⟩, ⟨validating, []⟩), log⟩) := rfl
  unfold watched validate
  rw [bind_apply, hbegin]
  simp only [get_bind_apply]
  rw [bind_apply]
  generalize validateWith device.recorded _ b _ settings _ = run at hends ⊢
  rcases run with ⟨result, after⟩
  cases result with
  | ok r => exact hends.withLogs _
  | error fault => exact hends

theorem not_concludes_error {b : Bundle} {mode : UpgradeMode} {settings : Settings} {fault : Fault}
    {after : Scene (Watched σ)} : ¬ Concludes b mode settings (.error fault, after) := by
  rintro ⟨_, _, _, hresult, _⟩
  cases hresult

theorem validate_eq_watched (device : Device σ) (b : Bundle) (mode : Option UpgradeMode)
    (settings : Settings) (level : Int) (d : σ) (log : List Log.Entry) :
    validate device Agenda.performer b mode settings level ⟨(d, {}), log⟩ =
      ((watched device b mode settings level d log).1,
        ⟨((watched device b mode settings level d log).2.state.1.state,
          (watched device b mode settings level d log).2.state.2.state),
          (watched device b mode settings level d log).2.log⟩) :=
  validate_mirrors device Agenda.performer b settings mode level
    ⟨(⟨d, []⟩, ⟨{}, []⟩), log⟩

/-- For a device whose answers are what they are declared to be, a validation concludes, with a plan
that is handed over whole or a failure that leaves nothing to do, exactly if every number that its
answers bring into the log can be written. Otherwise it is stopped, and the agenda is told of
neither. Watching it changes nothing. -/
theorem validate_concludes_iff {device : Device σ} (h : device.IsTyped) (b : Bundle)
    (mode : Option UpgradeMode) (settings : Settings) (level : Int) (d : σ)
    (log : List Log.Entry) :
    let run := watched device b mode settings level d log
    validate device Agenda.performer b mode settings level ⟨(d, {}), log⟩ =
        (run.1, ⟨(run.2.state.1.state, run.2.state.2.state), run.2.log⟩) ∧
      (Concludes b (mode.getD settings.mode) settings run ↔
        ∀ x ∈ run.2.state.1.events, x.isNameable b = true) ∧
      (¬ Concludes b (mode.getD settings.mode) settings run → run.1 = .error .unwritable ∧
        run.2.state.2.state.completed = false ∧ run.2.state.2.state.failed = false) := by
  intro run
  have hends : Ends b (mode.getD settings.mode) settings run :=
    watched_ends h b mode settings level d log
  refine ⟨validate_eq_watched device b mode settings level d log, ?_⟩
  clear_value run
  cases hends with
  | concluded concludes nameable =>
    exact ⟨⟨fun _ => nameable, fun _ => concludes⟩, fun hnot => absurd concludes hnot⟩
  | stopped asked nameable completed failed =>
    refine ⟨⟨fun hconcludes => absurd hconcludes not_concludes_error, fun hall => ?_⟩, ?_⟩
    · rw [hall _ asked] at nameable
      cases nameable
    · exact fun _ => ⟨rfl, completed, failed⟩

namespace Sample

def answering (identity mode : Except Fault BootloaderInfo)
    (slots : Except Fault (Option (List Slot))) : Device Unit where
  bootloaderInfo
    | none => Action.ofExcept identity
    | some _ => Action.ofExcept mode
  listImages := Action.ofExcept slots

def twoCores : Device Unit :=
  answering (.ok { bootloader := .text "MCUboot" }) (.ok { mode := .int 3 })
    (.ok (some [Plan.Sample.running 0, Plan.Sample.stale 0, Plan.Sample.running 1]))

theorem isTyped_twoCores : twoCores.IsTyped := by
  refine ⟨?_, ?_, fun _ _ h => nomatch h⟩
  · rintro (_ | _) scene _ ⟨⟩
    · exact ⟨.inr ⟨_, rfl⟩, .inl rfl, _, rfl⟩
    · exact ⟨.inl rfl, .inr (.inl ⟨_, rfl⟩), _, rfl⟩
  · rintro (_ | _) scene _ ⟨⟩

def unnamed : Bundle where
  targets := [{ Plan.Sample.application with slot := Nat.pow 10 Decimal.maxDigits }]
  distinct := List.nodup_singleton _

end Sample

theorem validate_concludes_iff_pair :
    Sample.twoCores.IsTyped ∧
      Concludes Plan.Sample.pair .testAndConfirm { eraseSettings := true }
        (watched Sample.twoCores Plan.Sample.pair none { eraseSettings := true } 20 () []) := by
  refine ⟨Sample.isTyped_twoCores, ?_⟩
  refine (validate_concludes_iff Sample.isTyped_twoCores _ _ _ _ _ _).2.1.mpr ?_
  decide +kernel

/-- Too long a slot number stops a validation, although none of the steps would name it. -/
theorem validate_stopped_by_slot :
    ¬ ∀ (device : Device Unit) (b : Bundle) (mode : Option UpgradeMode) (settings : Settings)
        (level : Int) (log : List Log.Entry), device.IsTyped →
      Concludes b (mode.getD settings.mode) settings
        (watched device b mode settings level () log) := by
  intro h
  obtain ⟨r, _, _, hr, _⟩ := h Sample.twoCores Sample.unnamed none {} 20 [] Sample.isTyped_twoCores
  have hstopped : (watched Sample.twoCores Sample.unnamed none {} 20 () []).1.isOk = false := by
    decide +kernel
  rw [hr] at hstopped
  cases hstopped

end Validation
end Reflash
