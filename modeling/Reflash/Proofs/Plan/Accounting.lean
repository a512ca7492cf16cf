import Reflash.Proofs.Plan.Uploads

/-! Accounts of plans. An image leaves a plan by two ways only: its core is left out,
as one that runs what is asked for, or the image is skipped. Every other image
contributes its own steps, in the order of the bundle, and each kind of step once at
most; the caches come last. -/

namespace Reflash

theorem nodup_eraseDups {α : Type} [BEq α] [LawfulBEq α] : ∀ l : List α, l.eraseDups.Nodup
  | [] => List.nodup_nil
  | a :: l => by
    rw [List.eraseDups_cons, List.nodup_cons]
    exact ⟨by simp [List.mem_eraseDups], nodup_eraseDups (l.filter fun x => !x == a)⟩
termination_by l => l.length
decreasing_by exact Nat.lt_succ_of_le (List.length_filter_le _ _)

namespace Step

def isTest : Step → Bool
  | .test _ => true
  | _ => false

def isConfirmation : Step → Bool
  | .confirm _ | .confirmAfterReset _ => true
  | _ => false

/-- Whether a step carries what belongs to this image: its data and its core, or its digest. A
confirmation that activates the image carries no digest. -/
def Concerns (t : Target) : Step → Prop
  | .upload data core => data = t.image.data ∧ core = t.core
  | .test hash | .confirm (some hash) | .confirmAfterReset hash => hash = t.hash
  | .confirm none => t.image.requiresActivation = true
  | _ => False

end Step

namespace Assessment

theorem concerns_of_mem_marks {mode : UpgradeMode} {a : Assessment} {s : Step}
    (h : s ∈ a.marks mode) : s.Concerns a.target := by
  rcases mem_marks.mp h with ⟨_, ⟨rfl, _⟩ | ⟨rfl, _⟩ | ⟨rfl, _⟩⟩ | ⟨_, hactivate, rfl⟩
  · exact rfl
  · exact rfl
  · exact rfl
  · exact hactivate

theorem countP_marks (mode : UpgradeMode) (a : Assessment) :
    (a.marks mode).countP Step.isUpload = 0 ∧ (a.marks mode).countP Step.isTest ≤ 1 ∧
      (a.marks mode).countP Step.isConfirmation ≤ 1 := by
  unfold marks tests confirms
  cases mode <;> split_ifs <;>
    simp [List.countP_cons, Step.isUpload, Step.isTest, Step.isConfirmation]

end Assessment

namespace Plan

/-- What an image adds to a plan: steps that concern it, one upload, one test and one confirmation
at most. -/
structure IsContribution (t : Target) (steps : List Step) : Prop where
  concerns : ∀ s ∈ steps, s.Concerns t
  uploads : steps.countP Step.isUpload ≤ 1
  tests : steps.countP Step.isTest ≤ 1
  confirmations : steps.countP Step.isConfirmation ≤ 1

variable {b : Bundle} {slots : List Slot} {c : Capabilities} {mode : UpgradeMode}
  {settings : Settings} {r : Report}

theorem isContribution_stepsFor (t : Target) : IsContribution t (stepsFor slots c mode t) := by
  cases hskip : (Assessment.scan t slots c.inPlace).skip
  · have htarget : (Assessment.scan t slots c.inPlace).target = t := by rw [Assessment.scan_eq]
    obtain ⟨huploads, htests, hconfirmations⟩ :=
      Assessment.countP_marks (c.limit mode) (Assessment.scan t slots c.inPlace)
    refine ⟨?_, ?_, ?_, ?_⟩
    · intro s hs
      rcases (mem_stepsFor.mp hs).2 with ⟨_, rfl⟩ | hmark
      · exact ⟨rfl, rfl⟩
      · exact htarget ▸ Assessment.concerns_of_mem_marks hmark
    all_goals
      rw [stepsFor_of_not_skip hskip, List.countP_append, Assessment.uploads]
      cases (Assessment.scan t slots c.inPlace).found <;>
        simp [Step.isUpload, Step.isTest, Step.isConfirmation, huploads, htests, hconfirmations]
  · rw [stepsFor_of_skip hskip]
    exact ⟨fun _ hs => absurd hs List.not_mem_nil, Nat.zero_le _, Nat.zero_le _, Nat.zero_le _⟩

/-- A report accounts for every image of a bundle: its core is up to date, or it is skipped, or it
contributes to the steps. -/
structure Accounts (b : Bundle) (slots : List Slot) (c : Capabilities) (mode : UpgradeMode)
    (r : Report) : Prop where
  upToDate_nodup : r.upToDate.Nodup
  mem_upToDate : ∀ core, core ∈ r.upToDate ↔ 1 < b.targets.length ∧
    ∃ s ∈ slots, s.active = true ∧ s.core = core ∧ ∃ t ∈ b.targets, t.core = core ∧ t.hash = s.hash
  targets : r.targets = b.targets.filter fun t => !r.upToDate.contains t.core
  skipped : r.skipped.Sublist r.targets
  steps : r.steps.filter (fun s => !s.isForDevice) =
    (r.targets.filter fun t => !r.skipped.contains t).flatMap (stepsFor slots c mode) ++
      b.caches.map cacheUpload
  contributions : ∀ t ∈ r.targets, t ∉ r.skipped → IsContribution t (stepsFor slots c mode t)

theorem nodup_settledCores (targets : List Target) : (settledCores targets slots).Nodup := by
  unfold settledCores
  split_ifs
  · exact List.nodup_nil
  · exact nodup_eraseDups _

theorem not_isForDevice_of_mem_stepsFor {t : Target} {s : Step} (h : s ∈ stepsFor slots c mode t) :
    s.isForDevice = false := by
  have hconcerns := (isContribution_stepsFor t).concerns s h
  cases s with
  | eraseStorage | resetBeforeUpload | reset => exact hconcerns.elim
  | _ => rfl

theorem filter_not_isForDevice :
    (report b slots c mode settings).steps.filter (fun s => !s.isForDevice) =
      (working slots b).flatMap (stepsFor slots c mode) ++ b.caches.map cacheUpload := by
  have hcaches : (b.caches.map cacheUpload).filter (fun s => !s.isForDevice) =
      b.caches.map cacheUpload := by
    apply List.filter_eq_self.mpr
    intro s hs
    obtain ⟨cache, _, rfl⟩ := List.mem_map.mp hs
    rfl
  have hsteps (t : Target) : (stepsFor slots c mode t).filter (fun s => !s.isForDevice) =
      stepsFor slots c mode t := by
    apply List.filter_eq_self.mpr
    intro s hs
    rw [not_isForDevice_of_mem_stepsFor hs, Bool.not_false]
  rw [filter_steps_report b settings fun s hs => by rw [hs, Bool.not_true], hcaches]
  simp only [hsteps]

theorem accounts_report : Accounts b slots c mode (report b slots c mode settings) where
  upToDate_nodup := nodup_settledCores b.targets
  mem_upToDate core := by
    refine mem_settledCores.trans (and_congr_right fun _ => ?_)
    simp only [mem_settledSlots]
    constructor
    · rintro ⟨s, ⟨hs, hactive, t, ht, hcore, hhash⟩, rfl⟩
      exact ⟨s, hs, hactive, rfl, t, ht, hcore, hhash⟩
    · rintro ⟨s, hs, hactive, rfl, t, ht, hcore, hhash⟩
      exact ⟨s, ⟨hs, hactive, t, ht, hcore, hhash⟩, rfl⟩
  targets := rfl
  skipped := by
    rw [skipped_report]
    exact List.filter_sublist
  steps := by
    have hskipped : (report b slots c mode settings).targets.filter (fun t =>
          !(report b slots c mode settings).skipped.contains t) =
        (working slots b).filter fun t => !(Assessment.scan t slots c.inPlace).skip :=
      List.filter_congr fun t ht => by rw [contains_skipped ht]
    rw [filter_not_isForDevice, hskipped, flatMap_filter_not]
    congr 1
    apply List.flatMap_congr
    intro t _
    split_ifs with hskip
    · exact stepsFor_of_skip hskip
    · rfl
  contributions t _ _ := isContribution_stepsFor t

/-- A device with any slots is planned for unless a number cannot be written, and then the report
accounts for every image. -/
theorem every_image_accounted_for (hslots : slots ≠ []) :
    ((∃ r, Made b slots c mode settings r) ↔ isWritable b slots = true) ∧
      ∀ r, Made b slots c mode settings r → Accounts b slots c mode r := by
  refine ⟨exists_made_iff hslots, ?_⟩
  intro r hmade
  obtain ⟨_, _, rfl⟩ := made_iff.mp hmade
  exact accounts_report

namespace Sample

def settledAndBlocked : List Slot :=
  [{ running 0 with hash := application.hash }, { running 1 with number := 1 }, running 2]

end Sample

theorem every_image_accounted_for_trio :
    Sample.settledAndBlocked ≠ [] ∧
    ∃ r, Made Sample.trio Sample.settledAndBlocked {} .testAndConfirm {} r ∧
      Accounts Sample.trio Sample.settledAndBlocked {} .testAndConfirm r ∧
      r.upToDate = [0] ∧ r.skipped = [Sample.network] ∧
      r.steps = [Sample.modem.upload, .test [0xC3], .confirmAfterReset [0xC3], .upload [7] 3,
        .reset (.bool false)] := by
  have hslots : Sample.settledAndBlocked ≠ [] := List.cons_ne_nil _ _
  have hmade : Made Sample.trio Sample.settledAndBlocked {} .testAndConfirm {} _ :=
    made_iff.mpr ⟨hslots, by decide +kernel, rfl⟩
  exact ⟨hslots, _, hmade, (every_image_accounted_for hslots).2 _ hmade, rfl, rfl, rfl⟩

end Plan
end Reflash
