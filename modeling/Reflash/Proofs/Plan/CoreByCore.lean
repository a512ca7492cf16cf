import Mathlib.Data.List.Nodup
import Reflash.Proofs.Plan

/-! Plans core by core. What a plan does for an image does not depend on the
images for other cores, since an image is looked for on its own core only. The
exception is a core that runs its image already. In a bundle of one image it may
still be confirmed; in a larger bundle the core is left out, confirmed or not. -/

namespace Reflash

def Bundle.single (t : Target) : Bundle := { targets := [t] }

def Step.isForImage : Step → Bool
  | .upload .. | .test _ | .confirm _ | .confirmAfterReset _ => true
  | _ => false

namespace Plan

def leftOut (b : Bundle) (slots : List Slot) (t : Target) : Bool :=
  decide (1 < b.targets.length) &&
    slots.any fun s => s.active && s.core = t.core && s.hash = t.hash

variable {b : Bundle} {slots : List Slot} {c : Capabilities} {mode : UpgradeMode}
  {settings : Settings} {r : Report} {t : Target}

theorem core_mem_settledCores (hcores : (b.targets.map Target.core).Nodup) (ht : t ∈ b.targets) :
    t.core ∈ settledCores b.targets slots ↔ leftOut b slots t = true := by
  rw [mem_settledCores, leftOut, Bool.and_eq_true, decide_eq_true_iff, List.any_eq_true]
  refine and_congr_right fun _ => ?_
  constructor
  · rintro ⟨s, hs, hcore⟩
    obtain ⟨hmem, hactive, u, hu, hmatch⟩ := mem_settledSlots.mp hs
    have hut : u = t := List.inj_on_of_nodup_map hcores hu ht (hmatch.1.trans hcore)
    subst hut
    exact ⟨s, hmem, by simp [hactive, hmatch]⟩
  · rintro ⟨s, hmem, hmatch⟩
    simp only [Bool.and_eq_true, decide_eq_true_eq] at hmatch
    obtain ⟨⟨hactive, hcore⟩, hhash⟩ := hmatch
    exact ⟨s, mem_settledSlots.mpr ⟨hmem, hactive, t, ht, hcore.symm, hhash.symm⟩, hcore⟩

theorem working_eq (hcores : (b.targets.map Target.core).Nodup) :
    working slots b = b.targets.filter fun t => !leftOut b slots t := by
  apply List.filter_congr
  intro t ht
  have hmem : t.core ∈ settledCores b.targets slots ↔ _ := core_mem_settledCores hcores ht
  rw [Bool.eq_iff_iff]
  simpa using not_congr hmem

theorem isForImage_of_mem_stepsFor {s : Step} (h : s ∈ stepsFor slots c mode t) :
    s.isForImage = true := by
  rcases (mem_stepsFor.mp h).2 with ⟨_, rfl⟩ | hmark
  · rfl
  · rcases Assessment.mem_marks.mp hmark with ⟨_, ⟨rfl, _⟩ | ⟨rfl, _⟩ | ⟨rfl, _⟩⟩ | ⟨_, _, rfl⟩ <;>
      rfl

theorem filter_isForImage (hcaches : b.caches = []) :
    (report b slots c mode settings).steps.filter Step.isForImage =
      (working slots b).flatMap (stepsFor slots c mode) := by
  have hdevice : ∀ s : Step, s.isForDevice = true → s.isForImage = false := by
    intro s hs
    cases s with
    | eraseStorage | resetBeforeUpload | reset => rfl
    | _ => cases hs
  rw [filter_steps_report b settings hdevice, hcaches, List.map_nil, List.filter_nil,
    List.append_nil]
  apply List.flatMap_congr
  intro t _
  exact List.filter_eq_self.mpr fun s hs => isForImage_of_mem_stepsFor hs

theorem stepsFor_of_confirmed (hconfirm : t.image.needsConfirmation = true)
    (hcopy : (Assessment.copy? t slots).any Slot.confirmed = true) :
    stepsFor slots c mode t = [] := by
  have hscan := Assessment.scan_eq t slots c.inPlace
  have hconfirmed : (Assessment.scan t slots c.inPlace).confirmed = true := by rw [hscan, hcopy]
  have hfound : (Assessment.scan t slots c.inPlace).found = true := by
    obtain ⟨s, hs, _⟩ := (Option.any_eq_true _ _).mp hcopy
    rw [hscan, hs]
    rfl
  have htarget : (Assessment.scan t slots c.inPlace).target = t := by rw [hscan]
  apply List.eq_nil_iff_forall_not_mem.mpr
  intro s hs
  rcases (mem_stepsFor.mp hs).2 with ⟨hnone, _⟩ | hmark
  · rw [hfound] at hnone
    cases hnone
  · rcases Assessment.mem_marks.mp hmark with
      ⟨_, ⟨_, _, _, hnot, _⟩ | ⟨_, _, _, hnot⟩ | ⟨_, _, _, hnot⟩⟩ | ⟨hnot, _⟩
    · rw [hconfirmed] at hnot
      cases hnot
    · rw [hconfirmed] at hnot
      cases hnot
    · rw [hconfirmed] at hnot
      cases hnot
    · rw [htarget, hconfirm] at hnot
      cases hnot

theorem filter_isForImage_single {a : Report} (h : Made (.single t) slots c mode settings a) :
    a.steps.filter Step.isForImage = stepsFor slots c mode t := by
  obtain ⟨_, _, rfl⟩ := made_iff.mp h
  rw [filter_isForImage rfl, working_single rfl, List.flatMap_singleton]

/-- In a bundle of images for different cores, each image has the steps that it has in a bundle of
its own, unless it is left out, and then it has none. An image that has confirmed itself has none in
a bundle of its own either. -/
theorem steps_core_by_core (hcores : (b.targets.map Target.core).Nodup) (hcaches : b.caches = [])
    (h : Made b slots c mode settings r) :
    (∀ t ∈ b.targets, leftOut b slots t = false →
      ∃ alone, Made (.single t) slots c mode settings alone) ∧
    (∀ alone : Target → Report,
      (∀ t ∈ b.targets, leftOut b slots t = false →
        Made (.single t) slots c mode settings (alone t)) →
      r.steps.filter Step.isForImage = b.targets.flatMap fun t =>
        if leftOut b slots t then [] else (alone t).steps.filter Step.isForImage) ∧
    ∀ t ∈ b.targets, ∀ alone, Made (.single t) slots c mode settings alone →
      t.image.needsConfirmation = true → (Assessment.copy? t slots).any Slot.confirmed = true →
        alone.steps.filter Step.isForImage = [] := by
  obtain ⟨hslots, hw, rfl⟩ := made_iff.mp h
  refine ⟨?_, ?_, ?_⟩
  · intro t ht hout
    have hmem : t ∈ working slots b := by
      rw [working_eq hcores]
      exact List.mem_filter.mpr ⟨ht, by rw [hout, Bool.not_false]⟩
    refine ⟨_, made_iff.mpr ⟨hslots, ?_, rfl⟩⟩
    rw [isWritable_single rfl]
    exact isWritable_of_mem_working hw hmem
  · intro alone hmade
    rw [filter_isForImage hcaches, working_eq hcores, flatMap_filter_not]
    apply List.flatMap_congr
    intro t ht
    split_ifs with hout
    · rfl
    · exact (filter_isForImage_single (hmade t ht (Bool.eq_false_iff.mpr hout))).symm
  · intro t _ alone hmade hconfirm hcopy
    rw [filter_isForImage_single hmade, stepsFor_of_confirmed hconfirm hcopy]

namespace Sample

def unconfirmed : List Slot :=
  [{ core := 0, number := 0, hash := application.hash, active := true }, running 1]

theorem made_unconfirmed {b : Bundle} (hw : isWritable b unconfirmed = true) :
    Made b unconfirmed {} .testAndConfirm {} (report b unconfirmed {} .testAndConfirm {}) :=
  made_iff.mpr ⟨List.cons_ne_nil _ _, hw, rfl⟩

end Sample

theorem steps_core_by_core_pair :
    ∃ alone, Made (.single Sample.network) Sample.unconfirmed {} .testAndConfirm {} alone ∧
      (report Sample.pair Sample.unconfirmed {} .testAndConfirm {}).steps.filter Step.isForImage =
        alone.steps.filter Step.isForImage := by
  obtain ⟨hexists, hsteps, _⟩ := steps_core_by_core (b := Sample.pair) (by decide) rfl
    (Sample.made_unconfirmed (by decide +kernel))
  obtain ⟨alone, halone⟩ := hexists Sample.network (by decide) rfl
  refine ⟨alone, halone, (hsteps (fun _ => alone) ?_).trans ?_⟩
  · intro t ht hout
    rcases List.mem_cons.mp ht with rfl | ht
    · cases hout
    · rw [List.mem_singleton.mp ht]
      exact halone
  · exact List.append_nil _

/-- The confirmation that a running image has in a bundle of its own is missing from the plan for
two cores. -/
theorem confirmation_left_out :
    ¬ ∀ (b : Bundle) (slots : List Slot) (c : Capabilities) (mode : UpgradeMode)
        (settings : Settings) (r : Report) (alone : Target → Report),
      b.caches = [] → (b.targets.map Target.core).Nodup → Made b slots c mode settings r →
      (∀ t ∈ b.targets, Made (.single t) slots c mode settings (alone t)) →
      r.steps.filter Step.isForImage =
        b.targets.flatMap fun t => (alone t).steps.filter Step.isForImage := by
  intro h
  have hsteps := h Sample.pair Sample.unconfirmed {} .testAndConfirm {} _
    (fun t => report (.single t) Sample.unconfirmed {} .testAndConfirm {}) rfl (by decide)
    (Sample.made_unconfirmed (by decide +kernel)) fun t ht => by
      refine Sample.made_unconfirmed ?_
      rw [isWritable_single rfl]
      rcases List.mem_cons.mp ht with rfl | ht
      · decide +kernel
      · rw [List.mem_singleton.mp ht]
        decide +kernel
  exact absurd hsteps (by decide)

end Plan
end Reflash
