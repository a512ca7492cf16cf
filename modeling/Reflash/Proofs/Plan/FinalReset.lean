import Reflash.Proofs.Plan.TrialBoot

/-! The final reset. Whatever is sent to be confirmed, and whatever is marked, waits
for a reset to come into use, and every plan with such a step has that reset, once.
It stands after all that prepares the device and before all that is confirmed
afterwards. -/

namespace Reflash

def Step.isFinalReset : Step → Bool
  | .reset _ => true
  | _ => false

theorem Step.isReset_of_isFinalReset {s : Step} (h : s.isFinalReset = true) :
    s.isReset = true := by
  cases s with
  | reset => rfl
  | _ => cases h

theorem Step.eq_confirmAfterReset {s : Step} (hpriority : 5 ≤ s.priority)
    (hreset : s.isFinalReset = false) : ∃ hash, s = .confirmAfterReset hash := by
  cases s with
  | confirmAfterReset hash => exact ⟨hash, rfl⟩
  | reset => cases hreset
  | _ => simp [priority] at hpriority

namespace Plan

variable {b : Bundle} {slots : List Slot} {c : Capabilities} {mode : UpgradeMode}
  {settings : Settings} {r : Report} {t : Target} {hash : Bytes}

theorem needsReset_of_upload (hconfirm : t.image.needsConfirmation = true)
    (h : t.upload ∈ stepsFor slots c mode t) : needsReset slots c mode t = true := by
  obtain ⟨hactive, hnone⟩ := upload_mem_stepsFor.mp h
  have hscan := Assessment.scan_eq t slots c.inPlace
  rw [hnone, hactive] at hscan
  have hawaits : (Assessment.scan t slots c.inPlace).awaitsReset (c.limit mode) = true := by
    by_cases hmode : c.limit mode = .none
    · simp [Assessment.awaitsReset, hscan, hconfirm, hmode]
    · exact Assessment.awaitsReset_of_idle (by rw [hscan]; exact hconfirm) (by rw [hscan]; rfl)
        (by rw [hscan]; rfl) hmode
  rw [needsReset_of_not_skip (by rw [hscan]), hawaits, Bool.or_true]

theorem needsReset_of_confirm (h : .confirm (some hash) ∈ stepsFor slots c mode t) :
    needsReset slots c mode t = true := by
  obtain ⟨hskip, ⟨_, heq⟩ | hmark⟩ := mem_stepsFor.mp h
  · cases heq
  rw [needsReset_of_not_skip hskip]
  rcases Assessment.mem_marks.mp hmark with
    ⟨hconfirm, ⟨heq, _⟩ | ⟨heq, _⟩ | ⟨_, hmode, _, hconfirmed⟩⟩ | ⟨_, _, heq⟩
  · cases heq
  · cases heq
  · rw [hmode, Assessment.awaitsReset, hconfirm, hconfirmed, Bool.not_false, Bool.or_true,
      Bool.and_true, Bool.or_true]
  · cases heq

def Activates (slots : List Slot) (c : Capabilities) (mode : UpgradeMode) (r : Report) : Prop :=
  (∃ t ∈ r.targets, t.image.needsConfirmation = true ∧ t.upload ∈ stepsFor slots c mode t) ∨
    (∃ hash, .test hash ∈ r.steps) ∨ ∃ hash, .confirm (some hash) ∈ r.steps

theorem any_needsReset (h : Activates slots c mode (report b slots c mode settings)) :
    (working slots b).any (needsReset slots c mode) = true := by
  rw [List.any_eq_true]
  rcases h with ⟨t, ht, hconfirm, hupload⟩ | ⟨hash, htest⟩ | ⟨hash, hmark⟩
  · exact ⟨t, ht, needsReset_of_upload hconfirm hupload⟩
  · obtain ⟨t, ht, hsteps⟩ := mem_stepsFor_of_mem_steps htest (.inl rfl)
    exact ⟨t, ht, needsReset_of_test hsteps⟩
  · obtain ⟨t, ht, hsteps⟩ := mem_stepsFor_of_mem_steps hmark (.inl rfl)
    exact ⟨t, ht, needsReset_of_confirm hsteps⟩

theorem countP_isFinalReset (h : (working slots b).any (needsReset slots c mode) = true) :
    (report b slots c mode settings).steps.countP Step.isFinalReset = 1 := by
  rw [countP_steps fun _ => Step.isReset_of_isFinalReset, h]
  simp [Step.isFinalReset]

/-- A plan that sends an image to be confirmed, or marks one, has one final reset. What comes after
it are the confirmations that wait for it, and all else comes before; nothing is sent once an image
has been marked. -/
theorem one_final_reset (h : Made b slots c mode settings r)
    (hactivates : Activates slots c mode r) :
    r.steps.countP Step.isFinalReset = 1 ∧
    (∃ before after, (Agenda.ofSteps r.steps).drain.1 = before ++ .reset c.noSwap :: after ∧
      (∀ s ∈ before, s.isFinalReset = false ∧ ∀ hash, s ≠ .confirmAfterReset hash) ∧
      ∀ s ∈ after, ∃ hash, s = .confirmAfterReset hash) ∧
    ∀ before s after, (Agenda.ofSteps r.steps).drain.1 = before ++ s :: after →
      (∃ hash, s = .test hash) ∨ (∃ hash, s = .confirm hash) →
        ∀ data target, .upload data target ∉ after := by
  obtain ⟨_, _, rfl⟩ := made_iff.mp h
  have hany := any_needsReset hactivates
  have hcount : (report b slots c mode settings).steps.countP Step.isFinalReset = 1 :=
    countP_isFinalReset hany
  rw [Agenda.drain_ofSteps]
  refine ⟨hcount, ?_, ?_⟩
  · have hreset : .reset c.noSwap ∈ (report b slots c mode settings).steps :=
      mem_steps_report.mpr (.inr (.inr (mem_ending.mpr (.inr ⟨hany, .inr rfl⟩))))
    obtain ⟨before, after, horder⟩ := List.append_of_mem ((Step.sorted_perm _).mem_iff.mpr hreset)
    have hbefore := (Step.priority_around horder).1
    have hafter := (Step.priority_around horder).2
    have hone : (Step.reset c.noSwap).isFinalReset = true := rfl
    rw [Step.countP_sorted horder, if_pos hone] at hcount
    have hnone : ∀ s ∈ before, ¬ s.isFinalReset = true := List.countP_eq_zero.mp (by omega)
    have hnone' : ∀ s ∈ after, ¬ s.isFinalReset = true := List.countP_eq_zero.mp (by omega)
    refine ⟨before, after, horder, ?_, ?_⟩
    · intro s hs
      refine ⟨Bool.eq_false_iff.mpr (hnone s hs), ?_⟩
      rintro hash rfl
      exact absurd (hbefore _ hs) (show ¬ 6 ≤ 5 by decide)
    · intro s hs
      exact Step.eq_confirmAfterReset (hafter s hs) (Bool.eq_false_iff.mpr (hnone' s hs))
  · intro before s after horder hmark data target hupload
    have hlater := (Step.priority_around horder).2 _ hupload
    rcases hmark with ⟨hash, rfl⟩ | ⟨hash, rfl⟩
    · exact absurd hlater (show ¬ 3 ≤ 2 by decide)
    · exact absurd hlater (show ¬ 3 ≤ 2 by decide)

theorem one_final_reset_pair :
    Activates [Sample.running 1, Sample.stale 1] {} .testAndConfirm
      (report Sample.pair [Sample.running 1, Sample.stale 1] {} .testAndConfirm
        { eraseSettings := true }) ∧
    (Agenda.ofSteps (report Sample.pair [Sample.running 1, Sample.stale 1] {} .testAndConfirm
      { eraseSettings := true }).steps).drain.1 =
        [.resetBeforeUpload (.bool false), Sample.application.upload, Sample.network.upload,
          .test [0xA1], .test [0xB2], .eraseStorage, .reset (.bool false),
          .confirmAfterReset [0xA1], .confirmAfterReset [0xB2]] ∧
    (report Sample.pair [Sample.running 1, Sample.stale 1] {} .testAndConfirm
      { eraseSettings := true }).steps.countP Step.isFinalReset = 1 ∧
    Sample.network.upload ∉ [.test [0xB2], .eraseStorage, .reset (.bool false),
      .confirmAfterReset [0xA1], .confirmAfterReset [0xB2]] := by
  have hmade : Made Sample.pair [Sample.running 1, Sample.stale 1] {} .testAndConfirm
      { eraseSettings := true } _ := made_iff.mpr ⟨List.cons_ne_nil _ _, by decide +kernel, rfl⟩
  have hactivates : Activates [Sample.running 1, Sample.stale 1] {} .testAndConfirm
      (report Sample.pair [Sample.running 1, Sample.stale 1] {} .testAndConfirm
        { eraseSettings := true }) := .inl ⟨Sample.network, by decide, rfl, by decide⟩
  obtain ⟨hcount, _, hupload⟩ := one_final_reset hmade hactivates
  refine ⟨hactivates, rfl, hcount, ?_⟩
  exact hupload [.resetBeforeUpload (.bool false), Sample.application.upload,
    Sample.network.upload] (.test [0xA1]) _ rfl (.inl ⟨_, rfl⟩) [1, 2, 3] 1

end Plan
end Reflash
