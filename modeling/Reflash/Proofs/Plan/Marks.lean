import Reflash.Proofs.Agenda
import Reflash.Proofs.Plan

/-! The steps that bring images into use. Each one is planned for an image that
is not skipped, and speaks of that image alone. When it is taken, the device has
the image: a slot of its core held it from the start, or it was sent before. -/

namespace Reflash

def Step.isMark : Step → Bool
  | .test _ | .confirm _ | .confirmAfterReset _ => true
  | _ => false

/-- Whether a step brings this very image into use. A confirmation that names no digest is for
images that are activated. -/
def Step.IsFor (t : Target) : Step → Prop
  | .test hash | .confirm (some hash) | .confirmAfterReset hash =>
    t.image.needsConfirmation = true ∧ t.hash = hash
  | .confirm none => t.image.requiresActivation = true
  | _ => False

theorem Step.priority_of_isMark {s : Step} (h : s.isMark = true) :
    s.priority = 3 ∨ s.priority = 6 := by
  cases s with
  | test | confirm => exact .inl rfl
  | confirmAfterReset => exact .inr rfl
  | _ => cases h

theorem Assessment.isFor_of_mem_marks {mode : UpgradeMode} {a : Assessment} {s : Step}
    (h : s ∈ a.marks mode) : s.IsFor a.target := by
  rcases mem_marks.mp h with ⟨hconfirm, ⟨rfl, _⟩ | ⟨rfl, _⟩ | ⟨rfl, _⟩⟩ | ⟨_, hactivate, rfl⟩
  · exact ⟨hconfirm, rfl⟩
  · exact ⟨hconfirm, rfl⟩
  · exact ⟨hconfirm, rfl⟩
  · exact hactivate

namespace Plan

variable {b : Bundle} {slots : List Slot} {c : Capabilities} {mode : UpgradeMode}
  {settings : Settings} {r : Report} {t : Target} {s : Step}

theorem isFor_of_mem_stepsFor (hs : s ∈ stepsFor slots c mode t) (hmark : s.isMark = true) :
    s.IsFor t := by
  have htarget : (Assessment.scan t slots c.inPlace).target = t := by rw [Assessment.scan_eq]
  rcases (mem_stepsFor.mp hs).2 with ⟨_, rfl⟩ | hmem
  · cases hmark
  · rw [← htarget]
    exact Assessment.isFor_of_mem_marks hmem

theorem held_or_upload_of_mem_stepsFor (hs : s ∈ stepsFor slots c mode t) :
    (∃ x ∈ slots, x.core = t.core ∧ x.hash = t.hash) ∨ t.upload ∈ stepsFor slots c mode t := by
  have hskip := (mem_stepsFor.mp hs).1
  cases hcopy : Assessment.copy? t slots with
  | some x => exact .inl ⟨x, Assessment.of_copy?_eq_some hcopy⟩
  | none =>
    rw [Assessment.scan_eq] at hskip
    exact .inr (upload_mem_stepsFor.mpr ⟨hskip, hcopy⟩)

theorem filter_isMark :
    (report b slots c mode settings).steps.filter Step.isMark =
      (working slots b).flatMap fun t => (stepsFor slots c mode t).filter Step.isMark := by
  have hdevice : ∀ s : Step, s.isForDevice = true → s.isMark = false := by
    intro s hs
    cases s with
    | eraseStorage | resetBeforeUpload | reset => rfl
    | _ => cases hs
  have hcaches : (b.caches.map cacheUpload).filter Step.isMark = [] := by
    apply List.filter_eq_nil_iff.mpr
    intro s hs
    obtain ⟨cache, _, rfl⟩ := List.mem_map.mp hs
    exact Bool.false_ne_true
  rw [filter_steps_report b settings hdevice, hcaches, List.append_nil]

/-- Every step that brings an image into use comes from one target of the plan, which is not
skipped and which the step is for. The core of the target holds the image, or the plan sends it, and
then it is sent before the step is taken. -/
theorem marks_of_present_images (h : Made b slots c mode settings r) :
    ((Agenda.ofSteps r.steps).drain.1.filter Step.isMark).Perm
      (r.targets.flatMap fun t => (stepsFor slots c mode t).filter Step.isMark) ∧
    ∀ t ∈ r.targets, ∀ s ∈ stepsFor slots c mode t, s.isMark = true →
      t ∉ r.skipped ∧ s.IsFor t ∧
      ((∃ x ∈ slots, x.core = t.core ∧ x.hash = t.hash) ∨
        t.upload ∈ r.steps ∧
        ∀ before after, (Agenda.ofSteps r.steps).drain.1 = before ++ s :: after →
          t.upload ∈ before) := by
  obtain ⟨_, _, rfl⟩ := made_iff.mp h
  constructor
  · rw [Agenda.drain_ofSteps]
    have hperm := (Step.sorted_perm (report b slots c mode settings).steps).filter Step.isMark
    rwa [filter_isMark] at hperm
  · intro t ht s hs hmark
    refine ⟨not_mem_skipped b settings hs, isFor_of_mem_stepsFor hs hmark, ?_⟩
    rcases held_or_upload_of_mem_stepsFor hs with hheld | hupload
    · exact .inl hheld
    · have hsent : t.upload ∈ (report b slots c mode settings).steps :=
        mem_steps_report.mpr (.inl ⟨t, ht, hupload⟩)
      refine .inr ⟨hsent, ?_⟩
      intro before after horder
      rw [Agenda.drain_ofSteps] at horder
      have hlater : t.upload.priority < s.priority := by
        have hpriority := Step.priority_of_isMark hmark
        change 2 < s.priority
        omega
      exact Step.mem_before horder hsent hlater

theorem marks_of_present_images_pair :
    (∃ x ∈ [Sample.application.stored "2.0"], x.core = 0 ∧ x.hash = [0xA1]) ∧
    (Agenda.ofSteps (report Sample.pair [Sample.application.stored "2.0"] {} .confirmOnly
      {}).steps).drain.1 =
        [Sample.network.upload] ++ .confirm (some [0xA1]) ::
          [.confirm (some [0xB2]), .reset (.bool false)] ∧
    Sample.network.upload ∈ [Sample.network.upload, .confirm (some [0xA1])] := by
  have hmade : Made Sample.pair [Sample.application.stored "2.0"] {} .confirmOnly {} _ :=
    made_iff.mpr ⟨List.cons_ne_nil _ _, by decide +kernel, rfl⟩
  obtain ⟨_, hmarks⟩ := marks_of_present_images hmade
  obtain ⟨_, _, hheld⟩ := hmarks Sample.application (by decide) (.confirm (some [0xA1]))
    (by decide) rfl
  obtain ⟨_, _, hsent⟩ := hmarks Sample.network (by decide) (.confirm (some [0xB2]))
    (by decide) rfl
  have hunsent : Sample.application.upload ∉ (report Sample.pair
      [Sample.application.stored "2.0"] {} .confirmOnly {}).steps := by decide
  refine ⟨hheld.resolve_right fun h => hunsent h.1, rfl, ?_⟩
  exact (hsent.resolve_left (by decide)).2 _ [.reset (.bool false)] rfl

end Plan
end Reflash
