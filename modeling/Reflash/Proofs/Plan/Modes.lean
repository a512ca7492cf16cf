import Reflash.Proofs.Plan.Marks

/-! Modes. The mode of an upgrade, as far as the bootloader can revert, says which kinds of
steps bring images into use, and the first record of an image says which of them are still
to be taken. What a mode rules out is in no plan, whatever the slots hold; what it asks for
is planned for each image that is not skipped unless the record shows that it was done. -/

namespace Reflash

namespace Slot

def isTried (s : Slot) : Bool := s.pending || s.confirmed || s.active

def isKept (s : Slot) : Bool := s.permanent || s.confirmed

end Slot

namespace Step

/-- Whether plans of a mode may have a step. A confirmation that names no digest is a matter of the
image's format and not of the mode. -/
def IsAllowed (mode : UpgradeMode) : Step → Prop
  | .test _ => mode = .testOnly ∨ mode = .testAndConfirm
  | .confirmAfterReset _ => mode = .testAndConfirm
  | .confirm (some _) => mode = .confirmOnly
  | _ => True

/-- Whether a step brings an image into use and is still to be taken, going by the record of the
image if there is one. -/
def IsDue (t : Target) (copy : Option Slot) : Step → Prop
  | .test hash =>
    t.image.needsConfirmation = true ∧ hash = t.hash ∧ ∀ s ∈ copy, s.isTried = false
  | .confirmAfterReset hash | .confirm (some hash) =>
    t.image.needsConfirmation = true ∧ hash = t.hash ∧ ∀ s ∈ copy, s.isKept = false
  | .confirm none => t.image.needsConfirmation = false ∧ t.image.requiresActivation = true
  | _ => False

end Step

namespace Assessment

variable {t : Target} {slots : List Slot} {noSwap : Bool} {mode : UpgradeMode}

theorem any_eq_false_iff {copy : Option Slot} {p : Slot → Bool} :
    copy.any p = false ↔ ∀ s ∈ copy, p s = false := by
  cases copy <;> simp

theorem mem_marks_scan {s : Step} :
    s ∈ (scan t slots noSwap).marks mode ↔ s.IsAllowed mode ∧ s.IsDue t (copy? t slots) := by
  rw [mem_marks, scan_eq]
  simp only [any_eq_false_iff]
  cases s with
  | confirm hash => cases hash <;> simp [Step.IsAllowed, Step.IsDue, Slot.isKept]; grind
  | test | confirmAfterReset =>
    simp [Step.IsAllowed, Step.IsDue, Slot.isTried, Slot.isKept]
    grind
  | _ => simp [Step.IsDue]

theorem nodup_marks (mode : UpgradeMode) (a : Assessment) : (a.marks mode).Nodup := by
  unfold marks tests confirms
  cases mode <;> split_ifs <;> simp

end Assessment

namespace Plan

variable {b : Bundle} {slots : List Slot} {c : Capabilities} {mode : UpgradeMode}
  {settings : Settings} {r : Report} {t : Target} {s : Step}

theorem mark_mem_stepsFor (hmark : s.isMark = true) :
    s ∈ stepsFor slots c mode t ↔
      (Assessment.scan t slots c.inPlace).skip = false ∧
        s.IsAllowed (c.limit mode) ∧ s.IsDue t (Assessment.copy? t slots) := by
  have hsent : s ≠ t.upload := by
    rintro rfl
    cases hmark
  rw [mem_stepsFor, Assessment.mem_marks_scan]
  simp only [hsent, and_false, false_or]

theorem isAllowed_of_mem_steps (hs : s ∈ (report b slots c mode settings).steps) :
    s.IsAllowed (c.limit mode) := by
  cases hmark : s.isMark with
  | true =>
    obtain ⟨t, _, hsteps⟩ := mem_stepsFor_of_mem_steps hs (Step.priority_of_isMark hmark)
    exact ((mark_mem_stepsFor hmark).mp hsteps).2.1
  | false =>
    cases s with
    | test | confirm | confirmAfterReset => cases hmark
    | _ => trivial

theorem nodup_filter_isMark : ((stepsFor slots c mode t).filter Step.isMark).Nodup := by
  cases hskip : (Assessment.scan t slots c.inPlace).skip with
  | true => rw [stepsFor_of_skip hskip]; exact List.nodup_nil
  | false =>
    have huploads : (Assessment.scan t slots c.inPlace).uploads.filter Step.isMark = [] := by
      unfold Assessment.uploads
      split <;> rfl
    rw [stepsFor_of_not_skip hskip, List.filter_append, huploads, List.nil_append]
    exact (Assessment.nodup_marks _ _).filter _

/-- A plan has no step that the mode does not allow, or that a bootloader without a way back does
not. The steps that bring images into use are those of the images, each of them once at most; an
image that is not skipped has exactly those that the mode allows and its first record leaves to
do. -/
theorem marks_respect_mode (h : Made b slots c mode settings r) :
    (∀ s ∈ r.steps, s.IsAllowed (c.limit mode)) ∧
    r.steps.filter Step.isMark =
      r.targets.flatMap (fun t => (stepsFor slots c mode t).filter Step.isMark) ∧
    ∀ t ∈ r.targets, ((stepsFor slots c mode t).filter Step.isMark).Nodup ∧
      ∀ s, s.isMark = true → (s ∈ stepsFor slots c mode t ↔
        t ∉ r.skipped ∧ s.IsAllowed (c.limit mode) ∧ s.IsDue t (Assessment.copy? t slots)) := by
  obtain ⟨_, _, rfl⟩ := made_iff.mp h
  refine ⟨fun s hs => isAllowed_of_mem_steps hs, filter_isMark, ?_⟩
  intro t ht
  refine ⟨nodup_filter_isMark, ?_⟩
  intro s hmark
  rw [mark_mem_stepsFor hmark, mem_skipped_iff ht, Bool.not_eq_true]

namespace Sample

def envelope : Target := { core := 2, image := ⟨.suit, [4], [0xD4], by simp⟩ }

def mixed : Bundle := { targets := [application, network, envelope], distinct := by decide }

def halfway : List Slot := [running 0, { application.stored "2.0" with pending := true }, running 1]

end Sample

theorem marks_respect_mode_mixed :
    (report Sample.mixed Sample.halfway {} .testAndConfirm {}).steps.filter Step.isMark =
      [.confirmAfterReset [0xA1], .test [0xB2], .confirmAfterReset [0xB2], .confirm none] ∧
    .test [0xA1] ∉ stepsFor Sample.halfway {} .testAndConfirm Sample.application ∧
    .confirmAfterReset [0xA1] ∈ stepsFor Sample.halfway {} .testAndConfirm Sample.application ∧
    .confirm none ∈ stepsFor Sample.halfway {} .testAndConfirm Sample.envelope ∧
    .confirm (some [0xB2]) ∉
      (report Sample.mixed Sample.halfway {} .testAndConfirm {}).steps := by
  have hmade : Made Sample.mixed Sample.halfway {} .testAndConfirm {} _ :=
    made_iff.mpr ⟨List.cons_ne_nil _ _, by decide +kernel, rfl⟩
  obtain ⟨hallowed, _, hdue⟩ := marks_respect_mode hmade
  obtain ⟨_, happlication⟩ := hdue Sample.application (by decide)
  obtain ⟨_, henvelope⟩ := hdue Sample.envelope (by decide)
  refine ⟨rfl, ?_, ?_, ?_, ?_⟩
  · intro htest
    have hdone := ((happlication _ rfl).mp htest).2.2.2.2 _ rfl
    cases hdone
  · refine (happlication _ rfl).mpr ⟨by decide, rfl, rfl, rfl, ?_⟩
    rintro s ⟨⟩
    rfl
  · exact (henvelope _ rfl).mpr ⟨by decide, trivial, rfl, rfl⟩
  · intro hconfirm
    cases hallowed _ hconfirm

end Plan
end Reflash
