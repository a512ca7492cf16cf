import Mathlib.Data.List.Basic
import Reflash.Plan
import Reflash.Proofs.Assessment

/-! Plans as sums. The steps of a plan are those for each image that is left,
one image after the other, then the uploads of the cache images, and then the
resets, which depend on all images together. -/

namespace Reflash

def Step.isForDevice : Step → Bool
  | .eraseStorage | .resetBeforeUpload _ | .reset _ => true
  | _ => false

def Target.upload (t : Target) : Step := .upload t.image.data t.core

def Target.stored (t : Target) (version : String) : Slot :=
  { core := t.core, number := t.slot, hash := t.hash, version }

namespace Plan
open Assessment (inTheWay)

variable (slots : List Slot) (c : Capabilities) (mode : UpgradeMode)

def stepsFor (t : Target) : List Step :=
  contribution ((Assessment.scan t slots c.inPlace).decide c mode)

def needsClearing (t : Target) : Bool := (inTheWay t slots).any Slot.isStale

def needsReset (t : Target) : Bool :=
  ((Assessment.scan t slots c.inPlace).decide c mode).resetRequired

def ending (early last : Bool) (settings : Settings) : List Step :=
  (if early then [.resetBeforeUpload c.noSwap] else []) ++
  (if last then
    (if settings.eraseSettings then [.eraseStorage] else []) ++ [.reset c.noSwap]
  else [])

def working (b : Bundle) : List Target := (b.withoutCores (settledCores b.targets slots)).targets

variable {slots c mode}

theorem mem_settledSlots {targets : List Target} {s : Slot} :
    s ∈ settledSlots targets slots ↔
      s ∈ slots ∧ s.active = true ∧ ∃ t ∈ targets, t.core = s.core ∧ t.hash = s.hash := by
  simp only [settledSlots, List.mem_filter, Bool.and_eq_true, List.any_eq_true, decide_eq_true_eq]

theorem mem_settledCores {targets : List Target} {core : Int} :
    core ∈ settledCores targets slots ↔
      1 < targets.length ∧ ∃ s ∈ settledSlots targets slots, s.core = core := by
  unfold settledCores
  split_ifs with hlength
  · simp [Nat.not_lt.mpr hlength]
  · simp [Nat.lt_of_not_le hlength]

theorem mem_working {b : Bundle} {t : Target} :
    t ∈ working slots b ↔ t ∈ b.targets ∧ t.core ∉ settledCores b.targets slots := by
  simp [working, Bundle.withoutCores]

theorem stepsFor_of_skip {t : Target} (h : (Assessment.scan t slots c.inPlace).skip = true) :
    stepsFor slots c mode t = [] := by
  rw [stepsFor, contribution, (Assessment.decide_frame c mode _).2.1, h, if_pos rfl]

theorem stepsFor_of_not_skip {t : Target} (h : (Assessment.scan t slots c.inPlace).skip = false) :
    stepsFor slots c mode t =
      (Assessment.scan t slots c.inPlace).uploads ++
        (Assessment.scan t slots c.inPlace).marks (c.limit mode) := by
  have hsteps : (Assessment.scan t slots c.inPlace).steps = [] := by rw [Assessment.scan_eq]
  rw [stepsFor, contribution, (Assessment.decide_frame c mode _).2.1, h,
    if_neg Bool.false_ne_true, Assessment.steps_decide h, hsteps, List.nil_append]

theorem needsReset_of_not_skip {t : Target}
    (h : (Assessment.scan t slots c.inPlace).skip = false) :
    needsReset slots c mode t =
      ((Assessment.scan t slots c.inPlace).resetRequired ||
        (Assessment.scan t slots c.inPlace).awaitsReset (c.limit mode)) :=
  Assessment.resetRequired_decide h

theorem needsClearing_eq (noSwap : Bool) (t : Target) :
    needsClearing slots t = (Assessment.scan t slots noSwap).initialResetRequired := by
  rw [Assessment.scan_eq]
  rfl

theorem mem_stepsFor {t : Target} {s : Step} :
    s ∈ stepsFor slots c mode t ↔
      (Assessment.scan t slots c.inPlace).skip = false ∧
        ((Assessment.scan t slots c.inPlace).found = false ∧ s = t.upload ∨
          s ∈ (Assessment.scan t slots c.inPlace).marks (c.limit mode)) := by
  have htarget : (Assessment.scan t slots c.inPlace).target = t := by rw [Assessment.scan_eq]
  cases hskip : (Assessment.scan t slots c.inPlace).skip
  · rw [stepsFor_of_not_skip hskip, List.mem_append, Assessment.uploads, htarget]
    cases (Assessment.scan t slots c.inPlace).found <;> simp [Target.upload]
  · rw [stepsFor_of_skip hskip]
    simp

theorem upload_mem_stepsFor {t : Target} :
    t.upload ∈ stepsFor slots c mode t ↔
      (inTheWay t slots).any Slot.active = false ∧ Assessment.copy? t slots = none := by
  have hmarks : t.upload ∉ (Assessment.scan t slots c.inPlace).marks (c.limit mode) := by
    intro hmem
    rcases Assessment.priority_of_mem_marks hmem with hpriority | hpriority <;> cases hpriority
  rw [mem_stepsFor, or_iff_left hmarks, Assessment.scan_eq]
  simp

theorem flatMap_filter_not (p : Target → Bool) (f : Target → List Step) (l : List Target) :
    (l.filter fun t => !p t).flatMap f = l.flatMap fun t => if p t then [] else f t := by
  induction l with
  | nil => rfl
  | cons t l ih => cases h : p t <;> simp [h, ih]

theorem mem_ending {early last : Bool} {settings : Settings} {s : Step} :
    s ∈ ending c early last settings ↔
      early = true ∧ s = .resetBeforeUpload c.noSwap ∨
        last = true ∧ (settings.eraseSettings = true ∧ s = .eraseStorage ∨
          s = .reset c.noSwap) := by
  unfold ending
  cases early <;> cases last <;> cases settings.eraseSettings <;> simp

theorem any_initialResetRequired (targets : List Target) :
    (assess targets slots c mode).any Assessment.initialResetRequired =
      targets.any (needsClearing slots) := by
  rw [assess, List.any_map]
  congr 1
  funext t
  rw [Function.comp_apply, (Assessment.decide_frame c mode _).2.2.2, needsClearing_eq]

theorem any_resetRequired (targets : List Target) :
    (assess targets slots c mode).any Assessment.resetRequired =
      targets.any (needsReset slots c mode) := by
  rw [assess, List.any_map]
  rfl

variable (b : Bundle) (settings : Settings)

theorem steps_report :
    (report b slots c mode settings).steps =
      (working slots b).flatMap (stepsFor slots c mode) ++ b.caches.map cacheUpload ++
        ending c ((working slots b).any (needsClearing slots))
          ((working slots b).any (needsReset slots c mode)) settings := by
  simp only [report, resets, any_initialResetRequired, any_resetRequired]
  simp only [assess, List.flatMap_map]
  rfl

variable {b settings} in
theorem mem_steps_report {s : Step} :
    s ∈ (report b slots c mode settings).steps ↔
      (∃ t ∈ working slots b, s ∈ stepsFor slots c mode t) ∨
      (∃ cache ∈ b.caches, cacheUpload cache = s) ∨
      s ∈ ending c ((working slots b).any (needsClearing slots))
        ((working slots b).any (needsReset slots c mode)) settings := by
  rw [steps_report, List.mem_append, List.mem_append, List.mem_flatMap, List.mem_map, or_assoc]

variable {b settings} in
theorem mem_stepsFor_of_mem_steps {s : Step} (h : s ∈ (report b slots c mode settings).steps)
    (hpriority : s.priority = 3 ∨ s.priority = 6) :
    ∃ t ∈ working slots b, s ∈ stepsFor slots c mode t := by
  rcases mem_steps_report.mp h with htarget | ⟨cache, _, rfl⟩ | hend
  · exact htarget
  · rcases hpriority with hpriority | hpriority <;> cases hpriority
  · rcases mem_ending.mp hend with ⟨_, rfl⟩ | ⟨_, ⟨_, rfl⟩ | rfl⟩ <;>
      rcases hpriority with hpriority | hpriority <;> cases hpriority

theorem filter_steps_report {p : Step → Bool} (hp : ∀ s, s.isForDevice = true → p s = false) :
    (report b slots c mode settings).steps.filter p =
      ((working slots b).flatMap fun t => (stepsFor slots c mode t).filter p) ++
        (b.caches.map cacheUpload).filter p := by
  have hending (early last : Bool) : (ending c early last settings).filter p = [] := by
    apply List.filter_eq_nil_iff.mpr
    intro s hs
    rw [Bool.not_eq_true]
    rcases mem_ending.mp hs with ⟨_, rfl⟩ | ⟨_, ⟨_, rfl⟩ | rfl⟩ <;> exact hp _ rfl
  rw [steps_report, List.filter_append, List.filter_append, hending, List.append_nil,
    List.filter_flatMap]

theorem skipped_report :
    (report b slots c mode settings).skipped =
      (working slots b).filter fun t => (Assessment.scan t slots c.inPlace).skip := by
  have hskip : Assessment.skip ∘ (fun t => (Assessment.scan t slots c.inPlace).decide c mode) =
      fun t => (Assessment.scan t slots c.inPlace).skip := by
    funext t
    exact (Assessment.decide_frame c mode _).2.1
  have htarget : Assessment.target ∘
      (fun t => (Assessment.scan t slots c.inPlace).decide c mode) = id := by
    funext t
    rw [Function.comp_apply, (Assessment.decide_frame c mode _).1, Assessment.scan_eq]
    rfl
  simp only [report, assess, List.filter_map, List.map_map, hskip, htarget, List.map_id]
  rfl

variable {b settings} in
theorem mem_skipped_iff {t : Target} (ht : t ∈ working slots b) :
    t ∈ (report b slots c mode settings).skipped ↔
      (Assessment.scan t slots c.inPlace).skip = true := by
  rw [skipped_report, List.mem_filter]
  exact and_iff_right ht

variable {b settings} in
theorem contains_skipped {t : Target} (ht : t ∈ working slots b) :
    (report b slots c mode settings).skipped.contains t =
      (Assessment.scan t slots c.inPlace).skip := by
  rw [Bool.eq_iff_iff, List.contains_iff_mem, mem_skipped_iff ht]

theorem not_mem_skipped {t : Target} {s : Step} (hs : s ∈ stepsFor slots c mode t) :
    t ∉ (report b slots c mode settings).skipped := by
  intro hmem
  rw [skipped_report] at hmem
  have hskip := (List.mem_filter.mp hmem).2
  rw [(mem_stepsFor.mp hs).1] at hskip
  exact Bool.false_ne_true hskip

def Made (b : Bundle) (slots : List Slot) (c : Capabilities) (mode : UpgradeMode)
    (settings : Settings) (r : Report) : Prop :=
  (make b (some slots) c mode settings).1 = .ok r ∧ r.ok = true

variable {b settings} in
theorem made_iff {r : Report} :
    Made b slots c mode settings r ↔
      slots ≠ [] ∧ isWritable b slots = true ∧ r = report b slots c mode settings := by
  cases slots with
  | nil =>
    constructor
    · rintro ⟨h, hok⟩
      cases h
      exact absurd hok Bool.false_ne_true
    · rintro ⟨h, _⟩
      exact absurd rfl h
  | cons s rest =>
    simp only [Made, make, Option.getD_some]
    cases hw : isWritable b (s :: rest)
    · simp
    · constructor
      · rintro ⟨h, _⟩
        cases h
        exact ⟨List.cons_ne_nil s rest, rfl, rfl⟩
      · rintro ⟨_, _, rfl⟩
        exact ⟨rfl, rfl⟩

variable {b settings} in
theorem exists_made_iff (h : slots ≠ []) :
    (∃ r, Made b slots c mode settings r) ↔ isWritable b slots = true := by
  constructor
  · rintro ⟨r, hmade⟩
    exact (made_iff.mp hmade).2.1
  · exact fun hw => ⟨_, made_iff.mpr ⟨h, hw, rfl⟩⟩

theorem make_outcome (b : Bundle) (listing : Option (List Slot)) (c : Capabilities)
    (mode : UpgradeMode) (settings : Settings) :
    ((∃ r, (make b listing c mode settings).1 = .ok r) ↔
        listing.getD [] = [] ∨ isWritable b (listing.getD []) = true) ∧
      (∀ r, (make b listing c mode settings).1 = .ok r → listing.getD [] ≠ [] →
        r = report b (listing.getD []) c mode settings) ∧
      ∀ fault, (make b listing c mode settings).1 = .error fault → fault = .unwritable := by
  rw [make]
  cases listing.getD [] with
  | nil => exact ⟨iff_of_true ⟨_, rfl⟩ (.inl rfl), fun _ _ h => absurd rfl h, nofun⟩
  | cons s rest =>
    cases hw : isWritable b (s :: rest) with
    | true =>
      simp only [hw, if_true]
      refine ⟨iff_of_true ⟨_, rfl⟩ (.inr trivial), ?_, nofun⟩
      rintro r ⟨⟩ _
      rfl
    | false =>
      simp only [hw, Bool.false_eq_true, if_false]
      refine ⟨iff_of_false nofun (by simp), nofun, ?_⟩
      rintro fault ⟨⟩
      rfl

variable {b} in
theorem isWritable_of_mem_working {t : Target} (hw : isWritable b slots = true)
    (ht : t ∈ working slots b) : t.isWritable = true := by
  unfold isWritable at hw
  exact List.all_eq_true.mp (Bool.and_eq_true_iff.mp hw).1 t ht

/-! ### Plans for one image -/

theorem settledCores_singleton (t : Target) : settledCores [t] slots = [] := rfl

section Single

variable {b settings} {t : Target} (hb : b.targets = [t])
include hb

theorem working_single : working slots b = [t] := by
  simp [working, Bundle.withoutCores, hb, settledCores_singleton]

theorem isWritable_single : isWritable b slots = t.isWritable := by
  simp [isWritable, Bundle.withoutCores, hb, settledCores_singleton]

theorem steps_report_single :
    (report b slots c mode settings).steps =
      stepsFor slots c mode t ++ b.caches.map cacheUpload ++
        ending c (needsClearing slots t) (needsReset slots c mode t) settings := by
  simp [steps_report, working_single hb]

theorem made_single {r : Report} (h : Made b slots c mode settings r) {other : List Slot}
    (hother : other ≠ []) :
    Made b other c mode settings (report b other c mode settings) := by
  obtain ⟨_, hw, _⟩ := made_iff.mp h
  rw [isWritable_single hb] at hw
  exact made_iff.mpr ⟨hother, by rw [isWritable_single hb, hw], rfl⟩

end Single

/-! ### A device with two cores, for the statements at fixed inputs -/

namespace Sample

def image (digest : UInt8) : Image := ⟨.raw true, [1, 2, 3], [digest], by simp⟩

def application : Target := { image := image 0xA1 }

def network : Target := { core := 1, image := image 0xB2 }

def running (core : Int) : Slot :=
  { core, number := 0, hash := [0], active := true, confirmed := true }

def stale (core : Int) : Slot := { core, number := 1, hash := [1], pending := true }

def single : Bundle := { targets := [application], caches := [⟨3, [7]⟩] }

def pair : Bundle := { targets := [application, network], distinct := by decide }

theorem made_single {slots : List Slot} (h : slots ≠ []) (c : Capabilities) (mode : UpgradeMode)
    (settings : Settings) :
    Made single slots c mode settings (report single slots c mode settings) :=
  made_iff.mpr ⟨h, by rw [isWritable_single rfl]; decide +kernel, rfl⟩

end Sample

end Plan
end Reflash
