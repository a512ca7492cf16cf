import Reflash.Proofs.Plan.Accounting

/-! Listings of several cores. A device lists the slots of all its cores together, and
a plan looks at those of each core by themselves. How the cores are interleaved, and
what the listing says of cores for which there is no image, makes no difference; only
the cores that are up to date are named in the order in which they were found. -/

namespace Reflash

/-- The listings have the same slots of each of these cores, in the same order. -/
def AgreeOn (cores : List Int) (slots other : List Slot) : Prop :=
  ∀ core ∈ cores, slots.filter (fun s => s.core = core) = other.filter fun s => s.core = core

theorem Bundle.core_mem_cores {b : Bundle} {t : Target} (ht : t ∈ b.targets) :
    t.core ∈ b.cores :=
  List.mem_eraseDups.mpr (List.mem_map_of_mem ht)

theorem Assessment.scan_filter (t : Target) (slots : List Slot) (noSwap : Bool) :
    scan t (slots.filter fun s => s.core = t.core) noSwap = scan t slots noSwap := by
  have hcopy : copy? t (slots.filter fun s => s.core = t.core) = copy? t slots := by
    rw [copy?, List.find?_filter]
    congr 1
    funext s
    by_cases hcore : s.core = t.core <;> simp [hcore]
  have hway : inTheWay t (slots.filter fun s => s.core = t.core) = inTheWay t slots := by
    simp only [inTheWay, List.filter_filter, Bool.and_self]
  rw [scan_eq, scan_eq, hcopy, hway]

namespace AgreeOn

variable {cores : List Int} {slots other : List Slot} {t : Target} {s : Slot}

theorem symm (h : AgreeOn cores slots other) : AgreeOn cores other slots :=
  fun core hcore => (h core hcore).symm

theorem mem (h : AgreeOn cores slots other) (hcore : s.core ∈ cores) (hs : s ∈ slots) :
    s ∈ other := by
  have hmem : s ∈ slots.filter fun x => x.core = s.core := List.mem_filter.mpr ⟨hs, by simp⟩
  rw [h s.core hcore] at hmem
  exact (List.mem_filter.mp hmem).1

theorem scan_eq (h : AgreeOn cores slots other) (hcore : t.core ∈ cores) (noSwap : Bool) :
    Assessment.scan t slots noSwap = Assessment.scan t other noSwap := by
  rw [← Assessment.scan_filter, h t.core hcore, Assessment.scan_filter]

end AgreeOn

namespace Plan

variable {b : Bundle} {slots other : List Slot} {c : Capabilities} {mode : UpgradeMode}
  {settings : Settings} {t : Target}

section Agreeing

variable (h : AgreeOn b.cores slots other)
include h

theorem mem_settledSlots_of_agreeOn {s : Slot} (hs : s ∈ settledSlots b.targets slots) :
    s ∈ settledSlots b.targets other := by
  obtain ⟨hmem, hactive, t, ht, hcore, hhash⟩ := mem_settledSlots.mp hs
  have hcores : s.core ∈ b.cores := hcore ▸ Bundle.core_mem_cores ht
  exact mem_settledSlots.mpr ⟨h.mem hcores hmem, hactive, t, ht, hcore, hhash⟩

theorem mem_settledSlots_congr {s : Slot} :
    s ∈ settledSlots b.targets slots ↔ s ∈ settledSlots b.targets other :=
  ⟨mem_settledSlots_of_agreeOn h, mem_settledSlots_of_agreeOn h.symm⟩

theorem settledCores_perm :
    (settledCores b.targets slots).Perm (settledCores b.targets other) := by
  rw [List.perm_ext_iff_of_nodup (nodup_settledCores _) (nodup_settledCores _)]
  intro core
  simp only [mem_settledCores, mem_settledSlots_congr h]

theorem working_congr : working slots b = working other b := by
  apply List.filter_congr
  intro t _
  simp only [List.contains_eq_mem, (settledCores_perm h).mem_iff]

theorem isWritable_congr : isWritable b slots = isWritable b other := by
  have hworking : (b.withoutCores (settledCores b.targets slots)).targets =
      (b.withoutCores (settledCores b.targets other)).targets := working_congr h
  have hsettled (p : Slot → Bool) :
      (settledSlots b.targets slots).all p = (settledSlots b.targets other).all p := by
    rw [Bool.eq_iff_iff, List.all_eq_true, List.all_eq_true]
    simp only [mem_settledSlots_congr h]
  simp only [isWritable, hworking, hsettled, (settledCores_perm h).isEmpty_eq]

theorem scan_congr_of_mem_working (ht : t ∈ working slots b) (noSwap : Bool) :
    Assessment.scan t slots noSwap = Assessment.scan t other noSwap :=
  h.scan_eq (Bundle.core_mem_cores (mem_working.mp ht).1) noSwap

theorem skipped_congr :
    (report b slots c mode settings).skipped = (report b other c mode settings).skipped := by
  rw [skipped_report, skipped_report, ← working_congr h]
  apply List.filter_congr
  intro t ht
  rw [scan_congr_of_mem_working h ht]

theorem any_working_congr {p q : Target → Bool} (hpq : ∀ t ∈ working slots b, p t = q t) :
    (working slots b).any p = (working other b).any q := by
  rw [← working_congr h, Bool.eq_iff_iff, List.any_eq_true, List.any_eq_true]
  refine exists_congr fun t => and_congr_right fun ht => ?_
  rw [hpq t ht]

theorem steps_congr :
    (report b slots c mode settings).steps = (report b other c mode settings).steps := by
  have hscan {t : Target} (ht : t ∈ working slots b) := scan_congr_of_mem_working h ht
  have hsteps : (working slots b).flatMap (stepsFor slots c mode) =
      (working other b).flatMap (stepsFor other c mode) := by
    rw [← working_congr h]
    apply List.flatMap_congr
    intro t ht
    rw [stepsFor, stepsFor, hscan ht]
  have hclearing : (working slots b).any (needsClearing slots) =
      (working other b).any (needsClearing other) :=
    any_working_congr h fun t ht => by
      rw [needsClearing_eq false, needsClearing_eq false, hscan ht]
  have hreset : (working slots b).any (needsReset slots c mode) =
      (working other b).any (needsReset other c mode) :=
    any_working_congr h fun t ht => by rw [needsReset, needsReset, hscan ht]
  rw [steps_report, steps_report, hsteps, hclearing, hreset]

end Agreeing

/-- Listings that agree on the cores of a bundle are planned for alike: both or none are planned
for, with the same steps, targets and skipped images, and the same cores are up to date. -/
theorem made_of_agreeOn (h : AgreeOn b.cores slots other) (hslots : slots ≠ [])
    (hother : other ≠ []) :
    ((∃ r, Made b slots c mode settings r) ↔ ∃ r, Made b other c mode settings r) ∧
    ∀ r r', Made b slots c mode settings r → Made b other c mode settings r' →
      r.steps = r'.steps ∧ r.targets = r'.targets ∧ r.skipped = r'.skipped ∧
        r.upToDate.Perm r'.upToDate := by
  constructor
  · rw [exists_made_iff hslots, exists_made_iff hother, isWritable_congr h]
  · intro r r' hmade hmade'
    obtain ⟨_, _, rfl⟩ := made_iff.mp hmade
    obtain ⟨_, _, rfl⟩ := made_iff.mp hmade'
    exact ⟨steps_congr h, working_congr h, skipped_congr h, settledCores_perm h⟩

namespace Sample

def twoSettled : List Slot :=
  [{ running 0 with hash := application.hash }, { running 1 with hash := network.hash },
    stale 2, running 2]

def twoSettledInterleaved : List Slot :=
  [stale 2, { running 1 with hash := network.hash }, running 7, running 2,
    { running 0 with hash := application.hash }]

end Sample

theorem made_of_agreeOn_trio :
    AgreeOn Sample.trio.cores Sample.twoSettled Sample.twoSettledInterleaved ∧
    ∃ r r', Made Sample.trio Sample.twoSettled {} .confirmOnly {} r ∧
      Made Sample.trio Sample.twoSettledInterleaved {} .confirmOnly {} r' ∧
      r.steps = [Sample.modem.upload, .confirm (some [0xC3]), .upload [7] 3,
        .resetBeforeUpload (.bool false), .reset (.bool false)] ∧ r.steps = r'.steps ∧
      r.upToDate = [0, 1] ∧ r'.upToDate = [1, 0] ∧ r.upToDate.Perm r'.upToDate := by
  have hagree : AgreeOn Sample.trio.cores Sample.twoSettled Sample.twoSettledInterleaved := by
    intro core hcore
    have hcores : core ∈ [0, 1, 2] := hcore
    simp only [List.mem_cons, List.not_mem_nil, or_false] at hcores
    rcases hcores with rfl | rfl | rfl <;> rfl
  have hmade : Made Sample.trio Sample.twoSettled {} .confirmOnly {} _ :=
    made_iff.mpr ⟨List.cons_ne_nil _ _, by decide +kernel, rfl⟩
  obtain ⟨hboth, halike⟩ := made_of_agreeOn hagree (List.cons_ne_nil _ _) (List.cons_ne_nil _ _)
  obtain ⟨r', hmade'⟩ := hboth.mp ⟨_, hmade⟩
  obtain ⟨hsteps, _, _, hperm⟩ := halike _ _ hmade hmade'
  obtain ⟨_, _, rfl⟩ := made_iff.mp hmade'
  exact ⟨hagree, _, _, hmade, hmade', rfl, hsteps, rfl, rfl, hperm⟩

end Plan
end Reflash
