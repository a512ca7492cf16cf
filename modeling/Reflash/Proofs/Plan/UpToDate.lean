import Mathlib.Data.List.TakeWhile
import Reflash.Proofs.Plan.CoreByCore

/-! Devices that are up to date. A core that runs the image for good, with nothing
pending beside it, needs no step. Where several images are asked for, such cores are
left out of the plan. Where there is one image only, its core is looked at like any
other, and if the image was asked for in the very slot that it runs from, the look
takes it for one that a reset has to swap back. -/

namespace Reflash

structure Slot.IsIdle (s : Slot) : Prop where
  active : s.active = false
  pending : s.pending = false
  permanent : s.permanent = false
  confirmed : s.confirmed = false

/-- A core runs an image that has confirmed itself, and its other slots hold other images that are
idle. -/
structure Target.RunsFrom (t : Target) (slots : List Slot) (running : Slot) : Prop where
  core : running.core = t.core
  hash : running.hash = t.hash
  active : running.active = true
  confirmed : running.confirmed = true
  pending : running.pending = false
  permanent : running.permanent = false
  others : ∃ front back, slots = front ++ running :: back ∧
    ∀ s ∈ front ++ back, s.core = t.core → s.IsIdle ∧ s.hash ≠ t.hash

namespace Target.RunsFrom

variable {t : Target} {slots : List Slot} {running s : Slot} (h : t.RunsFrom slots running)
include h

theorem mem : running ∈ slots := by
  obtain ⟨front, back, rfl, _⟩ := h.others
  exact List.mem_append_right _ List.mem_cons_self

theorem isIdle (hs : s ∈ slots) (hcore : s.core = t.core) (hne : s ≠ running) : s.IsIdle := by
  obtain ⟨front, back, rfl, hothers⟩ := h.others
  have hmem : s ∈ front ++ back := by
    rcases List.mem_append.mp hs with hfront | hback
    · exact List.mem_append_left _ hfront
    · exact List.mem_append_right _ ((List.mem_cons.mp hback).resolve_left hne)
  exact (hothers s hmem hcore).1

theorem eq_running (hs : s ∈ slots) (hcore : s.core = t.core) (hactive : s.active = true) :
    s = running := by
  by_contra hne
  rw [(h.isIdle hs hcore hne).active] at hactive
  cases hactive

theorem copy?_eq : Assessment.copy? t slots = some running := by
  obtain ⟨front, back, rfl, hothers⟩ := h.others
  have hfront : ∀ s ∈ front, ¬ (decide (s.core = t.core) && decide (s.hash = t.hash)) = true := by
    intro s hs hmatch
    simp only [Bool.and_eq_true, decide_eq_true_eq] at hmatch
    exact (hothers s (List.mem_append_left _ hs) hmatch.1).2 hmatch.2
  rw [Assessment.copy?, List.find?_append, List.find?_eq_none.mpr hfront]
  simp [h.core, h.hash]

theorem isIdle_of_mem_inTheWay (hs : s ∈ Assessment.inTheWay t slots) : s.IsIdle := by
  obtain ⟨hmem, _⟩ := List.mem_filter.mp hs
  have hhash : s.hash ≠ t.hash := by simpa using List.mem_takeWhile_imp hmem
  have hslot := List.mem_filter.mp ((List.takeWhile_sublist _).subset hmem)
  refine h.isIdle hslot.1 (of_decide_eq_true hslot.2) ?_
  rintro rfl
  exact hhash h.hash

theorem scan_eq (noSwap : Bool) (hconfirm : t.image.needsConfirmation = true) :
    Assessment.scan t slots noSwap =
      { target := t
        found := true
        confirmed := true
        active := true
        resetRequired := decide (running.number = t.slot) && !noSwap } := by
  have hskip : (Assessment.inTheWay t slots).any Slot.active = false := by
    rw [List.any_eq_false]
    intro s hs
    rw [(h.isIdle_of_mem_inTheWay hs).active]
    exact Bool.false_ne_true
  have hclear : (Assessment.inTheWay t slots).any Slot.isStale = false := by
    rw [List.any_eq_false]
    intro s hs
    rw [Slot.isStale, (h.isIdle_of_mem_inTheWay hs).pending,
      (h.isIdle_of_mem_inTheWay hs).confirmed]
    simp
  rw [Assessment.scan_eq, h.copy?_eq, hskip, hclear]
  simp [h.active, h.confirmed, h.pending, h.permanent, hconfirm]

end Target.RunsFrom

namespace Plan

variable {b : Bundle} {slots : List Slot} {c : Capabilities} {mode : UpgradeMode}
  {settings : Settings} {r : Report} {t : Target} {running : Target → Slot}

theorem needsReset_of_runsFrom {x : Slot} (h : t.RunsFrom slots x)
    (hconfirm : t.image.needsConfirmation = true) :
    needsReset slots c mode t = (decide (x.number = t.slot) && !c.inPlace) := by
  have hscan := h.scan_eq c.inPlace hconfirm
  rw [needsReset_of_not_skip (by rw [hscan]), hscan]
  cases c.limit mode <;> simp [Assessment.awaitsReset]

theorem needsClearing_of_runsFrom {x : Slot} (h : t.RunsFrom slots x)
    (hconfirm : t.image.needsConfirmation = true) : needsClearing slots t = false := by
  rw [needsClearing_eq false, h.scan_eq false hconfirm]

structure IsUpToDate (b : Bundle) (slots : List Slot) (running : Target → Slot) : Prop where
  needsConfirmation : ∀ t ∈ b.targets, t.image.needsConfirmation = true
  runsFrom : ∀ t ∈ b.targets, t.RunsFrom slots (running t)
  caches : b.caches = []
  slots_ne_nil : slots ≠ []

def swapsBack (b : Bundle) (running : Target → Slot) (c : Capabilities) : Bool :=
  match b.targets with
  | [t] => decide ((running t).number = t.slot) && !c.inPlace
  | _ => false

/-- The numbers that have to be written can be: the destination of a single image, or else the slots
that the images run from. -/
structure IsNameable (b : Bundle) (running : Target → Slot) : Prop where
  single : ∀ t, b.targets = [t] → t.isWritable = true
  several : 1 < b.targets.length → ∀ t ∈ b.targets,
    Decimal.isWritable (running t).core = true ∧ Decimal.isWritable (running t).number = true

section Several

variable (h : IsUpToDate b slots running) (hlength : 1 < b.targets.length)
include h

theorem mem_settledSlots_iff_running {s : Slot} :
    s ∈ settledSlots b.targets slots ↔ ∃ t ∈ b.targets, s = running t := by
  rw [mem_settledSlots]
  constructor
  · rintro ⟨hs, hactive, t, ht, hcore, _⟩
    exact ⟨t, ht, (h.runsFrom t ht).eq_running hs hcore.symm hactive⟩
  · rintro ⟨t, ht, rfl⟩
    have hrunning := h.runsFrom t ht
    exact ⟨hrunning.mem, hrunning.active, t, ht, hrunning.core.symm, hrunning.hash.symm⟩

include hlength

theorem mem_settledCores_of_mem (ht : t ∈ b.targets) :
    t.core ∈ settledCores b.targets slots := by
  rw [mem_settledCores]
  exact ⟨hlength, running t, (mem_settledSlots_iff_running h).mpr ⟨t, ht, rfl⟩,
    (h.runsFrom t ht).core⟩

theorem working_of_several : working slots b = [] := by
  apply List.filter_eq_nil_iff.mpr
  intro t ht
  have hmem := mem_settledCores_of_mem h hlength ht
  simpa using hmem

theorem isWritable_of_several :
    isWritable b slots = true ↔ ∀ t ∈ b.targets,
      Decimal.isWritable (running t).core = true ∧
        Decimal.isWritable (running t).number = true := by
  have hworking : (b.withoutCores (settledCores b.targets slots)).targets = [] :=
    working_of_several h hlength
  have hsettled : (settledCores b.targets slots).isEmpty = false := by
    obtain ⟨t, ht⟩ := List.exists_mem_of_length_pos (Nat.lt_trans Nat.zero_lt_one hlength)
    rw [List.isEmpty_eq_false_iff_exists_mem]
    exact ⟨_, mem_settledCores_of_mem h hlength ht⟩
  simp only [isWritable, hworking, hsettled, List.all_nil, Bool.true_and, Bool.false_or,
    List.all_eq_true, Bool.and_eq_true, mem_settledSlots_iff_running h]
  constructor
  · intro hall t ht
    exact hall _ ⟨t, ht, rfl⟩
  · rintro hall _ ⟨t, ht, rfl⟩
    exact hall t ht

end Several

theorem isWritable_iff (h : IsUpToDate b slots running) :
    isWritable b slots = true ↔ IsNameable b running := by
  rcases hb : b.targets with _ | ⟨t, _ | ⟨u, rest⟩⟩
  · have hw : isWritable b slots = true := by
      simp [isWritable, Bundle.withoutCores, hb, settledCores]
    refine ⟨fun _ => ⟨?_, ?_⟩, fun _ => hw⟩
    · intro t ht
      cases hb.symm.trans ht
    · intro hlength
      rw [hb] at hlength
      cases hlength
  · rw [isWritable_single hb]
    constructor
    · intro hw
      refine ⟨?_, ?_⟩
      · intro u hu
        cases hb.symm.trans hu
        exact hw
      · intro hlength
        rw [hb] at hlength
        exact absurd hlength (Nat.lt_irrefl 1)
    · exact fun hnameable => hnameable.single t hb
  · have hlength : 1 < b.targets.length := by rw [hb]; exact Nat.succ_lt_succ (Nat.succ_pos _)
    rw [isWritable_of_several h hlength]
    constructor
    · intro hw
      refine ⟨?_, fun _ => hw⟩
      intro v hv
      cases hb.symm.trans hv
    · exact fun hnameable => hnameable.several hlength

theorem steps_of_isUpToDate (h : IsUpToDate b slots running) :
    (report b slots c mode settings).steps = ending c false (swapsBack b running c) settings := by
  rcases hb : b.targets with _ | ⟨t, _ | ⟨u, rest⟩⟩
  · have hworking : working slots b = [] := by simp [working, Bundle.withoutCores, hb]
    rw [steps_report, hworking, h.caches, swapsBack, hb]
    rfl
  · have ht : t ∈ b.targets := by rw [hb]; exact List.mem_singleton_self t
    have hruns := h.runsFrom t ht
    have hconfirm := h.needsConfirmation t ht
    have hconfirmed : (Assessment.copy? t slots).any Slot.confirmed = true := by
      rw [hruns.copy?_eq]
      exact hruns.confirmed
    rw [steps_report_single hb, stepsFor_of_confirmed hconfirm hconfirmed, h.caches,
      needsClearing_of_runsFrom hruns hconfirm, needsReset_of_runsFrom hruns hconfirm, swapsBack,
      hb]
    rfl
  · have hlength : 1 < b.targets.length := by rw [hb]; exact Nat.succ_lt_succ (Nat.succ_pos _)
    rw [steps_report, working_of_several h hlength, h.caches, swapsBack, hb]
    rfl

theorem ending_eq_nil {early last : Bool} :
    ending c early last settings = [] ↔ early = false ∧ last = false := by
  cases early <;> cases last <;> simp [ending]

/-- For a device that is up to date, a plan without steps is made exactly if the numbers that it has
to name can be written and no single image is asked for in the slot that it runs from, of a
bootloader that swaps. In that case the plan is the final reset, with the erasure of the settings if
that was asked for. -/
theorem no_steps_iff (h : IsUpToDate b slots running) :
    ((∃ r, Made b slots c mode settings r ∧ r.steps = []) ↔
      IsNameable b running ∧ swapsBack b running c = false) ∧
    ∀ r, Made b slots c mode settings r →
      r.steps = ending c false (swapsBack b running c) settings := by
  have hsteps : (report b slots c mode settings).steps =
      ending c false (swapsBack b running c) settings := steps_of_isUpToDate h
  rw [← isWritable_iff h]
  refine ⟨⟨?_, ?_⟩, ?_⟩
  · rintro ⟨r, hmade, hnone⟩
    obtain ⟨_, hw, rfl⟩ := made_iff.mp hmade
    rw [hsteps, ending_eq_nil] at hnone
    exact ⟨hw, hnone.2⟩
  · rintro ⟨hw, hswaps⟩
    refine ⟨_, made_iff.mpr ⟨h.slots_ne_nil, hw, rfl⟩, ?_⟩
    rw [hsteps, ending_eq_nil]
    exact ⟨rfl, hswaps⟩
  · intro r hmade
    obtain ⟨_, _, rfl⟩ := made_iff.mp hmade
    exact hsteps

namespace Sample

def settled (t : Target) : Slot :=
  { core := t.core, number := 0, hash := t.hash, active := true, confirmed := true }

def replaced : Slot := { core := 0, number := 1, hash := [0] }

theorem isUpToDate_pair :
    IsUpToDate pair [settled application, replaced, settled network] settled := by
  refine ⟨?_, ?_, rfl, List.cons_ne_nil _ _⟩
  · decide
  · intro t ht
    rcases List.mem_cons.mp ht with rfl | ht
    · refine ⟨rfl, rfl, rfl, rfl, rfl, rfl, [], [replaced, settled network], rfl, ?_⟩
      intro s hs hcore
      rcases List.mem_cons.mp hs with rfl | hs
      · exact ⟨⟨rfl, rfl, rfl, rfl⟩, by decide⟩
      · rw [List.mem_singleton.mp hs] at hcore
        cases hcore
    · rw [List.mem_singleton.mp ht]
      refine ⟨rfl, rfl, rfl, rfl, rfl, rfl, [settled application, replaced], [], rfl, ?_⟩
      intro s hs hcore
      rcases List.mem_cons.mp hs with rfl | hs
      · cases hcore
      · rw [List.mem_singleton.mp hs] at hcore
        cases hcore

def primary : Target := { application with slot := primarySlot }

theorem isUpToDate_primary : IsUpToDate (.single primary) [settled primary] settled := by
  refine ⟨by decide, ?_, rfl, List.cons_ne_nil _ _⟩
  intro t ht
  rw [List.mem_singleton.mp ht]
  exact ⟨rfl, rfl, rfl, rfl, rfl, rfl, [], [], rfl, fun s hs => absurd hs List.not_mem_nil⟩

end Sample

theorem no_steps_iff_pair :
    ∃ r, Made Sample.pair [Sample.settled Sample.application, Sample.replaced,
      Sample.settled Sample.network] {} .testAndConfirm { eraseSettings := true } r ∧
        r.steps = [] := by
  refine (no_steps_iff Sample.isUpToDate_pair).1.mpr ⟨⟨?_, ?_⟩, rfl⟩
  · intro t ht
    cases ht
  · decide +kernel

/-- A device that runs the image from the very slot that it is asked for is reset again and
again. -/
theorem reset_when_up_to_date :
    ¬ ∀ (b : Bundle) (slots : List Slot) (c : Capabilities) (mode : UpgradeMode)
        (settings : Settings) (running : Target → Slot), IsUpToDate b slots running →
      ∃ r, Made b slots c mode settings r ∧ r.steps = [] := by
  intro h
  obtain ⟨r, hmade, hnone⟩ := h (.single Sample.primary) [Sample.settled Sample.primary] {}
    .testAndConfirm {} Sample.settled Sample.isUpToDate_primary
  obtain ⟨_, _, rfl⟩ := made_iff.mp hmade
  exact absurd hnone (by decide)

end Plan
end Reflash
