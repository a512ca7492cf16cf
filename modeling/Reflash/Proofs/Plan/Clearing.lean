import Reflash.Proofs.Plan.Resumption
import Reflash.Proofs.Plan.TrialBoot
import Reflash.Proofs.Plan.Uploads

/-! The reset that clears slots. It is meant for an image that is sent over a record
which waits for a reset. The look through the slots asks for it as soon as it passes
such a record, before it is known whether the image is held further on. So a plan has
it exactly if a record in the way of some image is stale, and where all images of that
kind are held by their cores, the device is reset and nothing is sent. -/

namespace Reflash

/-- A record that waits for a reset stands where the image should go, and the listing has it in
front of every slot of the core that holds the image. -/
def Target.IsObstructed (t : Target) (slots : List Slot) : Prop :=
  ∃ front s back, slots = front ++ s :: back ∧ s.core = t.core ∧ s.number = t.slot ∧
    s.isStale = true ∧ ∀ x ∈ front ++ [s], x.core = t.core → x.hash ≠ t.hash

namespace Slot

theorem isStale_iff {s : Slot} :
    s.isStale = true ↔ s.active = false ∧ (s.pending = true ∨ s.confirmed = true) := by
  simp [isStale]

end Slot

namespace Plan

variable {b : Bundle} {slots : List Slot} {c : Capabilities} {mode : UpgradeMode}
  {settings : Settings} {r : Report} {t : Target}

theorem needsClearing_iff : needsClearing slots t = true ↔ t.IsObstructed slots :=
  Assessment.any_inTheWay Slot.isStale

theorem resetBeforeUpload_mem_iff :
    (∃ noSwap, .resetBeforeUpload noSwap ∈ (report b slots c mode settings).steps) ↔
      ∃ t ∈ working slots b, t.IsObstructed slots := by
  constructor
  · rintro ⟨noSwap, hreset⟩
    rcases mem_steps_report.mp hreset with ⟨t, _, hs⟩ | ⟨cache, _, heq⟩ | hend
    · cases isReset_of_mem_stepsFor hs
    · cases heq
    · rcases mem_ending.mp hend with ⟨hearly, _⟩ | ⟨_, ⟨_, heq⟩ | heq⟩
      · obtain ⟨t, ht, hclear⟩ := List.any_eq_true.mp hearly
        exact ⟨t, ht, needsClearing_iff.mp hclear⟩
      · cases heq
      · cases heq
  · rintro ⟨t, ht, hobstructed⟩
    exact ⟨_, resetBeforeUpload_mem_steps ht (needsClearing_iff.mpr hobstructed)⟩

section Distinct

variable (hdistinct : (slots.map Slot.place).Nodup)
include hdistinct

theorem not_isBlocked_of_isObstructed (h : t.IsObstructed slots) : ¬ t.IsBlocked slots := by
  rintro ⟨front, x, back, hslots, hcore, hnumber, hactive, -⟩
  obtain ⟨front', s, back', hslots', hcore', hnumber', hstale, -⟩ := h
  have hx : x ∈ slots := hslots ▸ List.mem_append_right front List.mem_cons_self
  have hs : s ∈ slots := hslots' ▸ List.mem_append_right front' List.mem_cons_self
  have hplace : s.place = x.place :=
    Prod.ext (hcore'.trans hcore.symm) (hnumber'.trans hnumber.symm)
  obtain rfl : s = x := List.inj_on_of_nodup_map hdistinct hs hx hplace
  rw [(Slot.isStale_iff.mp hstale).1] at hactive
  cases hactive

theorem upload_mem_iff_of_isObstructed (h : t.IsObstructed slots) :
    t.upload ∈ stepsFor slots c mode t ↔ t.isHeld slots = false := by
  have hfree : (Assessment.inTheWay t slots).any Slot.active = false := by
    rw [← Bool.not_eq_true, Assessment.any_active_inTheWay]
    exact not_isBlocked_of_isObstructed hdistinct h
  rw [upload_mem_stepsFor, ← Assessment.isSome_copy?, Option.isSome_eq_false_iff,
    Option.isNone_iff_eq_none]
  exact and_iff_right hfree

end Distinct

def SendsOver (slots : List Slot) (c : Capabilities) (mode : UpgradeMode) (r : Report) : Prop :=
  ∃ t ∈ r.targets, t ∉ r.skipped ∧ t.upload ∈ r.steps ∧ t.upload ∈ stepsFor slots c mode t ∧
    ∃ s ∈ slots, s.place = t.destination ∧ s.active = false ∧ s.hash ≠ t.hash ∧
      (s.pending = true ∨ s.confirmed = true)

theorem sendsOver_iff (hdistinct : (slots.map Slot.place).Nodup) :
    SendsOver slots c mode (report b slots c mode settings) ↔
      ∃ t ∈ working slots b, t.IsObstructed slots ∧ t.isHeld slots = false := by
  constructor
  · rintro ⟨t, ht, -, -, hupload, s, hs, hplace, hactive, -, hwaiting⟩
    have hnone := (upload_mem_stepsFor.mp hupload).2
    have hcore : s.core = t.core := congrArg Prod.fst hplace
    have hnumber : s.number = t.slot := congrArg Prod.snd hplace
    have hclear : needsClearing slots t = true :=
      needsClearing_of_upload hupload hs hcore hnumber hwaiting
    refine ⟨t, ht, needsClearing_iff.mp hclear, ?_⟩
    rw [← Assessment.isSome_copy?, hnone]
    rfl
  · rintro ⟨t, ht, hobstructed, hheld⟩
    have hupload : t.upload ∈ stepsFor slots c mode t :=
      (upload_mem_iff_of_isObstructed hdistinct hobstructed).mpr hheld
    obtain ⟨front, s, back, hslots, hcore, hnumber, hstale, hhash⟩ := hobstructed
    obtain ⟨hactive, hwaiting⟩ := Slot.isStale_iff.mp hstale
    refine ⟨t, ht, not_mem_skipped b settings hupload,
      mem_steps_report.mpr (.inl ⟨t, ht, hupload⟩), hupload, s, ?_, Prod.ext hcore hnumber,
      hactive, hhash s (by simp) hcore, hwaiting⟩
    rw [hslots]
    exact List.mem_append_right front List.mem_cons_self

/-- A plan has the reset that clears slots exactly if an image that is left is obstructed. Such an
image is not skipped, and is sent unless its core holds it. So the reset comes with an image that is
sent over a stale record exactly if some obstructed image is not held. -/
theorem clearing_reset_iff (hdistinct : (slots.map Slot.place).Nodup)
    (h : Made b slots c mode settings r) :
    ((∃ noSwap, .resetBeforeUpload noSwap ∈ r.steps) ↔ ∃ t ∈ r.targets, t.IsObstructed slots) ∧
    (∀ t ∈ r.targets, t.IsObstructed slots →
      t ∉ r.skipped ∧ (t.upload ∈ stepsFor slots c mode t ↔ t.isHeld slots = false)) ∧
    (((∃ noSwap, .resetBeforeUpload noSwap ∈ r.steps) → SendsOver slots c mode r) ↔
      ((∃ t ∈ r.targets, t.IsObstructed slots) →
        ∃ t ∈ r.targets, t.IsObstructed slots ∧ t.isHeld slots = false)) := by
  obtain ⟨_, _, rfl⟩ := made_iff.mp h
  refine ⟨resetBeforeUpload_mem_iff, ?_, ?_⟩
  · intro t ht hobstructed
    refine ⟨?_, upload_mem_iff_of_isObstructed hdistinct hobstructed⟩
    rw [mem_skipped_iff ht, Assessment.scan_eq, Assessment.any_active_inTheWay]
    exact not_isBlocked_of_isObstructed hdistinct hobstructed
  · rw [resetBeforeUpload_mem_iff, sendsOver_iff hdistinct]
    rfl

namespace Sample

def staleFirst : List Slot :=
  [stale 0, { application.stored "2.0" with number := primarySlot }, stale 1, running 1]

def elsewhere : Bundle := { targets := [{ application with slot := primarySlot }] }

def runsElsewhere : List Slot :=
  [{ stale 0 with number := primarySlot },
    { running 0 with number := secondarySlot, hash := application.hash }]

end Sample

theorem clearing_reset_iff_pair :
    (Sample.staleFirst.map Slot.place).Nodup ∧
    ∃ r, Made Sample.pair Sample.staleFirst {} .testOnly {} r ∧
      Sample.application.upload ∉ stepsFor Sample.staleFirst {} .testOnly Sample.application ∧
      Sample.network.upload ∈ stepsFor Sample.staleFirst {} .testOnly Sample.network ∧
      (∃ noSwap, .resetBeforeUpload noSwap ∈ r.steps) ∧
      SendsOver Sample.staleFirst {} .testOnly r := by
  have hdistinct : (Sample.staleFirst.map Slot.place).Nodup := by decide
  have hmade : Made Sample.pair Sample.staleFirst {} .testOnly {} _ :=
    made_iff.mpr ⟨List.cons_ne_nil _ _, by decide +kernel, rfl⟩
  have happlication : Sample.application.IsObstructed Sample.staleFirst :=
    ⟨[], _, _, rfl, rfl, rfl, rfl, by decide⟩
  have hnetwork : Sample.network.IsObstructed Sample.staleFirst :=
    ⟨[_, _], _, _, rfl, rfl, rfl, rfl, by decide⟩
  obtain ⟨hreset, hsent, hover⟩ := clearing_reset_iff hdistinct hmade
  have hplanned := hreset.mpr ⟨Sample.application, by decide, happlication⟩
  refine ⟨hdistinct, _, hmade, ?_, ?_, hplanned, ?_⟩
  · intro hupload
    cases (hsent Sample.application (by decide) happlication).2.mp hupload
  · exact (hsent Sample.network (by decide) hnetwork).2.mpr rfl
  · exact hover.mpr (fun _ => ⟨Sample.network, by decide, hnetwork, rfl⟩) hplanned

/-- A device that runs the image is reset into another one that was left in the slot where the image
is asked for, and nothing is sent there. -/
theorem cleared_for_nothing :
    ¬ ∀ (b : Bundle) (slots : List Slot) (c : Capabilities) (mode : UpgradeMode)
        (settings : Settings) (r : Report), (slots.map Slot.place).Nodup →
      Made b slots c mode settings r → (∃ noSwap, .resetBeforeUpload noSwap ∈ r.steps) →
        SendsOver slots c mode r := by
  intro h
  have hmade : Made Sample.elsewhere Sample.runsElsewhere { noSwap := .bool true } .testAndConfirm
      {} _ := made_iff.mpr ⟨List.cons_ne_nil _ _, by decide +kernel, rfl⟩
  have hsteps : (report Sample.elsewhere Sample.runsElsewhere { noSwap := .bool true }
      .testAndConfirm {}).steps = [.resetBeforeUpload (.bool true)] := rfl
  obtain ⟨t, -, -, hupload, -⟩ :=
    h _ _ _ _ _ _ (by decide) hmade ⟨_, by rw [hsteps]; exact List.mem_singleton_self _⟩
  rw [hsteps, List.mem_singleton] at hupload
  cases hupload

end Plan
end Reflash
