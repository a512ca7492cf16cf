import Reflash.Proofs.Agenda
import Reflash.Proofs.Plan

/-! Trial boots. An image under test runs once after a reset and is given up at
the next, so it should be confirmed after exactly one. Between the test of an
image and its confirmation there is one reset, whatever the other images need.
Where the image was under test before, the reset that clears the slots of other
images is a second one, and only without it is the confirmation in time. -/

namespace Reflash

def Step.isReset : Step → Bool
  | .resetBeforeUpload _ | .reset _ => true
  | _ => false

theorem Step.priority_of_isReset {s : Step} (h : s.isReset = true) :
    s.priority = 1 ∨ s.priority = 5 := by
  cases s with
  | resetBeforeUpload => exact .inl rfl
  | reset => exact .inr rfl
  | _ => cases h

namespace Plan

variable {b : Bundle} {slots : List Slot} {c : Capabilities} {mode : UpgradeMode}
  {settings : Settings} {r : Report} {t : Target} {hash : Bytes}

theorem isReset_of_mem_stepsFor {s : Step} (h : s ∈ stepsFor slots c mode t) :
    s.isReset = false := by
  rw [← Bool.not_eq_true]
  intro hreset
  have hpriority := Step.priority_of_isReset hreset
  rcases (mem_stepsFor.mp h).2 with ⟨_, rfl⟩ | hmark
  · cases hreset
  · have := Assessment.priority_of_mem_marks hmark
    omega

theorem countP_steps {p : Step → Bool} (hp : ∀ s, p s = true → s.isReset = true) :
    (report b slots c mode settings).steps.countP p =
      (if (working slots b).any (needsClearing slots) && p (.resetBeforeUpload c.noSwap) then 1
        else 0) +
      (if (working slots b).any (needsReset slots c mode) && p (.reset c.noSwap) then 1
        else 0) := by
  have hnone : ((working slots b).flatMap (stepsFor slots c mode) ++
      b.caches.map cacheUpload).countP p = 0 := by
    apply List.countP_eq_zero.mpr
    intro s hs hps
    have hreset := hp s hps
    rcases List.mem_append.mp hs with hs | hs
    · obtain ⟨t, _, hs⟩ := List.mem_flatMap.mp hs
      rw [isReset_of_mem_stepsFor hs] at hreset
      cases hreset
    · obtain ⟨cache, _, rfl⟩ := List.mem_map.mp hs
      cases hreset
  have herase : p .eraseStorage = false := Bool.eq_false_iff.mpr fun h => by cases hp _ h
  rw [steps_report, List.countP_append, hnone, Nat.zero_add, ending, List.countP_append]
  congr 1
  · cases (working slots b).any (needsClearing slots) <;> simp [List.countP_cons]
  · cases (working slots b).any (needsReset slots c mode) <;> cases settings.eraseSettings <;>
      simp [herase, List.countP_cons]

theorem needsReset_of_test (h : .test hash ∈ stepsFor slots c mode t) :
    needsReset slots c mode t = true := by
  obtain ⟨hskip, ⟨_, heq⟩ | hmark⟩ := mem_stepsFor.mp h
  · cases heq
  rw [needsReset_of_not_skip hskip]
  rcases Assessment.mem_marks.mp hmark with
    ⟨hconfirm, ⟨_, hmode, _, hconfirmed, hactive⟩ | ⟨heq, _⟩ | ⟨heq, _⟩⟩ | ⟨_, _, heq⟩
  · have hne : c.limit mode ≠ .none := by rcases hmode with hmode | hmode <;> simp [hmode]
    rw [Assessment.awaitsReset_of_idle hconfirm hconfirmed hactive hne, Bool.or_true]
  all_goals cases heq

theorem needsReset_of_pending (h : .confirmAfterReset hash ∈ stepsFor slots c mode t)
    (hpending : (Assessment.scan t slots c.inPlace).pending = true) :
    needsReset slots c mode t = true := by
  obtain ⟨hskip, ⟨_, heq⟩ | hmark⟩ := mem_stepsFor.mp h
  · cases heq
  rw [needsReset_of_not_skip hskip]
  rcases Assessment.mem_marks.mp hmark with
    ⟨hconfirm, ⟨heq, _⟩ | ⟨_, hmode, _⟩ | ⟨heq, _⟩⟩ | ⟨_, _, heq⟩
  · cases heq
  · rw [hmode, Assessment.awaitsReset, hconfirm, hpending, Bool.true_or, Bool.and_true,
      Bool.or_true]
  all_goals cases heq

section Order

variable {first between before after : List Step}

theorem resets_between_test_and_confirmation
    (horder : Step.sorted (report b slots c mode settings).steps =
      first ++ .test hash :: between ++ .confirmAfterReset hash :: after) :
    between.countP Step.isReset = 1 := by
  have htest : .test hash ∈ (report b slots c mode settings).steps := by
    rw [← (Step.sorted_perm _).mem_iff, horder]
    simp
  obtain ⟨t, ht, hsteps⟩ := mem_stepsFor_of_mem_steps htest (.inl rfl)
  have hreset : (working slots b).any (needsReset slots c mode) = true :=
    List.any_eq_true.mpr ⟨t, ht, needsReset_of_test hsteps⟩
  have hbetween := Step.countP_between (p := Step.isReset) horder fun s hs => by
    have := Step.priority_of_isReset hs
    change s.priority ≠ 3 ∧ s.priority < 6
    omega
  rw [hbetween, countP_steps fun s hs => (Bool.and_eq_true_iff.mp hs).1, hreset]
  simp [Step.isReset, Step.priority]

theorem resets_before_confirmation (ht : t ∈ working slots b)
    (hsteps : .confirmAfterReset hash ∈ stepsFor slots c mode t)
    (hpending : (Assessment.scan t slots c.inPlace).pending = true)
    (horder : Step.sorted (report b slots c mode settings).steps =
      before ++ .confirmAfterReset hash :: after) :
    before.countP Step.isReset = if (working slots b).any (needsClearing slots) then 2 else 1 := by
  have hreset : (working slots b).any (needsReset slots c mode) = true :=
    List.any_eq_true.mpr ⟨t, ht, needsReset_of_pending hsteps hpending⟩
  have hbefore := Step.countP_before (p := Step.isReset) horder fun s hs => by
    have := Step.priority_of_isReset hs
    change s.priority < 6
    omega
  rw [hbefore, countP_steps fun _ hs => hs, hreset]
  cases (working slots b).any (needsClearing slots) <;> rfl

/-- The trial boot of an image. Between the test that a plan holds and the confirmation there is
exactly one reset. For an image that was under test before, the confirmation comes after one reset
where no slot of any image has to be cleared, and after two where one has. -/
theorem one_reset_before_confirmation (h : Made b slots c mode settings r)
    (horder : (Agenda.ofSteps r.steps).drain.1 = before ++ .confirmAfterReset hash :: after) :
    (.test hash ∈ r.steps → .test hash ∈ before) ∧
    (∀ first between, before = first ++ .test hash :: between →
      between.countP Step.isReset = 1) ∧
    ∀ t ∈ r.targets, .confirmAfterReset hash ∈ stepsFor slots c mode t →
      ∀ copy, Assessment.copy? t slots = some copy → copy.pending = true →
        before.countP Step.isReset = if r.targets.any (needsClearing slots) then 2 else 1 := by
  obtain ⟨_, _, rfl⟩ := made_iff.mp h
  rw [Agenda.drain_ofSteps] at horder
  refine ⟨?_, ?_, ?_⟩
  · intro htest
    rw [← (Step.sorted_perm _).mem_iff, horder, List.mem_append, List.mem_cons] at htest
    apply htest.resolve_right
    rintro (heq | hafter)
    · cases heq
    · have hle : 6 ≤ 3 := (Step.priority_around horder).2 _ hafter
      omega
  · rintro first between rfl
    exact resets_between_test_and_confirmation horder
  · intro t ht hsteps copy hcopy hpending
    have hscan : (Assessment.scan t slots c.inPlace).pending = true := by
      rw [Assessment.scan_eq, hcopy]
      exact hpending
    exact resets_before_confirmation ht hsteps hscan horder

end Order

namespace Sample

def tested : List Slot :=
  [running 0, { application.stored "2.0" with pending := true }, running 1]

theorem made_tested : Made pair tested {} .testAndConfirm {}
    (report pair tested {} .testAndConfirm {}) :=
  made_iff.mpr ⟨List.cons_ne_nil _ _, by decide +kernel, rfl⟩

theorem made_tested_stale : Made pair (tested ++ [stale 1]) {} .testAndConfirm {}
    (report pair (tested ++ [stale 1]) {} .testAndConfirm {}) :=
  made_iff.mpr ⟨List.cons_ne_nil _ _, by decide +kernel, rfl⟩

end Sample

theorem one_reset_before_confirmation_pair :
    (Agenda.ofSteps (report Sample.pair Sample.tested {} .testAndConfirm {}).steps).drain.1 =
      [Sample.network.upload, .test [0xB2], .reset (.bool false), .confirmAfterReset [0xA1],
        .confirmAfterReset [0xB2]] ∧
    [Sample.network.upload, .test [0xB2], .reset (.bool false)].countP Step.isReset = 1 ∧
    [.reset (.bool false), .confirmAfterReset [0xA1]].countP Step.isReset = 1 := by
  have htested : (Agenda.ofSteps (report Sample.pair Sample.tested {} .testAndConfirm
      {}).steps).drain.1 =
      [Sample.network.upload, .test [0xB2], .reset (.bool false)] ++
        .confirmAfterReset [0xA1] :: [.confirmAfterReset [0xB2]] := rfl
  have hsent : (Agenda.ofSteps (report Sample.pair Sample.tested {} .testAndConfirm
      {}).steps).drain.1 =
      [Sample.network.upload, .test [0xB2], .reset (.bool false), .confirmAfterReset [0xA1]] ++
        .confirmAfterReset [0xB2] :: [] := rfl
  obtain ⟨_, _, hpending⟩ := one_reset_before_confirmation Sample.made_tested htested
  obtain ⟨_, hbetween, _⟩ := one_reset_before_confirmation Sample.made_tested hsent
  refine ⟨htested, ?_, hbetween [Sample.network.upload] _ rfl⟩
  exact hpending Sample.application (by decide) (by decide) _ rfl rfl

/-- With a slot to be cleared on one core, an image of another core that is under test is
reset twice before it is confirmed. -/
theorem two_resets_before_confirmation :
    ¬ ∀ (b : Bundle) (slots : List Slot) (c : Capabilities) (settings : Settings) (r : Report)
        (hash : Bytes) (before after : List Step),
      Made b slots c .testAndConfirm settings r →
      (Agenda.ofSteps r.steps).drain.1 = before ++ .confirmAfterReset hash :: after →
      (∀ first between, before = first ++ .test hash :: between →
        between.countP Step.isReset = 1) ∧
      ∀ t ∈ r.targets, .confirmAfterReset hash ∈ stepsFor slots c .testAndConfirm t →
        ∀ copy, Assessment.copy? t slots = some copy → copy.pending = true → copy.active = false →
          before.countP Step.isReset = 1 := by
  intro h
  have horder : (Agenda.ofSteps (report Sample.pair (Sample.tested ++ [Sample.stale 1]) {}
      .testAndConfirm {}).steps).drain.1 =
      [.resetBeforeUpload (.bool false), Sample.network.upload, .test [0xB2],
        .reset (.bool false)] ++ .confirmAfterReset [0xA1] :: [.confirmAfterReset [0xB2]] := rfl
  obtain ⟨_, hpending⟩ := h _ _ _ _ _ _ _ _ Sample.made_tested_stale horder
  exact absurd (hpending Sample.application (by decide) (by decide) _ rfl rfl rfl) (by decide)

end Plan
end Reflash
