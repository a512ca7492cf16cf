import Reflash.Proofs.Plan.Accounting
import Reflash.Proofs.Plan.FinalReset

/-! What a plan has for the device. The resets and the erasure of the settings do not
come from any one image: they end the plan, each once at most, however many images ask
for them. The erasure comes with the final reset alone, and as no other step has a
priority between them or one of theirs, it is taken directly before it. -/

namespace Reflash

namespace Step

def isEarlyReset : Step → Bool
  | .resetBeforeUpload _ => true
  | _ => false

theorem isEarlyReset_iff {s : Step} :
    s.isEarlyReset = true ↔ ∃ noSwap, s = .resetBeforeUpload noSwap := by
  cases s <;> simp [isEarlyReset]

theorem isFinalReset_iff {s : Step} : s.isFinalReset = true ↔ ∃ noSwap, s = .reset noSwap := by
  cases s <;> simp [isFinalReset]

theorem isForDevice_of_priority {s : Step} (h : s.priority = 4 ∨ s.priority = 5) :
    s.isForDevice = true := by
  cases s with
  | eraseStorage | reset => rfl
  | _ => rcases h with h | h <;> cases h

theorem priority_next_ne {steps before after : List Step} {s x : Step}
    (hs : (steps.filter fun y => y.priority = s.priority) = [s])
    (horder : sorted steps = before ++ s :: x :: after) : x.priority ≠ s.priority := by
  intro heq
  have hfilter := filter_sorted steps s.priority
  rw [horder, hs] at hfilter
  have hlength := congrArg List.length hfilter
  simp only [List.filter_append, List.filter_cons, heq, decide_true, if_true,
    List.length_append, List.length_cons, List.length_nil] at hlength
  omega

theorem exists_adjacent {steps : List Step} {s t : Step}
    (hs : (steps.filter fun x => x.priority = s.priority) = [s])
    (ht : (steps.filter fun x => x.priority = t.priority) = [t]) (hlt : s.priority < t.priority)
    (hbetween : ∀ x ∈ steps, x.priority ≤ s.priority ∨ t.priority ≤ x.priority) :
    ∃ before after, sorted steps = before ++ s :: t :: after := by
  have hmem (x : Step) : x ∈ sorted steps ↔ x ∈ steps := (sorted_perm steps).mem_iff
  have hs' : s ∈ steps := List.mem_of_mem_filter (hs ▸ List.mem_singleton_self s)
  have ht' : t ∈ steps := List.mem_of_mem_filter (ht ▸ List.mem_singleton_self t)
  obtain ⟨before, rest, horder⟩ := List.append_of_mem ((hmem s).mpr hs')
  have hrest : t ∈ rest := by
    have hmem' := (hmem t).mpr ht'
    rw [horder, List.mem_append, List.mem_cons] at hmem'
    rcases hmem' with hbefore | rfl | hrest
    · exact absurd hlt (Nat.not_lt.mpr ((priority_around horder).1 t hbefore))
    · exact absurd hlt (Nat.lt_irrefl _)
    · exact hrest
  cases rest with
  | nil => exact absurd hrest List.not_mem_nil
  | cons x after =>
    have hx : x ∈ steps := by rw [← hmem, horder]; simp
    have hsx : s.priority ≤ x.priority := (priority_around horder).2 x List.mem_cons_self
    have hne : x.priority ≠ s.priority := priority_next_ne hs horder
    have hxt : x.priority ≤ t.priority := by
      rcases List.mem_cons.mp hrest with rfl | hafter
      · exact Nat.le_refl _
      · rw [List.append_cons] at horder
        exact (priority_around horder).2 t hafter
    have hpriority : x.priority = t.priority := by
      rcases hbetween x hx with hle | hle <;> omega
    have hfound : x ∈ steps.filter fun y => y.priority = t.priority :=
      List.mem_filter.mpr ⟨hx, decide_eq_true hpriority⟩
    rw [ht, List.mem_singleton] at hfound
    exact ⟨before, after, hfound ▸ horder⟩

end Step

namespace Plan

variable {b : Bundle} {slots : List Slot} {c : Capabilities} {mode : UpgradeMode}
  {settings : Settings} {r : Report}

theorem filter_forDevice {p : Step → Bool} (hp : ∀ s, p s = true → s.isForDevice = true) :
    (report b slots c mode settings).steps.filter p =
      (ending c ((working slots b).any (needsClearing slots))
        ((working slots b).any (needsReset slots c mode)) settings).filter p := by
  have hnone : ((working slots b).flatMap (stepsFor slots c mode) ++
      b.caches.map cacheUpload).filter p = [] := by
    have hothers : (report b slots c mode settings).steps.filter (fun s => !s.isForDevice) = _ :=
      filter_not_isForDevice
    rw [← hothers, List.filter_filter]
    apply List.filter_eq_nil_iff.mpr
    intro s _ hs
    obtain ⟨hps, hother⟩ := Bool.and_eq_true_iff.mp hs
    rw [hp s hps] at hother
    cases hother
  rw [steps_report, List.filter_append, hnone, List.nil_append]

theorem mem_steps_of_isForDevice {s : Step} (hs : s.isForDevice = true) :
    s ∈ (report b slots c mode settings).steps ↔
      s ∈ ending c ((working slots b).any (needsClearing slots))
        ((working slots b).any (needsReset slots c mode)) settings := by
  have hfilter (steps : List Step) : s ∈ steps.filter Step.isForDevice ↔ s ∈ steps :=
    List.mem_filter.trans (and_iff_left hs)
  rw [← hfilter, filter_forDevice fun _ h => h, hfilter]

theorem resetBeforeUpload_mem {noSwap : Value} :
    .resetBeforeUpload noSwap ∈ (report b slots c mode settings).steps ↔
      (working slots b).any (needsClearing slots) = true ∧ noSwap = c.noSwap := by
  rw [mem_steps_of_isForDevice rfl, mem_ending]
  simp

theorem reset_mem {noSwap : Value} :
    .reset noSwap ∈ (report b slots c mode settings).steps ↔
      (working slots b).any (needsReset slots c mode) = true ∧ noSwap = c.noSwap := by
  rw [mem_steps_of_isForDevice rfl, mem_ending]
  simp

theorem eraseStorage_mem :
    .eraseStorage ∈ (report b slots c mode settings).steps ↔
      (working slots b).any (needsReset slots c mode) = true ∧ settings.eraseSettings = true := by
  rw [mem_steps_of_isForDevice rfl, mem_ending]
  simp

theorem resetBeforeUpload_mem_notices :
    (∃ n ∈ (report b slots c mode settings).notices, n.code = .resetBeforeUpload) ↔
      (working slots b).any (needsClearing slots) = true := by
  have hnotices : (report b slots c mode settings).notices =
      notices (settledCores b.targets slots) (assess (working slots b) slots c mode) c := rfl
  have hother (a : Assessment) : ∀ n ∈ noticesFor c a, n.code ≠ .resetBeforeUpload := by
    unfold noticesFor
    dsimp only
    split_ifs <;> simp
  rw [hnotices, notices, any_initialResetRequired]
  constructor
  · rintro ⟨n, hn, hcode⟩
    simp only [List.mem_append, List.mem_map, List.mem_flatMap] at hn
    rcases hn with ((hfallback | ⟨core, _, rfl⟩) | ⟨a, _, ha⟩) | hclear
    · split at hfallback
      · rw [List.mem_singleton.mp hfallback] at hcode
        cases hcode
      · cases hfallback
    · cases hcode
    · exact absurd hcode (hother a n ha)
    · split at hclear
      next hany => exact hany
      next => cases hclear
  · intro hany
    rw [if_pos hany]
    exact ⟨_, List.mem_append_right _ (List.mem_singleton_self _), rfl⟩

theorem exists_erasure_and_reset (h : .eraseStorage ∈ (report b slots c mode settings).steps) :
    ∃ before after, Step.sorted (report b slots c mode settings).steps =
      before ++ .eraseStorage :: .reset c.noSwap :: after := by
  obtain ⟨hlast, herase⟩ := eraseStorage_mem.mp h
  have hfilter {n : Nat} (hn : n = 4 ∨ n = 5) :
      ((report b slots c mode settings).steps.filter fun s => s.priority = n) =
        (ending c ((working slots b).any (needsClearing slots)) true settings).filter
          fun s => s.priority = n := by
    rw [← hlast]
    refine filter_forDevice fun s hs => Step.isForDevice_of_priority ?_
    rwa [of_decide_eq_true hs]
  have herasure : ((report b slots c mode settings).steps.filter fun s => s.priority = 4) =
      [.eraseStorage] := by
    rw [hfilter (.inl rfl), ending, herase]
    cases (working slots b).any (needsClearing slots) <;> rfl
  have hreset : ((report b slots c mode settings).steps.filter fun s => s.priority = 5) =
      [.reset c.noSwap] := by
    rw [hfilter (.inr rfl), ending, herase]
    cases (working slots b).any (needsClearing slots) <;> rfl
  exact Step.exists_adjacent herasure hreset (Nat.lt_succ_self 4) fun s _ =>
    (Nat.lt_or_ge 4 s.priority).symm

theorem pairwise_ending (early last : Bool) :
    (ending c early last settings).Pairwise fun s t => s.priority < t.priority := by
  unfold ending
  cases early <;> cases last <;> cases settings.eraseSettings <;> simp [Step.priority]

theorem countP_le_one {p : Step → Bool} {n : Nat}
    (hp : ∀ s, p s = true → s.isForDevice = true ∧ s.priority = n) :
    (report b slots c mode settings).steps.countP p ≤ 1 := by
  rw [List.countP_eq_length_filter, filter_forDevice fun s hs => (hp s hs).1]
  generalize hfound : (ending c _ _ settings).filter p = found
  have hnodup : (found.map Step.priority).Nodup := by
    rw [← hfound]
    exact List.pairwise_map.mpr (((pairwise_ending _ _).filter p).imp Nat.ne_of_lt)
  have hsame : ∀ m ∈ found.map Step.priority, m = n := by
    intro m hm
    obtain ⟨s, hs, rfl⟩ := List.mem_map.mp hm
    rw [← hfound] at hs
    exact (hp s (List.mem_filter.mp hs).2).2
  rw [List.eq_replicate_length.mpr hsame, List.nodup_replicate, List.length_map] at hnodup
  exact hnodup

/-- However many images ask for them, a plan has each of the two resets and the erasure of the
settings once at most. The settings are erased exactly if that was asked for and there is a final
reset, directly before it. Every reset says whether the bootloader swaps, and the one that clears
slots is exactly what the reader is told of. -/
theorem device_steps_once (h : Made b slots c mode settings r) :
    (r.steps.countP Step.isEarlyReset ≤ 1 ∧ r.steps.countP Step.isFinalReset ≤ 1 ∧
      r.steps.count .eraseStorage ≤ 1) ∧
    (.eraseStorage ∈ r.steps ↔
      (∃ noSwap, .reset noSwap ∈ r.steps) ∧ settings.eraseSettings = true) ∧
    (.eraseStorage ∈ r.steps → ∃ before after, (Agenda.ofSteps r.steps).drain.1 =
      before ++ .eraseStorage :: .reset c.noSwap :: after) ∧
    (∀ noSwap, .resetBeforeUpload noSwap ∈ r.steps ∨ .reset noSwap ∈ r.steps →
      noSwap = c.noSwap) ∧
    ((∃ n ∈ r.notices, n.code = .resetBeforeUpload) ↔
      ∃ noSwap, .resetBeforeUpload noSwap ∈ r.steps) := by
  obtain ⟨_, _, rfl⟩ := made_iff.mp h
  refine ⟨⟨?_, ?_, ?_⟩, ?_, ?_, ?_, ?_⟩
  · refine countP_le_one (n := 1) fun s hs => ?_
    obtain ⟨_, rfl⟩ := Step.isEarlyReset_iff.mp hs
    exact ⟨rfl, rfl⟩
  · refine countP_le_one (n := 5) fun s hs => ?_
    obtain ⟨_, rfl⟩ := Step.isFinalReset_iff.mp hs
    exact ⟨rfl, rfl⟩
  · refine countP_le_one (n := 4) fun s hs => ?_
    obtain rfl := eq_of_beq hs
    exact ⟨rfl, rfl⟩
  · simp [eraseStorage_mem, reset_mem]
  · rw [Agenda.drain_ofSteps]
    exact exists_erasure_and_reset
  · rintro noSwap (hearly | hlast)
    · exact (resetBeforeUpload_mem.mp hearly).2
    · exact (reset_mem.mp hlast).2
  · simp [resetBeforeUpload_mem_notices, resetBeforeUpload_mem]

theorem device_steps_once_pair :
    ∃ r, Made Sample.pair [Sample.running 1, Sample.stale 1, Sample.stale 0] {} .testAndConfirm
        { eraseSettings := true } r ∧
      r.steps.countP Step.isEarlyReset = 1 ∧ r.steps.countP Step.isFinalReset ≤ 1 ∧
      .eraseStorage ∈ r.steps ∧
      (∃ before after, (Agenda.ofSteps r.steps).drain.1 =
        before ++ .eraseStorage :: .reset (.bool false) :: after) ∧
      ∃ n ∈ r.notices, n.code = .resetBeforeUpload := by
  have hmade : Made Sample.pair [Sample.running 1, Sample.stale 1, Sample.stale 0] {}
      .testAndConfirm { eraseSettings := true } _ :=
    made_iff.mpr ⟨List.cons_ne_nil _ _, by decide +kernel, rfl⟩
  obtain ⟨⟨_, hfinal, _⟩, herasure, hplace, _, htold⟩ := device_steps_once hmade
  have hreset : .reset (.bool false) ∈ (report Sample.pair
      [Sample.running 1, Sample.stale 1, Sample.stale 0] {} .testAndConfirm
        { eraseSettings := true }).steps := by decide
  have herased := herasure.mpr ⟨⟨_, hreset⟩, rfl⟩
  exact ⟨_, hmade, rfl, hfinal, herased, hplace herased, htold.mpr ⟨.bool false, by decide⟩⟩

end Plan
end Reflash
