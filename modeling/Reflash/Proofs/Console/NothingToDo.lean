import Reflash.Console.Screen
import Reflash.Proofs.Agenda
import Reflash.Proofs.Plan.Clearing
import Reflash.Proofs.Plan.Modes
import Reflash.Proofs.Plan.UpToDate

/-! The screen of a plan without steps. It tells that the device already runs what is
asked for, and goes by the agenda alone. A plan has no steps if each image that is left
is left alone, for which there are more reasons than that it runs: the slot where it
should go runs another image, or it is stored and the mode asks for no more. -/

namespace Reflash

namespace Console

variable {r : Report} {pending : List Step} {verbose : Bool}

def nothingToDo : Item := success "Device already runs the requested firmware, nothing to do"

theorem nothingToDo_mem_steps : nothingToDo ∈ steps pending ↔ pending = [] := by
  cases pending with
  | nil => simp [steps, nothingToDo]
  | cons s rest =>
    refine iff_of_false ?_ (List.cons_ne_nil s rest)
    simp only [steps, List.isEmpty_cons, Bool.false_eq_true, if_false, List.mem_cons,
      List.not_mem_nil, or_false, nothingToDo, success, Item.text.injEq, and_true]
    rintro (htable | hcount)
    · cases htable
    · -- the two lines end differently
      have hlast := congrArg (fun line => line.toList.getLast?) hcount
      simp only [String.toList_append, List.getLast?_append] at hlast
      cases hlast

theorem nothingToDo_mem_plan :
    nothingToDo ∈ plan r pending verbose ↔ r.ok = true ∧ pending = [] := by
  have hnotice : nothingToDo ∉ r.notices.flatMap (notice verbose) := by
    intro hmem
    obtain ⟨n, -, hn⟩ := List.mem_flatMap.mp hmem
    rcases List.mem_cons.mp hn with hline | hadvice
    · -- no notice is green
      cases n with
      | mk code severity => cases severity <;> cases hline
    · split at hadvice
      · cases List.mem_singleton.mp hadvice
      · cases hadvice
  have hfailure : nothingToDo ∉ r.errors.map failure := by
    intro hmem
    obtain ⟨message, -, hline⟩ := List.mem_map.mp hmem
    cases hline
  have htable : nothingToDo ∉ if r.targets.isEmpty then [] else [imagesTable r.targets] := by
    intro hmem
    split at hmem
    · cases hmem
    · cases List.mem_singleton.mp hmem
  have hheader (line : String) : nothingToDo ≠ .text line none := nofun
  rw [plan, List.mem_append, List.mem_cons, or_iff_right (hheader _), or_iff_right hnotice]
  cases r.ok with
  | true =>
    rw [if_pos rfl, List.mem_append, or_iff_right htable, nothingToDo_mem_steps]
    exact (and_iff_right rfl).symm
  | false =>
    rw [if_neg Bool.false_ne_true]
    exact iff_of_false hfailure nofun

end Console

def Slot.IsDone (s : Slot) : UpgradeMode → Prop
  | .none => True
  | .testOnly => s.pending = false ∧ (s.confirmed = true ∨ s.active = true)
  | .testAndConfirm =>
    s.pending = false ∧ (s.confirmed = true ∨ s.active = true ∧ s.permanent = true)
  | .confirmOnly => s.permanent = false ∧ s.confirmed = true

theorem Slot.confirmed_of_isDone {s : Slot} {mode : UpgradeMode} (h : s.IsDone mode)
    (hmode : mode ≠ .none) (hinactive : s.active = false) : s.confirmed = true := by
  have hidle : ¬ s.active = true := by rw [hinactive]; exact Bool.false_ne_true
  cases mode with
  | none => exact absurd rfl hmode
  | testOnly => exact h.2.resolve_right hidle
  | testAndConfirm => exact h.2.resolve_right fun hrunning => hidle hrunning.1
  | confirmOnly => exact h.2

def Target.Runs (t : Target) (slots : List Slot) : Prop :=
  ∃ s ∈ slots, s.core = t.core ∧ s.active = true ∧ s.hash = t.hash

def Bundle.IsRunning (b : Bundle) (slots : List Slot) : Prop :=
  ∀ t ∈ b.targets, ∃ u ∈ b.targets, u.core = t.core ∧ u.Runs slots

namespace Target

/-- A reset brings the image back: it is confirmed in the slot where it should go, of a bootloader
that swaps. -/
def IsSwappedBack (t : Target) (slots : List Slot) (c : Capabilities) : Prop :=
  t.image.needsConfirmation = true ∧ c.inPlace = false ∧
    ∃ s ∈ Assessment.copy? t slots, s.confirmed = true ∧ s.number = t.slot

/-- Nothing is to be done about an image. The slot where it should go is active, or its first copy
is in use as far as the mode asks for it. -/
structure IsLeftAlone (t : Target) (slots : List Slot) (c : Capabilities) (mode : UpgradeMode) :
    Prop where
  notObstructed : ¬ t.IsObstructed slots
  notSwappedBack : ¬ t.IsSwappedBack slots c
  isSettled : t.IsBlocked slots ∨ t.image.requiresActivation = false ∧
    ∃ s ∈ Assessment.copy? t slots, t.image.needsConfirmation = true → s.IsDone (c.limit mode)

end Target

namespace Assessment

variable {t : Target} {slots : List Slot} {c : Capabilities} {noSwap : Bool} {mode : UpgradeMode}

theorem resetRequired_scan_iff :
    (scan t slots c.inPlace).resetRequired = true ↔ t.IsSwappedBack slots c := by
  rw [scan_eq, Target.IsSwappedBack]
  cases copy? t slots with
  | none => simp
  | some s =>
    simp only [Option.any_some, Bool.and_eq_true, Bool.not_eq_true', decide_eq_true_eq,
      Option.mem_some_iff, exists_eq_left']
    constructor
    · rintro ⟨⟨⟨hconfirm, hconfirmed⟩, hnumber⟩, hswaps⟩
      exact ⟨hconfirm, hswaps, hconfirmed, hnumber⟩
    · rintro ⟨hconfirm, hswaps, hconfirmed, hnumber⟩
      exact ⟨⟨⟨hconfirm, hconfirmed⟩, hnumber⟩, hswaps⟩

theorem marks_scan_eq_nil :
    (scan t slots noSwap).uploads = [] ∧ (scan t slots noSwap).marks mode = [] ∧
        (scan t slots noSwap).awaitsReset mode = false ↔
      t.image.requiresActivation = false ∧
        ∃ s ∈ copy? t slots, t.image.needsConfirmation = true → s.IsDone mode := by
  have hformat : t.image.requiresActivation = true → t.image.needsConfirmation = false := by
    simp only [Image.requiresActivation, decide_eq_true_eq]
    intro hformat
    rw [Image.needsConfirmation, hformat]
  rw [scan_eq]
  cases copy? t slots with
  | none => simp [uploads]
  | some s =>
    cases hconfirm : t.image.needsConfirmation with
    | false => simp [uploads, marks, awaitsReset, hconfirm]
    | true =>
      cases mode <;> simp [uploads, marks, tests, confirms, awaitsReset, Slot.IsDone, hconfirm]
      all_goals grind

end Assessment

namespace Plan

variable {b : Bundle} {slots : List Slot} {c : Capabilities} {mode : UpgradeMode}
  {settings : Settings} {r : Report} {t : Target}

theorem isLeftAlone_iff :
    stepsFor slots c mode t = [] ∧ needsClearing slots t = false ∧
        needsReset slots c mode t = false ↔ t.IsLeftAlone slots c mode := by
  have hclear : needsClearing slots t = false ↔ ¬ t.IsObstructed slots := by
    rw [← needsClearing_iff, Bool.not_eq_true]
  have hback : (Assessment.scan t slots c.inPlace).resetRequired = false ↔
      ¬ t.IsSwappedBack slots c := by
    rw [← Assessment.resetRequired_scan_iff, Bool.not_eq_true]
  have hblocked : (Assessment.scan t slots c.inPlace).skip = true ↔ t.IsBlocked slots := by
    rw [Assessment.scan_eq, Assessment.any_active_inTheWay]
  rw [hclear]
  cases hskip : (Assessment.scan t slots c.inPlace).skip with
  | true =>
    rw [stepsFor_of_skip hskip, needsReset, Assessment.decide_of_skip c mode hskip, hback]
    constructor
    · rintro ⟨-, hclear, hback⟩
      exact ⟨hclear, hback, .inl (hblocked.mp hskip)⟩
    · exact fun h => ⟨rfl, h.notObstructed, h.notSwappedBack⟩
  | false =>
    rw [stepsFor_of_not_skip hskip, needsReset_of_not_skip hskip, Bool.or_eq_false_iff, hback,
      List.append_eq_nil_iff]
    have hfree : ¬ t.IsBlocked slots := by rw [← hblocked, hskip]; exact Bool.false_ne_true
    constructor
    · rintro ⟨⟨huploads, hmarks⟩, hclear, hback, hawaits⟩
      exact ⟨hclear, hback, .inr (Assessment.marks_scan_eq_nil.mp ⟨huploads, hmarks, hawaits⟩)⟩
    · intro h
      obtain ⟨huploads, hmarks, hawaits⟩ :=
        Assessment.marks_scan_eq_nil.mpr (h.isSettled.resolve_left hfree)
      exact ⟨⟨huploads, hmarks⟩, h.notObstructed, h.notSwappedBack, hawaits⟩

theorem steps_eq_nil_iff (hcaches : b.caches = []) :
    (report b slots c mode settings).steps = [] ↔
      ∀ t ∈ working slots b, t.IsLeftAlone slots c mode := by
  rw [steps_report, hcaches, List.map_nil, List.append_nil, List.append_eq_nil_iff, ending_eq_nil,
    List.flatMap_eq_nil_iff, List.any_eq_false, List.any_eq_false]
  simp only [← isLeftAlone_iff, Bool.not_eq_true]
  constructor
  · rintro ⟨hsteps, hclear, hreset⟩ t ht
    exact ⟨hsteps t ht, hclear t ht, hreset t ht⟩
  · intro hall
    exact ⟨fun t ht => (hall t ht).1, fun t ht => (hall t ht).2.1, fun t ht => (hall t ht).2.2⟩

theorem nothingToDo_mem_plan_iff {verbose : Bool} :
    Console.nothingToDo ∈ Console.plan (report b slots c mode settings)
        (Agenda.ofSteps (report b slots c mode settings).steps).pending verbose ↔
      (report b slots c mode settings).steps = [] := by
  rw [Console.nothingToDo_mem_plan, Agenda.pending_ofSteps, Step.sorted_eq_nil_iff]
  exact and_iff_right rfl

theorem isRunning_iff : b.IsRunning slots ↔ ∀ t ∈ working slots b, t.Runs slots := by
  constructor
  · intro hall t ht
    obtain ⟨hmem, hleft⟩ := mem_working.mp ht
    obtain ⟨u, hu, hcore, s, hs, hscore, hactive, hhash⟩ := hall t hmem
    have hsettled : s ∈ settledSlots b.targets slots :=
      mem_settledSlots.mpr ⟨hs, hactive, u, hu, hscore.symm, hhash.symm⟩
    have hlength : b.targets.length ≤ 1 := by
      by_contra hlength
      exact hleft (mem_settledCores.mpr
        ⟨Nat.lt_of_not_le hlength, s, hsettled, hscore.trans hcore⟩)
    obtain rfl : u = t := by
      rcases htargets : b.targets with _ | ⟨x, _ | ⟨y, rest⟩⟩ <;>
        simp only [htargets, List.length_cons, List.mem_singleton, List.not_mem_nil] at *
      · rw [hu, hmem]
      · omega
    exact ⟨s, hs, hscore, hactive, hhash⟩
  · intro hall t ht
    by_cases hleft : t.core ∈ settledCores b.targets slots
    · obtain ⟨-, s, hsettled, hscore⟩ := mem_settledCores.mp hleft
      obtain ⟨hs, hactive, u, hu, hcore, hhash⟩ := mem_settledSlots.mp hsettled
      exact ⟨u, hu, hcore.trans hscore, s, hs, hcore.symm, hactive, hhash.symm⟩
    · exact ⟨t, ht, rfl, hall t (mem_working.mpr ⟨ht, hleft⟩)⟩

theorem blocked_or_stored_of_isLeftAlone (h : t.IsLeftAlone slots c mode) (hidle : ¬ t.Runs slots) :
    t.IsBlocked slots ∨ ∃ s ∈ Assessment.copy? t slots, s.active = false ∧
      (t.image.needsConfirmation = true → c.limit mode = .none ∨ s.confirmed = true) := by
  refine h.isSettled.imp_right ?_
  rintro ⟨-, s, hcopy, hdone⟩
  have hinactive : s.active = false := by
    rw [← Bool.not_eq_true]
    intro hactive
    obtain ⟨hs, hcore, hhash⟩ := Assessment.of_copy?_eq_some hcopy
    exact hidle ⟨s, hs, hcore, hactive, hhash⟩
  refine ⟨s, hcopy, hinactive, fun hconfirm => or_iff_not_imp_left.mpr fun hmode => ?_⟩
  exact Slot.confirmed_of_isDone (hdone hconfirm) hmode hinactive

/-- Without cache images, the screen of a plan tells that there is nothing to do exactly if every
image that is left is left alone, and every core runs an image that is asked for it exactly if every
image that is left runs. So what the screen tells is true unless each of them is left alone and some
of them does not run, which is then blocked or stored. -/
theorem told_nothing_to_do_iff (hcaches : b.caches = []) (h : Made b slots c mode settings r)
    (verbose : Bool) :
    (Console.nothingToDo ∈ Console.plan r (Agenda.ofSteps r.steps).pending verbose ↔
      ∀ t ∈ r.targets, t.IsLeftAlone slots c mode) ∧
    (b.IsRunning slots ↔ ∀ t ∈ r.targets, t.Runs slots) ∧
    ((Console.nothingToDo ∈ Console.plan r (Agenda.ofSteps r.steps).pending verbose →
        b.IsRunning slots) ↔
      (∃ t ∈ r.targets, ¬ t.IsLeftAlone slots c mode) ∨ ∀ t ∈ r.targets, t.Runs slots) ∧
    ∀ t ∈ r.targets, t.IsLeftAlone slots c mode → ¬ t.Runs slots →
      t.IsBlocked slots ∨ ∃ s ∈ Assessment.copy? t slots, s.active = false ∧
        (t.image.needsConfirmation = true → c.limit mode = .none ∨ s.confirmed = true) := by
  have hrunning : b.IsRunning slots ↔ ∀ t ∈ working slots b, t.Runs slots := isRunning_iff
  obtain ⟨_, _, rfl⟩ := made_iff.mp h
  have htold : Console.nothingToDo ∈ Console.plan (report b slots c mode settings)
      (Agenda.ofSteps (report b slots c mode settings).steps).pending verbose ↔
      ∀ t ∈ working slots b, t.IsLeftAlone slots c mode :=
    nothingToDo_mem_plan_iff.trans (steps_eq_nil_iff hcaches)
  refine ⟨htold, hrunning, ?_, fun t _ => blocked_or_stored_of_isLeftAlone⟩
  rw [htold, hrunning, imp_iff_not_or]
  push Not
  rfl

theorem told_nothing_to_do_iff_running :
    ∃ r, Made (.single Sample.application) [Sample.settled Sample.application] {} .testAndConfirm {}
        r ∧
      Console.nothingToDo ∈ Console.plan r (Agenda.ofSteps r.steps).pending false ∧
      (Bundle.single Sample.application).IsRunning [Sample.settled Sample.application] := by
  have hmade : Made (.single Sample.application) [Sample.settled Sample.application] {}
      .testAndConfirm {} _ := made_iff.mpr ⟨List.cons_ne_nil _ _, by decide +kernel, rfl⟩
  obtain ⟨htold, hrunning, -, -⟩ := told_nothing_to_do_iff rfl hmade false
  refine ⟨_, hmade, htold.mpr ?_, hrunning.mpr ?_⟩
  · intro t ht
    rw [List.mem_singleton.mp ht]
    refine ⟨?_, ?_, .inr ⟨rfl, Sample.settled Sample.application, rfl, fun _ => ⟨rfl, .inl rfl⟩⟩⟩
    · rw [← needsClearing_iff]
      decide
    · rintro ⟨-, -, s, hcopy, -, hnumber⟩
      cases hcopy
      cases hnumber
  · intro t ht
    rw [List.mem_singleton.mp ht]
    exact ⟨_, List.mem_singleton_self _, rfl, rfl, rfl⟩

/-- Another image runs in the slot where the application is asked for. -/
theorem told_of_another_image :
    ¬ ∀ (b : Bundle) (slots : List Slot) (c : Capabilities) (mode : UpgradeMode)
        (settings : Settings) (r : Report) (verbose : Bool), b.caches = [] →
      Made b slots c mode settings r →
      Console.nothingToDo ∈ Console.plan r (Agenda.ofSteps r.steps).pending verbose →
        b.IsRunning slots := by
  intro h
  have hmade : Made (.single Sample.primary) [Sample.running 0] {} .testAndConfirm {} _ :=
    made_iff.mpr ⟨List.cons_ne_nil _ _, by decide +kernel, rfl⟩
  obtain ⟨u, hu, -, s, hs, -, -, hhash⟩ := h _ _ _ _ _ _ false rfl hmade
    (nothingToDo_mem_plan_iff.mpr rfl) Sample.primary (List.mem_singleton_self _)
  rw [List.mem_singleton.mp hu, List.mem_singleton.mp hs] at hhash
  exact absurd hhash (by decide)

end Plan
end Reflash
