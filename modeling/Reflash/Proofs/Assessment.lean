import Mathlib.Tactic.SplitIfs
import Reflash.Assessment

/-! What comes of looking through the slots for an image. The look ends at the
first copy of the image, and of the slots in front of the copy only those at
the image's destination count, each by itself: an active one makes the image
be skipped, a stale one asks for a reset. The steps that follow depend on the
mode only as far as the bootloader can revert. -/

namespace Reflash

def Slot.isStale (s : Slot) : Bool := !s.active && (s.pending || s.confirmed)

/-- The mode of an upgrade on a bootloader. One that cannot revert only takes images in. -/
def Capabilities.limit (c : Capabilities) (mode : UpgradeMode) : UpgradeMode :=
  if c.reverts then mode else .none

namespace Assessment

def copy? (t : Target) (slots : List Slot) : Option Slot :=
  slots.find? fun s => s.core = t.core && s.hash = t.hash

theorem of_copy?_eq_some {t : Target} {slots : List Slot} {s : Slot} (h : copy? t slots = some s) :
    s ∈ slots ∧ s.core = t.core ∧ s.hash = t.hash := by
  refine ⟨List.mem_of_find?_eq_some h, ?_⟩
  have hfound := List.find?_some h
  simpa only [Bool.and_eq_true, decide_eq_true_eq] using hfound

def inTheWay (t : Target) (slots : List Slot) : List Slot :=
  ((slots.filter fun s => s.core = t.core).takeWhile fun s => s.hash ≠ t.hash).filter
    fun s => s.number = t.slot

/-! ### The look -/

theorem against_eq (a : Assessment) (s : Slot) :
    a.against s =
      { a with
        skip := a.skip || s.active
        initialResetRequired := a.initialResetRequired || s.isStale } := by
  unfold against Slot.isStale
  cases s.active
  · cases s.pending || s.confirmed <;> simp
  · simp

theorem target_against (a : Assessment) (s : Slot) : (a.against s).target = a.target := by
  rw [against_eq]

theorem foldl_against (a : Assessment) (l : List Slot) :
    l.foldl against a =
      { a with
        skip := a.skip || l.any Slot.active
        initialResetRequired := a.initialResetRequired || l.any Slot.isStale } := by
  induction l generalizing a with
  | nil => simp only [List.foldl_nil, List.any_nil, Bool.or_false]
  | cons s l ih => simp only [List.foldl_cons, ih, against_eq, List.any_cons, Bool.or_assoc]

theorem look_eq (noSwap : Bool) (a : Assessment) (slots : List Slot) :
    look noSwap a slots =
      match copy? a.target slots with
      | none => (inTheWay a.target slots).foldl against a
      | some s => ((inTheWay a.target slots).foldl against a).foundIn s noSwap := by
  induction slots generalizing a with
  | nil => rfl
  | cons s rest ih =>
    unfold look copy? inTheWay
    -- the four branches of the look: another core, a copy, an obstacle, another slot
    by_cases hcore : s.core = a.target.core
    · by_cases hhash : s.hash = a.target.hash
      · simp [hcore, hhash]
      · by_cases hslot : s.number = a.target.slot
        · have hrest := ih (a.against s)
          rw [target_against] at hrest
          simpa [hcore, hhash, hslot, copy?, inTheWay] using hrest
        · simpa [hcore, hhash, hslot, copy?, inTheWay] using ih a
    · simpa [hcore, copy?, inTheWay] using ih a

theorem scan_eq (t : Target) (slots : List Slot) (noSwap : Bool) :
    scan t slots noSwap =
      { target := t
        found := (copy? t slots).isSome
        skip := (inTheWay t slots).any Slot.active
        pending := (copy? t slots).any Slot.pending
        permanent := (copy? t slots).any Slot.permanent
        confirmed := (copy? t slots).any Slot.confirmed
        active := (copy? t slots).any Slot.active
        resetRequired := (copy? t slots).any fun s =>
          t.image.needsConfirmation && s.confirmed && s.number = t.slot && !noSwap
        initialResetRequired := (inTheWay t slots).any Slot.isStale } := by
  rw [scan, look_eq, foldl_against]
  cases copy? t slots <;> simp [foundIn]

/-! ### The steps -/

def uploads (a : Assessment) : List Step :=
  if a.found then [] else [.upload a.target.image.data a.target.core]

def tests (a : Assessment) : List Step :=
  if !a.pending && !a.confirmed && !a.active then [.test a.target.hash] else []

def confirms (a : Assessment) (step : Step) : List Step :=
  if !a.permanent && !a.confirmed then [step] else []

def marks (mode : UpgradeMode) (a : Assessment) : List Step :=
  if a.target.image.needsConfirmation then
    match mode with
    | .none => []
    | .testOnly => a.tests
    | .testAndConfirm => a.tests ++ a.confirms (.confirmAfterReset a.target.hash)
    | .confirmOnly => a.confirms (.confirm (some a.target.hash))
  else if a.target.image.requiresActivation then [.confirm none]
  else []

def awaitsReset (mode : UpgradeMode) (a : Assessment) : Bool :=
  a.target.image.needsConfirmation &&
    match mode with
    | .none => !a.found
    | .testOnly | .testAndConfirm => a.pending || (!a.confirmed && !a.active)
    | .confirmOnly => a.permanent || !a.confirmed

theorem mem_marks {mode : UpgradeMode} {a : Assessment} {s : Step} :
    s ∈ a.marks mode ↔
      a.target.image.needsConfirmation = true ∧
        (s = .test a.target.hash ∧ (mode = .testOnly ∨ mode = .testAndConfirm) ∧
            a.pending = false ∧ a.confirmed = false ∧ a.active = false ∨
          s = .confirmAfterReset a.target.hash ∧ mode = .testAndConfirm ∧
            a.permanent = false ∧ a.confirmed = false ∨
          s = .confirm (some a.target.hash) ∧ mode = .confirmOnly ∧
            a.permanent = false ∧ a.confirmed = false) ∨
      a.target.image.needsConfirmation = false ∧ a.target.image.requiresActivation = true ∧
        s = .confirm none := by
  cases hconfirm : a.target.image.needsConfirmation
  · simp [marks, hconfirm]
  · cases mode <;> simp [marks, tests, confirms, hconfirm]
    all_goals grind

theorem priority_of_mem_marks {mode : UpgradeMode} {a : Assessment} {s : Step}
    (h : s ∈ a.marks mode) : s.priority = 3 ∨ s.priority = 6 := by
  rcases mem_marks.mp h with ⟨_, ⟨rfl, _⟩ | ⟨rfl, _⟩ | ⟨rfl, _⟩⟩ | ⟨_, _, rfl⟩
  · exact .inl rfl
  · exact .inr rfl
  · exact .inl rfl
  · exact .inl rfl

theorem awaitsReset_of_idle {mode : UpgradeMode} {a : Assessment}
    (hconfirm : a.target.image.needsConfirmation = true) (hconfirmed : a.confirmed = false)
    (hactive : a.active = false) (hmode : mode ≠ .none) : a.awaitsReset mode = true := by
  cases mode with
  | none => exact absurd rfl hmode
  | testOnly | testAndConfirm | confirmOnly =>
    simp [awaitsReset, hconfirm, hconfirmed, hactive]

variable (c : Capabilities) (mode : UpgradeMode)

theorem decide_of_skip {a : Assessment} (h : a.skip = true) : a.decide c mode = a := by
  rw [decide, if_pos h]

theorem decideUpload_eq (a : Assessment) :
    a.decideUpload c mode =
      { a with
        steps := a.steps ++ a.uploads
        resetRequired := a.resetRequired ||
          (!a.found && a.target.image.needsConfirmation && (!c.reverts || mode = .none)) } := by
  rcases a with ⟨t, found⟩
  cases found
  · cases hr : t.image.needsConfirmation && (!c.reverts || mode = .none) <;>
      simp [decideUpload, uploads, emit, hr]
  · simp [decideUpload, uploads]

theorem decideTest_eq (a : Assessment) :
    a.decideTest =
      { a with
        pending := a.pending || (!a.confirmed && !a.active)
        steps := a.steps ++ a.tests
        resetRequired := a.resetRequired || (a.pending || (!a.confirmed && !a.active)) } := by
  rcases a with ⟨t, found, skip, pending, permanent, confirmed, active⟩
  cases pending <;> cases confirmed <;> cases active <;> simp [decideTest, tests, emit]

theorem decideLateConfirm_eq (a : Assessment) :
    a.decideLateConfirm =
      { a with steps := a.steps ++ a.confirms (.confirmAfterReset a.target.hash) } := by
  unfold decideLateConfirm confirms emit
  split <;> simp

theorem decideConfirm_eq (a : Assessment) :
    a.decideConfirm =
      { a with
        permanent := a.permanent || !a.confirmed
        steps := a.steps ++ a.confirms (.confirm (some a.target.hash))
        resetRequired := a.resetRequired || (a.permanent || !a.confirmed) } := by
  rcases a with ⟨t, found, skip, pending, permanent, confirmed⟩
  cases permanent <;> cases confirmed <;> simp [decideConfirm, confirms, emit]

theorem decide_of_not_skip {a : Assessment} (h : a.skip = false) :
    a.decide c mode =
      if a.target.image.needsConfirmation then (a.decideUpload c mode).decideByMode (c.limit mode)
      else if a.target.image.requiresActivation then (a.decideUpload c mode).emit (.confirm none)
      else a.decideUpload c mode := by
  have htarget : (a.decideUpload c mode).target = a.target := by rw [decideUpload_eq]
  simp only [decide, h, htarget, Bool.false_eq_true, if_false, Capabilities.limit]
  cases c.reverts <;> rfl

theorem decide_frame (a : Assessment) :
    (a.decide c mode).target = a.target ∧ (a.decide c mode).skip = a.skip ∧
    (a.decide c mode).found = a.found ∧
    (a.decide c mode).initialResetRequired = a.initialResetRequired := by
  cases h : a.skip
  · rw [decide_of_not_skip c mode h, decideUpload_eq]
    split_ifs
    · cases c.limit mode <;>
        simp [decideByMode, decideTest_eq, decideLateConfirm_eq, decideConfirm_eq, h]
    all_goals simp [emit, h]
  · rw [decide_of_skip c mode h, h]
    exact ⟨rfl, rfl, rfl, rfl⟩

variable {c mode}

theorem steps_decide {a : Assessment} (h : a.skip = false) :
    (a.decide c mode).steps = a.steps ++ (a.uploads ++ a.marks (c.limit mode)) := by
  rw [decide_of_not_skip c mode h, decideUpload_eq]
  unfold marks
  split_ifs
  · cases c.limit mode <;>
      simp [decideByMode, decideTest_eq, decideLateConfirm_eq, decideConfirm_eq, tests, confirms]
  all_goals simp [emit]

theorem resetRequired_decide {a : Assessment} (h : a.skip = false) :
    (a.decide c mode).resetRequired = (a.resetRequired || a.awaitsReset (c.limit mode)) := by
  rw [decide_of_not_skip c mode h, decideUpload_eq]
  unfold awaitsReset
  split_ifs with hn ha
  · unfold Capabilities.limit
    cases c.reverts
    · simp [hn, decideByMode]
    · cases mode <;>
        simp [hn, decideByMode, decideTest_eq, decideLateConfirm_eq, decideConfirm_eq]
  all_goals simp [hn, emit]

end Assessment
end Reflash
