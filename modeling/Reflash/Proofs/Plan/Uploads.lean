import Mathlib.Data.List.TakeWhile
import Reflash.Proofs.Agenda
import Reflash.Proofs.Plan

/-! Where images are sent. The scan for an image that no slot of its core holds
passes over the whole listing, so every record of the destination counts: an
active one keeps the image from being sent, and one that waits for a reset gets
that reset, which is taken before anything is sent. What a plan sends is exactly
the images that are neither skipped nor held by their cores, and the caches. -/

namespace Reflash

def Step.isUpload : Step → Bool
  | .upload .. => true
  | _ => false

def Target.isHeld (t : Target) (slots : List Slot) : Bool :=
  slots.any fun s => s.core = t.core && s.hash = t.hash

/-- The slot where the image should go is active, and the listing has it in front of every slot of
the core that holds the image. -/
def Target.IsBlocked (t : Target) (slots : List Slot) : Prop :=
  ∃ front s back, slots = front ++ s :: back ∧ s.core = t.core ∧ s.number = t.slot ∧
    s.active = true ∧ ∀ x ∈ front ++ [s], x.core = t.core → x.hash ≠ t.hash

theorem mem_takeWhile_filter {α : Type} {p q : α → Bool} {l : List α} {x : α} :
    x ∈ (l.filter p).takeWhile q ↔
      ∃ front back, l = front ++ x :: back ∧ p x = true ∧
        ∀ y ∈ front ++ [x], p y = true → q y = true := by
  induction l with
  | nil => simp
  | cons a l ih =>
    have hsplit : (∃ front back, a :: l = front ++ x :: back ∧ p x = true ∧
          ∀ y ∈ front ++ [x], p y = true → q y = true) ↔
        (p a = true → q a = true) ∧ (x = a ∧ p a = true ∨
          ∃ front back, l = front ++ x :: back ∧ p x = true ∧
            ∀ y ∈ front ++ [x], p y = true → q y = true) := by
      constructor
      · rintro ⟨_ | ⟨y, front⟩, back, heq, hx, hall⟩
        · cases heq
          exact ⟨hall x (by simp), .inl ⟨rfl, hx⟩⟩
        · cases heq
          exact ⟨hall a (by simp), .inr ⟨front, back, rfl, hx,
            fun y hy => hall y (List.mem_cons_of_mem _ hy)⟩⟩
      · rintro ⟨ha, ⟨rfl, hx⟩ | ⟨front, back, rfl, hx, hall⟩⟩
        · exact ⟨[], l, rfl, hx, by simpa using ha⟩
        · exact ⟨a :: front, back, rfl, hx, List.forall_mem_cons.mpr ⟨ha, hall⟩⟩
    rw [hsplit, ← ih]
    cases hp : p a <;> cases hq : q a <;> simp [hp, hq]

namespace Assessment

theorem inTheWay_of_copy?_eq_none {t : Target} {slots : List Slot} (h : copy? t slots = none) :
    inTheWay t slots = slots.filter fun s => s.core = t.core && s.number = t.slot := by
  have hother : ∀ s ∈ slots.filter fun s => s.core = t.core, s.hash ≠ t.hash := by
    intro s hs
    obtain ⟨hmem, hcore⟩ := List.mem_filter.mp hs
    have hfind := List.find?_eq_none.mp h s hmem
    simpa [of_decide_eq_true hcore] using hfind
  rw [inTheWay, List.takeWhile_eq_self_iff.mpr (by simpa using hother), List.filter_filter]
  congr 1
  funext s
  rw [Bool.and_comm]

theorem any_inTheWay {t : Target} {slots : List Slot} (p : Slot → Bool) :
    (inTheWay t slots).any p = true ↔
      ∃ front s back, slots = front ++ s :: back ∧ s.core = t.core ∧ s.number = t.slot ∧
        p s = true ∧ ∀ x ∈ front ++ [s], x.core = t.core → x.hash ≠ t.hash := by
  simp only [List.any_eq_true, inTheWay, List.mem_filter, mem_takeWhile_filter, decide_eq_true_eq]
  constructor
  · rintro ⟨s, ⟨⟨front, back, heq, hcore, hall⟩, hslot⟩, hp⟩
    exact ⟨front, s, back, heq, hcore, hslot, hp, hall⟩
  · rintro ⟨front, s, back, heq, hcore, hslot, hp, hall⟩
    exact ⟨s, ⟨⟨front, back, heq, hcore, hall⟩, hslot⟩, hp⟩

theorem any_active_inTheWay {t : Target} {slots : List Slot} :
    (inTheWay t slots).any Slot.active = true ↔ t.IsBlocked slots :=
  any_inTheWay Slot.active

theorem isSome_copy? (t : Target) (slots : List Slot) :
    (copy? t slots).isSome = t.isHeld slots :=
  List.isSome_find?

theorem mem_inTheWay_of_copy?_eq_none {t : Target} {slots : List Slot} (h : copy? t slots = none)
    {s : Slot} : s ∈ inTheWay t slots ↔ s ∈ slots ∧ s.core = t.core ∧ s.number = t.slot := by
  rw [inTheWay_of_copy?_eq_none h, List.mem_filter]
  simp

end Assessment

namespace Plan

variable {b : Bundle} {slots : List Slot} {c : Capabilities} {mode : UpgradeMode}
  {settings : Settings} {r : Report} {t : Target}

theorem active_eq_false_of_upload (h : t.upload ∈ stepsFor slots c mode t) {s : Slot}
    (hs : s ∈ slots) (hcore : s.core = t.core) (hslot : s.number = t.slot) : s.active = false := by
  obtain ⟨hactive, hnone⟩ := upload_mem_stepsFor.mp h
  have hway := (Assessment.mem_inTheWay_of_copy?_eq_none hnone).mpr ⟨hs, hcore, hslot⟩
  rw [List.any_eq_false] at hactive
  exact Bool.eq_false_iff.mpr (hactive s hway)

theorem needsClearing_of_upload (h : t.upload ∈ stepsFor slots c mode t) {s : Slot}
    (hs : s ∈ slots) (hcore : s.core = t.core) (hslot : s.number = t.slot)
    (hwaiting : s.pending = true ∨ s.confirmed = true) : needsClearing slots t = true := by
  have hactive := active_eq_false_of_upload h hs hcore hslot
  have hway := (Assessment.mem_inTheWay_of_copy?_eq_none (upload_mem_stepsFor.mp h).2).mpr
    ⟨hs, hcore, hslot⟩
  refine List.any_eq_true.mpr ⟨s, hway, ?_⟩
  rw [Slot.isStale, hactive, Bool.not_false, Bool.true_and, Bool.or_eq_true]
  exact hwaiting

theorem resetBeforeUpload_mem_steps (ht : t ∈ working slots b)
    (h : needsClearing slots t = true) :
    .resetBeforeUpload c.noSwap ∈ (report b slots c mode settings).steps := by
  have hany : (working slots b).any (needsClearing slots) = true :=
    List.any_eq_true.mpr ⟨t, ht, h⟩
  exact mem_steps_report.mpr (.inr (.inr (mem_ending.mpr (.inl ⟨hany, rfl⟩))))

theorem upload_mem_steps {data : Bytes} {target : Int}
    (h : .upload data target ∈ (report b slots c mode settings).steps) :
    (∃ cache ∈ b.caches, cacheUpload cache = .upload data target) ∨
      ∃ t ∈ working slots b, t.upload = .upload data target ∧
        t.upload ∈ stepsFor slots c mode t := by
  rcases mem_steps_report.mp h with ⟨t, ht, hs⟩ | hcache | hend
  · refine .inr ⟨t, ht, ?_⟩
    rcases (mem_stepsFor.mp hs).2 with ⟨_, heq⟩ | hmark
    · exact ⟨heq.symm, heq ▸ hs⟩
    · rcases Assessment.priority_of_mem_marks hmark with hpriority | hpriority <;> cases hpriority
  · exact .inl hcache
  · rcases mem_ending.mp hend with ⟨_, heq⟩ | ⟨_, ⟨_, heq⟩ | heq⟩ <;> cases heq

/-- What a plan sends are cache images and images of its targets. An image is sent only where no
record of its destination is active, and where a record there waits for a reset, the plan has a
reset that is taken before everything that is sent. -/
theorem uploads_to_writable_slots (h : Made b slots c mode settings r) :
    (∀ data target, .upload data target ∈ r.steps →
      (∃ cache ∈ b.caches, cacheUpload cache = .upload data target) ∨
        ∃ t ∈ r.targets, t.upload = .upload data target ∧ t.upload ∈ stepsFor slots c mode t) ∧
    ∀ t ∈ r.targets, t.upload ∈ stepsFor slots c mode t →
      t.upload ∈ r.steps ∧
      (∀ s ∈ slots, s.core = t.core → s.number = t.slot → s.active = false) ∧
      ((∃ s ∈ slots, s.core = t.core ∧ s.number = t.slot ∧
          (s.pending = true ∨ s.confirmed = true)) →
        .resetBeforeUpload c.noSwap ∈ r.steps ∧
        ∀ data target before after,
          (Agenda.ofSteps r.steps).drain.1 = before ++ .upload data target :: after →
            .resetBeforeUpload c.noSwap ∈ before) := by
  obtain ⟨_, _, rfl⟩ := made_iff.mp h
  refine ⟨fun data target hupload => upload_mem_steps hupload, ?_⟩
  intro t ht hupload
  refine ⟨mem_steps_report.mpr (.inl ⟨t, ht, hupload⟩), ?_, ?_⟩
  · intro s hs hcore hslot
    exact active_eq_false_of_upload hupload hs hcore hslot
  · rintro ⟨s, hs, hcore, hslot, hwaiting⟩
    have hclear := needsClearing_of_upload hupload hs hcore hslot hwaiting
    have hreset : .resetBeforeUpload c.noSwap ∈ (report b slots c mode settings).steps :=
      resetBeforeUpload_mem_steps ht hclear
    refine ⟨hreset, ?_⟩
    intro data target before after horder
    rw [Agenda.drain_ofSteps] at horder
    exact Step.mem_before horder hreset (show 1 < 2 by decide)

theorem uploads_to_writable_slots_pair :
    (Agenda.ofSteps (report Sample.pair [Sample.running 1, Sample.stale 1] {} .testOnly
      {}).steps).drain.1 =
        [.resetBeforeUpload (.bool false), Sample.application.upload, Sample.network.upload,
          .test [0xA1], .test [0xB2], .reset (.bool false)] ∧
    (∀ s ∈ [Sample.running 1, Sample.stale 1], s.core = 1 → s.number = 1 → s.active = false) ∧
    .resetBeforeUpload (.bool false) ∈
      [.resetBeforeUpload (.bool false), Sample.application.upload] := by
  have hmade : Made Sample.pair [Sample.running 1, Sample.stale 1] {} .testOnly {} _ :=
    made_iff.mpr ⟨List.cons_ne_nil _ _, by decide +kernel, rfl⟩
  obtain ⟨_, htargets⟩ := uploads_to_writable_slots hmade
  obtain ⟨_, hactive, hclear⟩ := htargets Sample.network (by decide) (by decide)
  obtain ⟨_, hbefore⟩ := hclear ⟨Sample.stale 1, by decide, rfl, rfl, .inl rfl⟩
  exact ⟨rfl, hactive, hbefore [1, 2, 3] 1 _ _ rfl⟩

/-! ### What is sent -/

theorem filter_isUpload_stepsFor (t : Target) :
    (stepsFor slots c mode t).filter Step.isUpload =
      if (Assessment.scan t slots c.inPlace).skip || t.isHeld slots then [] else [t.upload] := by
  have hscan := Assessment.scan_eq t slots c.inPlace
  have hmarks : ((Assessment.scan t slots c.inPlace).marks (c.limit mode)).filter
      Step.isUpload = [] := by
    apply List.filter_eq_nil_iff.mpr
    intro s hs hupload
    have hpriority := Assessment.priority_of_mem_marks hs
    cases s with
    | upload => rcases hpriority with hpriority | hpriority <;> cases hpriority
    | _ => cases hupload
  cases hskip : (Assessment.scan t slots c.inPlace).skip
  · have huploads : (Assessment.scan t slots c.inPlace).uploads =
        if t.isHeld slots then [] else [t.upload] := by
      rw [Assessment.uploads, hscan, ← Assessment.isSome_copy?]
      rfl
    rw [stepsFor_of_not_skip hskip, List.filter_append, hmarks, List.append_nil, huploads,
      Bool.false_or]
    cases t.isHeld slots <;> rfl
  · rw [stepsFor_of_skip hskip, Bool.true_or, if_pos rfl, List.filter_nil]

/-- A plan sends, in this order, each image that is left, is not skipped and is held by no slot of
its core, once, and each cache image, once. An image is skipped where an active slot stands in its
place and the listing has it before the image is found. -/
theorem uploads_exactly (h : Made b slots c mode settings r) :
    r.targets = b.targets.filter (fun t => !r.upToDate.contains t.core) ∧
    r.steps.filter Step.isUpload =
      (r.targets.filter fun t => !(r.skipped.contains t || t.isHeld slots)).map Target.upload ++
        b.caches.map cacheUpload ∧
    ∀ t ∈ r.targets, t ∈ r.skipped ↔ t.IsBlocked slots := by
  obtain ⟨_, _, rfl⟩ := made_iff.mp h
  refine ⟨rfl, ?_, ?_⟩
  · have hdevice : ∀ s : Step, s.isForDevice = true → s.isUpload = false := by
      intro s hs
      cases s with
      | eraseStorage | resetBeforeUpload | reset => rfl
      | _ => cases hs
    have hcaches : (b.caches.map cacheUpload).filter Step.isUpload = b.caches.map cacheUpload := by
      apply List.filter_eq_self.mpr
      intro s hs
      obtain ⟨cache, _, rfl⟩ := List.mem_map.mp hs
      rfl
    have hkept : (report b slots c mode settings).targets.filter (fun t =>
          !((report b slots c mode settings).skipped.contains t || t.isHeld slots)) =
        (working slots b).filter fun t =>
          !((Assessment.scan t slots c.inPlace).skip || t.isHeld slots) := by
      apply List.filter_congr
      intro t ht
      rw [contains_skipped ht]
    simp only [filter_steps_report b settings hdevice, hcaches, hkept, filter_isUpload_stepsFor]
    rw [← flatMap_filter_not, ← List.map_eq_flatMap]
  · intro t ht
    rw [mem_skipped_iff ht, Assessment.scan_eq]
    exact Assessment.any_active_inTheWay

namespace Sample

def modem : Target := { core := 2, image := image 0xC3 }

def trio : Bundle where
  targets := [application, network, modem]
  caches := [⟨3, [7]⟩]
  distinct := by decide

def storedAndBlocked : List Slot :=
  [{ running 1 with number := 1 }, running 0, application.stored "2.0", running 2]

end Sample

theorem uploads_exactly_trio :
    Sample.application.isHeld Sample.storedAndBlocked = true ∧
    Sample.network.IsBlocked Sample.storedAndBlocked ∧
    (report Sample.trio Sample.storedAndBlocked {} .testAndConfirm {}).steps.filter
      Step.isUpload = [Sample.modem.upload, .upload [7] 3] := by
  have hmade : Made Sample.trio Sample.storedAndBlocked {} .testAndConfirm {} _ :=
    made_iff.mpr ⟨List.cons_ne_nil _ _, by decide +kernel, rfl⟩
  obtain ⟨_, hsent, hskipped⟩ := uploads_exactly hmade
  exact ⟨rfl, (hskipped Sample.network (by decide)).mp (by decide), hsent⟩

end Plan
end Reflash
