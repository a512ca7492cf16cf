import Reflash.Proofs.Plan

/-! Upgrades that were interrupted. An upgrade of one image changes one record of
the listing, that of the image's destination, and planning again reads that
record and nothing else of the destination. What is left of the plan depends on
the bootloader: where an image can be tested or confirmed, the rest of the first
plan; where it is only sent, nothing, and the reset that would bring it into use
is lost. -/

namespace Reflash

namespace Slot

def place (s : Slot) : Int × Int := (s.core, s.number)

def put (slots : List Slot) (s : Slot) : List Slot :=
  if slots.any fun x => x.place = s.place then slots.map fun x => if x.place = s.place then s else x
  else slots ++ [s]

theorem put_ne_nil (slots : List Slot) (s : Slot) : put slots s ≠ [] := by
  unfold put
  split_ifs with h
  · intro hnil
    rw [List.map_eq_nil_iff.mp hnil] at h
    exact Bool.false_ne_true h
  · exact List.append_ne_nil_of_right_ne_nil _ (List.cons_ne_nil s [])

theorem map_replace_eq {slots : List Slot} {s : Slot} (h : ∃ x ∈ slots, x.place = s.place) :
    ∃ before after, (slots.map fun x => if x.place = s.place then s else x) = before ++ s :: after ∧
      ∀ x ∈ before, x ∈ slots ∧ x.place ≠ s.place := by
  induction slots with
  | nil =>
    obtain ⟨x, hx, _⟩ := h
    exact absurd hx List.not_mem_nil
  | cons y rest ih =>
    by_cases hy : y.place = s.place
    · exact ⟨[], _, by rw [List.map_cons, if_pos hy, List.nil_append], by simp⟩
    · have hrest : ∃ x ∈ rest, x.place = s.place := by simpa [hy] using h
      obtain ⟨before, after, heq, hbefore⟩ := ih hrest
      refine ⟨y :: before, after, by rw [List.map_cons, if_neg hy, heq, List.cons_append], ?_⟩
      intro x hx
      rcases List.mem_cons.mp hx with rfl | hx
      · exact ⟨List.mem_cons_self, hy⟩
      · exact ⟨List.mem_cons_of_mem _ (hbefore x hx).1, (hbefore x hx).2⟩

theorem put_eq (slots : List Slot) (s : Slot) :
    ∃ before after, put slots s = before ++ s :: after ∧
      ∀ x ∈ before, x ∈ slots ∧ x.place ≠ s.place := by
  unfold put
  split_ifs with h
  · exact map_replace_eq (by simpa using h)
  · refine ⟨slots, [], rfl, fun x hx => ⟨hx, ?_⟩⟩
    intro hplace
    exact h (List.any_eq_true.mpr ⟨x, hx, decide_eq_true hplace⟩)

end Slot

namespace Assessment

theorem look_append (noSwap : Bool) (a : Assessment) (before after : List Slot)
    (h : ∀ x ∈ before, x.core = a.target.core → x.hash ≠ a.target.hash ∧ x.number ≠ a.target.slot) :
    look noSwap a (before ++ after) = look noSwap a after := by
  induction before with
  | nil => rfl
  | cons x before ih =>
    have htail := ih fun y hy => h y (List.mem_cons_of_mem _ hy)
    by_cases hcore : x.core = a.target.core
    · obtain ⟨hhash, hnumber⟩ := h x List.mem_cons_self hcore
      simp only [List.cons_append, look, hcore, hhash, hnumber, ne_eq, not_true, if_false, htail]
    · simp only [List.cons_append, look, hcore, ne_eq, not_false_eq_true, if_true, htail]

theorem scan_put {t : Target} {s : Slot} {slots : List Slot} (hplace : s.place = t.destination)
    (hhash : s.hash = t.hash) (hnone : copy? t slots = none) (noSwap : Bool) :
    scan t (Slot.put slots s) noSwap = ({ target := t } : Assessment).foundIn s noSwap := by
  obtain ⟨before, after, heq, hbefore⟩ := Slot.put_eq slots s
  have hcore : s.core = t.core := congrArg Prod.fst hplace
  have hpass : ∀ x ∈ before, x.core = t.core → x.hash ≠ t.hash ∧ x.number ≠ t.slot := by
    intro x hx hxcore
    obtain ⟨hmem, hne⟩ := hbefore x hx
    have hfind := List.find?_eq_none.mp hnone x hmem
    refine ⟨by simpa [hxcore] using hfind, fun hslot => hne ?_⟩
    rw [hplace, Slot.place, Target.destination, hxcore, hslot]
  rw [scan, heq, look_append noSwap _ before _ hpass]
  simp [look, hcore, hhash]

theorem scan_stored {t : Target} {slots : List Slot} (hnone : copy? t slots = none)
    (version : String) (pending permanent noSwap : Bool) :
    scan t (Slot.put slots { t.stored version with pending, permanent }) noSwap =
      { target := t, found := true, pending, permanent } := by
  rw [scan_put rfl rfl hnone]
  simp [foundIn, Target.stored]

end Assessment

namespace Plan

variable {b : Bundle} {t : Target} {slots : List Slot} {c : Capabilities} {mode : UpgradeMode}
  {settings : Settings} {r : Report}

theorem scan_of_upload (h : t.upload ∈ stepsFor slots c mode t) :
    Assessment.scan t slots c.inPlace =
      { target := t, initialResetRequired := needsClearing slots t } := by
  obtain ⟨hactive, hnone⟩ := upload_mem_stepsFor.mp h
  rw [Assessment.scan_eq, hactive, hnone]
  rfl

theorem steps_of_upload (hb : b.targets = [t]) (h : t.upload ∈ stepsFor slots c mode t) :
    (report b slots c mode settings).steps =
      t.upload :: (Assessment.marks (c.limit mode) { target := t } ++ b.caches.map cacheUpload ++
        ending c (needsClearing slots t) (Assessment.awaitsReset (c.limit mode) { target := t })
          settings) := by
  have hscan := scan_of_upload h
  have hskip : (Assessment.scan t slots c.inPlace).skip = false := by rw [hscan]
  rw [steps_report_single hb, stepsFor_of_not_skip hskip, needsReset_of_not_skip hskip, hscan]
  rfl

theorem steps_of_stored (hb : b.targets = [t]) (hnone : Assessment.copy? t slots = none)
    (version : String) (pending permanent : Bool) :
    (report b (Slot.put slots { t.stored version with pending, permanent }) c mode settings).steps =
      Assessment.marks (c.limit mode) { target := t, found := true, pending, permanent } ++
        b.caches.map cacheUpload ++
        ending c false (Assessment.awaitsReset (c.limit mode)
          { target := t, found := true, pending, permanent }) settings := by
  have hscan := Assessment.scan_stored hnone version pending permanent c.inPlace
  have hskip : (Assessment.scan t (Slot.put slots { t.stored version with pending, permanent })
      c.inPlace).skip = false := by rw [hscan]
  rw [steps_report_single hb, stepsFor_of_not_skip hskip, needsReset_of_not_skip hskip,
    needsClearing_eq c.inPlace, hscan]
  rfl

theorem filter_steps {p : Step → Bool} (hupload : ∀ data target, p (.upload data target) = true)
    (herase : p .eraseStorage = true) (hreset : p (.reset c.noSwap) = true)
    (marks : List Step) (caches : List CacheImage) (early last : Bool) :
    (marks ++ caches.map cacheUpload ++ ending c early last settings).filter p =
      marks.filter p ++ caches.map cacheUpload ++
        ending c (early && p (.resetBeforeUpload c.noSwap)) last settings := by
  have hcaches : (caches.map cacheUpload).filter p = caches.map cacheUpload := by
    rw [List.filter_eq_self]
    intro step hstep
    obtain ⟨cache, _, rfl⟩ := List.mem_map.mp hstep
    exact hupload _ _
  have hending : (ending c early last settings).filter p =
      ending c (early && p (.resetBeforeUpload c.noSwap)) last settings := by
    rw [ending, ending, List.filter_append]
    congr 1
    · cases early <;> cases hearly : p (.resetBeforeUpload c.noSwap) <;> simp [hearly]
    · cases last <;> cases settings.eraseSettings <;> simp [herase, hreset]
  rw [List.filter_append, List.filter_append, hcaches, hending]

/-- An upgrade that was interrupted goes on where it stopped. Once the image is sent, what is left
is the plan without its upload and without the reset that made room for it; once the test or the
confirmation is sent, the same without that step. A confirmation that another mode sent leaves
nothing to be tested or confirmed. -/
theorem steps_after_interruption (hb : b.targets = [t])
    (hconfirm : t.image.needsConfirmation = true) (hrevert : c.reverts = true)
    (hmode : mode ≠ .none) (h : Made b slots c mode settings r)
    (hupload : t.upload ∈ stepsFor slots c mode t) (version : String) :
    ∃ sent tested confirmed : Report,
      Made b (Slot.put slots (t.stored version)) c mode settings sent ∧
      Made b (Slot.put slots { t.stored version with pending := true }) c mode settings tested ∧
      Made b (Slot.put slots { t.stored version with pending := true, permanent := true })
        c mode settings confirmed ∧
      sent.steps = (r.steps.erase t.upload).filter (· ≠ .resetBeforeUpload c.noSwap) ∧
      tested.steps = sent.steps.filter (· ≠ .test t.hash) ∧
      (mode = .confirmOnly →
        confirmed.steps = sent.steps.filter (· ≠ .confirm (some t.hash))) ∧
      (mode ≠ .confirmOnly →
        confirmed.steps = sent.steps.filter
          fun s => s ≠ .test t.hash ∧ s ≠ .confirmAfterReset t.hash) := by
  obtain ⟨_, _, rfl⟩ := made_iff.mp h
  have hnone := (upload_mem_stepsFor.mp hupload).2
  have hlimit : c.limit mode = mode := if_pos hrevert
  have hfirst : (report b slots c mode settings).steps =
      t.upload :: (Assessment.marks mode { target := t } ++ b.caches.map cacheUpload ++
        ending c (needsClearing slots t) true settings) := by
    have hreset := Assessment.awaitsReset_of_idle (a := { target := t }) hconfirm rfl rfl hmode
    rw [steps_of_upload hb hupload, hlimit, hreset]
  have hlater (pending permanent : Bool) :
      (report b (Slot.put slots { t.stored version with pending, permanent }) c mode
        settings).steps =
        Assessment.marks mode { target := t, found := true, pending, permanent } ++
          b.caches.map cacheUpload ++ ending c false true settings := by
    have hreset := Assessment.awaitsReset_of_idle
      (a := { target := t, found := true, pending, permanent }) hconfirm rfl rfl hmode
    rw [steps_of_stored hb hnone, hlimit, hreset]
  have hmade (pending permanent : Bool) := made_single hb h
    (Slot.put_ne_nil slots { t.stored version with pending, permanent })
  have hsent := hlater false false
  refine ⟨_, _, _, hmade false false, hmade true false, hmade true true, ?_, ?_, ?_, ?_⟩
  -- in each mode, the marks of the later plan are those of the earlier one that pass the filter
  · rw [hsent, hfirst, List.erase_cons_head, filter_steps (by simp) (by simp) (by simp)]
    cases mode <;> simp [Assessment.marks, Assessment.tests, Assessment.confirms, hconfirm]
  · rw [hlater, hsent, filter_steps (by simp) (by simp) (by simp)]
    cases mode <;> simp [Assessment.marks, Assessment.tests, Assessment.confirms, hconfirm]
  · rintro rfl
    rw [hlater, hsent, filter_steps (by simp) (by simp) (by simp)]
    simp [Assessment.marks, Assessment.confirms, hconfirm]
  · intro hne
    rw [hlater, hsent, filter_steps (by simp) (by simp) (by simp)]
    cases mode <;> simp_all [Assessment.marks, Assessment.tests, Assessment.confirms]

theorem steps_after_interruption_sample :
    ∃ sent tested confirmed : Report,
      Made Sample.single (Slot.put [Sample.running 0, Sample.stale 0]
        (Sample.application.stored "2.0")) {} .testAndConfirm { eraseSettings := true } sent ∧
      Made Sample.single (Slot.put [Sample.running 0, Sample.stale 0]
        { Sample.application.stored "2.0" with pending := true })
        {} .testAndConfirm { eraseSettings := true } tested ∧
      Made Sample.single (Slot.put [Sample.running 0, Sample.stale 0]
        { Sample.application.stored "2.0" with pending := true, permanent := true })
        {} .testAndConfirm { eraseSettings := true } confirmed ∧
      sent.steps = [.test [0xA1], .confirmAfterReset [0xA1], .upload [7] 3, .eraseStorage,
        .reset (.bool false)] ∧
      tested.steps = [.confirmAfterReset [0xA1], .upload [7] 3, .eraseStorage,
        .reset (.bool false)] ∧
      confirmed.steps = [.upload [7] 3, .eraseStorage, .reset (.bool false)] := by
  have hmade : Made Sample.single [Sample.running 0, Sample.stale 0] {} .testAndConfirm
      { eraseSettings := true } _ := Sample.made_single (List.cons_ne_nil _ _) _ _ _
  obtain ⟨sent, tested, confirmed, hsent, htested, hconfirmed, h₁, h₂, _, h₃⟩ :=
    steps_after_interruption (t := Sample.application) rfl rfl rfl (by decide) hmade (by decide)
      "2.0"
  refine ⟨sent, tested, confirmed, hsent, htested, hconfirmed, h₁, ?_, ?_⟩
  · rw [h₂, h₁]
    rfl
  · rw [h₃ (by decide), h₁]
    rfl

/-- A test that was not sent is not made up for where a confirmation was: an image that is to be
permanent is neither tested nor confirmed. -/
theorem test_not_planned_after_confirmation :
    ¬ ∀ (b : Bundle) (t : Target) (slots : List Slot) (c : Capabilities) (mode : UpgradeMode)
        (settings : Settings) (r sent confirmed : Report) (version : String),
      b.targets = [t] → t.image.needsConfirmation = true → c.reverts = true → mode ≠ .none →
      (slots.map Slot.place).Nodup → Made b slots c mode settings r →
      t.upload ∈ stepsFor slots c mode t →
      Made b (Slot.put slots (t.stored version)) c mode settings sent →
      Made b (Slot.put slots { t.stored version with pending := true, permanent := true })
        c mode settings confirmed →
      confirmed.steps = sent.steps.filter (· ≠ .confirm (some t.hash)) := by
  intro h
  have hsteps := h Sample.single Sample.application [Sample.running 0] {} .testAndConfirm {} _ _ _
    "2.0" rfl rfl rfl (by decide) (by decide) (Sample.made_single (List.cons_ne_nil _ _) _ _ _)
    (by decide) (Sample.made_single (Slot.put_ne_nil _ _) _ _ _)
    (Sample.made_single (Slot.put_ne_nil _ _) _ _ _)
  exact absurd hsteps (by decide)

theorem limit_eq_none (h : c.reverts = false ∨ mode = .none) : c.limit mode = .none := by
  unfold Capabilities.limit
  rcases h with h | h
  · rw [h, if_neg Bool.false_ne_true]
  · rw [h, ite_self]

/-- Where an image is only sent, an interruption between the upload and the reset is for good:
planning again finds the image and asks for no reset, so nothing is left but the cache images. -/
theorem no_reset_after_interruption (hb : b.targets = [t])
    (hconfirm : t.image.needsConfirmation = true) (honly : c.reverts = false ∨ mode = .none)
    (h : Made b slots c mode settings r) (hupload : t.upload ∈ stepsFor slots c mode t)
    (version : String) :
    .reset c.noSwap ∈ r.steps ∧
    ∃ sent, Made b (Slot.put slots (t.stored version)) c mode settings sent ∧
      sent.steps = b.caches.map cacheUpload ∧ .reset c.noSwap ∉ sent.steps := by
  obtain ⟨_, _, rfl⟩ := made_iff.mp h
  have hnone := (upload_mem_stepsFor.mp hupload).2
  have hlimit := limit_eq_none honly
  have hsent : (report b (Slot.put slots (t.stored version)) c mode settings).steps =
      b.caches.map cacheUpload := by
    refine (steps_of_stored hb hnone version false false).trans ?_
    rw [hlimit]
    simp [Assessment.marks, Assessment.awaitsReset, hconfirm, ending]
  refine ⟨?_, _, made_single hb h (Slot.put_ne_nil slots _), hsent, ?_⟩
  · rw [steps_of_upload hb hupload, hlimit]
    simp [Assessment.awaitsReset, hconfirm, ending]
  · rw [hsent]
    simp [cacheUpload]

theorem no_reset_after_interruption_sample :
    .reset (.bool false) ∈ (report Sample.single [Sample.running 0] {} .none {}).steps ∧
    ∃ sent, Made Sample.single (Slot.put [Sample.running 0] (Sample.application.stored "2.0"))
        {} .none {} sent ∧
      sent.steps = [.upload [7] 3] ∧ .reset (.bool false) ∉ sent.steps :=
  no_reset_after_interruption (t := Sample.application) rfl rfl (.inr rfl)
    (Sample.made_single (List.cons_ne_nil _ _) {} .none {}) (by decide) "2.0"

/-- An upgrade that only sends an image does not go on where it stopped: the plan asks for a reset,
and planning again before it was done asks for none. -/
theorem reset_not_planned_again :
    ¬ ∀ (b : Bundle) (t : Target) (slots : List Slot) (c : Capabilities) (mode : UpgradeMode)
        (settings : Settings) (r sent : Report) (version : String),
      b.targets = [t] → t.image.needsConfirmation = true → (slots.map Slot.place).Nodup →
      (c.reverts = false ∨ mode = .none) → Made b slots c mode settings r →
      t.upload ∈ stepsFor slots c mode t → .reset c.noSwap ∈ r.steps →
      Made b (Slot.put slots (t.stored version)) c mode settings sent →
      .reset c.noSwap ∈ sent.steps := by
  intro h
  have hreset := h Sample.single Sample.application [Sample.running 0] {} .none {} _ _ "2.0" rfl rfl
    (by decide) (.inr rfl) (Sample.made_single (List.cons_ne_nil _ _) {} .none {}) (by decide)
    (by decide) (Sample.made_single (Slot.put_ne_nil _ _) {} .none {})
  exact absurd hreset (by decide)

end Plan
end Reflash
