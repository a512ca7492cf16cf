import Mathlib.Data.List.Induction
import Mathlib.Data.List.Nodup
import Reflash.Proofs.Plan

/-! What a bundle holds after any edits. Of the targets that were given and not taken
away since, the first for each slot stays, in the order in which they were given; a
later one for the same slot is refused and leaves no trace. A copy, which adds
everything once more, is the bundle itself, so a plan for a copy fails for no reason
of the bundle: only a number that is too long to write stops it. -/

namespace Reflash

section FirstOccurrence

variable {α : Type} [DecidableEq α]

theorem idxOf_lt_of_filter {p : α → Bool} {x y : α} (hx : p x = true) (hy : p y = true)
    {l : List α} (h : (l.filter p).idxOf x < (l.filter p).idxOf y) : l.idxOf x < l.idxOf y := by
  induction l with
  | nil => exact absurd h (Nat.lt_irrefl 0)
  | cons z l ih =>
    cases hz : p z with
    | true =>
      rw [List.filter_cons_of_pos hz] at h
      by_cases hzy : z = y
      · subst hzy
        rw [List.idxOf_cons_self] at h
        exact absurd h (Nat.not_lt_zero _)
      by_cases hzx : z = x
      · rw [hzx, List.idxOf_cons_self, List.idxOf_cons_ne _ (hzx ▸ hzy)]
        exact Nat.succ_pos _
      · rw [List.idxOf_cons_ne _ hzx, List.idxOf_cons_ne _ hzy] at h ⊢
        exact Nat.succ_lt_succ (ih (Nat.lt_of_succ_lt_succ h))
    | false =>
      rw [List.filter_cons_of_neg (by simp [hz])] at h
      have hzx : z ≠ x := by
        rintro rfl
        exact Bool.false_ne_true (hz.symm.trans hx)
      have hzy : z ≠ y := by
        rintro rfl
        exact Bool.false_ne_true (hz.symm.trans hy)
      rw [List.idxOf_cons_ne _ hzx, List.idxOf_cons_ne _ hzy]
      exact Nat.succ_lt_succ (ih h)

theorem pairwise_idxOf_eraseDups : ∀ l : List α,
    l.eraseDups.Pairwise fun x y => l.idxOf x < l.idxOf y
  | [] => .nil
  | a :: l => by
    rw [List.eraseDups_cons, List.pairwise_cons]
    have hkept {x : α} (hx : x ∈ (l.filter fun y => !y == a).eraseDups) : (!x == a) = true :=
      (List.mem_filter.mp (List.mem_eraseDups.mp hx)).2
    have hne {x : α} (hx : x ∈ (l.filter fun y => !y == a).eraseDups) : a ≠ x := by
      rintro rfl
      simpa using hkept hx
    constructor
    · intro x hx
      rw [List.idxOf_cons_self, List.idxOf_cons_ne _ (hne hx)]
      exact Nat.succ_pos _
    · refine (pairwise_idxOf_eraseDups (l.filter fun y => !y == a)).imp_of_mem ?_
      intro x y hx hy hlt
      rw [List.idxOf_cons_ne _ (hne hx), List.idxOf_cons_ne _ (hne hy)]
      exact Nat.succ_lt_succ (idxOf_lt_of_filter (p := fun y => !y == a) (hkept hx) (hkept hy) hlt)
termination_by l => l.length
decreasing_by exact Nat.lt_succ_of_le (List.length_filter_le _ _)

end FirstOccurrence

namespace Bundle

variable {b result : Bundle} {t : Target} {targets : List Target} {caches : List CacheImage}

theorem eq_of_lists (htargets : b.targets = result.targets) (hcaches : b.caches = result.caches) :
    b = result := by
  cases b
  cases result
  cases htargets
  cases hcaches
  rfl

/-! ### One edit -/

theorem add_of_taken (h : t.destination ∈ b.targets.map Target.destination) :
    b.add t = .error ⟨t.core, t.slot⟩ := by
  rw [add, dif_pos h]

theorem add_of_free (h : t.destination ∉ b.targets.map Target.destination) :
    ∃ result, b.add t = .ok result ∧ result.targets = b.targets ++ [t] ∧
      result.caches = b.caches := by
  rw [add, dif_neg h]
  exact ⟨_, rfl, rfl, rfl⟩

theorem foldlM_add_eq_ok : targets.foldlM add b = .ok result ↔
    result.targets = b.targets ++ targets ∧ result.caches = b.caches := by
  induction targets generalizing b with
  | nil =>
    rw [List.foldlM_nil, List.append_nil]
    constructor
    · rintro ⟨⟩
      exact ⟨rfl, rfl⟩
    · rintro ⟨htargets, hcaches⟩
      rw [eq_of_lists htargets hcaches]
      rfl
  | cons t rest ih =>
    rw [List.foldlM_cons]
    by_cases htaken : t.destination ∈ b.targets.map Target.destination
    · rw [add_of_taken htaken]
      refine iff_of_false nofun ?_
      rintro ⟨htargets, _⟩
      have hdistinct := result.distinct
      rw [htargets, List.map_append, List.map_cons] at hdistinct
      exact (List.disjoint_of_nodup_append hdistinct) htaken List.mem_cons_self
    · obtain ⟨next, hadd, htargets, hcaches⟩ := add_of_free htaken
      rw [hadd]
      change rest.foldlM add next = .ok result ↔ _
      rw [ih, htargets, hcaches, List.append_assoc]
      rfl

theorem ofLists_eq_ok :
    ofLists targets caches = .ok result ↔ result.targets = targets ∧ result.caches = caches :=
  foldlM_add_eq_ok

theorem copy_eq (b : Bundle) : b.copy = .ok b := ofLists_eq_ok.mpr ⟨rfl, rfl⟩

theorem exists_ofLists_iff :
    (∃ result, ofLists targets caches = .ok result) ↔
      (targets.map Target.destination).Nodup := by
  constructor
  · rintro ⟨result, h⟩
    rw [← (ofLists_eq_ok.mp h).1]
    exact result.distinct
  · exact fun h => ⟨⟨targets, caches, h⟩, ofLists_eq_ok.mpr ⟨rfl, rfl⟩⟩

inductive Edit where
  | construct (targets : List Target) (caches : List CacheImage)
  | add (t : Target)
  | addCache (c : CacheImage)
  | removeCore (core : Int)
  | copy

namespace Edit

def addImage (image : Image) (core : Int := 0) (slot : Int := secondarySlot) : Edit :=
  .add { core, image, slot }

def apply : Edit → Bundle → Except Duplicate Bundle
  | construct targets caches, _ => ofLists targets caches
  | add t, b => b.add t
  | addCache c, b => .ok (b.addCache c)
  | removeCore core, b => .ok (b.withoutCores [core])
  | copy, b => b.copy

def after (e : Edit) (b : Bundle) : Bundle :=
  match e.apply b with
  | .ok result => result
  | .error _ => b

def restarts : Edit → Bool
  | construct targets _ => (targets.map Target.destination).Nodup
  | _ => false

def givenTargets : Edit → List Target
  | construct targets caches => if (construct targets caches).restarts then targets else []
  | add t => [t]
  | _ => []

def givenCaches : Edit → List CacheImage
  | construct targets caches => if (construct targets caches).restarts then caches else []
  | addCache c => [c]
  | _ => []

def takesAway (e : Edit) (t : Target) : Bool :=
  match e with
  | removeCore core => t.core = core
  | e => e.restarts

end Edit

def afterAll (edits : List Edit) (b : Bundle := empty) : Bundle :=
  edits.foldl (fun b e => e.after b) b

/-! ### What remains of what was given -/

def remaining {α : Type} (given : Edit → List α) (takes : Edit → α → Bool) : List Edit → List α
  | [] => []
  | e :: later =>
    ((given e).filter fun x => !later.any fun l => takes l x) ++ remaining given takes later

def standing : List Edit → List Target := remaining Edit.givenTargets Edit.takesAway

def standingCaches : List Edit → List CacheImage :=
  remaining Edit.givenCaches fun e _ => e.restarts

def firsts : List Target → List Target
  | [] => []
  | t :: rest => t :: (firsts rest).filter fun s => s.destination ≠ t.destination

theorem remaining_concat {α : Type} (given : Edit → List α) (takes : Edit → α → Bool)
    (edits : List Edit) (e : Edit) :
    remaining given takes (edits ++ [e]) =
      ((remaining given takes edits).filter fun x => !takes e x) ++ given e := by
  induction edits with
  | nil => simp [remaining]
  | cons first later ih =>
    rw [List.cons_append, remaining, remaining, ih, List.filter_append, List.filter_filter,
      List.append_assoc]
    simp [Bool.and_comm]

theorem sublist_remaining {α : Type} (given : Edit → List α) (takes : Edit → α → Bool)
    (edits : List Edit) : (remaining given takes edits).Sublist (edits.flatMap given) := by
  induction edits with
  | nil => exact .slnil
  | cons e later ih => exact List.filter_sublist.append ih

theorem sublist_firsts (l : List Target) : (firsts l).Sublist l := by
  induction l with
  | nil => exact .slnil
  | cons t rest ih => exact (List.filter_sublist.trans ih).cons_cons t

theorem mem_map_firsts {l : List Target} {place : Int × Int} :
    place ∈ (firsts l).map Target.destination ↔ place ∈ l.map Target.destination := by
  induction l with
  | nil => rfl
  | cons t rest ih =>
    by_cases h : place = t.destination
    · simp [firsts, h]
    · have hrest : place ∈ ((firsts rest).filter fun s => s.destination ≠ t.destination).map
          Target.destination ↔ place ∈ (firsts rest).map Target.destination := by
        simp only [List.mem_map, List.mem_filter, decide_eq_true_eq]
        constructor
        · rintro ⟨s, ⟨hs, _⟩, rfl⟩
          exact ⟨s, hs, rfl⟩
        · rintro ⟨s, hs, rfl⟩
          exact ⟨s, ⟨hs, h⟩, rfl⟩
      rw [firsts, List.map_cons, List.map_cons, List.mem_cons, List.mem_cons, hrest, ih]

theorem firsts_of_nodup {l : List Target} (h : (l.map Target.destination).Nodup) :
    firsts l = l := by
  induction l with
  | nil => rfl
  | cons t rest ih =>
    rw [List.map_cons, List.nodup_cons] at h
    rw [firsts, ih h.2, List.filter_eq_self.mpr]
    intro s hs
    exact decide_eq_true fun heq => h.1 (heq ▸ List.mem_map_of_mem hs)

theorem firsts_concat_of_free {l : List Target}
    (h : t.destination ∉ l.map Target.destination) : firsts (l ++ [t]) = firsts l ++ [t] := by
  induction l with
  | nil => rfl
  | cons first rest ih =>
    rw [List.map_cons, List.mem_cons, not_or] at h
    have hkept : [t].filter (fun s => s.destination ≠ first.destination) = [t] := by simp [h.1]
    rw [List.cons_append, firsts, ih h.2, List.filter_append, hkept, firsts, List.cons_append]

theorem firsts_concat_of_taken {l : List Target}
    (h : t.destination ∈ l.map Target.destination) : firsts (l ++ [t]) = firsts l := by
  induction l with
  | nil => cases h
  | cons first rest ih =>
    rw [List.cons_append, firsts, firsts]
    by_cases hrest : t.destination ∈ rest.map Target.destination
    · rw [ih hrest]
    · have hfirst : t.destination = first.destination := by
        rw [List.map_cons, List.mem_cons] at h
        exact h.resolve_right hrest
      have hdropped : [t].filter (fun s => s.destination ≠ first.destination) = [] := by
        simp [hfirst]
      rw [firsts_concat_of_free hrest, List.filter_append, hdropped, List.append_nil]

theorem firsts_filter {p : Target → Bool}
    (hp : ∀ s t : Target, s.destination = t.destination → p s = p t) (l : List Target) :
    firsts (l.filter p) = (firsts l).filter p := by
  induction l with
  | nil => rfl
  | cons t rest ih =>
    cases ht : p t with
    | true =>
      rw [List.filter_cons_of_pos ht, firsts, firsts, List.filter_cons_of_pos ht, ih,
        List.filter_comm]
    | false =>
      -- whatever passes has another slot, so the first filter is idle
      have hother : (firsts rest).filter p =
          ((firsts rest).filter fun s => s.destination ≠ t.destination).filter p := by
        rw [List.filter_filter]
        refine List.filter_congr fun s _ => ?_
        cases hs : p s with
        | false => rfl
        | true =>
          have hne : s.destination ≠ t.destination := fun heq =>
            Bool.false_ne_true (ht.symm.trans ((hp s t heq).symm.trans hs))
          exact (decide_eq_true hne).symm
      rw [List.filter_cons_of_neg (by simp [ht]), firsts, List.filter_cons_of_neg (by simp [ht]),
        ih, hother]

/-! ### Runs -/

theorem after_of_ok {e : Edit} (h : e.apply b = .ok result) : e.after b = result := by
  rw [Edit.after, h]

theorem after_of_error {e : Edit} {d : Duplicate} (h : e.apply b = .error d) : e.after b = b := by
  rw [Edit.after, h]

theorem after_construct (b : Bundle) (targets : List Target) (caches : List CacheImage) :
    ((Edit.construct targets caches).restarts = true ∧
      ((Edit.construct targets caches).after b).targets = targets ∧
      ((Edit.construct targets caches).after b).caches = caches) ∨
    ((Edit.construct targets caches).restarts = false ∧
      (Edit.construct targets caches).after b = b) := by
  cases h : ofLists targets caches with
  | ok result =>
    rw [after_of_ok (e := .construct targets caches) h]
    exact .inl ⟨decide_eq_true (exists_ofLists_iff.mp ⟨result, h⟩), ofLists_eq_ok.mp h⟩
  | error d =>
    refine .inr ⟨decide_eq_false fun hdistinct => ?_,
      after_of_error (e := .construct targets caches) h⟩
    obtain ⟨result, hok⟩ := exists_ofLists_iff.mpr hdistinct
    cases h.symm.trans hok

theorem targets_after {given : List Target} (h : b.targets = firsts given) (e : Edit) :
    (e.after b).targets = firsts ((given.filter fun t => !e.takesAway t) ++ e.givenTargets) := by
  have hkept : given.filter (fun _ => !false) = given := List.filter_eq_self.mpr fun _ _ => rfl
  cases e with
  | construct targets caches =>
    rcases after_construct b targets caches with
      ⟨hrestarts, htargets, _⟩ | ⟨hrestarts, hafter⟩
    · simp only [htargets, Edit.takesAway, Edit.givenTargets, hrestarts, Bool.not_true,
        List.filter_false, List.nil_append, if_true]
      exact (firsts_of_nodup (of_decide_eq_true hrestarts)).symm
    · simp only [hafter, Edit.takesAway, Edit.givenTargets, hrestarts, Bool.false_eq_true, if_false,
        hkept, List.append_nil, h]
  | add t =>
    change ((Edit.add t).after b).targets = firsts (given.filter (fun _ => !false) ++ [t])
    have hplaces : t.destination ∈ b.targets.map Target.destination ↔
        t.destination ∈ given.map Target.destination := h ▸ mem_map_firsts
    rw [hkept]
    by_cases htaken : t.destination ∈ b.targets.map Target.destination
    · rw [after_of_error (e := .add t) (add_of_taken htaken),
        firsts_concat_of_taken (hplaces.mp htaken), h]
    · obtain ⟨result, hadd, htargets, _⟩ := add_of_free htaken
      rw [after_of_ok (e := .add t) hadd, htargets, h,
        firsts_concat_of_free fun hmem => htaken (hplaces.mpr hmem)]
  | addCache c =>
    change b.targets = firsts (given.filter (fun _ => !false) ++ [])
    rw [hkept, List.append_nil, h]
  | removeCore core =>
    have hcontains (t : Target) : (!List.contains [core] t.core) = !decide (t.core = core) := by
      simp
    change b.targets.filter (fun t => !List.contains [core] t.core) =
      firsts (given.filter (fun t => !decide (t.core = core)) ++ [])
    rw [List.append_nil, firsts_filter, h]
    · exact List.filter_congr fun t _ => hcontains t
    · intro s t hplace
      have hcore : s.core = t.core := congrArg Prod.fst hplace
      rw [hcore]
  | copy =>
    change (Edit.copy.after b).targets = firsts (given.filter (fun _ => !false) ++ [])
    rw [after_of_ok (e := .copy) b.copy_eq, hkept, List.append_nil, h]

theorem caches_after (e : Edit) :
    (e.after b).caches = (b.caches.filter fun _ => !e.restarts) ++ e.givenCaches := by
  have hkept : b.caches.filter (fun _ => !false) = b.caches :=
    List.filter_eq_self.mpr fun _ _ => rfl
  cases e with
  | construct targets caches =>
    rcases after_construct b targets caches with
      ⟨hrestarts, _, hcaches⟩ | ⟨hrestarts, hafter⟩
    · simp only [hcaches, Edit.givenCaches, hrestarts, Bool.not_true, List.filter_false,
        List.nil_append, if_true]
    · simp only [hafter, Edit.givenCaches, hrestarts, Bool.false_eq_true, if_false, hkept,
        List.append_nil]
  | add t =>
    change ((Edit.add t).after b).caches = b.caches.filter (fun _ => !false) ++ []
    rw [hkept, List.append_nil]
    by_cases htaken : t.destination ∈ b.targets.map Target.destination
    · rw [after_of_error (e := .add t) (add_of_taken htaken)]
    · obtain ⟨result, hadd, _, hcaches⟩ := add_of_free htaken
      rw [after_of_ok (e := .add t) hadd, hcaches]
  | addCache c =>
    change b.caches ++ [c] = b.caches.filter (fun _ => !false) ++ [c]
    rw [hkept]
  | removeCore core =>
    change b.caches = b.caches.filter (fun _ => !false) ++ []
    rw [hkept, List.append_nil]
  | copy =>
    change (Edit.copy.after b).caches = b.caches.filter (fun _ => !false) ++ []
    rw [after_of_ok (e := .copy) b.copy_eq, hkept, List.append_nil]

theorem afterAll_concat (edits : List Edit) (e : Edit) :
    afterAll (edits ++ [e]) = e.after (afterAll edits) := by
  rw [afterAll, List.foldl_concat, afterAll]

theorem afterAll_removeCore (cores : List Int) :
    afterAll (cores.map Edit.removeCore) b = b.withoutCores cores := by
  induction cores generalizing b with
  | nil => exact eq_of_lists (List.filter_eq_self.mpr fun _ _ => rfl).symm rfl
  | cons core rest ih =>
    have hfirst : afterAll ((core :: rest).map Edit.removeCore) b =
        afterAll (rest.map Edit.removeCore) (b.withoutCores [core]) := rfl
    rw [hfirst, ih]
    refine eq_of_lists ?_ rfl
    change (b.targets.filter _).filter _ = b.targets.filter _
    rw [List.filter_filter]
    exact List.filter_congr fun t _ => by simp [Bool.and_comm]

theorem targets_afterAll (edits : List Edit) :
    (afterAll edits).targets = firsts (standing edits) := by
  induction edits using List.reverseRecOn with
  | nil => rfl
  | append_singleton edits e ih =>
    rw [afterAll_concat, targets_after ih, standing, remaining_concat]

theorem caches_afterAll (edits : List Edit) :
    (afterAll edits).caches = standingCaches edits := by
  induction edits using List.reverseRecOn with
  | nil => rfl
  | append_singleton edits e ih =>
    rw [afterAll_concat, caches_after, ih, standingCaches, remaining_concat]

/-- What a bundle holds after these edits, and how it answers the next. -/
structure Keeps (edits : List Edit) (b : Bundle) : Prop where
  distinct : (b.targets.map Target.destination).Nodup
  targets : b.targets = firsts (standing edits)
  targets_sublist : b.targets.Sublist (edits.flatMap Edit.givenTargets)
  caches : b.caches = standingCaches edits
  caches_sublist : b.caches.Sublist (edits.flatMap Edit.givenCaches)
  mem_cores : ∀ core, core ∈ b.cores ↔ ∃ t ∈ b.targets, t.core = core
  cores_nodup : b.cores.Nodup
  cores_in_order : b.cores.Pairwise fun x y =>
    (b.targets.map Target.core).idxOf x < (b.targets.map Target.core).idxOf y
  refused : ∀ t, t.destination ∈ b.targets.map Target.destination →
    b.add t = .error ⟨t.core, t.slot⟩ ∧ afterAll (edits ++ [.add t]) = b
  added : ∀ t, t.destination ∉ b.targets.map Target.destination →
    ∃ result, b.add t = .ok result ∧ afterAll (edits ++ [.add t]) = result ∧
      result.targets = b.targets ++ [t] ∧ result.caches = b.caches
  copied : b.copy = .ok b

theorem keeps_run (edits : List Edit) : Keeps edits (afterAll edits) where
  distinct := (afterAll edits).distinct
  targets := targets_afterAll edits
  targets_sublist := by
    rw [targets_afterAll]
    exact (sublist_firsts _).trans (sublist_remaining _ _ edits)
  caches := caches_afterAll edits
  caches_sublist := by
    rw [caches_afterAll]
    exact sublist_remaining _ _ edits
  mem_cores core := by rw [cores, List.mem_eraseDups, List.mem_map]
  cores_nodup := (pairwise_idxOf_eraseDups _).imp fun hlt => by
    rintro rfl
    exact Nat.lt_irrefl _ hlt
  cores_in_order := pairwise_idxOf_eraseDups _
  refused t htaken := by
    refine ⟨add_of_taken htaken, ?_⟩
    rw [afterAll_concat]
    exact after_of_error (e := .add t) (add_of_taken htaken)
  added t hfree := by
    obtain ⟨result, hadd, hlists⟩ := add_of_free hfree
    refine ⟨result, hadd, ?_, hlists⟩
    rw [afterAll_concat]
    exact after_of_ok (e := .add t) hadd
  copied := copy_eq _

/-- Whatever is done with a bundle, each slot has one target at most, and the first that was given
for it. A copy is the bundle itself, so the one reason for which no plan is made of a copy is a
number that is too long to write. -/
theorem first_for_each_slot (edits : List Edit) (slots : Option (List Slot)) (c : Capabilities)
    (mode : UpgradeMode) (settings : Settings) :
    Keeps edits (afterAll edits) ∧
    ∃ copied, (afterAll edits).copy = .ok copied ∧
      ((∃ r, (Plan.make copied slots c mode settings).1 = .ok r) ↔
        slots.getD [] = [] ∨ Plan.isWritable (afterAll edits) (slots.getD []) = true) ∧
      (∀ r, (Plan.make copied slots c mode settings).1 = .ok r → slots.getD [] ≠ [] →
        r.targets = (afterAll (r.upToDate.map Edit.removeCore) copied).targets) ∧
      ∀ fault, (Plan.make copied slots c mode settings).1 = .error fault →
        fault = .unwritable := by
  obtain ⟨hmade, hreport, hfault⟩ :=
    Plan.make_outcome (afterAll edits) slots c mode settings
  refine ⟨keeps_run edits, afterAll edits, copy_eq _, hmade, ?_, hfault⟩
  intro r hr hslots
  rw [hreport r hr hslots, afterAll_removeCore]
  rfl

namespace Sample

def edits : List Edit :=
  [.add Plan.Sample.application, .add { Plan.Sample.network with core := 0 }, .addCache ⟨3, [7]⟩,
    Edit.addImage (Plan.Sample.image 0xC3) 1, .removeCore 0,
    .add { Plan.Sample.network with core := 0 },
    .construct [Plan.Sample.application, Plan.Sample.application] [], .copy]

end Sample

theorem first_for_each_slot_edited :
    Keeps Sample.edits (afterAll Sample.edits) ∧
    (afterAll Sample.edits).targets =
      [{ core := 1, image := Plan.Sample.image 0xC3 }, { Plan.Sample.network with core := 0 }] ∧
    (afterAll Sample.edits).caches = [⟨3, [7]⟩] ∧ (afterAll Sample.edits).cores = [1, 0] ∧
    ∃ r, (Plan.make (afterAll Sample.edits) (some [Plan.Sample.running 0]) {} .confirmOnly {}).1 =
      .ok r := by
  obtain ⟨hkeeps, copied, hcopy, hmade, _⟩ :=
    first_for_each_slot Sample.edits (some [Plan.Sample.running 0]) {} .confirmOnly {}
  have hsame : copied = afterAll Sample.edits := Except.ok.inj (hcopy.symm.trans hkeeps.copied)
  refine ⟨hkeeps, by decide +kernel, by decide +kernel, by decide +kernel, ?_⟩
  rw [← hsame]
  exact hmade.mpr (.inr (by decide +kernel))

/-- Too long a slot number stops a plan of a bundle that holds nothing twice. -/
theorem plan_stopped_by_slot :
    ¬ ∀ (edits : List Edit) (slots : Option (List Slot)) (c : Capabilities) (mode : UpgradeMode)
        (settings : Settings),
      ∃ r, (Plan.make (afterAll edits) slots c mode settings).1 = .ok r := by
  intro h
  obtain ⟨r, hr⟩ := h
    [.add { Plan.Sample.application with slot := Nat.pow 10 Decimal.maxDigits }]
    (some [Plan.Sample.running 0]) {} .confirmOnly {}
  have hstopped : (Plan.make (afterAll
      [.add { Plan.Sample.application with slot := Nat.pow 10 Decimal.maxDigits }])
      (some [Plan.Sample.running 0]) {} .confirmOnly {}).1.isOk = false := by
    decide +kernel
  rw [hr] at hstopped
  cases hstopped

end Bundle
end Reflash
