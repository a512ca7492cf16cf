import Mathlib.Data.List.Nodup
import Mathlib.Tactic.SplitIfs
import Reflash.Agenda

/-! The order in which an agenda hands out its steps. Tickets are numbered in the
order in which they come, so no two are equal for the order by priority and
number, and taking the first again and again gives the sorted list. Steps that
come into an empty agenda are handed out in order of their priority, and those
of one priority as they came. -/

namespace Reflash

namespace Ticket

def le (a b : Ticket) : Bool := !b.isBefore a

theorem isBefore_iff (a b : Ticket) :
    a.isBefore b = true ↔ a.step.priority < b.step.priority ∨
      a.step.priority = b.step.priority ∧ a.arrival < b.arrival := by
  simp [isBefore]

theorem le_iff (a b : Ticket) :
    le a b = true ↔ a.step.priority < b.step.priority ∨
      a.step.priority = b.step.priority ∧ a.arrival ≤ b.arrival := by
  rw [le, Bool.not_eq_true', ← Bool.not_eq_true, isBefore_iff]
  omega

theorem le_trans (a b c : Ticket) (hab : le a b = true) (hbc : le b c = true) : le a c = true := by
  rw [le_iff] at *
  omega

theorem le_total (a b : Ticket) : (le a b || le b a) = true := by
  rw [Bool.or_eq_true, le_iff, le_iff]
  omega

theorem arrival_eq_of_le {a b : Ticket} (hab : le a b = true) (hba : le b a = true) :
    a.arrival = b.arrival := by
  rw [le_iff] at *
  omega

theorem first?_eq_none {l : List Ticket} : first? l = none ↔ l = [] := by
  cases l with
  | nil => exact ⟨fun _ => rfl, fun _ => rfl⟩
  | cons t rest =>
    constructor
    · intro h
      unfold first? at h
      split at h
      · cases h
      · split at h <;> cases h
    · intro h
      cases h

theorem first?_eq_some {l others : List Ticket} {t : Ticket} (h : first? l = some (t, others)) :
    l.Perm (t :: others) ∧ others.Sublist l ∧ ∀ u ∈ others, le t u = true := by
  induction l generalizing t others with
  | nil => cases h
  | cons x rest ih =>
    unfold first? at h
    split at h
    next hnone =>
      cases h
      rw [first?_eq_none.mp hnone]
      exact ⟨.refl _, List.nil_sublist _, fun _ hu => absurd hu List.not_mem_nil⟩
    next u left hsome =>
      obtain ⟨hperm, hsub, hle⟩ := ih hsome
      split at h
      next hbefore =>
        cases h
        refine ⟨(hperm.cons x).trans (.swap ..), hsub.cons_cons x, ?_⟩
        intro v hv
        rcases List.mem_cons.mp hv with rfl | hv
        · rw [le_iff]
          rw [isBefore_iff] at hbefore
          omega
        · exact hle v hv
      next hbefore =>
        cases h
        have hxu : le x u = true := by rw [le, Bool.eq_false_iff.mpr hbefore, Bool.not_false]
        refine ⟨.refl _, List.sublist_cons_self .., ?_⟩
        intro v hv
        rcases List.mem_cons.mp (hperm.mem_iff.mp hv) with rfl | hv
        · exact hxu
        · exact le_trans x u v hxu (hle v hv)

theorem pairwise_mergeSort (l : List Ticket) :
    (l.mergeSort le).Pairwise fun a b => le a b = true :=
  List.pairwise_mergeSort le_trans le_total l

theorem mergeSort_of_first? {l others : List Ticket} {t : Ticket}
    (hdistinct : (l.map Ticket.arrival).Nodup) (h : first? l = some (t, others)) :
    l.mergeSort le = t :: others.mergeSort le := by
  obtain ⟨hperm, _, hle⟩ := first?_eq_some h
  have hperm' : (l.mergeSort le).Perm (t :: others.mergeSort le) :=
    (List.mergeSort_perm l le).trans (hperm.trans ((List.mergeSort_perm others le).symm.cons t))
  have hsorted : (t :: others.mergeSort le).Pairwise fun a b => le a b = true := by
    refine List.pairwise_cons.mpr ⟨?_, pairwise_mergeSort others⟩
    intro u hu
    exact hle u (List.mem_mergeSort.mp hu)
  refine List.Perm.eq_of_pairwise ?_ (pairwise_mergeSort l) hsorted hperm'
  intro a b ha hb hab hba
  have hb := List.mem_mergeSort.mp (hperm'.mem_iff.mpr hb)
  exact List.inj_on_of_nodup_map hdistinct (List.mem_mergeSort.mp ha) hb (arrival_eq_of_le hab hba)

end Ticket

namespace Agenda

structure Numbered (a : Agenda) : Prop where
  ordered : a.waiting.Pairwise fun t u => t.arrival < u.arrival
  below : ∀ t ∈ a.waiting, t.arrival < a.arrivals

theorem Numbered.nodup {a : Agenda} (h : Numbered a) : (a.waiting.map Ticket.arrival).Nodup :=
  List.pairwise_map.mpr (h.ordered.imp Nat.ne_of_lt)

theorem numbered_empty : Numbered {} := ⟨.nil, fun _ ht => absurd ht List.not_mem_nil⟩

theorem Numbered.enqueue {a : Agenda} (h : Numbered a) (step : Step) :
    Numbered (a.enqueue step) := by
  constructor
  · refine List.pairwise_append.mpr ⟨h.ordered, List.pairwise_singleton .., ?_⟩
    intro t ht u hu
    rw [List.mem_singleton.mp hu]
    exact h.below t ht
  · intro t ht
    rcases List.mem_append.mp ht with ht | ht
    · exact Nat.lt_succ_of_lt (h.below t ht)
    · rw [List.mem_singleton.mp ht]
      exact Nat.lt_succ_self _

theorem Numbered.sublist {a : Agenda} (h : Numbered a) {waiting : List Ticket}
    (hsub : waiting.Sublist a.waiting) (phase : Phase) : Numbered { a with waiting, phase } :=
  ⟨h.ordered.sublist hsub, fun t ht => h.below t (hsub.subset ht)⟩

theorem pending_of_waiting_nil {a : Agenda} (h : a.waiting = []) : a.pending = [] := by
  rw [pending, h, List.mergeSort_nil, List.map_nil]

theorem popUpTo_of_numbered (n : Nat) {a : Agenda} (h : Numbered a) (hsize : a.size ≤ n) :
    (popUpTo n a).1 = a.pending := by
  induction n generalizing a with
  | zero =>
    rw [pending_of_waiting_nil (List.eq_nil_of_length_eq_zero (Nat.le_zero.mp hsize)), popUpTo]
  | succ n ih =>
    cases hfirst : Ticket.first? a.waiting with
    | none =>
      rw [pending_of_waiting_nil (Ticket.first?_eq_none.mp hfirst)]
      simp only [popUpTo, pop, hfirst]
    | some found =>
      obtain ⟨t, others⟩ := found
      obtain ⟨hperm, hsub, _⟩ := Ticket.first?_eq_some hfirst
      have hlength : others.length ≤ n := by
        have := hperm.length_eq
        simp only [List.length_cons] at this
        rw [size, this] at hsize
        omega
      have hrest := ih (h.sublist hsub t.step.phase) hlength
      have hsort := Ticket.mergeSort_of_first? h.nodup hfirst
      simp only [popUpTo, pop, hfirst, hrest, pending]
      exact congrArg (List.map Ticket.step) hsort.symm

theorem drain_eq_pending {a : Agenda} (h : Numbered a) : a.drain.1 = a.pending :=
  popUpTo_of_numbered a.size h (Nat.le_refl _)

def ofSteps (steps : List Step) : Agenda := steps.foldl enqueue {}

theorem numbered_foldl (steps : List Step) {a : Agenda} (h : Numbered a) :
    Numbered (steps.foldl enqueue a) := by
  induction steps generalizing a with
  | nil => exact h
  | cons step steps ih => exact ih (h.enqueue step)

theorem waiting_foldl (steps : List Step) (a : Agenda) :
    (steps.foldl enqueue a).waiting =
      a.waiting ++ (steps.zipIdx a.arrivals).map fun p => ⟨p.2, p.1⟩ := by
  induction steps generalizing a with
  | nil => rw [List.foldl_nil, List.zipIdx_nil, List.map_nil, List.append_nil]
  | cons step steps ih =>
    rw [List.foldl_cons, ih, List.zipIdx_cons, List.map_cons]
    simp only [enqueue, List.append_assoc, List.singleton_append]

theorem waiting_ofSteps (steps : List Step) :
    (ofSteps steps).waiting = steps.zipIdx.map fun p => ⟨p.2, p.1⟩ :=
  waiting_foldl steps {}

theorem ticket_le_eq (p q : Step × Nat) :
    Ticket.le ⟨p.2, p.1⟩ ⟨q.2, q.1⟩ =
      List.zipIdxLE (fun s t => decide (s.priority ≤ t.priority)) p q := by
  rw [Bool.eq_iff_iff, Ticket.le_iff]
  simp only [List.zipIdxLE, decide_eq_true_eq]
  split_ifs
  all_goals simp only [decide_eq_true_eq, iff_true, iff_false]
  all_goals omega

theorem pending_ofSteps (steps : List Step) : (ofSteps steps).pending = Step.sorted steps := by
  have hsort := List.map_mergeSort (r := List.zipIdxLE fun s t => decide (s.priority ≤ t.priority))
    (s := Ticket.le) (f := fun p : Step × Nat => ⟨p.2, p.1⟩) (l := steps.zipIdx)
    fun p _ q _ => (ticket_le_eq p q).symm
  have hpending : (ofSteps steps).pending =
      ((steps.zipIdx.map fun p => ⟨p.2, p.1⟩).mergeSort Ticket.le).map Ticket.step := by
    rw [pending, waiting_ofSteps]
    rfl
  rw [hpending, ← hsort, List.map_map]
  exact List.mergeSort_zipIdx

theorem drain_ofSteps (steps : List Step) : (ofSteps steps).drain.1 = Step.sorted steps := by
  have hnumbered : Numbered (ofSteps steps) := numbered_foldl steps numbered_empty
  rw [drain_eq_pending hnumbered, pending_ofSteps]

theorem failure_foldl (steps : List Step) (a : Agenda) :
    (steps.foldl enqueue a).failure = a.failure := by
  induction steps generalizing a with
  | nil => rfl
  | cons step steps ih => exact ih (a.enqueue step)

theorem completed_foldl (steps : List Step) (a : Agenda) :
    (steps.foldl enqueue a).completed = a.completed := by
  induction steps generalizing a with
  | nil => rfl
  | cons step steps ih => exact ih (a.enqueue step)

theorem pending_foldl (steps : List Step) {a : Agenda} (hwaiting : a.waiting = [])
    (harrivals : a.arrivals = 0) : (steps.foldl enqueue a).pending = Step.sorted steps := by
  rw [← pending_ofSteps, pending, pending, waiting_foldl, waiting_ofSteps, hwaiting, harrivals,
    List.nil_append]

end Agenda

/-! ### Steps in the order in which they are taken -/

namespace Step

variable {steps first between before after : List Step} {s t : Step} {p : Step → Bool}

theorem sorted_perm (steps : List Step) : (sorted steps).Perm steps := List.mergeSort_perm ..

theorem sorted_eq_nil_iff : sorted steps = [] ↔ steps = [] := by
  rw [← List.length_eq_zero_iff, (sorted_perm steps).length_eq, List.length_eq_zero_iff]

theorem sorted_pairwise (steps : List Step) :
    (sorted steps).Pairwise fun s t => s.priority ≤ t.priority := by
  have hsorted : (sorted steps).Pairwise fun s t => decide (s.priority ≤ t.priority) = true :=
    List.pairwise_mergeSort (fun a b c => by simpa using Nat.le_trans)
      (fun a b => by simpa using Nat.le_total _ _) steps
  exact hsorted.imp of_decide_eq_true

theorem filter_sorted (steps : List Step) (n : Nat) :
    ((sorted steps).filter fun s => s.priority = n) = steps.filter fun s => s.priority = n := by
  have hpairwise : (steps.filter fun s => s.priority = n).Pairwise
      fun s t => decide (s.priority ≤ t.priority) = true := by
    apply List.pairwise_of_forall_mem_list
    intro s hs t ht
    have hs := of_decide_eq_true (List.mem_filter.mp hs).2
    have ht := of_decide_eq_true (List.mem_filter.mp ht).2
    exact decide_eq_true (Nat.le_of_eq (hs.trans ht.symm))
  have hsublist : (steps.filter fun s => s.priority = n).Sublist (sorted steps) :=
    List.sublist_mergeSort (fun a b c => by simpa using Nat.le_trans)
      (fun a b => by simpa using Nat.le_total _ _) hpairwise List.filter_sublist
  have hfiltered := hsublist.filter fun s => s.priority = n
  rw [List.filter_filter] at hfiltered
  simp only [Bool.and_self] at hfiltered
  exact (hfiltered.eq_of_length (((sorted_perm steps).filter _).length_eq.symm)).symm

structure IsStableSort (order steps : List Step) : Prop where
  perm : order.Perm steps
  sorted : order.Pairwise fun s t => s.priority ≤ t.priority
  stable : ∀ n, (order.filter fun s => s.priority = n) = steps.filter fun s => s.priority = n

theorem isStableSort_sorted (steps : List Step) : IsStableSort (sorted steps) steps :=
  ⟨sorted_perm steps, sorted_pairwise steps, filter_sorted steps⟩

theorem priority_around (h : sorted steps = before ++ s :: after) :
    (∀ x ∈ before, x.priority ≤ s.priority) ∧ ∀ x ∈ after, s.priority ≤ x.priority := by
  have hsorted := sorted_pairwise steps
  rw [h, List.pairwise_append, List.pairwise_cons] at hsorted
  exact ⟨fun x hx => hsorted.2.2 x hx s List.mem_cons_self, hsorted.2.1.1⟩

theorem mem_before (h : sorted steps = before ++ s :: after) {x : Step} (hx : x ∈ steps)
    (hlt : x.priority < s.priority) : x ∈ before := by
  have hmem : x ∈ before ++ s :: after := by rw [← h, (sorted_perm steps).mem_iff]; exact hx
  rcases List.mem_append.mp hmem with hbefore | hrest
  · exact hbefore
  · rcases List.mem_cons.mp hrest with rfl | hafter
    · exact absurd hlt (Nat.lt_irrefl _)
    · exact absurd ((priority_around h).2 x hafter) (Nat.not_le.mpr hlt)

theorem countP_sorted (h : sorted steps = before ++ s :: after) (p : Step → Bool) :
    steps.countP p = before.countP p + ((if p s then 1 else 0) + after.countP p) := by
  rw [← (sorted_perm steps).countP_eq p, h, List.countP_append, List.countP_cons, Nat.add_comm
    (after.countP p)]

theorem countP_before (h : sorted steps = before ++ s :: after)
    (hp : ∀ x, p x = true → x.priority < s.priority) : before.countP p = steps.countP p := by
  have hs : p s = false := Bool.eq_false_iff.mpr fun hs => Nat.lt_irrefl _ (hp s hs)
  have hafter : after.countP p = 0 := by
    apply List.countP_eq_zero.mpr
    intro x hx hpx
    exact absurd (hp x hpx) (Nat.not_lt.mpr ((priority_around h).2 x hx))
  rw [countP_sorted h p, hs, hafter]
  rfl

theorem countP_between (h : sorted steps = first ++ s :: between ++ t :: after)
    (hp : ∀ x, p x = true → x.priority ≠ s.priority ∧ x.priority < t.priority) :
    between.countP p = steps.countP fun x => p x && decide (s.priority < x.priority) := by
  have hfirst : sorted steps = first ++ s :: (between ++ t :: after) := by
    rw [h, List.append_assoc, List.cons_append]
  have hbefore := countP_before (p := fun x => p x && decide (s.priority < x.priority)) h
    fun x hx => (hp x (Bool.and_eq_true_iff.mp hx).1).2
  have hnone : (first ++ [s]).countP (fun x => p x && decide (s.priority < x.priority)) = 0 := by
    apply List.countP_eq_zero.mpr
    intro x hx hpx
    have hlt := of_decide_eq_true (Bool.and_eq_true_iff.mp hpx).2
    rcases List.mem_append.mp hx with hx | hx
    · exact absurd hlt (Nat.not_lt.mpr ((priority_around hfirst).1 x hx))
    · rw [List.mem_singleton.mp hx] at hlt
      exact Nat.lt_irrefl _ hlt
  rw [← hbefore, List.append_cons, List.countP_append, hnone, Nat.zero_add]
  apply List.countP_congr
  intro x hx
  have hle := (priority_around hfirst).2 x (List.mem_append_left _ hx)
  constructor
  · intro hpx
    rw [hpx, Bool.true_and]
    exact decide_eq_true (Nat.lt_of_le_of_ne hle (hp x hpx).1.symm)
  · intro hpx
    exact (Bool.and_eq_true_iff.mp hpx).1

end Step
end Reflash
