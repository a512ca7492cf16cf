import Reflash.Smp.Error
import Reflash.Step

/-! Rosters: lists of steps that are always kept in the order in which the steps are
taken. A new step goes behind all of at most its priority, and a step is taken from the
front. No step is taken twice, those of one priority are taken as they came, and without
a failure each step that came is taken or still waits. -/

namespace Reflash

namespace Agenda

inductive Call where
  | enqueue (step : Step)
  | pop
  | drain
  | pending
  | complete
  | fail (fault : Fault)

def Call.isFailure : Call → Bool
  | .fail _ => true
  | _ => false

inductive Answer where
  | done
  | refused (fault : Fault)
  | popped (step : Option Step)
  | drained (steps : List Step)
  | listed (steps : List Step)

def Call.run {σ : Type} (answer : σ → Call → Answer × σ) : σ → List Call → List Answer × σ
  | s, [] => ([], s)
  | s, call :: calls =>
    let rest := run answer (answer s call).2 calls
    ((answer s call).1 :: rest.1, rest.2)

def Answer.taken : Answer → List Step
  | .popped step => step.toList
  | .drained steps => steps
  | _ => []

def Call.added (admits : Step → Bool) : Call → List Step
  | .enqueue step => if admits step then [step] else []
  | _ => []

theorem run_append {σ : Type} (answer : σ → Call → Answer × σ) (s : σ) (before after : List Call) :
    (Call.run answer s (before ++ after)).2 =
      (Call.run answer (Call.run answer s before).2 after).2 := by
  induction before generalizing s with
  | nil => rfl
  | cons call before ih => exact ih _

end Agenda

open Agenda (Call Answer)

/-- An agenda without numbers: the steps are listed in the order in which they are taken. -/
structure Roster where
  steps : List Step := []
  phase : Phase := .none
  failure : Option Fault := none
  completed : Bool := false

namespace Roster

def insert (l : List Step) (step : Step) : List Step :=
  l.filter (fun s => s.priority ≤ step.priority) ++
    step :: l.filter fun s => step.priority < s.priority

def pop (r : Roster) : Roster :=
  match r.steps with
  | [] => r
  | step :: rest => { r with steps := rest, phase := step.phase }

def drain (r : Roster) : Roster :=
  { r with steps := [], phase := (r.steps.getLast?.map Step.phase).getD r.phase }

theorem drain_pop (r : Roster) : r.pop.drain = r.drain := by
  unfold pop
  split
  next => rfl
  next step rest h =>
    simp only [drain, h, List.getLast?_cons, Option.map_some, Option.getD_some]
    cases rest.getLast? <;> rfl

def answer (admits : Step → Bool) (r : Roster) : Call → Answer × Roster
  | .enqueue step =>
    if admits step then (.done, { r with steps := insert r.steps step })
    else (.refused .unwritable, r)
  | .pop => (.popped r.steps.head?, r.pop)
  | .drain => (.drained r.steps, r.drain)
  | .pending => (.listed r.steps, r)
  | .complete => (.done, { r with completed := true })
  | .fail fault => (.done, { r with failure := some fault, steps := [] })

end Roster

/-! ### What becomes of the steps -/

def Step.atPriority (n : Nat) (steps : List Step) : List Step :=
  steps.filter fun s => s.priority = n

theorem Step.atPriority_append (n : Nat) (l l' : List Step) :
    atPriority n (l ++ l') = atPriority n l ++ atPriority n l' :=
  List.filter_append ..

namespace Roster

open Step (atPriority atPriority_append)

variable (admits : Step → Bool)

theorem pairwise_insert {l : List Step} (h : l.Pairwise fun s t => s.priority ≤ t.priority)
    (step : Step) : (insert l step).Pairwise fun s t => s.priority ≤ t.priority := by
  refine List.pairwise_append.mpr ⟨h.filter _, List.pairwise_cons.mpr ⟨?_, h.filter _⟩, ?_⟩
  · intro t ht
    exact Nat.le_of_lt (of_decide_eq_true (List.mem_filter.mp ht).2)
  · intro s hs t ht
    have hs := of_decide_eq_true (List.mem_filter.mp hs).2
    rcases List.mem_cons.mp ht with rfl | ht
    · exact hs
    · exact Nat.le_trans hs (Nat.le_of_lt (of_decide_eq_true (List.mem_filter.mp ht).2))

theorem pairwise_answer {r : Roster} (h : r.steps.Pairwise fun s t => s.priority ≤ t.priority)
    (call : Call) :
    (r.answer admits call).2.steps.Pairwise fun s t => s.priority ≤ t.priority := by
  cases call with
  | enqueue step =>
    rw [answer]
    split
    · exact pairwise_insert h step
    · exact h
  | pop =>
    change r.pop.steps.Pairwise _
    unfold pop
    split
    next => exact h
    next step rest hsteps =>
      rw [hsteps] at h
      exact (List.pairwise_cons.mp h).2
  | drain | fail => exact .nil
  | pending | complete => exact h

theorem pairwise_run {r : Roster} (h : r.steps.Pairwise fun s t => s.priority ≤ t.priority)
    (calls : List Call) :
    (Call.run (answer admits) r calls).2.steps.Pairwise fun s t => s.priority ≤ t.priority := by
  induction calls generalizing r with
  | nil => exact h
  | cons call calls ih => exact ih (pairwise_answer admits h call)

theorem atPriority_filter (n : Nat) (l : List Step) (p : Nat → Bool) :
    atPriority n (l.filter fun s => p s.priority) = if p n then atPriority n l else [] := by
  rw [atPriority, List.filter_filter]
  split
  · apply List.filter_congr
    grind
  · apply List.filter_eq_nil_iff.mpr
    grind

theorem atPriority_insert (n : Nat) (l : List Step) (step : Step) :
    atPriority n (insert l step) = atPriority n (l ++ [step]) := by
  have hbefore := atPriority_filter n l fun m => decide (m ≤ step.priority)
  have hafter := atPriority_filter n l fun m => decide (step.priority < m)
  have hinsert : atPriority n (insert l step) =
      atPriority n (l.filter fun s => s.priority ≤ step.priority) ++ (atPriority n [step] ++
        atPriority n (l.filter fun s => step.priority < s.priority)) := by
    rw [← atPriority_append, ← atPriority_append]
    rfl
  rw [hinsert, hbefore, hafter, atPriority_append]
  by_cases hle : n ≤ step.priority
  · simp [hle, Nat.not_lt.mpr hle]
  · have hother : atPriority n [step] = [] := by
      rw [atPriority, List.filter_cons_of_neg (by simp; omega), List.filter_nil]
    simp [hle, Nat.lt_of_not_le hle, hother]

theorem atPriority_answer (n : Nat) (r : Roster) {call : Call} (h : call.isFailure = false) :
    atPriority n ((r.answer admits call).1.taken ++ (r.answer admits call).2.steps) =
      atPriority n (r.steps ++ call.added admits) := by
  cases call with
  | enqueue step =>
    rw [answer, Call.added]
    cases admits step with
    | false => exact congrArg _ (List.append_nil _).symm
    | true => exact atPriority_insert n r.steps step
  | pop =>
    have hpop : r.steps.head?.toList ++ r.pop.steps = r.steps := by
      unfold pop
      cases hsteps : r.steps with
      | nil => exact hsteps
      | cons step rest => rfl
    exact congrArg _ (hpop.trans (List.append_nil _).symm)
  | drain => rfl
  | pending | complete => exact congrArg _ (List.append_nil _).symm
  | fail fault => cases h

theorem sublist_answer (n : Nat) (r : Roster) (call : Call) :
    (atPriority n ((r.answer admits call).1.taken ++ (r.answer admits call).2.steps)).Sublist
      (atPriority n (r.steps ++ call.added admits)) := by
  cases hfailure : call.isFailure with
  | false => exact atPriority_answer admits n r hfailure ▸ List.Sublist.refl _
  | true =>
    cases call with
    | fail fault => exact List.nil_sublist _
    | _ => cases hfailure

theorem atPriority_run (n : Nat) (r : Roster) {calls : List Call}
    (h : ∀ call ∈ calls, call.isFailure = false) :
    atPriority n ((Call.run (answer admits) r calls).1.flatMap Answer.taken ++
        (Call.run (answer admits) r calls).2.steps) =
      atPriority n (r.steps ++ calls.flatMap (Call.added admits)) := by
  induction calls generalizing r with
  | nil => exact congrArg _ (List.append_nil _).symm
  | cons call calls ih =>
    have hcall := atPriority_answer admits n r (h call List.mem_cons_self)
    have hcalls := ih (r.answer admits call).2 fun x hx => h x (List.mem_cons_of_mem _ hx)
    simp only [atPriority_append] at hcall hcalls
    simp only [Call.run, List.flatMap_cons, atPriority_append, List.append_assoc]
    rw [hcalls, ← List.append_assoc, hcall, List.append_assoc]

theorem sublist_run (n : Nat) (r : Roster) (calls : List Call) :
    (atPriority n ((Call.run (answer admits) r calls).1.flatMap Answer.taken ++
        (Call.run (answer admits) r calls).2.steps)).Sublist
      (atPriority n (r.steps ++ calls.flatMap (Call.added admits))) := by
  induction calls generalizing r with
  | nil =>
    rw [List.flatMap_nil, List.append_nil]
    exact List.Sublist.refl _
  | cons call calls ih =>
    have hcall := sublist_answer admits n r call
    have hcalls := ih (r.answer admits call).2
    simp only [atPriority_append] at hcall hcalls
    simp only [Call.run, List.flatMap_cons, atPriority_append, List.append_assoc]
    refine (hcalls.append_left _).trans ?_
    rw [← List.append_assoc, ← List.append_assoc]
    exact hcall.append_right _

variable {admits}

theorem run_eq_run_iff (r : Roster) (calls : List Call) :
    (Call.run (answer admits) r calls).1 = (Call.run (answer fun _ => true) r calls).1 ↔
      ∀ step, .enqueue step ∈ calls → admits step = true := by
  induction calls generalizing r with
  | nil => simp [Call.run]
  | cons call calls ih =>
    by_cases hturned : ∃ step, call = .enqueue step ∧ admits step = false
    · obtain ⟨step, rfl, hadmits⟩ := hturned
      have hanswer : r.answer admits (.enqueue step) = (.refused .unwritable, r) := by
        rw [answer, hadmits, if_neg Bool.false_ne_true]
      constructor
      · intro heq
        rw [Call.run, Call.run, hanswer] at heq
        cases (List.cons.inj heq).1
      · intro hall
        rw [hall step List.mem_cons_self] at hadmits
        cases hadmits
    · have hstep : ∀ step, call = .enqueue step → admits step = true := by
        intro step heq
        cases hadmits : admits step with
        | true => rfl
        | false => exact absurd ⟨step, heq, hadmits⟩ hturned
      have hanswer : r.answer admits call = r.answer (fun _ => true) call := by
        cases call with
        | enqueue step => rw [answer, answer, hstep step rfl]
        | _ => rfl
      simp only [Call.run, hanswer, List.cons.injEq, true_and, ih, List.mem_cons]
      constructor
      · rintro hall step (heq | hmem)
        · exact hstep step heq.symm
        · exact hall step hmem
      · exact fun hall step hmem => hall step (.inr hmem)

end Roster

end Reflash
