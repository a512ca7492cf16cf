import Reflash.Proofs.Agenda
import Reflash.Proofs.Agenda.Roster
import Reflash.Validation

/-! Whatever is asked of an agenda, and in whatever order, it answers as a roster would,
which numbers nothing and looks for nothing. Only a step that cannot be written about is
turned away. -/

namespace Reflash

namespace Ticket

theorem mergeSort_append_singleton {l : List Ticket} {t : Ticket}
    (hdistinct : ((l ++ [t]).map Ticket.arrival).Nodup) (hlast : ∀ u ∈ l, u.arrival < t.arrival) :
    (l ++ [t]).mergeSort le =
      (l.mergeSort le).filter (fun u => u.step.priority ≤ t.step.priority) ++
        t :: (l.mergeSort le).filter fun u => t.step.priority < u.step.priority := by
  have hsplit : ((l.mergeSort le).filter (fun u => u.step.priority ≤ t.step.priority) ++
      (l.mergeSort le).filter fun u => t.step.priority < u.step.priority).Perm l := by
    have hpartition := List.filter_append_perm (fun u : Ticket =>
      decide (u.step.priority ≤ t.step.priority)) (l.mergeSort le)
    simp only [← decide_not, Nat.not_le] at hpartition
    exact hpartition.trans (List.mergeSort_perm l le)
  have hperm : ((l ++ [t]).mergeSort le).Perm
      ((l.mergeSort le).filter (fun u => u.step.priority ≤ t.step.priority) ++
        t :: (l.mergeSort le).filter fun u => t.step.priority < u.step.priority) :=
    (List.mergeSort_perm _ le).trans <| List.perm_append_comm.trans <|
      (hsplit.symm.cons t).trans List.perm_middle.symm
  have hsorted := pairwise_mergeSort l
  refine List.Perm.eq_of_pairwise ?_ (pairwise_mergeSort _) ?_ hperm
  · intro a b ha hb hab hba
    have hb := List.mem_mergeSort.mp (hperm.mem_iff.mpr hb)
    exact List.inj_on_of_nodup_map hdistinct (List.mem_mergeSort.mp ha) hb
      (arrival_eq_of_le hab hba)
  · have hbefore : ∀ u ∈ (l.mergeSort le).filter (fun u => u.step.priority ≤ t.step.priority),
        le u t = true := by
      intro u hu
      obtain ⟨hu, hpriority⟩ := List.mem_filter.mp hu
      have harrival := hlast u (List.mem_mergeSort.mp hu)
      have hpriority := of_decide_eq_true hpriority
      rw [le_iff]
      omega
    have hafter : ∀ u ∈ (l.mergeSort le).filter (fun u => t.step.priority < u.step.priority),
        le t u = true := by
      intro u hu
      exact (le_iff t u).mpr (.inl (of_decide_eq_true (List.mem_filter.mp hu).2))
    refine List.pairwise_append.mpr ⟨hsorted.filter _,
      List.pairwise_cons.mpr ⟨hafter, hsorted.filter _⟩, ?_⟩
    intro u hu v hv
    rcases List.mem_cons.mp hv with rfl | hv
    · exact hbefore u hu
    · exact le_trans u t v (hbefore u hu) (hafter v hv)

end Ticket

namespace Agenda

variable {a : Agenda}

def told (action : Action Agenda Unit) (a : Agenda) : Answer × Agenda :=
  match action.perform a with
  | (.ok (), scene) => (.done, scene.state)
  | (.error fault, scene) => (.refused fault, scene.state)

def answer (a : Agenda) : Call → Answer × Agenda
  | .enqueue step => told (performer.enqueue step) a
  | .pop => (.popped a.pop.1, a.pop.2)
  | .drain => (.drained a.drain.1, a.drain.2)
  | .pending => (.listed a.pending, a)
  | .complete => told performer.complete a
  | .fail fault => told (performer.fail fault) a

/-! ### One call -/

def roster (a : Agenda) : Roster := ⟨a.pending, a.phase, a.failure, a.completed⟩

theorem size_eq_length_pending (a : Agenda) : a.size = a.pending.length := by
  rw [pending, List.length_map, List.length_mergeSort, size]

theorem pending_enqueue (h : Numbered a) (step : Step) :
    (a.enqueue step).pending = Roster.insert a.pending step := by
  have hsort := Ticket.mergeSort_append_singleton (t := Ticket.mk a.arrivals step)
    (h.enqueue step).nodup h.below
  have hpending : (a.enqueue step).pending =
      ((a.waiting ++ [Ticket.mk a.arrivals step]).mergeSort Ticket.le).map Ticket.step := rfl
  have hbefore : a.pending = (a.waiting.mergeSort Ticket.le).map Ticket.step := rfl
  rw [hpending, hsort, Roster.insert, hbefore, List.filter_map, List.filter_map, List.map_append,
    List.map_cons]
  rfl

theorem pop_of_pending_nil (h : a.pending = []) : a.pop = (none, a) := by
  have hwaiting : a.waiting = [] := by
    rw [← List.length_eq_zero_iff, ← size, size_eq_length_pending, h, List.length_nil]
  rw [pop, hwaiting, Ticket.first?]

theorem pop_of_pending_cons (h : Numbered a) {step : Step} {rest : List Step}
    (hpending : a.pending = step :: rest) :
    ∃ others, a.pop = (some step, { a with waiting := others, phase := step.phase }) ∧
      Numbered a.pop.2 ∧ a.pop.2.pending = rest := by
  cases hfirst : Ticket.first? a.waiting with
  | none =>
    rw [pending_of_waiting_nil (Ticket.first?_eq_none.mp hfirst)] at hpending
    cases hpending
  | some found =>
    obtain ⟨t, others⟩ := found
    have hpop : a.pop = (some t.step, { a with waiting := others, phase := t.step.phase }) := by
      simp only [pop, hfirst]
    have hsort := Ticket.mergeSort_of_first? h.nodup hfirst
    have hcons : a.pending = t.step :: (others.mergeSort Ticket.le).map Ticket.step :=
      congrArg (List.map Ticket.step) hsort
    obtain ⟨rfl, rfl⟩ := List.cons.inj (hpending.symm.trans hcons)
    refine ⟨others, hpop, ?_, ?_⟩
    · rw [hpop]
      exact h.sublist (Ticket.first?_eq_some hfirst).2.1 _
    · rw [hpop]
      rfl

theorem roster_pop (h : Numbered a) :
    Numbered a.pop.2 ∧ a.pop.1 = a.pending.head? ∧ a.pop.2.roster = a.roster.pop := by
  cases hpending : a.pending with
  | nil =>
    rw [pop_of_pending_nil hpending]
    exact ⟨h, rfl, by rw [Roster.pop, roster, hpending]⟩
  | cons step rest =>
    obtain ⟨others, hpop, hnumbered, hrest⟩ := pop_of_pending_cons h hpending
    refine ⟨hnumbered, by rw [hpop]; rfl, ?_⟩
    rw [roster, hrest, hpop, Roster.pop, roster, hpending]

theorem roster_popUpTo (n : Nat) {a : Agenda} (h : Numbered a) (hsize : a.size ≤ n) :
    Numbered (popUpTo n a).2 ∧ (popUpTo n a).2.roster = a.roster.drain := by
  induction n generalizing a with
  | zero =>
    have hnil : a.pending = [] := by
      rw [← List.length_eq_zero_iff, ← size_eq_length_pending]
      exact Nat.le_zero.mp hsize
    exact ⟨h, by rw [popUpTo, Roster.drain, roster, hnil]; rfl⟩
  | succ n ih =>
    cases hpending : a.pending with
    | nil =>
      rw [popUpTo, pop_of_pending_nil hpending]
      exact ⟨h, by rw [Roster.drain, roster, hpending]; rfl⟩
    | cons step rest =>
      obtain ⟨others, hpop, hnumbered, hrest⟩ := pop_of_pending_cons h hpending
      have hlength : a.pop.2.size ≤ n := by
        rw [size_eq_length_pending, hpending, List.length_cons] at hsize
        rw [size_eq_length_pending, hrest]
        omega
      obtain ⟨hlast, hdrain⟩ := ih hnumbered hlength
      have hstep : (popUpTo (n + 1) a).2 = (popUpTo n a.pop.2).2 := by
        rw [popUpTo, hpop]
      rw [hstep, hdrain, (roster_pop h).2.2, Roster.drain_pop]
      exact ⟨hlast, rfl⟩

theorem told_enqueue (a : Agenda) (step : Step) :
    told (performer.enqueue step) a =
      if step.isWritable then (.done, a.enqueue step) else (.refused .unwritable, a) := by
  unfold told performer
  dsimp only
  cases step.isWritable <;> rfl

theorem answer_eq_roster (h : Numbered a) (call : Call) :
    Numbered (a.answer call).2 ∧ (a.answer call).1 = (a.roster.answer Step.isWritable call).1 ∧
      (a.answer call).2.roster = (a.roster.answer Step.isWritable call).2 := by
  cases call with
  | enqueue step =>
    rw [answer, told_enqueue, Roster.answer]
    cases step.isWritable with
    | false => exact ⟨h, rfl, rfl⟩
    | true =>
      refine ⟨h.enqueue step, rfl, ?_⟩
      simp only [if_true, roster, pending_enqueue h]
      rfl
  | pop =>
    obtain ⟨hnumbered, hstep, hroster⟩ := roster_pop h
    exact ⟨hnumbered, congrArg Answer.popped hstep, hroster⟩
  | drain =>
    obtain ⟨hnumbered, hroster⟩ := roster_popUpTo a.size h (Nat.le_refl _)
    exact ⟨hnumbered, congrArg Answer.drained (drain_eq_pending h), hroster⟩
  | pending => exact ⟨h, rfl, rfl⟩
  | complete => exact ⟨⟨h.ordered, h.below⟩, rfl, rfl⟩
  | fail fault =>
    refine ⟨⟨.nil, fun _ ht => absurd ht List.not_mem_nil⟩, rfl, ?_⟩
    have hnil : (a.fail fault).pending = [] := pending_of_waiting_nil rfl
    change (a.fail fault).roster = _
    rw [roster, hnil]
    rfl

theorem run_eq_roster (calls : List Call) {a : Agenda} (h : Numbered a) :
    (Call.run answer a calls).1 = (Call.run (Roster.answer Step.isWritable) a.roster calls).1 ∧
      (Call.run answer a calls).2.roster =
        (Call.run (Roster.answer Step.isWritable) a.roster calls).2 := by
  induction calls generalizing a with
  | nil => exact ⟨rfl, rfl⟩
  | cons call calls ih =>
    obtain ⟨hnumbered, hanswer, hroster⟩ := answer_eq_roster h call
    obtain ⟨hanswers, hrosters⟩ := ih hnumbered
    rw [hroster] at hanswers hrosters
    exact ⟨by rw [Call.run, Call.run, hanswer, hanswers], hrosters⟩

theorem numbered_run (calls : List Call) {a : Agenda} (h : Numbered a) :
    Numbered (Call.run answer a calls).2 := by
  induction calls generalizing a with
  | nil => exact h
  | cons call calls ih => exact ih (answer_eq_roster h call).1

/-! ### Any calls -/

open Step (atPriority)

theorem atPriority_taken (n : Nat) {a : Agenda} (h : Numbered a) {calls : List Call}
    (hfailure : ∀ call ∈ calls, call.isFailure = false) :
    atPriority n ((Call.run answer a calls).1.flatMap Answer.taken ++
        (Call.run answer a calls).2.pending) =
      atPriority n (a.pending ++ calls.flatMap (Call.added Step.isWritable)) := by
  obtain ⟨hanswers, hroster⟩ := run_eq_roster calls h
  have hpending : (Call.run answer a calls).2.pending =
      (Call.run (Roster.answer Step.isWritable) a.roster calls).2.steps := by
    rw [← hroster]
    rfl
  rw [hanswers, hpending]
  exact Roster.atPriority_run _ n a.roster hfailure

theorem pending_of_drain {a : Agenda} (h : Numbered a) {calls : List Call}
    (hlast : calls.getLast? = some .drain) : (Call.run answer a calls).2.pending = [] := by
  obtain ⟨front, rfl⟩ := List.getLast?_eq_some_iff.mp hlast
  rw [run_append]
  exact congrArg Roster.steps (roster_popUpTo _ (numbered_run front h) (Nat.le_refl _)).2

/-- A fresh agenda answers any calls as the roster does that admits the steps that can be written
about, and stands where it stands; it answers as one that admits every step exactly if all that come
can be written about. Of each priority, the steps are taken in the order in which they
came, none of them twice; and from any point on, those that waited there and those that came since
are all taken or left unless a failure is reported, and none is left if the agenda is drained in the
end. -/
theorem answers_as_roster (calls : List Call) :
    let run := Call.run answer {} calls
    let roster := Call.run (Roster.answer Step.isWritable) {} calls
    run.1 = roster.1 ∧ run.2.roster = roster.2 ∧ run.2.size = roster.2.steps.length ∧
    (roster.2.steps.Pairwise fun s t => s.priority ≤ t.priority) ∧
    (run.1 = (Call.run (Roster.answer fun _ => true) {} calls).1 ↔
      ∀ step, .enqueue step ∈ calls → step.isWritable = true) ∧
    (∀ n, (atPriority n (run.1.flatMap Answer.taken)).Sublist
      (atPriority n (calls.flatMap (Call.added Step.isWritable)))) ∧
    ∀ before after, calls = before ++ after →
      let a := (Call.run answer {} before).2
      ((∀ call ∈ after, call.isFailure = false) → ∀ n,
        atPriority n ((Call.run answer a after).1.flatMap Answer.taken ++ run.2.pending) =
          atPriority n (a.pending ++ after.flatMap (Call.added Step.isWritable))) ∧
      (after.getLast? = some .drain → run.2.pending = []) := by
  intro run roster
  obtain ⟨hanswers, hroster⟩ : run.1 = roster.1 ∧ run.2.roster = roster.2 := by
    have hempty : ({} : Agenda).roster = {} := by
      rw [Agenda.roster, pending_of_waiting_nil rfl]
    have hrun := run_eq_roster calls numbered_empty
    rwa [hempty] at hrun
  have hpending : run.2.pending = roster.2.steps := congrArg Roster.steps hroster
  refine ⟨hanswers, hroster, ?_, Roster.pairwise_run _ .nil calls, ?_, ?_, ?_⟩
  · rw [size_eq_length_pending, hpending]
  · rw [hanswers]
    exact Roster.run_eq_run_iff {} calls
  · intro n
    have htaken := Roster.sublist_run Step.isWritable n {} calls
    rw [Step.atPriority_append] at htaken
    rw [hanswers]
    exact (List.sublist_append_left _ _).trans htaken
  · rintro before after rfl a
    have hnumbered : Numbered a := numbered_run before numbered_empty
    have hrun : run.2 = (Call.run answer a after).2 := run_append answer {} before after
    rw [hrun]
    exact ⟨fun hfailure n => atPriority_taken n hnumbered hfailure, pending_of_drain hnumbered⟩

example : (Call.run answer {} [.enqueue (.reset (.bool false)), .enqueue (.upload [1] 0), .pop,
      .enqueue (.upload [2] 1), .enqueue (.upload [3] 0), .drain]).1.flatMap Answer.taken =
    [.upload [1] 0, .upload [2] 1, .upload [3] 0, .reset (.bool false)] := by
  decide +kernel

/-- A step with a number that is too long to write is turned away. -/
theorem upload_turned_away :
    ¬ ∀ calls : List Call,
      (Call.run answer {} calls).1 = (Call.run (Roster.answer fun _ => true) {} calls).1 := by
  intro h
  have hrefused : Step.isWritable (.upload [7] (Nat.pow 10 Decimal.maxDigits)) = false := by
    decide +kernel
  have hanswers := h [.enqueue (.upload [7] (Nat.pow 10 Decimal.maxDigits))]
  rw [Call.run, Call.run, answer, told_enqueue, hrefused] at hanswers
  cases (List.cons.inj hanswers).1

end Agenda
end Reflash
