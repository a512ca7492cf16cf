import Reflash.Proofs.Validation.Handover

/-! One agenda for several runs. An agenda keeps the completion and the last failure of
the runs so far, and neither takes back the other. So it reports the run that came last
exactly if all runs before it came out the same way, and a retry that succeeds leaves the
failure that made it necessary. -/

namespace Reflash

namespace Agenda

theorem frame_popUpTo (n : Nat) (a : Agenda) :
    (popUpTo n a).2.completed = a.completed ∧ (popUpTo n a).2.failure = a.failure := by
  induction n generalizing a with
  | zero => exact ⟨rfl, rfl⟩
  | succ n ih =>
    rw [popUpTo, pop]
    cases Ticket.first? a.waiting with
    | none => exact ⟨rfl, rfl⟩
    | some found => exact ih _

/-- An agenda reports a run: it is either completed or failed, as the run went, and shows the
failure of the run. -/
structure Reports (a : Agenda) (r : Report) : Prop where
  one : a.completed = !a.failed
  failed : a.failed = !r.ok
  failure : a.failure = r.failure

end Agenda

namespace Validation

open Reflash.Action

structure Task where
  bundle : Bundle
  mode : Option UpgradeMode := none

structure Usage (σ : Type) where
  device : σ
  agenda : Agenda := {}
  results : List (Except Fault Report) := []

variable {σ : Type} (device : Device σ) (settings : Settings) (level : Int)

def Usage.run (u : Usage σ) (task : Task) : Usage σ :=
  let (result, after) := (validate device Agenda.performer task.bundle task.mode settings
    level).perform (u.device, u.agenda.drain.2)
  { device := after.state.1, agenda := after.state.2, results := u.results ++ [result] }

def serve (d : σ) (tasks : List Task) : Usage σ :=
  tasks.foldl (Usage.run device settings level) { device := d }

def failureOf : Except Fault Report → Option Fault
  | .ok r => r.failure
  | .error _ => none

/-- What an agenda keeps of the runs that it was used for. -/
structure Keeps (results : List (Except Fault Report)) (a : Agenda) : Prop where
  outcome : ∀ r, .ok r ∈ results → r.ok = r.failure.isNone
  completed : a.completed = true ↔ ∃ r, .ok r ∈ results ∧ r.ok = true
  failure : a.failure = (results.filterMap failureOf).getLast?

variable {results : List (Except Fault Report)} {result : Except Fault Report} {a agenda : Agenda}
  {r : Report}

theorem keeps_nil : Keeps [] {} where
  outcome _ h := absurd h List.not_mem_nil
  completed := ⟨nofun, fun ⟨_, h, _⟩ => absurd h List.not_mem_nil⟩
  failure := rfl

theorem Keeps.congr (h : Keeps results a) (hcompleted : agenda.completed = a.completed)
    (hfailure : agenda.failure = a.failure) : Keeps results agenda :=
  ⟨h.outcome, hcompleted ▸ h.completed, hfailure.trans h.failure⟩

theorem getLast?_filterMap_concat (result : Except Fault Report) :
    ((results ++ [result]).filterMap failureOf).getLast? =
      (failureOf result).or (results.filterMap failureOf).getLast? := by
  rw [List.filterMap_append, List.getLast?_append]
  cases hfailure : failureOf result <;> simp [hfailure]

section

variable {learnt : Except Fault Capabilities} (hover : HandsOver learnt a result agenda)
include hover

theorem HandsOver.ok_eq (h : .ok r = result) : r.ok = r.failure.isNone := by
  cases hover with
  | completed known ok failure =>
    cases h
    rw [ok, failure, Option.isNone_none]
  | failed known ok failure =>
    cases h
    rw [ok, failure, Option.isNone_some]
  | stopped taken => cases h

theorem HandsOver.completed_iff :
    agenda.completed = true ↔ a.completed = true ∨ ∃ r, .ok r = result ∧ r.ok = true := by
  cases hover with
  | @completed r known ok failure => exact iff_of_true rfl (.inr ⟨r, rfl, ok⟩)
  | failed known ok failure =>
    refine (or_iff_left ?_).symm
    rintro ⟨_, ⟨⟩, hok⟩
    rw [ok] at hok
    cases hok
  | stopped taken =>
    rw [Agenda.completed_foldl, or_iff_left]
    rintro ⟨_, ⟨⟩, _⟩

theorem HandsOver.failure_eq : agenda.failure = (failureOf result).or a.failure := by
  cases hover with
  | @completed r known ok failure =>
    rw [failureOf, failure, Option.none_or]
    exact Agenda.failure_foldl r.steps a
  | failed known ok failure =>
    rw [failureOf, failure, Option.some_or]
    rfl
  | stopped taken => rw [failureOf, Agenda.failure_foldl, Option.none_or]

theorem Keeps.handsOver (h : Keeps results a) : Keeps (results ++ [result]) agenda := by
  have hmem (r : Report) : .ok r ∈ results ++ [result] ↔ .ok r ∈ results ∨ .ok r = result := by
    rw [List.mem_append, List.mem_singleton]
  refine ⟨?_, ?_, ?_⟩
  · intro r hr
    exact ((hmem r).mp hr).elim (h.outcome r) hover.ok_eq
  · simp only [hover.completed_iff, h.completed, hmem, or_and_right, exists_or]
  · rw [getLast?_filterMap_concat, hover.failure_eq, h.failure]

end

theorem Keeps.run {u : Usage σ} (h : Keeps u.results u.agenda) (task : Task) :
    Keeps (u.run device settings level task).results (u.run device settings level task).agenda := by
  obtain ⟨hcompleted, hfailure⟩ := Agenda.frame_popUpTo u.agenda.size u.agenda
  have hbegun : Keeps u.results { u.agenda.drain.2 with phase := .validation } :=
    h.congr hcompleted hfailure
  exact hbegun.handsOver (validate_handsOver device task.bundle task.mode settings level u.device
    u.agenda.drain.2 [])

theorem keeps_serve (d : σ) (tasks : List Task) :
    Keeps (serve device settings level d tasks).results
      (serve device settings level d tasks).agenda := by
  have hrun (u : Usage σ) (h : Keeps u.results u.agenda) :
      Keeps (tasks.foldl (Usage.run device settings level) u).results
        (tasks.foldl (Usage.run device settings level) u).agenda := by
    induction tasks generalizing u with
    | nil => exact h
    | cons task tasks ih => exact ih _ (h.run device settings level task)
  exact hrun _ keeps_nil

theorem Keeps.failed_iff (h : Keeps results a) :
    a.failed = true ↔ ∃ r, .ok r ∈ results ∧ r.ok = false := by
  rw [Agenda.failed, h.failure, List.getLast?_isSome, Ne, List.filterMap_eq_nil_iff]
  constructor
  · intro hsome
    obtain ⟨result, hresult, hfailure⟩ : ∃ result ∈ results, failureOf result ≠ none := by
      simpa using hsome
    cases result with
    | error fault => exact absurd rfl hfailure
    | ok r =>
      refine ⟨r, hresult, ?_⟩
      rw [h.outcome r hresult, Option.isNone_eq_false_iff]
      exact Option.isSome_iff_ne_none.mpr hfailure
  · rintro ⟨r, hr, hok⟩ hnone
    have hfailure : r.failure = none := hnone _ hr
    rw [h.outcome r hr, hfailure] at hok
    cases hok

theorem Keeps.reports_iff (h : Keeps results a) (hlast : results.getLast? = some (.ok r)) :
    a.Reports r ↔ ∀ r', .ok r' ∈ results → r'.ok = r.ok := by
  have hr : .ok r ∈ results := List.mem_of_getLast? hlast
  constructor
  · intro hreports r' hr'
    cases hok : r'.ok with
    | true =>
      have hcompleted := h.completed.mpr ⟨r', hr', hok⟩
      simpa [hcompleted, hreports.failed] using hreports.one
    | false =>
      have hfailed := h.failed_iff.mpr ⟨r', hr', hok⟩
      simpa [hfailed] using hreports.failed
  · intro hsame
    have hexists (ok : Bool) : (∃ r', .ok r' ∈ results ∧ r'.ok = ok) ↔ r.ok = ok := by
      constructor
      · rintro ⟨r', hr', hok⟩
        rw [← hok, hsame r' hr']
      · exact fun hok => ⟨r, hr, hok⟩
    have hcompleted : a.completed = r.ok := by rw [Bool.eq_iff_iff, h.completed, hexists]
    have hfailed : a.failed = !r.ok := by
      rw [Bool.eq_iff_iff, h.failed_iff, hexists, Bool.not_eq_true']
    refine ⟨by rw [hcompleted, hfailed, Bool.not_not], hfailed, ?_⟩
    cases hfailure : r.failure with
    | none =>
      rw [h.outcome r hr, hfailure] at hfailed
      exact Option.isNone_iff_eq_none.mp (Option.isSome_eq_false_iff.mp hfailed)
    | some fault =>
      obtain ⟨before, rfl⟩ := List.getLast?_eq_some_iff.mp hlast
      rw [h.failure, getLast?_filterMap_concat, failureOf, hfailure, Option.some_or]

/-- After any runs on one agenda, whatever the device answers, it is completed if one of them
succeeded, and it is failed, with the last failure, if one of them failed. So it reports the run
that came last exactly if no run before it came out the other way. -/
theorem reports_last_iff (d : σ) (tasks : List Task) :
    let u := serve device settings level d tasks
    (u.agenda.completed = true ↔ ∃ r, .ok r ∈ u.results ∧ r.ok = true) ∧
    (u.agenda.failed = true ↔ ∃ r, .ok r ∈ u.results ∧ r.ok = false) ∧
    u.agenda.failure = (u.results.filterMap failureOf).getLast? ∧
    ∀ r, u.results.getLast? = some (.ok r) →
      (u.agenda.Reports r ↔ ∀ r', .ok r' ∈ u.results → r'.ok = r.ok) := by
  have h := keeps_serve device settings level d tasks
  exact ⟨h.completed, h.failed_iff, h.failure, fun r hlast => h.reports_iff hlast⟩

namespace Sample

def waking : Device Bool where
  bootloaderInfo _ := Action.fail .silent
  listImages := do
    let awake ← Action.state
    Action.setState true
    if awake then return some [Plan.Sample.running 0] else Action.fail .silent

theorem isTyped_waking : waking.IsTyped := by
  refine ⟨?_, ?_, ?_⟩
  · rintro _ _ _ ⟨⟩
  · rintro _ _ _ ⟨⟩
    exact ⟨_, rfl⟩
  · rintro ⟨_ | _, log⟩ _ ⟨⟩
    exact ⟨_, rfl⟩

def twice : List Task := [{ bundle := Plan.Sample.single }, { bundle := Plan.Sample.single }]

end Sample

/-- The second run succeeds, and the agenda still shows the silence that the first one met. -/
theorem retry_not_reported :
    ¬ ∀ (device : Device Bool) (settings : Settings) (level : Int) (d : Bool) (tasks : List Task),
      device.IsTyped → ∀ r, (serve device settings level d tasks).results.getLast? = some (.ok r) →
        (serve device settings level d tasks).agenda.Reports r := by
  intro h
  have hlast : (serve Sample.waking {} 20 false Sample.twice).results.getLast?.any
      Except.isOk = true := by decide +kernel
  have hcompleted : (serve Sample.waking {} 20 false Sample.twice).agenda.completed = true := by
    decide +kernel
  have hfailed : (serve Sample.waking {} 20 false Sample.twice).agenda.failed = true := by
    decide +kernel
  have hreports := h Sample.waking {} 20 false Sample.twice Sample.isTyped_waking
  generalize serve Sample.waking {} 20 false Sample.twice = u at *
  rcases hresult : u.results.getLast? with _ | _ | r
  · rw [hresult] at hlast
    cases hlast
  · rw [hresult] at hlast
    cases hlast
  · have hone := (hreports r hresult).one
    rw [hcompleted, hfailed] at hone
    cases hone

end Validation
end Reflash
