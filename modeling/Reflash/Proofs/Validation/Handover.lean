import Reflash.Proofs.Validation

/-! What becomes of an agenda that a validation is run on, whatever the device and
whatever the agenda holds already: it is handed a plan and told of its completion, or
told of a failure, or the validation is stopped and it is told of neither. -/

namespace Reflash.Validation

open Reflash.Action

variable {σ : Type}

inductive HandsOver (learnt : Except Fault Capabilities) (a : Agenda) :
    Except Fault Report → Agenda → Prop where
  | completed {r : Report} (known : learnt = .ok r.capabilities) (ok : r.ok = true)
      (failure : r.failure = none) :
      HandsOver learnt a (.ok r) (r.steps.foldl .enqueue a).complete
  | failed {r : Report} {fault : Fault} (known : learnt = .ok r.capabilities) (ok : r.ok = false)
      (failure : r.failure = some fault) : HandsOver learnt a (.ok r) (a.fail fault)
  | stopped {fault : Fault} (taken : List Step) :
      HandsOver learnt a (.error fault) (taken.foldl .enqueue a)

theorem forM_enqueue (steps : List Step) (scene : Scene (σ × Agenda)) :
    ∃ result taken log,
      steps.forM (fun step => onPerformer (Agenda.performer.enqueue step)) scene =
        (result, ⟨(scene.state.1, taken.foldl .enqueue scene.state.2), log⟩) ∧
      ∀ u, result = .ok u → taken = steps := by
  let watched : Scene (Watched σ) := ⟨(⟨scene.state.1, []⟩, ⟨scene.state.2, []⟩), scene.log⟩
  have hstep (step : Step) : Mirrors (Prod.map Recorded.state Recorded.state)
      (onPerformer (Agenda.performer.recorded.enqueue step) : Action (Watched σ) Unit)
      (onPerformer (Agenda.performer.enqueue step)) :=
    onPerformer_mirrors (.recorded _ _)
  have hplain : steps.forM (fun step => onPerformer (Agenda.performer.enqueue step)) scene = _ :=
    Mirrors.forM hstep watched
  obtain ⟨result, after, log, hrun, htells⟩ := forM_tells steps watched
  rw [hrun] at hplain
  cases htells with
  | all writable => exact ⟨_, steps, log, hplain, fun _ _ => rfl⟩
  | @front front back step split writable => exact ⟨_, front, log, hplain, nofun⟩

theorem report_of_assessListing {b : Bundle} {c : Capabilities} {mode : UpgradeMode}
    {settings : Settings} {listing : Except Smp.Error (Option (List Slot))} {r : Report}
    (h : (assessListing b c mode settings listing).1 = .ok r) :
    r.capabilities = c ∧
      (r.ok = true ∧ r.failure = none ∨ r.ok = false ∧ ∃ fault, r.failure = some fault) := by
  cases listing with
  | error e =>
    cases h
    exact ⟨rfl, .inr ⟨rfl, _, rfl⟩⟩
  | ok slots =>
    simp only [assessListing, Plan.make] at h
    split at h
    · cases h
      exact ⟨rfl, .inr ⟨rfl, _, rfl⟩⟩
    · split at h
      · cases h
        exact ⟨rfl, .inl ⟨rfl, rfl⟩⟩
      · cases h

theorem validateWith_handsOver (device : Device σ) (b : Bundle) (mode : UpgradeMode)
    (settings : Settings) (scene : Scene (σ × Agenda)) :
    let run := validateWith device Agenda.performer b mode settings scene
    HandsOver (discover device ⟨scene.state.1, scene.log⟩).1 scene.state.2 run.1 run.2.state.2 := by
  unfold validateWith
  simp only [bind_apply, onDevice_apply]
  rcases discover device _ with ⟨learnt, after⟩
  cases learnt with
  | error fault => exact .stopped []
  | ok c =>
    dsimp only
    rcases device.listImages.attempt _ with ⟨listing, later⟩
    cases listing with
    | error fault => exact .stopped []
    | ok listing =>
      dsimp only [conclude]
      cases hreport : (assessListing b c mode settings listing).1 with
      | error fault => exact .stopped []
      | ok r =>
        obtain ⟨rfl, ⟨hok, hfailure⟩ | ⟨hok, fault, hfailure⟩⟩ := report_of_assessListing hreport
        · dsimp only
          rw [hfailure]
          simp only [bind_apply]
          obtain ⟨result, taken, log, hrun, htaken⟩ := forM_enqueue r.steps ⟨(later.state,
            scene.state.2), later.log ++ (assessListing b r.capabilities mode settings listing).2⟩
          rw [hrun]
          cases result with
          | error fault => exact .stopped taken
          | ok u =>
            cases htaken u rfl
            exact .completed rfl hok hfailure
        · dsimp only
          rw [hfailure]
          exact .failed rfl hok hfailure

theorem HandsOver.withLogs {learnt : Except Fault Capabilities} {a agenda : Agenda} {r : Report}
    (h : HandsOver learnt a (.ok r) agenda) (logs : List String) :
    HandsOver learnt a (.ok { r with logs }) agenda := by
  cases h with
  | completed known ok failure => exact .completed known ok failure
  | failed known ok failure => exact .failed known ok failure

theorem HandsOver.known {learnt : Except Fault Capabilities} {a agenda : Agenda} {r : Report}
    (h : HandsOver learnt a (.ok r) agenda) : learnt = .ok r.capabilities := by
  cases h with
  | completed known => exact known
  | failed known => exact known

theorem validate_handsOver (device : Device σ) (b : Bundle) (mode : Option UpgradeMode)
    (settings : Settings) (level : Int) (d : σ) (a : Agenda) (log : List Log.Entry) :
    let run := validate device Agenda.performer b mode settings level ⟨(d, a), log⟩
    HandsOver (discover device ⟨d, log⟩).1 { a with phase := .validation } run.1 run.2.state.2 := by
  have hends := validateWith_handsOver device b (mode.getD settings.mode) settings
    ⟨(d, { a with phase := .validation }), log⟩
  have hbegin : onPerformer Agenda.performer.begin ⟨((d, a) : σ × Agenda), log⟩ =
      (.ok (), ⟨(d, { a with phase := .validation }), log⟩) := rfl
  unfold validate
  rw [bind_apply, hbegin]
  simp only [get_bind_apply]
  rw [bind_apply]
  generalize validateWith device _ b _ settings _ = run at hends ⊢
  rcases run with ⟨result, after⟩
  cases result with
  | ok r => exact hends.withLogs _
  | error fault => exact hends

end Reflash.Validation
