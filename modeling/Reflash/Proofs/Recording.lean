import Reflash.Rehearsal

/-! Keeping a record. A device and a performer can be watched: whatever is asked of
the one is entered in a record with its answer, whatever the other is told as it is.
That changes nothing of what they do: a validation that is watched is the same
validation with two records beside it. -/

namespace Reflash

structure Recorded (σ ε : Type) where
  state : σ
  events : List ε := []

namespace Action

variable {σ τ ε α β : Type}

def recorded (entry : Except Fault α → ε) (action : Action σ α) : Action (Recorded σ ε) α :=
  fun scene =>
    match action ⟨scene.state.state, scene.log⟩ with
    | (result, after) => (result, ⟨⟨after.state, scene.state.events ++ [entry result]⟩, after.log⟩)

theorem get_bind_apply (next : Scene σ → Action σ α) (scene : Scene σ) :
    (get >>= next) scene = next scene scene := rfl

def Mirrors (view : τ → σ) (action : Action τ α) (plain : Action σ α) : Prop :=
  ∀ scene, plain ⟨view scene.state, scene.log⟩ =
    ((action scene).1, ⟨view (action scene).2.state, (action scene).2.log⟩)

namespace Mirrors

theorem recorded (entry : Except Fault α → ε) (action : Action σ α) :
    Mirrors Recorded.state (action.recorded entry) action := fun _ => rfl

variable {view : τ → σ}

theorem pure (a : α) : Mirrors view (Pure.pure a) (Pure.pure a) := fun _ => rfl

theorem throw (f : Fault) : Mirrors view (throw f : Action τ α) (MonadExcept.throw f) :=
  fun _ => rfl

theorem note (level : Log.Level) (source : Log.Source) (text : String) :
    Mirrors view (note level source text) (Action.note level source text) := fun _ => rfl

theorem conclude (outcome : Except Fault α × List Log.Entry) :
    Mirrors view (conclude outcome) (Action.conclude outcome) := fun _ => rfl

theorem requireWritable (ok : Bool) :
    Mirrors view (requireWritable ok) (Action.requireWritable ok) := by
  cases ok <;> exact fun _ => rfl

theorem bind {action : Action τ α} {plain : Action σ α} {next : α → Action τ β}
    {following : α → Action σ β} (h : Mirrors view action plain)
    (hnext : ∀ a, Mirrors view (next a) (following a)) :
    Mirrors view (action >>= next) (plain >>= following) := by
  intro scene
  rw [bind_apply, bind_apply, h scene]
  rcases action scene with ⟨result, after⟩
  cases result with
  | ok a => exact hnext a after
  | error f => rfl

theorem bind_get {next : Scene τ → Action τ β} {following : Scene σ → Action σ β}
    (hnext : ∀ scene, Mirrors view (next scene) (following ⟨view scene.state, scene.log⟩)) :
    Mirrors view (get >>= next) (get >>= following) :=
  fun scene => hnext scene scene

theorem attempt {action : Action τ α} {plain : Action σ α} (h : Mirrors view action plain) :
    Mirrors view action.attempt plain.attempt := by
  intro scene
  unfold Action.attempt
  rw [h scene]
  rcases action scene with ⟨result, after⟩
  cases result with
  | ok a => rfl
  | error f => cases f <;> rfl

theorem forM {steps : List α} {action : α → Action τ Unit} {plain : α → Action σ Unit}
    (h : ∀ a, Mirrors view (action a) (plain a)) :
    Mirrors view (steps.forM action) (steps.forM plain) := by
  induction steps with
  | nil => exact pure ()
  | cons a steps ih => exact bind (h a) fun _ => ih

end Mirrors
end Action

inductive Exchange where
  | bootloaderInfo (query : Query) (answer : Except Fault BootloaderInfo)
  | listImages (answer : Except Fault (Option (List Slot)))

open Reflash.Action (Mirrors)

variable {σ ρ : Type}

def Device.recorded (device : Device σ) : Device (Recorded σ Exchange) where
  bootloaderInfo query := (device.bootloaderInfo query).recorded (.bootloaderInfo query)
  listImages := device.listImages.recorded .listImages

def Performer.recorded (performer : Performer ρ) : Performer (Recorded ρ Rehearsal.Event) where
  begin := performer.begin.within Recorded.state fun state r => { r with state }
  enqueue step := (performer.enqueue step).recorded fun _ => .enqueued step
  complete := performer.complete.recorded fun _ => .completed
  fail fault := (performer.fail fault).recorded fun _ => .failed fault

section Watched

variable {σ' ρ' α : Type} {f : σ' → σ} {g : ρ' → ρ}

theorem onDevice_mirrors {watched : Action σ' α} {action : Action σ α}
    (h : Mirrors f watched action) :
    Mirrors (Prod.map f g) (onDevice watched) (onDevice action) := by
  intro scene
  simp only [onDevice, Action.within, Prod.map]
  rw [h ⟨scene.state.1, scene.log⟩]
  rfl

theorem onPerformer_mirrors {watched : Action ρ' α} {action : Action ρ α}
    (h : Mirrors g watched action) :
    Mirrors (Prod.map f g) (onPerformer watched) (onPerformer action) := by
  intro scene
  simp only [onPerformer, Action.within, Prod.map]
  rw [h ⟨scene.state.2, scene.log⟩]
  rfl

theorem discover_mirrors (device : Device σ) :
    Mirrors Recorded.state (discover device.recorded) (discover device) := by
  refine .bind (.attempt (.recorded _ _)) ?_
  intro identity
  cases identity with
  | error e => exact .bind (.note _ _ _) fun _ => .pure _
  | ok identity =>
    refine .bind (.requireWritable _) fun _ => .bind (.note _ _ _) fun _ => ?_
    split
    · exact .pure _
    · refine .bind (.attempt (.recorded _ _)) ?_
      intro mode
      cases mode with
      | error e => exact .bind (.note _ _ _) fun _ => .pure _
      | ok info =>
        dsimp only
        split
        · exact .throw _
        · exact .bind (.requireWritable _) fun _ => .bind (.note _ _ _) fun _ => .pure _

variable (device : Device σ) (performer : Performer ρ) (b : Bundle) (settings : Settings)

theorem validateWith_mirrors (mode : UpgradeMode) :
    Mirrors (Prod.map Recorded.state Recorded.state)
      (validateWith device.recorded performer.recorded b mode settings)
      (validateWith device performer b mode settings) := by
  refine .bind (onDevice_mirrors (discover_mirrors device)) fun c => ?_
  refine .bind (onDevice_mirrors (.attempt (.recorded _ _))) fun listing => ?_
  refine .bind (.conclude _) fun report => ?_
  dsimp only
  split
  · refine .bind (.forM fun step => onPerformer_mirrors (.recorded _ _)) fun _ => ?_
    exact .bind (onPerformer_mirrors (.recorded _ _)) fun _ => .pure report
  · exact .bind (onPerformer_mirrors (.recorded _ _)) fun _ => .pure report

theorem validate_mirrors (mode : Option UpgradeMode) (level : Int) :
    Mirrors (Prod.map Recorded.state Recorded.state)
      (validate device.recorded performer.recorded b mode settings level)
      (validate device performer b mode settings level) := by
  refine .bind (onPerformer_mirrors fun _ => rfl) fun _ => .bind_get fun before => ?_
  refine .bind (validateWith_mirrors device performer b settings _) fun report => ?_
  exact .bind_get fun after => .pure _

end Watched
end Reflash
