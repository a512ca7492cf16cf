import Reflash.Smp.Error
import Reflash.Log

/-! Actions: what is done with a device. An action changes the state of what it
talks to, adds to the log, and ends with a result or a failure; neither a
failure nor a result takes back what was done before it. -/

namespace Reflash

structure Scene (σ : Type) where
  state : σ
  log : List Log.Entry := []

abbrev Action (σ : Type) := ExceptT Fault (StateM (Scene σ))

namespace Action

variable {σ τ α : Type}

def perform (action : Action σ α) (state : σ) : Except Fault α × Scene σ :=
  action.run ⟨state, []⟩

def note (level : Log.Level) (source : Log.Source) (text : String) : Action σ Unit :=
  modify fun scene => { scene with log := scene.log ++ [⟨level, source, text⟩] }

def debug (source : Log.Source) (text : String) : Action σ Unit := note .debug source text

def state : Action σ σ := return (← get).state

def setState (s : σ) : Action σ Unit := modify fun scene => { scene with state := s }

def ofExcept (r : Except Fault α) : Action σ α := fun scene => (r, scene)

def conclude (outcome : Except Fault α × List Log.Entry) : Action σ α := fun scene =>
  (outcome.1, { scene with log := scene.log ++ outcome.2 })

def fail (error : Smp.Error) : Action σ α := throw (.smp error)

/-- The result, or the failure if it was one of talking to the device; others still end the
action. -/
def attempt (action : Action σ α) : Action σ (Except Smp.Error α) := fun scene =>
  match action scene with
  | (.ok a, scene) => (.ok (.ok a), scene)
  | (.error (.smp e), scene) => (.ok (.error e), scene)
  | (.error f, scene) => (.error f, scene)

def thenAlways (action : Action σ α) (after : Action σ Unit) : Action σ α := fun scene =>
  match action scene with
  | (result, scene) =>
    match after scene with
    | (.ok _, scene) => (result, scene)
    | (.error f, scene) => (.error f, scene)

def within (part : τ → σ) (put : σ → τ → τ) (action : Action σ α) : Action τ α := fun scene =>
  match action ⟨part scene.state, scene.log⟩ with
  | (result, inner) => (result, ⟨put inner.state scene.state, inner.log⟩)

def requireWritable (ok : Bool) : Action σ Unit := if ok then pure () else throw .unwritable

section Equations

variable {β : Type} (scene : Scene σ)

theorem bind_apply (action : Action σ α) (next : α → Action σ β) :
    (action >>= next) scene =
      match action scene with
      | (.ok a, scene) => next a scene
      | (.error f, scene) => (.error f, scene) := by
  simp only [bind, ExceptT.bind, ExceptT.mk, StateT.bind]
  rcases action scene with ⟨result, after⟩
  cases result <;> rfl

theorem pure_apply (a : α) : (pure a : Action σ α) scene = (.ok a, scene) := rfl

theorem fail_apply (e : Smp.Error) : (fail e : Action σ α) scene = (.error (.smp e), scene) := rfl

theorem state_apply : (state : Action σ σ) scene = (.ok scene.state, scene) := rfl

theorem setState_apply (s : σ) : setState s scene = (.ok (), { scene with state := s }) := rfl

theorem debug_apply (source : Log.Source) (text : String) :
    debug source text scene =
      (.ok (), { scene with log := scene.log ++ [⟨.debug, source, text⟩] }) := rfl

theorem requireWritable_apply (ok : Bool) :
    requireWritable ok scene = (if ok then .ok () else .error .unwritable, scene) := by
  cases ok <;> rfl

end Equations

end Action

abbrev Transport (σ : Type) := Bytes → Action σ Bytes

structure Connection (σ : Type) where
  opening : Action σ Unit
  closing : Action σ Unit
  exchange : Transport σ

def Connection.during {σ α : Type} (c : Connection σ) (action : Action σ α) : Action σ α := do
  c.opening
  action.thenAlways c.closing

end Reflash
