import Reflash.Device
import Reflash.Validation

/-! Links, devices and performers that follow a script, for trying out what is
done with real ones. Each records what it is asked. -/

namespace Reflash.Rehearsal

structure Replies where
  coming : List (Except Fault Bytes)
  sent : List Bytes := []

def transport : Transport Replies := fun packet => do
  let r ← Action.state
  Action.setState { coming := r.coming.tail, sent := r.sent ++ [packet] }
  Action.ofExcept (r.coming.headD (.error (.smp .silent)))

def connection (failure : Option Smp.Error) : Connection Replies where
  opening := match failure with
    | none => pure ()
    | some e => Action.fail e
  closing := pure ()
  exchange := transport

inductive Question where
  | bootloaderInfo (query : Query)
  | listImages

structure Answers where
  infos : List (Except Fault BootloaderInfo)
  images : Except Fault (Option (List Slot))
  asked : List Question := []

def ask (q : Question) : Action Answers Unit := do
  let a ← Action.state
  Action.setState { a with asked := a.asked ++ [q] }

def device : Device Answers where
  bootloaderInfo query := do
    ask (.bootloaderInfo query)
    let a ← Action.state
    Action.setState { a with infos := a.infos.tail }
    Action.ofExcept (a.infos.headD (.error (.smp .silent)))
  listImages := do
    ask .listImages
    Action.ofExcept (← Action.state).images

inductive Event where
  | enqueued (step : Step)
  | completed
  | failed (fault : Fault)

def record (e : Event) : Action (List Event) Unit := do
  Action.setState ((← Action.state) ++ [e])

def performer : Performer (List Event) where
  begin := pure ()
  enqueue step := record (.enqueued step)
  complete := record .completed
  fail fault := record (.failed fault)

end Reflash.Rehearsal
