import Reflash.Smp.Error
import Reflash.Step

/-! The agenda: the steps that wait to be taken. Steps are taken in order of
their priority, and those of one priority in the order in which they came. -/

namespace Reflash

structure Ticket where
  arrival : Nat
  step : Step
  deriving DecidableEq

namespace Ticket

def isBefore (a b : Ticket) : Bool :=
  a.step.priority < b.step.priority ||
    (a.step.priority = b.step.priority && a.arrival < b.arrival)

def first? : List Ticket → Option (Ticket × List Ticket)
  | [] => none
  | t :: rest =>
    match first? rest with
    | none => some (t, [])
    | some (u, others) => if u.isBefore t then some (u, t :: others) else some (t, rest)

end Ticket

structure Agenda where
  phase : Phase := .none
  failure : Option Fault := none
  completed : Bool := false
  arrivals : Nat := 0
  waiting : List Ticket := []

namespace Agenda

def size (a : Agenda) : Nat := a.waiting.length

def failed (a : Agenda) : Bool := a.failure.isSome

def enqueue (a : Agenda) (step : Step) : Agenda :=
  { a with waiting := a.waiting ++ [⟨a.arrivals, step⟩], arrivals := a.arrivals + 1 }

def complete (a : Agenda) : Agenda := { a with completed := true }

def fail (a : Agenda) (fault : Fault) : Agenda := { a with failure := some fault, waiting := [] }

def pending (a : Agenda) : List Step :=
  (a.waiting.mergeSort fun t u => !u.isBefore t).map Ticket.step

def pop (a : Agenda) : Option Step × Agenda :=
  match Ticket.first? a.waiting with
  | none => (none, a)
  | some (t, others) => (some t.step, { a with waiting := others, phase := t.step.phase })

def popUpTo : Nat → Agenda → List Step × Agenda
  | 0, a => ([], a)
  | n + 1, a =>
    match a.pop with
    | (none, a) => ([], a)
    | (some step, a) =>
      let (steps, a) := popUpTo n a
      (step :: steps, a)

def drain (a : Agenda) : List Step × Agenda := popUpTo a.size a

end Agenda
end Reflash
