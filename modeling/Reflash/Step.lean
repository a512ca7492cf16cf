import Reflash.Bytes
import Reflash.Text.Numeral
import Reflash.Value.Equality
import Reflash.Value.Written

/-! Steps: the commands that bring an image into use. The kind of a step fixes
its priority, by which steps are put in order, and the phase of the upgrade that
it belongs to. -/

namespace Reflash

inductive Phase where
  | none
  | validation
  | upload
  | test
  | reset
  | confirmation
  deriving DecidableEq

def Phase.name : Phase → String
  | none => "none"
  | validation => "validate"
  | upload => "upload"
  | test => "test"
  | reset => "reset"
  | confirmation => "confirm"

inductive Step where
  | idle
  | eraseStorage
  | upload (data : Bytes) (target : Int)
  | test (hash : Bytes)
  | confirm (hash : Option Bytes)
  | confirmAfterReset (hash : Bytes)
  /-- Clears what an earlier upgrade has left in a slot. -/
  | resetBeforeUpload (noSwap : Value)
  | reset (noSwap : Value)
  deriving DecidableEq

namespace Step

def name : Step → String
  | idle => "Operation"
  | eraseStorage => "EraseStorage"
  | upload .. => "Upload"
  | test _ => "Test"
  | confirm _ => "Confirm"
  | confirmAfterReset _ => "ConfirmAfterReset"
  | resetBeforeUpload _ => "ResetBeforeUpload"
  | reset _ => "Reset"

/-- Steps of a lower priority come first. -/
def priority : Step → Nat
  | idle => 0
  | resetBeforeUpload _ => 1
  | upload .. => 2
  | test _ => 3
  | confirm _ => 3
  | eraseStorage => 4
  | reset _ => 5
  | confirmAfterReset _ => 6

def phase : Step → Phase
  | idle => .none
  | upload .. => .upload
  | test _ => .test
  | confirm _ | confirmAfterReset _ => .confirmation
  | eraseStorage | resetBeforeUpload _ | reset _ => .reset

def shortHash (hash : Bytes) : String :=
  if hash.isEmpty then "-" else Hex.lower (hash.take 8)

def describe : Step → String
  | upload data target =>
    "Upload " ++ Decimal.grouped data.length ++ " bytes to target " ++ Decimal.ofInt target
  | test hash => "Test " ++ shortHash hash
  | confirm hash => "Confirm " ++ shortHash (hash.getD [])
  | confirmAfterReset hash => "Confirm after reset " ++ shortHash hash
  | resetBeforeUpload noSwap => "Reset before upload (no_swap=" ++ noSwap.written ++ ")"
  | reset noSwap => "Reset (no_swap=" ++ noSwap.written ++ ")"
  | s => s.name

def isWritable : Step → Bool
  | upload _ target => Decimal.isWritable target
  | resetBeforeUpload noSwap | reset noSwap => noSwap.isWritable
  | _ => true

def same : Step → Step → Bool
  | resetBeforeUpload a, resetBeforeUpload b => a.same b
  | reset a, reset b => a.same b
  | s, t => s = t

def sorted (steps : List Step) : List Step :=
  steps.mergeSort fun s t => s.priority ≤ t.priority

end Step
end Reflash
