import Reflash.Value.Written

/-! Slots: the places on the device that hold one image each, as the device
reports them. A core has several slots, numbered from zero. -/

namespace Reflash

def primarySlot : Int := 0

def secondarySlot : Int := 1

/-- One slot with the digest of the image in it. `pending` says that a test was requested,
`permanent` that a confirmation was, and `confirmed` that the image booted and confirmed itself. -/
structure Slot where
  core : Int
  number : Int
  hash : Bytes := []
  version : String := ""
  active : Bool := false
  pending : Bool := false
  permanent : Bool := false
  confirmed : Bool := false
  bootable : Bool := false
  deriving DecidableEq

namespace Slot

def flagNames (s : Slot) : List String :=
  [("active", s.active), ("pending", s.pending), ("permanent", s.permanent),
    ("confirmed", s.confirmed), ("bootable", s.bootable)].filterMap
      fun (name, isSet) => if isSet then some name else none

def flags (s : Slot) : String :=
  if s.flagNames.isEmpty then "-" else ",".intercalate s.flagNames

inductive Fault where
  | notMap (kind : String)
  | badHash (kind : String)
  | noNumber
  | badNumber (cause : Value.NotWhole)
  | unwritableVersion
  deriving DecidableEq

def Fault.message : Fault → String
  | notMap kind => "image state entry is a " ++ kind ++ ", not a map"
  | badHash kind => "slot hash must be bytes, got " ++ kind
  | noNumber => "'slot'"
  | badNumber cause => cause.message
  | unwritableVersion => "the version holds a number too long to write"

def wholeNumber (v : Value) : Except Fault Int := v.toInt.mapError .badNumber

def flag (entries : Value.Entries) (name : String) : Bool :=
  ((Value.get? name entries).map Value.isSet).getD false

/-- The slot that an entry of the device's listing describes. Only the slot number is required. -/
def ofEntry : Value → Except Fault Slot
  | .map entries => do
    let hash ← match Value.get? "hash" entries with
      | none => pure []
      | some (.bytes b) => pure b
      | some v => throw (.badHash v.kind)
    let core ← wholeNumber ((Value.get? "image" entries).getD (.int 0))
    let number ← match Value.get? "slot" entries with
      | none => throw .noNumber
      | some v => wholeNumber v
    let version := (Value.get? "version" entries).getD (.text "")
    if !version.isWritable then throw .unwritableVersion
    return { core, number, hash, version := version.written,
             active := flag entries "active", pending := flag entries "pending",
             permanent := flag entries "permanent", confirmed := flag entries "confirmed",
             bootable := flag entries "bootable" }
  | v => .error (.notMap v.kind)

end Slot
end Reflash
