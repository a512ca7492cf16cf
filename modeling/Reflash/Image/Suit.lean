import Reflash.Value

/-! SUIT envelopes. An envelope holds, under two, the authentication wrapper,
which holds, under zero, the digest of the manifest as a pair of an algorithm
and octets. Wrapper and digest are each a byte string that encodes an item. -/

namespace Reflash.Suit

def envelopeTag : Nat := 107

def wrapperKey : Nat := 2

inductive Fault where
  | unreadable
  | wrongTag (tag : Nat)
  | badDigest
  | notOctets (cause : Value.NotOctets)
  | broken (mishap : Value.Mishap)
  deriving DecidableEq

def Fault.message : Fault → String
  | unreadable => "invalid SUIT envelope: a part is missing or cannot be read"
  | wrongTag tag => "unexpected CBOR tag " ++ Nat.repr tag
  | badDigest => "SUIT digest must be [algorithm, bytes]"
  | notOctets cause => cause.message
  | broken mishap => mishap.text

def Fault.ofFailure : Cbor.Failure → Fault
  | .malformed | .unfit _ => .unreadable
  | .broken mishap => .broken mishap

/-- The part under a number: an item of an array, or a value of a map or of a value of another
kind. -/
def part? (n : Nat) : Value → Option Value
  | .array items => items[n]?
  | .map entries | .other _ entries => Value.find? (.int n) entries
  | _ => none

def partFailure? : Value → Option Value.Mishap
  | .other traits _ => traits.partFailure?
  | _ => none

def encoded (codec : Cbor.Codec) (n : Nat) (v : Value) : Except Fault Value :=
  match partFailure? v, part? n v with
  | some mishap, _ => .error (.broken mishap)
  | none, some (.bytes b) => (codec.decode b).mapError .ofFailure
  | none, _ => .error .unreadable

/-- Whether there is memory for so many octets. -/
abbrev Room := Nat → Bool

/-- The greatest number of octets that a string of them can count, beside what it needs itself. -/
def maxCount : Nat := Nat.pow 2 63 - 34

def zeros (room : Room) : Int → Except Value.NotOctets Bytes
  | .ofNat n =>
    if maxCount < n then .error .countTooLarge
    else if room n then .ok (List.replicate n 0)
    else .error .noMemory
  | .negSucc n => if n < Nat.pow 2 63 then .error .negativeCount else .error .countTooLarge

def octet : Value → Except Value.NotOctets UInt8
  | .int (.ofNat n) => if n < 256 then .ok (UInt8.ofNat n) else .error .beyondOctet
  | .int (.negSucc _) => .error .beyondOctet
  | .bool b => .ok (if b then 1 else 0)
  | _ => .error .wrongKind

/-- The octets of a value: a number stands for that many zeros, an array for its items, and a map
for its keys. -/
def octets (room : Room) : Value → Except Value.NotOctets Bytes
  | .bytes b => .ok b
  | .int i => zeros room i
  | .bool b => zeros room (if b then 1 else 0)
  | .array items => items.mapM octet
  | .map entries => entries.mapM fun e => octet e.1
  | .other traits _ => traits.octets.elim .error .ok
  | _ => .error .wrongKind

def untag : Value → Except Fault Value
  | .tag number content _ => if number = envelopeTag then .ok content else .error (.wrongTag number)
  | v => .ok v

def digest (codec : Cbor.Codec) (room : Room) (b : Bytes) : Except Fault Bytes := do
  let outer ← (codec.decode b).mapError .ofFailure
  let envelope ← untag outer
  let wrapper ← encoded codec wrapperKey envelope
  match ← encoded codec 0 wrapper with
  | .array [_, d] => (octets room d).mapError .notOctets
  | _ => throw .badDigest

end Reflash.Suit
