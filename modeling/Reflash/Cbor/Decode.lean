import Reflash.Value

/-! Reading CBOR. An item is read from the front of a byte string and leaves the
rest; what follows the outermost item is of no interest. Lengths need not be
written in the shortest way and may be left open. Arrays, maps and tags nest to
a depth that this reader sets, at which only those that say that they are empty have a
place, and a map takes its entries one after the other, so the last of several equal
keys gives the value. Tags of dates, fractions, sets and the like stay tags. -/

namespace Reflash.Cbor

abbrev Reader (α : Type) := Bytes → Option (α × Bytes)

def octets (n : Nat) : Reader Bytes := fun b =>
  let (front, rest) := b.splitAt n
  if front.length = n then some (front, rest) else none

structure Head where
  major : Nat
  info : Nat
  argument : Option Nat

def head : Reader Head
  | [] => none
  | x :: rest =>
    let major := x.toNat / 32
    let info := x.toNat % 32
    if info < 24 then some (⟨major, info, some info⟩, rest)
    else if info < 28 then
      (octets (Nat.pow 2 (info - 24)) rest).map fun (a, rest) =>
        (⟨major, info, some a.toNatBE⟩, rest)
    else if info = 31 then some (⟨major, info, none⟩, rest)
    else none

def stop : UInt8 := 0xFF

def chunks (major : Nat) : Nat → Reader (List Bytes)
  | 0, _ => none
  | fuel + 1, b =>
    if b.head? = some stop then some ([], b.tail)
    else
      match head b with
      | some (⟨m, _, some n⟩, rest) =>
        if m = major then do
          let (chunk, rest) ← octets n rest
          let (others, rest) ← chunks major fuel rest
          return (chunk :: others, rest)
        else none
      | _ => none

def pieces (limit : Nat) (h : Head) : Reader (List Bytes) := fun b =>
  match h.argument with
  | some n => (octets n b).map fun (piece, rest) => ([piece], rest)
  | none => chunks h.major limit b

def utf8? (b : Bytes) : Option String := String.fromUTF8? ⟨b.toArray⟩

def exactly {α : Type} (one : Reader α) : Nat → Reader (List α)
  | 0, b => some ([], b)
  | n + 1, b => do
    let (x, rest) ← one b
    let (xs, rest) ← exactly one n rest
    return (x :: xs, rest)

def untilStop {α : Type} (one : Reader α) : Nat → Reader (List α)
  | 0, _ => none
  | fuel + 1, b =>
    if b.head? = some stop then some ([], b.tail)
    else do
      let (x, rest) ← one b
      let (xs, rest) ← untilStop one fuel rest
      return (x :: xs, rest)

def several {α : Type} (limit : Nat) (one : Option (Reader α)) (h : Head) :
    Reader (List α) := fun b =>
  match h.argument, one with
  | some 0, _ => some ([], b)
  | some n, some one => exactly one n b
  | none, some one => untilStop one limit b
  | _, none => none

def pair (one : Reader Value) : Reader (Value × Value) := fun b => do
  let (k, rest) ← one b
  let (v, rest) ← one rest
  return ((k, v), rest)

/-- The value of a tagged item: tags two and three carry the octets of a large whole number, and
one says no more than that its content is CBOR. -/
def tagged (number : Nat) (content : Value) : Option Value :=
  if number = 55799 then some content
  else if number = 2 ∨ number = 3 then
    match content with
    | .bytes b =>
      let n : Nat := b.toNatBE
      some (.int (if number = 2 then (n : Int) else -1 - (n : Int)))
    | _ => none
  else some (.tag number content true)

def primitive (info argument : Nat) : Option Value :=
  match info with
  | 20 => some (.bool false)
  | 21 => some (.bool true)
  | 22 => some .null
  | 23 => some .undefined
  | 24 => if argument < 32 then none else some (.simple argument)
  | 25 => some (.float (Binary64.ofBinary16 argument))
  | 26 => some (.float (Binary64.ofBinary32 argument))
  | 27 => some (.float ⟨UInt64.ofNat argument⟩)
  | _ => some (.simple argument)

def itemWith (limit : Nat) (part : Option (Reader Value)) : Reader Value := fun b => do
  let (h, rest) ← head b
  match h.major with
  | 0 => return (.int (← h.argument), rest)
  | 1 => return (.int (-1 - ((← h.argument : Nat) : Int)), rest)
  | 2 =>
    let (ps, rest) ← pieces limit h rest
    return (.bytes ps.flatten, rest)
  | 3 =>
    let (ps, rest) ← pieces limit h rest
    let texts ← ps.mapM utf8?
    return (.text (String.join texts), rest)
  | 4 =>
    let (items, rest) ← several limit part h rest
    return (.array items, rest)
  | 5 =>
    let (entries, rest) ← several limit (part.map pair) h rest
    return (.map (Value.ofEntries entries), rest)
  | 6 =>
    let number ← h.argument
    let (content, rest) ← (← part) rest
    return (← tagged number content, rest)
  | _ => return (← primitive h.info (← h.argument), rest)

def item (limit : Nat) : Nat → Reader Value
  | 0 => itemWith limit none
  | depth + 1 => itemWith limit (some (item limit depth))

def maxDepth : Nat := 400

def decode (b : Bytes) : Option Value := (item b.length maxDepth b).map (·.1)

end Reflash.Cbor
