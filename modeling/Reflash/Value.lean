import Reflash.Binary64
import Reflash.Bytes
import Reflash.Text.Numeral

/-! The values that a device and this library exchange: those of CBOR. A map
keeps the order in which its keys were first given. What a device may send in
place of a flag or a number is wide, so the module also says which values count
as set and which whole number, if any, a value stands for. A value is fixed where
it is a key, or lies under a tag that was read from octets: nothing can be added
to it, and it is written in its own way. How values are read from octets and
written to them is left to a codec. -/

namespace Reflash

namespace Value

inductive NotWhole where
  | noNumeral
  | infinite
  | tooGreat
  | noNumber (kind : String)
  deriving DecidableEq

def NotWhole.message : NotWhole → String
  | .noNumeral => "no whole number"
  | .infinite => "an infinite number is no whole number"
  | .tooGreat => "a whole number that is too great for the memory"
  | .noNumber kind => s!"a {kind} is no whole number"

/-- A failure of code that is not of this library, in its own words. It may blame the value that it
was given. -/
structure Mishap where
  text : String
  blamesValue : Bool
  deriving DecidableEq

inductive NotOctets where
  | wrongKind
  | negativeCount
  | beyondOctet
  | countTooLarge
  | noMemory
  | failed (mishap : Mishap)
  deriving DecidableEq

def NotOctets.message : NotOctets → String
  | wrongKind => "the digest is of a kind that gives no octets"
  | negativeCount => "negative count"
  | beyondOctet => "bytes must be in range(0, 256)"
  | countTooLarge => "the digest announces too many octets"
  | noMemory => "the digest announces more octets than there is memory for"
  | failed mishap => mishap.text

/-- What is seen of a value that is of no kind of its own here: a date, a fraction, a set. -/
structure Traits where
  kind : String
  isSet : Bool
  quoted : String
  written : String
  isWritable : Bool
  whole : NotWhole ⊕ Int
  equals? : Option Int
  octets : NotOctets ⊕ Bytes
  partFailure? : Option Mishap
  deriving DecidableEq

end Value

inductive Value where
  | null
  | undefined
  | bool (b : Bool)
  | int (i : Int)
  | float (x : Binary64)
  | bytes (b : Bytes)
  | text (s : String)
  | array (items : List Value)
  | map (entries : List (Value × Value))
  /-- A tag, whose content is fixed if the tag was read from octets. -/
  | tag (number : Nat) (content : Value) (fixed : Bool)
  | simple (code : Nat)
  /-- A value of any other kind, with the parts that it gives by their keys. -/
  | other (traits : Value.Traits) (parts : List (Value × Value))
  deriving Inhabited

namespace Value

abbrev Entries := List (Value × Value)

/-- Equality of numbers, where a flag is one or zero. A simple value equals the whole number of
its code, and no float. -/
def sameNumber : Value → Value → Bool
  | .float x, .float y => x.sameNumber y
  | .float x, .int j => x.whole? = some j
  | .float x, .bool b => x.whole? = some (if b then 1 else 0)
  | .int i, .float y => y.whole? = some i
  | .int i, .int j => i = j
  | .int i, .bool b => i = if b then 1 else 0
  | .bool a, .float y => y.whole? = some (if a then 1 else 0)
  | .bool a, .int j => (if a then 1 else 0) = j
  | .bool a, .bool b => a = b
  | .simple m, .simple n => m = n
  | .simple m, .int j => (m : Int) = j
  | .int i, .simple n => i = (n : Int)
  | .simple m, .bool b => m = if b then 1 else 0
  | .bool a, .simple n => (if a then 1 else 0) = n
  | .other t _, .int j => t.equals? = some j
  | .int i, .other t _ => t.equals? = some i
  | .other t _, .bool b => t.equals? = some (if b then 1 else 0)
  | .bool a, .other t _ => t.equals? = some (if a then 1 else 0)
  | _, _ => false

mutual

/-- Whether two values are the same key of a map: numbers of any form by their value, maps
whatever their order. -/
def same : Value → Value → Bool
  | .null, .null => true
  | .undefined, .undefined => true
  | .bytes a, .bytes b => a = b
  | .text a, .text b => a = b
  | .array a, .array b => sameItems a b
  | .map a, .map b => a.length = b.length && sameEntries a b
  | .tag m a _, .tag n b _ => m = n && same a b
  | .other s a, .other t b => s = t && a.length = b.length && sameEntries a b
  | a, b => sameNumber a b

def sameItems : List Value → List Value → Bool
  | [], [] => true
  | a :: as, b :: bs => same a b && sameItems as bs
  | _, _ => false

def sameEntries : Entries → Entries → Bool
  | [], _ => true
  | (k, v) :: rest, b =>
    (match b.find? fun e => same k e.1 with
    | some e => same v e.2
    | none => false) && sameEntries rest b

end

def insert (key value : Value) : Entries → Entries
  | [] => [(key, value)]
  | (k, v) :: rest => if same k key then (k, value) :: rest else (k, v) :: insert key value rest

def ofEntries (entries : Entries) : Entries :=
  entries.foldl (fun m e => insert e.1 e.2 m) []

def find? (key : Value) (entries : Entries) : Option Value :=
  (entries.find? fun e => same e.1 key).map (·.2)

def get? (key : String) (entries : Entries) : Option Value := find? (.text key) entries

def isSet : Value → Bool
  | .null | .undefined => false
  | .bool b => b
  | .int i => i ≠ 0
  | .float x => !x.isZero
  | .bytes b => !b.isEmpty
  | .text s => !s.isEmpty
  | .array items => !items.isEmpty
  | .map entries => !entries.isEmpty
  | .tag .. | .simple _ => true
  | .other traits _ => traits.isSet

def kind : Value → String
  | .null => "NoneType"
  | .undefined => "UndefinedType"
  | .bool _ => "bool"
  | .int _ => "int"
  | .float _ => "float"
  | .bytes _ => "bytes"
  | .text _ => "str"
  | .array _ => "list"
  | .map _ => "dict"
  | .tag .. => "CBORTag"
  | .simple _ => "CBORSimpleValue"
  | .other traits _ => traits.kind

def isOctetMargin (c : Char) : Bool := (9 ≤ c.toNat && c.toNat ≤ 13) || c = ' '

def octetDigit? (c : Char) : Option Nat :=
  if '0' ≤ c && c ≤ '9' then some (c.toNat - 48) else none

def decimalOctets? (b : Bytes) : Option Int :=
  Text.decimalWith octetDigit? (Text.trimWhile isOctetMargin (b.map fun x => Char.ofNat x.toNat))

def toInt : Value → Except NotWhole Int
  | .bool b => .ok (if b then 1 else 0)
  | .int i => .ok i
  | .float x =>
    match x.truncate? with
    | some i => .ok i
    | none => .error (if x.isNaN then .noNumeral else .infinite)
  | .text s =>
    match Text.decimal? s with
    | some i => .ok i
    | none => .error .noNumeral
  | .bytes b =>
    match decimalOctets? b with
    | some i => .ok i
    | none => .error .noNumeral
  | .other traits _ => traits.whole.elim .error .ok
  | v => .error (.noNumber v.kind)

end Value

namespace Cbor

inductive Failure where
  | malformed
  /-- A key, a place or a kind was wrong in the course of reading. -/
  | unfit (text : String)
  | broken (mishap : Value.Mishap)
  deriving DecidableEq

structure Codec where
  decode : Bytes → Except Failure Value
  encode : Value → Except String Bytes

/-- What is written for a value is read as that value. -/
def Codec.Inverts (codec : Codec) (v : Value) : Prop :=
  ∀ b, codec.encode v = .ok b → codec.decode b = .ok v

theorem inverts_of_decode {codec : Codec} {v : Value} {b : Bytes} (hencode : codec.encode v = .ok b)
    (hdecode : codec.decode b = .ok v) : codec.Inverts v := by
  intro b' hencode'
  cases hencode.symm.trans hencode'
  exact hdecode

end Cbor
end Reflash
