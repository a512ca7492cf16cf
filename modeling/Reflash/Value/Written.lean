import Reflash.Binary64.Shortest
import Reflash.Text.Quoted
import Reflash.Value

/-! Values as they are written in messages and logs. Text stands alone as it is
and in quotes inside another value, and a simple value stands alone as its code.
A fixed array has round brackets, and a fixed map is called one. -/

namespace Reflash.Value

def writtenBool (b : Bool) : String := if b then "True" else "False"

mutual

def quotedAs (fixed : Bool) : Value → String
  | .null => "None"
  | .undefined => "undefined"
  | .bool b => writtenBool b
  | .int i => Decimal.ofInt i
  | .float x => x.text
  | .bytes b => Text.quotedBytes b
  | .text s => Text.quoted s
  | .array items =>
    let inner := ", ".intercalate (quotedItems fixed items)
    if fixed then
      if items.length = 1 then "(" ++ inner ++ ",)" else "(" ++ inner ++ ")"
    else "[" ++ inner ++ "]"
  | .map entries =>
    let inner := "\x7b" ++ ", ".intercalate (quotedEntries fixed entries) ++ "\x7d"
    if fixed then "frozendict(" ++ inner ++ ")" else inner
  | .tag number content here =>
    "CBORTag(" ++ Nat.repr number ++ ", " ++ quotedAs (fixed || here) content ++ ")"
  | .simple code => "CBORSimpleValue(" ++ Nat.repr code ++ ")"
  | .other traits _ => traits.quoted

def quotedItems (fixed : Bool) : List Value → List String
  | [] => []
  | v :: rest => quotedAs fixed v :: quotedItems fixed rest

def quotedEntries (fixed : Bool) : Entries → List String
  | [] => []
  | (k, v) :: rest => (quotedAs true k ++ ": " ++ quotedAs fixed v) :: quotedEntries fixed rest

end

def quoted (v : Value) : String := quotedAs false v

def written : Value → String
  | .text s => s
  | .simple code => Nat.repr code
  | .other traits _ => traits.written
  | v => quoted v

mutual

def isWritable : Value → Bool
  | .int i => Decimal.isWritable i
  | .array items => itemsWritable items
  | .map entries => entriesWritable entries
  | .tag _ content _ => isWritable content
  | .other traits _ => traits.isWritable
  | _ => true

def itemsWritable : List Value → Bool
  | [] => true
  | v :: rest => isWritable v && itemsWritable rest

def entriesWritable : Entries → Bool
  | [] => true
  | (k, v) :: rest => isWritable k && isWritable v && entriesWritable rest

end

end Reflash.Value
