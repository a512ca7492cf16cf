import Reflash.Value
import Reflash.Text.Numeral
import Reflash.Binary64.Shortest

/-! What is shown to the user: lines of text, headings in a panel, tables and
records for other programs. -/

namespace Reflash

namespace Value

def recordLayout : Binary64.Layout :=
  { Binary64.Layout.standard with nan := "NaN", infinity := "Infinity" }

inductive Unprintable where
  | value (kind : String)
  | key (kind : String)
  deriving DecidableEq

def Unprintable.message : Unprintable → String
  | value kind => "Object of type " ++ kind ++ " is not JSON serializable"
  | key kind => "keys must be str, int, float, bool or None, not " ++ kind

def keyKind : Value → String
  | .array _ => "tuple"
  | .map _ => "frozendict"
  | v => v.kind

def keyText : Value → Except Unprintable String
  | .text s => .ok s
  | .int i => .ok (Decimal.ofInt i)
  | .bool b => .ok (if b then "true" else "false")
  | .null => .ok "null"
  | .float x => .ok (x.text recordLayout)
  | v => .error (.key v.keyKind)

mutual

/-- The value in the form of a record for other programs: no octets, tags or other values of
CBOR alone, and text for every key of a map. The first that has no such form is named. -/
def plain : Value → Except Unprintable Value
  | .array vs => (plainItems vs).map .array
  | .map entries => (plainEntries entries).map fun es => .map (ofEntries es)
  | .null => .ok .null
  | .bool b => .ok (.bool b)
  | .int i => .ok (.int i)
  | .float x => .ok (.float x)
  | .text s => .ok (.text s)
  | v => .error (.value v.kind)

def plainItems : List Value → Except Unprintable (List Value)
  | [] => .ok []
  | v :: rest => do
    let v ← plain v
    return v :: (← plainItems rest)

def plainEntries : Entries → Except Unprintable Entries
  | [] => .ok []
  | (k, v) :: rest => do
    let name ← keyText k
    let v ← plain v
    return (.text name, v) :: (← plainEntries rest)

end

end Value

namespace Console

inductive Style where
  | green
  | yellow
  | red
  | blue
  | cyan
  deriving DecidableEq

def Style.name : Style → String
  | green => "green"
  | yellow => "yellow"
  | red => "red"
  | blue => "blue"
  | cyan => "cyan"

inductive Item where
  | text (content : String) (style : Option Style)
  | panel (content : String)
  | table (title : String) (headers : List String) (rows : List (List String))
  | record (content : Value)

def success (s : String) : Item := .text ("✓ " ++ s) (some .green)

def warning (s : String) : Item := .text ("⚠️  " ++ s) (some .yellow)

def failure (s : String) : Item := .text ("❌ " ++ s) (some .red)

end Console
end Reflash
