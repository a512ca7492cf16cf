import Reflash.Value

/-! Equality of values can be decided: two values are equal if they are of the
same form with equal parts. Values that are the same key need not be equal. -/

namespace Reflash.Value

mutual

def alike : Value → Value → Bool
  | .null, .null => true
  | .undefined, .undefined => true
  | .bool a, .bool b => a = b
  | .int a, .int b => a = b
  | .float a, .float b => a = b
  | .bytes a, .bytes b => a = b
  | .text a, .text b => a = b
  | .array a, .array b => alikeItems a b
  | .map a, .map b => alikeEntries a b
  | .tag m a f, .tag n b g => m = n && alike a b && f = g
  | .simple m, .simple n => m = n
  | .other s a, .other t b => s = t && alikeEntries a b
  | _, _ => false

def alikeItems : List Value → List Value → Bool
  | [], [] => true
  | a :: as, b :: bs => alike a b && alikeItems as bs
  | _, _ => false

def alikeEntries : Entries → Entries → Bool
  | [], [] => true
  | (k, v) :: as, (l, w) :: bs => alike k l && alike v w && alikeEntries as bs
  | _, _ => false

end

mutual

theorem alike_iff : ∀ a b : Value, alike a b = true ↔ a = b
  | .array a, b => by cases b <;> simp [alike, alikeItems_iff a]
  | .map a, b => by cases b <;> simp [alike, alikeEntries_iff a]
  | .tag m a f, b => by cases b <;> simp [alike, alike_iff a, and_assoc]
  | .other t a, b => by cases b <;> simp [alike, alikeEntries_iff a]
  | .null, b | .undefined, b | .bool _, b | .int _, b | .float _, b | .bytes _, b | .text _, b
  | .simple _, b => by cases b <;> simp [alike]

theorem alikeItems_iff : ∀ a b : List Value, alikeItems a b = true ↔ a = b
  | [], b => by cases b <;> simp [alikeItems]
  | a :: as, b => by cases b <;> simp [alikeItems, alike_iff a, alikeItems_iff as]

theorem alikeEntries_iff : ∀ a b : Entries, alikeEntries a b = true ↔ a = b
  | [], b => by cases b <;> simp [alikeEntries]
  | (k, v) :: as, [] => by simp [alikeEntries]
  | (k, v) :: as, (l, w) :: bs => by
    simp [alikeEntries, alike_iff k, alike_iff v, alikeEntries_iff as]

end

instance : DecidableEq Value := fun a b => decidable_of_iff _ (alike_iff a b)

end Reflash.Value
