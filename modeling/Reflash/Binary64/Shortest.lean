import Reflash.Binary64

/-! The shortest decimal text of a floating-point number: the fewest digits that
read back as the same number, and of those the digits nearest to it. The search
works on exact fractions. A number of more digits is tried only when neither
neighbour of the value on the coarser decimal grid rounds to it. -/

namespace Reflash.Binary64

structure Scaled where
  digits : Nat
  exponent : Int

/-- A positive fraction with the two ends of the interval that rounds to it, all over one
denominator; the ends count when `closed`. -/
structure Interval where
  low : Nat
  value : Nat
  high : Nat
  denominator : Nat
  closed : Bool

def Interval.of (m e : Nat) : Interval :=
  let unit := Nat.pow 2 e
  let below := if m = Nat.pow 2 52 && 0 < e then 1 else 2
  { low := (4 * m - below) * unit, value := 4 * m * unit, high := (4 * m + 2) * unit,
    denominator := 4 * Nat.pow 2 1074, closed := m % 2 = 0 }

def Interval.contains (i : Interval) (d : Nat) (k : Int) : Bool :=
  let (up, down) := (Nat.pow 10 k.toNat, Nat.pow 10 (-k).toNat)
  let x := d * up * i.denominator
  let (low, high) := (i.low * down, i.high * down)
  (low < x && x < high) || (i.closed && (x = low || x = high))

def Interval.place (i : Interval) : Int :=
  let whole := i.value / i.denominator
  if whole ≠ 0 then (Nat.toDigits 10 whole).length - 1
  else
    let ceiling := (i.denominator + i.value - 1) / i.value
    Int.neg (Nat.toDigits 10 (ceiling - 1)).length

/-- The value's neighbours among the multiples of `10 ^ k` that round to it, the nearer one; of
two at the same distance the even one. -/
def Interval.nearest? (i : Interval) (k : Int) : Option Nat :=
  let (up, down) := (Nat.pow 10 k.toNat, Nat.pow 10 (-k).toNat)
  let unit := up * i.denominator
  let value := i.value * down
  let below := value / unit
  let rest := value % unit
  let takeBelow := 0 < below && i.contains below k
  let takeAbove := i.contains (below + 1) k
  if takeBelow && takeAbove then
    if 2 * rest < unit || (2 * rest = unit && below % 2 = 0) then some below else some (below + 1)
  else if takeBelow then some below
  else if takeAbove then some (below + 1)
  else none

def Interval.search (i : Interval) (place : Int) : Nat → Scaled
  | 0 => ⟨0, 0⟩
  | more + 1 =>
    let k := place - (16 - more)
    match i.nearest? k with
    | some d => ⟨d, k⟩
    | none => search i place more

def shortest (m e : Nat) : Scaled :=
  let i := Interval.of m e
  i.search i.place 17

structure Layout where
  leastPlain : Int
  greatestPlain : Int
  exponentDigits : Nat
  nan : String
  infinity : String

def Layout.standard : Layout :=
  { leastPlain := -4, greatestPlain := 15, exponentDigits := 2, nan := "nan", infinity := "inf" }

def significant (ds : List Char) : List Char := (ds.reverse.dropWhile (· = '0')).reverse

def Layout.write (l : Layout) (ds : List Char) (place : Int) : List Char :=
  if l.leastPlain ≤ place && place ≤ l.greatestPlain then
    if place < 0 then
      '0' :: '.' :: List.replicate ((-place).toNat - 1) '0' ++ ds
    else
      let front := place.toNat + 1
      let whole := ds.take front ++ List.replicate (front - ds.length) '0'
      let rest := ds.drop front
      whole ++ '.' :: (if rest.isEmpty then ['0'] else rest)
  else
    let mantissa := match ds with
      | d :: rest => if rest.isEmpty then [d] else d :: '.' :: rest
      | [] => []
    let exponent := Nat.toDigits 10 place.natAbs
    mantissa ++ 'e' :: (if place < 0 then '-' else '+') ::
      List.replicate (l.exponentDigits - exponent.length) '0' ++ exponent

def text (x : Binary64) (l : Layout := Layout.standard) : String :=
  if x.isNaN then l.nan
  else
    let body :=
      if x.isInfinite then l.infinity.toList
      else if x.isZero then ['0', '.', '0']
      else
        let d := shortest x.magnitude.1 x.magnitude.2
        let all := Nat.toDigits 10 d.digits
        l.write (significant all) (d.exponent + (all.length - 1))
    String.ofList (if x.isNegative then '-' :: body else body)

end Reflash.Binary64
