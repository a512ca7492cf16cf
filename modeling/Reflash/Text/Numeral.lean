import Reflash.Text.Character

/-! Whole numbers in text. A numeral is a run of digits in which single
underscores may stand between two digits; a decimal one may have a sign, blanks
around it and at most `Decimal.maxDigits` digits, a hexadecimal one follows its
`0x` and has no bound. Numbers with more decimal digits are not written either. -/

namespace Reflash

namespace Decimal

/-- The default of a setting of the surroundings, which the program leaves as it finds it. -/
def maxDigits : Nat := 4300

def ofInt : Int → String
  | .ofNat n => Nat.repr n
  | .negSucc n => "-" ++ Nat.repr (n + 1)

def isWritable (i : Int) : Bool := i.natAbs < Nat.pow 10 maxDigits

def group (digits : List Char) : List Char :=
  match digits with
  | [] => []
  | d :: rest =>
    if rest.length % 3 = 0 && !rest.isEmpty then d :: ',' :: group rest else d :: group rest

def grouped (n : Nat) : String := String.ofList (group (Nat.toDigits 10 n))

end Decimal

namespace Text

/-- The digits of a numeral; `inRun` says whether the character before was a digit. -/
def digitsFrom (value : Char → Option Nat) (inRun : Bool) : List Char → Option (List Nat)
  | [] => if inRun then some [] else none
  | c :: rest =>
    if c = '_' then
      if inRun then digitsFrom value false rest else none
    else
      match value c with
      | none => none
      | some d => (digitsFrom value true rest).map (d :: ·)

def digits? (value : Char → Option Nat) (s : List Char) : Option (List Nat) :=
  digitsFrom value false s

def ofDigits (base : Nat) (ds : List Nat) : Nat := ds.foldl (fun n d => n * base + d) 0

def sign : List Char → Bool × List Char
  | '-' :: rest => (true, rest)
  | '+' :: rest => (false, rest)
  | rest => (false, rest)

def isMargin (c : Char) : Bool := isBlank c && !(28 ≤ c.toNat && c.toNat ≤ 31)

def decimalWith (value : Char → Option Nat) (s : List Char) : Option Int :=
  let (negative, body) := sign s
  match digits? value body with
  | none => none
  | some ds =>
    if ds.length ≤ Decimal.maxDigits then
      let n := ofDigits 10 ds
      some (if negative then -(n : Int) else n)
    else none

def decimal? (s : String) : Option Int := decimalWith digitValue? (trimWhile isMargin s.toList)

def hexadecimal? (s : List Char) : Option Nat :=
  let body := match s with
    | '_' :: rest => rest
    | _ => s
  (digits? hexDigitValue? body).map (ofDigits 16)

end Text
end Reflash
