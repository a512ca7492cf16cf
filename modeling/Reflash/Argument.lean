import Reflash.Assessment
import Reflash.Text.Character
import Reflash.Text.Numeral

/-! Arguments as users write them: numbers, modes, images with their destination
in front, and cache images with their partition. -/

namespace Reflash.Argument

inductive Fault where
  | badNumber (text : String)
  | emptyMode
  | unknownMode (text : String)
  | badImage (text : String)
  | noImagePath (text : String)
  | negative (text : String)
  | badCache (text : String)
  | noCachePath (text : String)
  deriving DecidableEq

def modeWords : List (String × UpgradeMode) :=
  [("confirm", .confirmOnly), ("confirm-only", .confirmOnly), ("none", .none), ("test", .testOnly),
    ("test-and-confirm", .testAndConfirm), ("test-only", .testOnly), ("upload", .none)]

def Fault.message : Fault → String
  | badNumber text => "Invalid number '" ++ text ++ "'. Use decimal (1) or hex (0x1)."
  | emptyMode => "Upgrade mode must not be empty"
  | unknownMode text =>
    "Unknown upgrade mode '" ++ text ++ "'. Valid: " ++ ", ".intercalate (modeWords.map Prod.fst)
  | badImage text => "Invalid image target '" ++ text ++ "'. Use [INDEX[:SLOT]=]PATH."
  | noImagePath text => "Missing image path in '" ++ text ++ "'"
  | negative text => "Image index and slot must be >= 0 in '" ++ text ++ "'"
  | badCache text => "Invalid cache image '" ++ text ++ "'. Use PARTITION=PATH."
  | noCachePath text => "Missing cache image path in '" ++ text ++ "'"

def number? (s : List Char) : Option Int :=
  match s with
  | '0' :: x :: rest =>
    if x = 'x' || x = 'X' then (Text.hexadecimal? rest).map Int.ofNat
    else Text.decimalWith Text.digitValue? s
  | _ => Text.decimalWith Text.digitValue? s

def number (s : List Char) : Except Fault Int :=
  let inner := Text.trimWhile Text.isBlank s
  match number? inner with
  | some i => .ok i
  | none => .error (.badNumber (String.ofList inner))

def mode (text : String) : Except Fault UpgradeMode :=
  let key := Text.strip text
  if key = "" then .error .emptyMode
  else
    match UpgradeMode.all.find? fun m => m.name = Text.upper key with
    | some m => .ok m
    | none =>
      let word := (Text.lower key).map fun c => if c = '_' then '-' else c
      match modeWords.lookup word with
      | some m => .ok m
      | none => .error (.unknownMode text)

def cutAt? (c : Char) : List Char → Option (List Char × List Char)
  | [] => none
  | x :: rest =>
    if x = c then some ([], rest) else (cutAt? c rest).map fun (a, b) => (x :: a, b)

structure ImageArgument where
  core : Int := 0
  slot : Int := secondarySlot
  path : String
  deriving DecidableEq

def destination (whole : String) (s : List Char) : Except Fault (Int × Int) :=
  match cutAt? ':' s with
  | none =>
    if s.isEmpty then .error (.badImage whole)
    else (number s).map fun core => (core, secondarySlot)
  | some (first, second) =>
    if first.isEmpty || second.contains ':' then .error (.badImage whole)
    else do
      let core ← number first
      let slot ← number second
      return (core, slot)

def image (text : String) : Except Fault ImageArgument :=
  let inner := Text.trimWhile Text.isBlank text.toList
  let whole := String.ofList inner
  match cutAt? '=' inner with
  | none => if inner.isEmpty then .error (.noImagePath whole) else .ok { path := whole }
  | some (front, path) => do
    let (core, slot) ← destination whole front
    if path.isEmpty then throw (.noImagePath whole)
    if core < 0 || slot < 0 then throw (.negative whole)
    return { core, slot, path := String.ofList path }

structure CacheArgument where
  partition : Int
  path : String
  deriving DecidableEq

def cache (text : String) : Except Fault CacheArgument :=
  match cutAt? '=' text.toList with
  | none => .error (.badCache text)
  | some (front, path) =>
    let inner := Text.trimWhile Text.isBlank path
    if inner.isEmpty then .error (.noCachePath text)
    else do
      let partition ← number front
      return { partition, path := String.ofList inner }

end Reflash.Argument
