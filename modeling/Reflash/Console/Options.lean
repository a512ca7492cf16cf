import Reflash.Console.Command
import Reflash.Serial.Link

/-! The words of a command line. -/

namespace Reflash.Console

inductive Command where
  | ports
  | probe
  | slots
  | plan
  deriving DecidableEq

structure Invocation where
  command : Command
  settings : Serial.Settings
  options : PlanOptions

namespace Invocation

def usage : String :=
  "usage: ports | probe OPTIONS | slots OPTIONS | plan OPTIONS IMAGE...\n" ++
  "  --port PORT  --baud NUMBER  --timeout SECONDS  --verbose\n" ++
  "  --mode MODE  --erase-settings  --cache PARTITION=PATH  --json  --summary"

def command? : String → Option Command
  | "ports" => some .ports
  | "probe" => some .probe
  | "slots" => some .slots
  | "plan" => some .plan
  | _ => none

def seconds? (s : String) : Option Binary64 :=
  let (whole, part) := (Argument.cutAt? '.' s.toList).getD (s.toList, [])
  match Text.digits? Text.digitValue? (whole ++ part) with
  | none => none
  | some ds => some ⟨(Float.ofScientific (Text.ofDigits 10 ds) true part.length).toBits⟩

def switch? (o : PlanOptions) : String → Option PlanOptions
  | "--verbose" | "-v" => some { o with verbose := true }
  | "--erase-settings" => some { o with eraseSettings := true }
  | "--json" | "-j" => some { o with asRecord := true }
  | "--summary" | "-s" => some { o with asSummary := true }
  | _ => none

def assign? (i : Invocation) (value : String) : String → Option Invocation
  | "--port" | "-p" => some { i with settings := { i.settings with name := value } }
  | "--baud" | "-b" =>
    (Argument.number value.toList).toOption.map fun baud =>
      { i with settings := { i.settings with baud } }
  | "--timeout" =>
    (seconds? value).map fun timeout => { i with settings := { i.settings with timeout } }
  | "--mode" | "-m" => some { i with options := { i.options with mode := value } }
  | "--cache" =>
    some { i with options := { i.options with caches := i.options.caches ++ [value] } }
  | _ => none

def readFrom (i : Invocation) (waiting : Option String) : List String → Option Invocation
  | [] => if waiting.isNone then some i else none
  | word :: rest =>
    match waiting with
    | some name => (i.assign? word name).bind fun i => readFrom i none rest
    | none =>
      match switch? i.options word with
      | some options => readFrom { i with options } none rest
      | none =>
        if word.startsWith "-" then readFrom i (some word) rest
        else
          readFrom { i with options := { i.options with images := i.options.images ++ [word] } }
            none rest

def ofWords? : List String → Option Invocation
  | [] => none
  | word :: rest => do
    let command ← command? word
    let i ← readFrom ⟨command, { name := "" }, { images := [] }⟩ none rest
    if command ≠ .ports && i.settings.name = "" then none else some i

end Invocation
end Reflash.Console
