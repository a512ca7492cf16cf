/-! Log entries. An entry names the part of the program that made it; a reader
keeps those that reach a threshold. -/

namespace Reflash.Log

inductive Level where
  | debug
  | info
  | error
  deriving DecidableEq

def Level.name : Level → String
  | debug => "DEBUG"
  | info => "INFO"
  | error => "ERROR"

def Level.rank : Level → Int
  | debug => 10
  | info => 20
  | error => 40

inductive Source where
  | link
  | client
  | probe
  | planner
  | agenda
  | validation
  deriving DecidableEq

def Source.name : Source → String
  | link => "smp_dfu.protocol.smp_transport"
  | client => "smp_dfu.protocol.smp_client"
  | probe => "smp_dfu.core.probe"
  | planner => "smp_dfu.core.planner"
  | agenda => "smp_dfu.core.sequencer"
  | validation => "smp_dfu.core.actions"

structure Entry where
  level : Level
  source : Source
  text : String
  deriving DecidableEq

def Entry.line (e : Entry) : String := e.level.name ++ " " ++ e.source.name ++ ": " ++ e.text

def threshold (level : Int) : Int :=
  if level = 0 ∨ level = 30 ∨ level = 40 ∨ level = 50 then Level.info.rank else level

def lines (least : Int) (entries : List Entry) : List String :=
  (entries.filter fun e => least ≤ e.level.rank).map Entry.line

end Reflash.Log
