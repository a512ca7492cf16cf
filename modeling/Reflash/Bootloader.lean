import Reflash.Value.Written

/-! What the bootloader can do. A bootloader that names itself and its mode
tells whether slots are executed in place, so that a reset swaps nothing, and
whether an image can be tested and given up again; one that does not is taken to
swap and to revert. -/

namespace Reflash

inductive BootMode where
  | singleApp
  | swapScratch
  | overwriteOnly
  | swapWithoutScratch
  | directXip
  | directXipWithRevert
  | ramLoader
  deriving DecidableEq

namespace BootMode

def all : List BootMode :=
  [singleApp, swapScratch, overwriteOnly, swapWithoutScratch, directXip, directXipWithRevert,
    ramLoader]

def code : BootMode → Int
  | singleApp => 0
  | swapScratch => 1
  | overwriteOnly => 2
  | swapWithoutScratch => 3
  | directXip => 4
  | directXipWithRevert => 5
  | ramLoader => 6

def label : BootMode → String
  | singleApp => "Single App"
  | swapScratch => "Swap Scratch"
  | overwriteOnly => "Overwrite-only"
  | swapWithoutScratch => "Swap Without Scratch"
  | directXip => "Direct XIP Without Revert"
  | directXipWithRevert => "Direct XIP With Revert"
  | ramLoader => "RAM Loader"

def ofValue? (v : Value) : Option BootMode := all.find? fun m => v.same (.int m.code)

end BootMode

structure Capabilities where
  /-- Slots are executed in place, and a reset swaps nothing. -/
  noSwap : Value := .bool false
  /-- An image can be tested and is given up unless it is confirmed. -/
  allowRevert : Value := .bool true
  bootloader : Value := .null
  mode : Value := .null
  noDowngrade : Value := .bool false

namespace Capabilities

/-- Whether a value is a mode or unlike all of them. An array or a map, also under a tag that does
not fix it, is neither: it cannot be compared. -/
def isComparable : Value → Bool
  | .array _ | .map _ => false
  | .tag _ content fixed => fixed || isComparable content
  | _ => true

def ofMode? (bootloader mode noDowngrade : Value) : Option Capabilities :=
  let known := BootMode.ofValue? mode
  if isComparable mode then
    some {
      noSwap := .bool (known = some .directXip || known = some .directXipWithRevert)
      allowRevert := .bool (known ≠ some .directXip)
      bootloader, mode, noDowngrade }
  else none

def inPlace (c : Capabilities) : Bool := c.noSwap.isSet

def reverts (c : Capabilities) : Bool := c.allowRevert.isSet

def isAssumed (c : Capabilities) : Bool := c.mode matches .null

def labelOf : Value → String
  | .null => "Not reported"
  | mode =>
    match BootMode.ofValue? mode with
    | some known => known.label
    | none => "Unknown (" ++ mode.written ++ ")"

def modeLabel (c : Capabilities) : String := labelOf c.mode

def bootloaderName (c : Capabilities) (substitute : String) : String :=
  if c.bootloader.isSet then c.bootloader.written else substitute

end Capabilities
end Reflash
