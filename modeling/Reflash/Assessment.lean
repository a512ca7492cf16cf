import Reflash.Bootloader
import Reflash.Bundle
import Reflash.Step

/-! What to do about one image. The slots of its core are looked through until
one holds the image already; on the way, slots that stand where the image should
go say whether it can be sent at all and whether the device has to be reset
first. The mode and the bootloader then decide on the steps. -/

namespace Reflash

inductive UpgradeMode where
  | none
  | testOnly
  | confirmOnly
  | testAndConfirm
  deriving DecidableEq

namespace UpgradeMode

def all : List UpgradeMode := [none, testOnly, confirmOnly, testAndConfirm]

def name : UpgradeMode → String
  | none => "NONE"
  | testOnly => "TEST_ONLY"
  | confirmOnly => "CONFIRM_ONLY"
  | testAndConfirm => "TEST_AND_CONFIRM"

def word : UpgradeMode → String
  | none => "none"
  | testOnly => "test"
  | confirmOnly => "confirm"
  | testAndConfirm => "test-and-confirm"

end UpgradeMode

structure Assessment where
  target : Target
  found : Bool := false
  skip : Bool := false
  pending : Bool := false
  permanent : Bool := false
  confirmed : Bool := false
  active : Bool := false
  resetRequired : Bool := false
  initialResetRequired : Bool := false
  steps : List Step := []
  deriving DecidableEq

namespace Assessment

/-- The copy of the image in a slot. A copy that is confirmed where the image should go comes
back by a reset, unless the bootloader does not swap. -/
def foundIn (a : Assessment) (s : Slot) (noSwap : Bool) : Assessment :=
  { a with
    found := true
    pending := s.pending
    permanent := s.permanent
    confirmed := s.confirmed
    active := s.active
    resetRequired := a.resetRequired ||
      (a.target.image.needsConfirmation && s.confirmed && s.number = a.target.slot && !noSwap) }

/-- Another image where the image should go. An active one cannot be overwritten; one that is
pending or confirmed waits for a reset; any other is left over. -/
def against (a : Assessment) (s : Slot) : Assessment :=
  if s.active then { a with skip := true }
  else if s.pending || s.confirmed then { a with initialResetRequired := true }
  else a

def look (noSwap : Bool) (a : Assessment) : List Slot → Assessment
  | [] => a
  | s :: rest =>
    if s.core ≠ a.target.core then look noSwap a rest
    else if s.hash = a.target.hash then a.foundIn s noSwap
    else if s.number = a.target.slot then look noSwap (a.against s) rest
    else look noSwap a rest

def scan (target : Target) (slots : List Slot) (noSwap : Bool) : Assessment :=
  look noSwap { target } slots

def obstacles (target : Target) (slots : List Slot) : List Slot :=
  ((slots.filter fun s => s.core = target.core).takeWhile fun s => s.hash ≠ target.hash).filter
    fun s => s.number = target.slot && s.active

def emit (a : Assessment) (step : Step) : Assessment := { a with steps := a.steps ++ [step] }

def decideUpload (c : Capabilities) (mode : UpgradeMode) (a : Assessment) : Assessment :=
  if a.found then a
  else
    let a := a.emit (.upload a.target.image.data a.target.core)
    if a.target.image.needsConfirmation && (!c.reverts || mode = .none) then
      { a with resetRequired := true }
    else a

def decideTest (a : Assessment) : Assessment :=
  let a :=
    if !a.pending && !a.confirmed && !a.active then
      { a.emit (.test a.target.hash) with pending := true }
    else a
  if a.pending then { a with resetRequired := true } else a

def decideLateConfirm (a : Assessment) : Assessment :=
  if !a.permanent && !a.confirmed then a.emit (.confirmAfterReset a.target.hash) else a

def decideConfirm (a : Assessment) : Assessment :=
  let a :=
    if !a.permanent && !a.confirmed then
      { a.emit (.confirm (some a.target.hash)) with permanent := true }
    else a
  if a.permanent then { a with resetRequired := true } else a

/-- How an image that needs confirmation comes into use where the bootloader can revert. -/
def decideByMode (mode : UpgradeMode) (a : Assessment) : Assessment :=
  match mode with
  | .none => a
  | .testOnly => a.decideTest
  | .testAndConfirm => a.decideTest.decideLateConfirm
  | .confirmOnly => a.decideConfirm

def decide (c : Capabilities) (mode : UpgradeMode) (a : Assessment) : Assessment :=
  if a.skip then a
  else
    let a := a.decideUpload c mode
    if a.target.image.needsConfirmation then
      if c.reverts then a.decideByMode mode else a
    else if a.target.image.requiresActivation then a.emit (.confirm none)
    else a

end Assessment
end Reflash
