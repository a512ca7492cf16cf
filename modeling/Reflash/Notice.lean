/-! Notices: what a plan tells its reader beside the steps. Each kind of notice
has a code that stays, a title and a piece of advice. -/

namespace Reflash

inductive Severity where
  | info
  | warning
  | error
  deriving DecidableEq

def Severity.name : Severity → String
  | info => "info"
  | warning => "warn"
  | error => "error"

namespace Notice

inductive Code where
  | bootloaderFallback
  | coreUpToDate
  | imageSkipped
  | resetBeforeUpload
  | noRevert
  | noActivation
  | slotQueryFailed
  deriving DecidableEq

namespace Code

def all : List Code :=
  [bootloaderFallback, coreUpToDate, imageSkipped, resetBeforeUpload, noRevert, noActivation,
    slotQueryFailed]

def name : Code → String
  | bootloaderFallback => "W_BOOTLOADER_FALLBACK"
  | coreUpToDate => "W_CORE_UP_TO_DATE"
  | imageSkipped => "W_IMAGE_SKIPPED"
  | resetBeforeUpload => "W_RESET_BEFORE_UPLOAD"
  | noRevert => "W_NO_REVERT"
  | noActivation => "W_NO_ACTIVATION"
  | slotQueryFailed => "W_SLOT_QUERY_FAILED"

def title : Code → String
  | bootloaderFallback => "Bootloader mode unknown, assuming swap with revert"
  | coreUpToDate => "Core already runs the requested firmware"
  | imageSkipped => "Target slot is active, image skipped"
  | resetBeforeUpload => "Device will be reset before uploading"
  | noRevert => "Bootloader cannot revert, image is activated by reset only"
  | noActivation => "Image needs no confirmation and has no activation step"
  | slotQueryFailed => "Could not read image slots"

def remediation : Code → String
  | bootloaderFallback =>
    "Older firmware does not support bootloader info. Legacy swap behaviour is used."
  | coreUpToDate => "Nothing to do for this core. Remove the image to silence this note."
  | imageSkipped => "Run the plan again after the device has booted from the other slot."
  | resetBeforeUpload =>
    "A previous test or confirm was never followed by a reset. The reset clears it."
  | noRevert => "Verify the image on a spare device first; a bad image cannot be rolled back."
  | noActivation =>
    "The image is only uploaded. Reset the device manually if the format requires it."
  | slotQueryFailed => "Check the connection and that the image management group is enabled."

end Code
end Notice

structure Notice where
  code : Notice.Code
  severity : Severity := .warning
  title : String := code.title
  detail : String := ""
  deriving DecidableEq

namespace Notice

def titled (code : Code) (severity : Severity) (title detail : String) : Notice where
  code
  severity
  title := if title = "" then code.title else title
  detail

def remediation (n : Notice) : String := n.code.remediation

def headline (n : Notice) : String :=
  if n.detail = "" then n.title else n.title ++ ": " ++ n.detail

end Notice
end Reflash
