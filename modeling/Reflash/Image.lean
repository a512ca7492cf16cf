import Reflash.Image.McuBoot
import Reflash.Image.Suit

/-! Images: what is sent to the device, with the digest that the device will
report once it is stored. How an image comes into use depends on its format. -/

namespace Reflash

namespace Image

inductive Format where
  | plain
  | raw (confirmed : Bool)
  | mcuBoot (header : Option McuBoot.Header)
  | suit
  deriving DecidableEq

inductive Fault where
  | emptyHash
  | mcuBoot (fault : McuBoot.Fault)
  | suit (fault : Suit.Fault)
  deriving DecidableEq

def Fault.message : Fault → String
  | emptyHash => "image hash must not be empty"
  | mcuBoot fault => fault.message
  | suit fault => fault.message

end Image

structure Image where
  format : Image.Format
  data : Bytes
  hash : Bytes
  hash_ne_nil : hash ≠ []
  deriving DecidableEq

namespace Image

def make (format : Format) (data hash : Bytes) : Except Fault Image :=
  if h : hash ≠ [] then .ok ⟨format, data, hash, h⟩ else .error .emptyHash

/-- Whether the image runs once after a test and is given up unless it is confirmed. -/
def needsConfirmation (image : Image) : Bool :=
  match image.format with
  | .plain | .mcuBoot _ => true
  | .raw confirmed => confirmed
  | .suit => false

def requiresActivation (image : Image) : Bool := image.format = .suit

def size (image : Image) : Nat := image.data.length

def header? (image : Image) : Option McuBoot.Header :=
  match image.format with
  | .mcuBoot header => header
  | _ => none

def version? (image : Image) : Option McuBoot.Version := image.header?.map (·.version)

def ofMcuBoot (file : Bytes) : Except Fault Image := do
  let (header, hash) ← (McuBoot.digest file).mapError .mcuBoot
  make (.mcuBoot header) file hash

def ofSuit (codec : Cbor.Codec) (room : Suit.Room) (file : Bytes) : Except Fault Image := do
  let hash ← (Suit.digest codec room file).mapError .suit
  make .suit file hash

end Image
end Reflash
