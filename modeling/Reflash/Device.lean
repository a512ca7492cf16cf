import Reflash.Bootloader
import Reflash.Smp.Client

/-! The two things that planning asks of a device: what its bootloader is, and
what its slots hold. A device is anything that answers both; here it is one that
is reached by requests over a link. Only a bootloader that says that it is MCUboot
is asked for its mode, and whatever fails on the way leaves the capabilities that
are assumed of devices that answer neither question. -/

namespace Reflash

structure BootloaderInfo where
  bootloader : Value := .null
  mode : Value := .null
  noDowngrade : Value := .bool false

abbrev Query := Option String

def modeQuery : Query := some "mode"

structure Device (σ : Type) where
  bootloaderInfo : Query → Action σ BootloaderInfo
  listImages : Action σ (Option (List Slot))

namespace Smp

def readOp : Int := 0

def systemGroup : Int := 0

def imageGroup : Int := 1

def bootloaderInfoCommand : Int := 8

def imageStateCommand : Int := 0

def bootloaderInfoRequest (query : Query) : Request where
  op := readOp
  group := systemGroup
  command := bootloaderInfoCommand
  payload := .map ((query.toList.filter (· ≠ "")).map fun name => (.text "query", .text name))

def imageStateRequest : Request where
  op := readOp
  group := imageGroup
  command := imageStateCommand

def bootloaderInfoOf (entries : Value.Entries) : Except ReplyFault BootloaderInfo :=
  let info (mode : Value) : BootloaderInfo :=
    { bootloader := (Value.get? "bootloader" entries).getD .null
      mode
      noDowngrade := .bool (((Value.get? "no-downgrade" entries).map Value.isSet).getD false) }
  match (Value.get? "mode" entries).getD .null with
  | .null => .ok (info .null)
  | .int i => .ok (info (.int i))
  | .bool b => .ok (info (.bool b))
  | mode => .error (.badMode mode)

def slotFault : Slot.Fault → Fault
  | .badNumber .infinite => .notWhole .infinite
  | .badNumber .tooGreat => .notWhole .tooGreat
  | cause => .smp (.reply (.badSlot cause))

def slotsOf (entries : Value.Entries) : Except Fault (Option (List Slot)) :=
  match (Value.get? "images" entries).getD .null with
  | .null => .ok none
  | .array items => ((items.mapM Slot.ofEntry).map some).mapError slotFault
  | v => .error (.smp (.reply (.imagesNoList v.kind)))

namespace Client

variable {σ : Type}

def device (codec : Cbor.Codec) (transport : Transport σ) : Device (Client σ) where
  bootloaderInfo query := do
    let entries ← request codec transport (bootloaderInfoRequest query)
    Action.ofExcept ((bootloaderInfoOf entries).mapError fun f => Fault.smp (.reply f))
  listImages := do
    let entries ← request codec transport imageStateRequest
    Action.ofExcept (slotsOf entries)

end Client
end Smp

def mcuBootName : String := "MCUboot"

def isMcuBoot : Value → Bool
  | .text name => name = mcuBootName
  | _ => false

def discover {σ : Type} (device : Device σ) : Action σ Capabilities := do
  match ← (device.bootloaderInfo none).attempt with
  | .error e =>
    Action.debug .probe ("Bootloader info not available, using defaults: " ++ e.message)
    return {}
  | .ok identity =>
    Action.requireWritable identity.bootloader.isWritable
    Action.debug .probe ("Bootloader name: " ++ identity.bootloader.written)
    if !isMcuBoot identity.bootloader then return { bootloader := identity.bootloader }
    match ← (device.bootloaderInfo modeQuery).attempt with
    | .error e =>
      Action.debug .probe ("Bootloader mode query failed, using defaults: " ++ e.message)
      return { bootloader := identity.bootloader }
    | .ok info =>
      match Capabilities.ofMode? identity.bootloader info.mode info.noDowngrade with
      | none => throw .badMode
      | some c =>
        Action.requireWritable (c.mode.isWritable && c.noDowngrade.isWritable)
        Action.note .info .probe ("Bootloader is in mode: " ++ c.modeLabel ++ ", no downgrade: " ++
          c.noDowngrade.written)
        return c

end Reflash
