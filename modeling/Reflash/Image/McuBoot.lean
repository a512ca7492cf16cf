import Reflash.Bytes

/-! MCUboot images. A little-endian header gives the sizes of itself and of the
body. After the body come one or two areas of typed entries, the protected one
first; one entry, the digest, is what the device will report as the image's
hash. -/

namespace Reflash.McuBoot

structure Version where
  major : Nat
  minor : Nat
  revision : Nat
  build : Nat
  deriving DecidableEq

def Version.text (v : Version) : String :=
  ".".intercalate ([v.major, v.minor, v.revision, v.build].map Nat.repr)

structure Header where
  loadAddress : Nat
  headerSize : Nat
  protectedSize : Nat
  bodySize : Nat
  flags : Nat
  version : Version
  deriving DecidableEq

inductive Fault where
  | noHeader (size : Nat)
  | badMagic (magic : Nat)
  | badHeaderSize (size : Nat)
  | noArea
  | badAreaMagic (magic expected : Nat)
  | cutArea
  | overrun (type : Nat)
  | noDigest
  deriving DecidableEq

def Fault.message : Fault → String
  | noHeader size => "image too small for MCUboot header: " ++ Nat.repr size ++ " bytes"
  | badMagic magic => "bad MCUboot magic " ++ Hex.number 8 magic
  | badHeaderSize size => "invalid header size " ++ Nat.repr size
  | noArea => "TLV info header beyond end of image"
  | badAreaMagic magic expected =>
    "bad TLV magic " ++ Hex.number 4 magic ++ " (expected " ++ Hex.number 4 expected ++ ")"
  | cutArea => "TLV area extends beyond end of image"
  | overrun type => "TLV " ++ Hex.number 2 type ++ " overruns TLV area"
  | noDigest => "MCUboot image has no SHA TLV"

def headerSize : Nat := 32

def magic : Nat := 0x96F3B83D

def numberAt (b : Bytes) (offset width : Nat) : Nat := Bytes.toNatLE ((b.drop offset).take width)

def header (b : Bytes) : Except Fault Header :=
  if b.length < headerSize then .error (.noHeader b.length)
  else if numberAt b 0 4 ≠ magic then .error (.badMagic (numberAt b 0 4))
  else if numberAt b 8 2 < headerSize then .error (.badHeaderSize (numberAt b 8 2))
  else .ok {
    loadAddress := numberAt b 4 4
    headerSize := numberAt b 8 2
    protectedSize := numberAt b 10 2
    bodySize := numberAt b 12 4
    flags := numberAt b 16 4
    version := ⟨numberAt b 20 1, numberAt b 21 1, numberAt b 22 2, numberAt b 24 4⟩ }

structure Entry where
  type : Nat
  value : Bytes
  deriving DecidableEq

def entries : Bytes → Except Fault (List Entry)
  | t₀ :: t₁ :: l₀ :: l₁ :: rest =>
    let type := Bytes.toNatLE [t₀, t₁]
    let size := Bytes.toNatLE [l₀, l₁]
    if rest.length < size then .error (.overrun type)
    else do
      let others ← entries (rest.drop size)
      return ⟨type, rest.take size⟩ :: others
  | _ => .ok []
termination_by b => b.length
decreasing_by simp only [List.length_drop, List.length_cons]; omega

structure Area where
  entries : List Entry
  stop : Nat
  deriving DecidableEq

def areaHeadSize : Nat := 4

def area (b : Bytes) (offset expected : Nat) : Except Fault Area :=
  if b.length < offset + areaHeadSize then .error .noArea
  else if numberAt b offset 2 ≠ expected then
    .error (.badAreaMagic (numberAt b offset 2) expected)
  else
    let total := numberAt b (offset + 2) 2
    if b.length < offset + total then .error .cutArea
    else do
      let found ← entries ((b.drop (offset + areaHeadSize)).take (total - areaHeadSize))
      return ⟨found, offset + total⟩

def areaMagic : Nat := 0x6907

def protectedMagic : Nat := 0x6908

def digestTypes : List Nat := [0x10, 0x11, 0x12]

def Area.digest? (a : Area) : Option Bytes :=
  (a.entries.find? fun e => digestTypes.contains e.type).map Entry.value

/-- The header of an image and its digest. An empty digest in the protected area gives way to
the other area; an empty one there is returned as it is. -/
def digest (b : Bytes) : Except Fault (Header × Bytes) := do
  let h ← header b
  let offset := h.headerSize + h.bodySize
  let (inner, offset) ←
    if h.protectedSize = 0 then pure (none, offset)
    else do
      let a ← area b offset protectedMagic
      pure (a.digest?.filter fun d => !d.isEmpty, a.stop)
  let outer := (← area b offset areaMagic).digest?
  match inner <|> outer with
  | some d => return (h, d)
  | none => throw .noDigest

end Reflash.McuBoot
