import Reflash.Image
import Reflash.Text.Character
import Reflash.Text.Quoted

/-! Files by their names. What lies behind a name is whatever opening it gives;
the format of an image follows from the end of its name. -/

namespace Reflash

structure Path where
  root : String
  parts : List String
  deriving DecidableEq

namespace Path

def rootOf (slashes : Nat) : String :=
  if slashes = 0 then "" else if slashes = 2 then "//" else "/"

def segments (s : String) : List String := (s.toList.splitOn '/').map String.ofList

def ofText (s : String) : Path where
  root := rootOf (s.toList.takeWhile (· = '/')).length
  parts := (segments s).filter fun part => part ≠ "" && part ≠ "."

def text (p : Path) : String :=
  if p.root = "" && p.parts.isEmpty then "." else p.root ++ "/".intercalate p.parts

def name (p : Path) : String := p.parts.getLast?.getD ""

def suffix (p : Path) : String :=
  let reversed := p.name.toList.reverse
  let extension := reversed.takeWhile (· ≠ '.')
  let stem := reversed.drop (extension.length + 1)
  if extension.isEmpty || stem.isEmpty then "" else String.ofList ('.' :: extension.reverse)

end Path

inductive OpenFault where
  | missing
  | notDirectory
  | isDirectory
  | nameTooLong
  | endless
  | noName
  /-- Another failure of the system, in its own words. -/
  | system (text : String)
  deriving DecidableEq

def OpenFault.message (name : String) : OpenFault → String
  | missing => "[Errno 2] No such file or directory: " ++ Text.quoted name
  | notDirectory => "[Errno 20] Not a directory: " ++ Text.quoted name
  | isDirectory => "[Errno 21] Is a directory: " ++ Text.quoted name
  | nameTooLong => "[Errno 36] File name too long: " ++ Text.quoted name
  | endless => "[Errno 40] Too many levels of symbolic links: " ++ Text.quoted name
  | noName => "embedded null byte"
  | system text => text

abbrev Files := String → Except OpenFault Bytes

namespace Files

inductive ImageFault where
  | notFound (path : Path)
  | unreadable (path : Path) (cause : OpenFault)
  | image (fault : Image.Fault)

def ImageFault.message : ImageFault → String
  | notFound path => "Image not found: " ++ path.text
  | unreadable path cause => cause.message path.text
  | image fault => fault.message

def envelopeSuffixes : List String := [".suit", ".envelope"]

def imageFault (path : Path) : OpenFault → ImageFault
  | .missing | .notDirectory | .endless | .noName => .notFound path
  | cause => .unreadable path cause

def readImage (codec : Cbor.Codec) (room : Suit.Room) (files : Files) (name : String) :
    Except ImageFault Image := do
  let path := Path.ofText name
  let file ← (files path.text).mapError (imageFault path)
  if envelopeSuffixes.contains (Text.lower path.suffix) then
    (Image.ofSuit codec room file).mapError .image
  else (Image.ofMcuBoot file).mapError .image

end Files
end Reflash
