import Reflash.Files

/-! Directories. A name is followed part by part: through the directory in which
the files lie, through those inside that the names of the files lead to, and
through those around, of which no more is known than that there is a way up to
the root. -/

namespace Reflash

abbrev Directory := List (String × Bytes)

namespace Directory

def maxPart : Nat := 255

def maxName : Nat := 4095

inductive Place where
  | inside (parts : List String)
  | around
  | root
  | file (contents : Bytes)
  deriving DecidableEq

def Place.up : Place → Place
  | .inside [] => .around
  | .inside parts => .inside parts.dropLast
  | place => place

def partsOf (name : String) : List String := (Path.segments name).filter (· ≠ "")

def inner (d : Directory) (parts : List String) : Except OpenFault Place :=
  match d.find? fun file => partsOf file.1 = parts with
  | some (_, contents) => .ok (.file contents)
  | none =>
    if d.any fun file => parts.isPrefixOf (partsOf file.1) then .ok (.inside parts)
    else .error .missing

def enter (d : Directory) (place : Place) (part : String) : Except OpenFault Place :=
  if place matches .file _ then .error .notDirectory
  else if part = "." then .ok place
  else if part = ".." then .ok place.up
  else if maxPart < part.utf8ByteSize then .error .nameTooLong
  else
    match place with
    | .inside parts => d.inner (parts ++ [part])
    | _ => .error .missing

def follow (d : Directory) (name : String) : Except OpenFault Place :=
  (partsOf name).foldlM d.enter (if name.startsWith "/" then .root else .inside [])

/-- What opening a name gives. A name that ends with a slash is that of a directory. -/
def files (d : Directory) : Files := fun name =>
  if name.toList.contains '\x00' then .error .noName
  else if maxName < name.utf8ByteSize then .error .nameTooLong
  else
    match d.follow name with
    | .error cause => .error cause
    | .ok (.file contents) => if name.endsWith "/" then .error .notDirectory else .ok contents
    | .ok _ => if name = "" then .error .missing else .error .isDirectory

end Directory
end Reflash
