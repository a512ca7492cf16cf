import Reflash.Image
import Reflash.Slot

/-! Bundles: what a caller wants on the device. A bundle holds images, each for
one slot of one core and no two for the same, and payloads for cache
partitions, both in the order in which they were added. -/

namespace Reflash

structure Target where
  core : Int := 0
  image : Image
  slot : Int := secondarySlot
  deriving DecidableEq

namespace Target

def hash (t : Target) : Bytes := t.image.hash

def destination (t : Target) : Int × Int := (t.core, t.slot)

def isWritable (t : Target) : Bool := Decimal.isWritable t.core && Decimal.isWritable t.slot

end Target

structure CacheImage where
  partition : Int
  data : Bytes
  deriving DecidableEq

structure Bundle where
  targets : List Target := []
  caches : List CacheImage := []
  distinct : (targets.map Target.destination).Nodup := by simp

namespace Bundle

def empty : Bundle := {}

structure Duplicate where
  core : Int
  slot : Int
  deriving DecidableEq

def Duplicate.message (d : Duplicate) : String :=
  "Duplicate target for image " ++ Decimal.ofInt d.core ++ ", slot " ++ Decimal.ofInt d.slot

def add (b : Bundle) (t : Target) : Except Duplicate Bundle :=
  if h : t.destination ∈ b.targets.map Target.destination then .error ⟨t.core, t.slot⟩
  else .ok { b with
    targets := b.targets ++ [t]
    distinct := by
      rw [List.map_append]
      refine List.nodup_append.2 ⟨b.distinct, by simp, ?_⟩
      intro x hx y hy e
      simp only [List.map_cons, List.map_nil, List.mem_singleton] at hy
      exact h (hy ▸ e ▸ hx) }

def addCache (b : Bundle) (c : CacheImage) : Bundle := { b with caches := b.caches ++ [c] }

def ofLists (targets : List Target) (caches : List CacheImage) : Except Duplicate Bundle :=
  targets.foldlM add { caches }

def copy (b : Bundle) : Except Duplicate Bundle := ofLists b.targets b.caches

def withoutCores (b : Bundle) (cores : List Int) : Bundle :=
  { b with
    targets := b.targets.filter fun t => !cores.contains t.core
    distinct := b.distinct.sublist (List.filter_sublist.map _) }

def cores (b : Bundle) : List Int := (b.targets.map Target.core).eraseDups

def size (b : Bundle) : Nat := b.targets.length

end Bundle
end Reflash
