import Mathlib.Data.List.Basic
import Reflash.Value.Written

/-! What maps hold. A map is asked for what it holds under a name, which no other key
equals, and entries of which no two have the same key are a map as they stand. A number
in a map can be written if the map can. -/

namespace Reflash

theorem Decimal.isWritable_of_natAbs_lt {i : Int} (h : i.natAbs < 65536) :
    isWritable i = true := by
  -- for every bound at once, so that the power is never computed
  have hpow : ∀ n, 5 ≤ n → i.natAbs < Nat.pow 10 n := fun n hn =>
    Nat.lt_of_lt_of_le (Nat.lt_trans h (by decide : 65536 < Nat.pow 10 5))
      (Nat.pow_le_pow_right (by decide) hn)
  rw [isWritable, decide_eq_true_iff]
  exact hpow maxDigits (by decide)

namespace Value

variable {entries : Entries} {name : String} {v w default : Value}

def Holds (entries : Entries) (name : String) (v : Value) : Prop :=
  ∀ w, (.text name, w) ∈ entries ↔ w = v

def Omits (entries : Entries) (name : String) : Prop := ∀ w, (.text name, w) ∉ entries

inductive Reads (entries : Entries) (name : String) (default : Value) : Value → Prop where
  | held {v : Value} (h : Holds entries name v) : Reads entries name default v
  | omitted (h : Omits entries name) : Reads entries name default default

theorem same_text_iff : same v (.text name) = true ↔ v = .text name := by
  cases v with
  | text s =>
    rw [same, decide_eq_true_iff]
    exact ⟨fun h => h ▸ rfl, fun h => (Value.text.inj h)⟩
  | _ => exact iff_of_false Bool.false_ne_true nofun

theorem mem_of_get? (h : get? name entries = some v) : (.text name, v) ∈ entries := by
  obtain ⟨⟨key, value⟩, hfind, rfl⟩ := Option.map_eq_some_iff.mp h
  have hsame : same key (.text name) = true :=
    List.find?_some (p := fun e : Value × Value => same e.1 (.text name)) hfind
  cases same_text_iff.mp hsame
  exact List.mem_of_find?_eq_some hfind

theorem get?_of_omits (h : Omits entries name) : get? name entries = none := by
  cases hget : get? name entries with
  | none => rfl
  | some v => exact absurd (mem_of_get? hget) (h v)

theorem get?_of_holds (h : Holds entries name v) : get? name entries = some v := by
  cases hget : get? name entries with
  | some w => rw [(h w).mp (mem_of_get? hget)]
  | none =>
    have hfind := List.find?_eq_none.mp (Option.map_eq_none_iff.mp hget)
    have hmem : (.text name, v) ∈ entries := (h v).mpr rfl
    exact absurd (same_text_iff.mpr rfl) (hfind _ hmem)

theorem get?_of_reads (h : Reads entries name default v) :
    get? name entries = some v ∨ get? name entries = none ∧ v = default := by
  cases h with
  | held h => exact .inl (get?_of_holds h)
  | omitted h => exact .inr ⟨get?_of_omits h, rfl⟩

theorem getD_of_reads (h : Reads entries name default v) :
    (get? name entries).getD default = v := by
  rcases get?_of_reads h with hget | ⟨hget, rfl⟩
  · rw [hget, Option.getD_some]
  · rw [hget, Option.getD_none]

theorem isWritable_of_mem {entries : Entries} (h : (Value.map entries).isWritable = true)
    {e : Value × Value} (he : e ∈ entries) : e.2.isWritable = true := by
  rw [isWritable] at h
  induction entries with
  | nil => cases he
  | cons head rest ih =>
    obtain ⟨k, v⟩ := head
    simp only [entriesWritable, Bool.and_eq_true] at h
    rcases List.mem_cons.mp he with rfl | he
    · exact h.1.2
    · exact ih h.2 he

theorem isWritable_get? {entries : Entries} (h : (Value.map entries).isWritable = true)
    {key : String} {v : Value} (hv : get? key entries = some v) : v.isWritable = true := by
  obtain ⟨e, he, rfl⟩ := Option.map_eq_some_iff.mp hv
  exact isWritable_of_mem h (List.mem_of_find?_eq_some he)

end Value
end Reflash
