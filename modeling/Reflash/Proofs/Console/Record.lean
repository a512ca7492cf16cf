import Mathlib.Data.List.Nodup
import Reflash.Console.Command
import Reflash.Proofs.Outcome
import Reflash.Proofs.Value

/-! Records for other programs. A value can be printed as one exactly if it is made of
scalars alone; then every field of it stands under its name. Of a report only what was
learnt of the bootloader can be anything else. -/

namespace Reflash

namespace Value

/-! ### What a value is made of -/

mutual

/-- Whether a value is made of such leaves, by arrays and by maps with such keys. -/
def isMadeOf (leaf key : Value → Bool) : Value → Bool
  | .array items => areMadeOf leaf key items
  | .map entries => haveMadeOf leaf key entries
  | v => leaf v

def areMadeOf (leaf key : Value → Bool) : List Value → Bool
  | [] => true
  | v :: rest => isMadeOf leaf key v && areMadeOf leaf key rest

def haveMadeOf (leaf key : Value → Bool) : Entries → Bool
  | [] => true
  | (k, v) :: rest => key k && isMadeOf leaf key v && haveMadeOf leaf key rest

end

def isScalar : Value → Bool
  | .null | .bool _ | .int _ | .float _ | .text _ => true
  | _ => false

def isExactScalar : Value → Bool
  | .null | .bool _ | .int _ | .text _ => true
  | _ => false

def isText : Value → Bool
  | .text _ => true
  | _ => false

/-- What every program reads in the same way: no floats, and names for all that maps hold. -/
abbrev isExact (v : Value) : Bool := v.isMadeOf isExactScalar isText

abbrev isPrintable (v : Value) : Bool := v.isMadeOf isScalar isScalar

section

variable {leaf key : Value → Bool}

theorem areMadeOf_eq_all (items : List Value) :
    areMadeOf leaf key items = items.all (isMadeOf leaf key) := by
  induction items with
  | nil => rfl
  | cons v rest ih => rw [areMadeOf, ih, List.all_cons]

theorem haveMadeOf_eq_all (entries : Entries) :
    haveMadeOf leaf key entries = entries.all fun e => key e.1 && isMadeOf leaf key e.2 := by
  induction entries with
  | nil => rfl
  | cons e rest ih => rw [haveMadeOf, ih, List.all_cons]

theorem areMadeOf_map {α : Type} {f : α → Value} (h : ∀ a, isMadeOf leaf key (f a) = true)
    (l : List α) : areMadeOf leaf key (l.map f) = true := by
  rw [areMadeOf_eq_all, List.all_map, List.all_eq_true]
  exact fun a _ => h a

structure Admits (leaf key : Value → Bool) : Prop where
  null : leaf .null = true
  bool : ∀ x, leaf (.bool x) = true
  int : ∀ i, leaf (.int i) = true
  text : ∀ s, leaf (.text s) = true
  name : ∀ s, key (.text s) = true

theorem admits_exact : Admits isExactScalar isText :=
  ⟨rfl, fun _ => rfl, fun _ => rfl, fun _ => rfl, fun _ => rfl⟩

theorem admits_scalar : Admits isScalar isScalar :=
  ⟨rfl, fun _ => rfl, fun _ => rfl, fun _ => rfl, fun _ => rfl⟩

end

theorem isOk_keyText (k : Value) : (keyText k).isOk = isScalar k := by
  cases k <;> rfl

mutual

theorem isOk_plain : ∀ v : Value, v.plain.isOk = isMadeOf isScalar isScalar v
  | .array items => by
    rw [plain, isMadeOf, ← isOk_plainItems items]
    cases plainItems items <;> rfl
  | .map entries => by
    rw [plain, isMadeOf, ← isOk_plainEntries entries]
    cases plainEntries entries <;> rfl
  | .null | .undefined | .bool _ | .int _ | .float _ | .bytes _ | .text _ | .tag .. | .simple _
  | .other .. => rfl

theorem isOk_plainItems :
    ∀ items : List Value, (plainItems items).isOk = areMadeOf isScalar isScalar items
  | [] => rfl
  | v :: rest => by
    have hv := isOk_plain v
    rw [plainItems, areMadeOf, ← hv, ← isOk_plainItems rest]
    cases v.plain <;> cases plainItems rest <;> rfl

theorem isOk_plainEntries :
    ∀ entries : Entries, (plainEntries entries).isOk = haveMadeOf isScalar isScalar entries
  | [] => rfl
  | (k, v) :: rest => by
    have hv := isOk_plain v
    rw [plainEntries, haveMadeOf, ← isOk_keyText k, ← hv, ← isOk_plainEntries rest]
    cases keyText k <;> cases v.plain <;> cases plainEntries rest <;> rfl

end

end Value

namespace Report

/-! ### Fields of a record -/

variable {fields : List (String × Value)} {name : String} {v w : Value}

def entries (fields : List (String × Value)) : Value.Entries := fields.map fun f => (.text f.1, f.2)

theorem isMadeOf_record {leaf key : Value → Bool} (h : Value.Admits leaf key)
    (fields : List (String × Value)) :
    Value.isMadeOf leaf key (record fields) = fields.all fun f => Value.isMadeOf leaf key f.2 := by
  rw [record, Value.isMadeOf, Value.haveMadeOf_eq_all, List.all_map]
  simp only [Function.comp_def, h.name, Bool.true_and]

theorem plainEntries_eq_error {cause : Value.Unprintable} (hw : w.plain = .error cause)
    (hfield : (name, w) ∈ fields) (honly : ∀ f ∈ fields, f.2.plain.isOk = true ∨ f.2 = w) :
    Value.plainEntries (entries fields) = .error cause := by
  induction fields with
  | nil => cases hfield
  | cons f fields ih =>
    obtain ⟨name', w'⟩ := f
    refine Outcome.bind_eq_error.mpr (.inr ⟨name', rfl, ?_⟩)
    by_cases hsame : w' = w
    · subst hsame
      exact Outcome.bind_eq_error.mpr (.inl hw)
    · have hrest : (name, w) ∈ fields := by
        rcases List.mem_cons.mp hfield with heq | hrest
        · exact absurd (congrArg Prod.snd heq).symm hsame
        · exact hrest
      have hok := (honly _ List.mem_cons_self).resolve_right hsame
      obtain ⟨u, hplain⟩ := Outcome.isOk_iff.mp hok
      have herror := ih hrest fun f hf => honly f (List.mem_cons_of_mem _ hf)
      exact Outcome.bind_eq_error.mpr (.inr ⟨u, hplain, Outcome.bind_eq_error.mpr (.inl herror)⟩)

theorem plain_eq_error_iff {cause : Value.Unprintable} (hfield : (name, w) ∈ fields)
    (honly : ∀ f ∈ fields, f.2.plain.isOk = true ∨ f.2 = w) :
    (record fields).plain = .error cause ↔ w.plain = .error cause := by
  have hrecord (c : Value.Unprintable) (hw : w.plain = .error c) :
      (record fields).plain = .error c := by
    show (Value.plainEntries (entries fields)).map _ = _
    rw [plainEntries_eq_error hw hfield honly]
    rfl
  constructor
  · intro h
    cases hw : w.plain with
    | error c => exact (hrecord c hw).symm.trans h
    | ok u =>
      have hall : (record fields).plain.isOk = true := by
        rw [Value.isOk_plain, isMadeOf_record Value.admits_scalar, List.all_eq_true]
        intro f hf
        rw [← Value.isOk_plain]
        rcases honly f hf with hok | rfl
        · exact hok
        · rw [hw]
          rfl
      rw [h] at hall
      cases hall
  · exact hrecord cause

end Report
end Reflash
