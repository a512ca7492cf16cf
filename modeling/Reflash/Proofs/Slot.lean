import Mathlib.Tactic.SplitIfs
import Reflash.Proofs.Outcome
import Reflash.Proofs.Value
import Reflash.Slot

/-! Slots read from the entries of a listing. An entry names what it says about its
slot, in any order and among other things, and leaves out what it need not say: what
it describes is what is read. An entry that cannot be read fails at its digest, at the
number of its core or at its own number, in this order. -/

namespace Reflash

theorem Binary64.isInfinite_iff (x : Binary64) :
    x.isInfinite = true ↔ x.truncate? = none ∧ x.isNaN = false := by
  have htruncate : x.truncate? = none ↔ x.exponentField = 2047 := by
    unfold truncate?
    split_ifs with h
    · exact iff_of_true rfl h
    · exact iff_of_false nofun h
  rw [htruncate]
  unfold isInfinite isNaN
  by_cases hexponent : x.exponentField = 2047 <;> by_cases hfraction : x.fraction = 0 <;>
    simp [hexponent, hfraction]

namespace Value

variable {v : Value} {cause : NotWhole}

/-- Of all that stand for no whole number, those that are a number beyond every bound. -/
def NotWhole.isEndless : NotWhole → Bool
  | infinite | tooGreat => true
  | noNumeral | noNumber _ => false

/-- An infinite number, or one that is too great for the memory. -/
inductive Exceeds : Value → NotWhole → Prop where
  | float {x : Binary64} (hx : x.isInfinite = true) : Exceeds (.float x) .infinite
  | infinite {traits : Traits} {parts : Entries} (h : traits.whole = .inl .infinite) :
      Exceeds (.other traits parts) .infinite
  | tooGreat {traits : Traits} {parts : Entries} (h : traits.whole = .inl .tooGreat) :
      Exceeds (.other traits parts) .tooGreat

theorem toInt_eq_endless_iff :
    v.toInt = .error cause ∧ cause.isEndless = true ↔ Exceeds v cause := by
  constructor
  · rintro ⟨h, hendless⟩
    unfold toInt at h
    split at h
    · cases h
    · cases h
    · rename_i x
      split at h
      · cases h
      · rename_i hnone
        split_ifs at h with hnan
        · cases h
          cases hendless
        · cases h
          exact .float (x.isInfinite_iff.mpr ⟨hnone, Bool.eq_false_iff.mpr hnan⟩)
    · split at h <;> cases h
      cases hendless
    · split at h <;> cases h
      cases hendless
    · have hwhole := Outcome.elim_eq_error.mp h
      cases cause with
      | infinite => exact .infinite hwhole
      | tooGreat => exact .tooGreat hwhole
      | noNumeral => cases hendless
      | noNumber kind => cases hendless
    · cases h
      cases hendless
  · intro h
    cases h with
    | @float x hx =>
      obtain ⟨hnone, hnan⟩ := x.isInfinite_iff.mp hx
      simp only [toInt, hnone, hnan]
      exact ⟨rfl, rfl⟩
    | infinite h => exact ⟨Outcome.elim_eq_error.mpr h, rfl⟩
    | tooGreat h => exact ⟨Outcome.elim_eq_error.mpr h, rfl⟩

end Value

namespace Slot

variable {entries : Value.Entries} {s : Slot}

/-- What an entry says about its slot. -/
structure Describes (entries : Value.Entries) (s : Slot) : Prop where
  core : Value.Reads entries "image" (.int 0) (.int s.core)
  number : Value.Holds entries "slot" (.int s.number)
  hash : Value.Reads entries "hash" (.bytes []) (.bytes s.hash)
  version : Value.Reads entries "version" (.text "") (.text s.version)
  active : Value.Reads entries "active" (.bool false) (.bool s.active)
  pending : Value.Reads entries "pending" (.bool false) (.bool s.pending)
  permanent : Value.Reads entries "permanent" (.bool false) (.bool s.permanent)
  confirmed : Value.Reads entries "confirmed" (.bool false) (.bool s.confirmed)
  bootable : Value.Reads entries "bootable" (.bool false) (.bool s.bootable)

def entry (s : Slot) : Value.Entries :=
  [(.text "image", .int s.core), (.text "slot", .int s.number), (.text "hash", .bytes s.hash),
    (.text "version", .text s.version), (.text "active", .bool s.active),
    (.text "pending", .bool s.pending), (.text "permanent", .bool s.permanent),
    (.text "confirmed", .bool s.confirmed), (.text "bootable", .bool s.bootable)]

def defaults : Value.Entries :=
  [(.text "image", .int 0), (.text "hash", .bytes []), (.text "version", .text ""),
    (.text "active", .bool false), (.text "pending", .bool false), (.text "permanent", .bool false),
    (.text "confirmed", .bool false), (.text "bootable", .bool false)]

/-- An entry in which some of what can be said is left out, as it need not be said, and other things
are said as well, all in any order. -/
structure Arranges (s : Slot) (kept left further entries : Value.Entries) : Prop where
  parts : (entry s).Perm (kept ++ left)
  silent : ∀ e ∈ left, e ∈ defaults
  apart : ∀ e ∈ further, ∀ f ∈ entry s, e.1 ≠ f.1
  order : entries.Perm (kept ++ further)

section Arranges

variable {kept left further : Value.Entries} {name : String} {v default : Value}
  (h : Arranges s kept left further entries)
include h

theorem Arranges.mem_iff (hentry : Value.Holds (entry s) name v) (w : Value) :
    (.text name, w) ∈ entries ↔ (.text name, w) ∈ kept := by
  have hfield : (.text name, v) ∈ entry s := (hentry v).mpr rfl
  rw [h.order.mem_iff, List.mem_append, or_iff_left_iff_imp]
  intro hfurther
  exact (h.apart _ hfurther _ hfield rfl).elim

theorem Arranges.holds (hentry : Value.Holds (entry s) name v) (hkept : (.text name, v) ∈ kept) :
    Value.Holds entries name v := by
  intro w
  rw [h.mem_iff hentry]
  constructor
  · intro hw
    have hmem : (.text name, w) ∈ entry s := h.parts.mem_iff.mpr (List.mem_append_left _ hw)
    exact (hentry w).mp hmem
  · rintro rfl
    exact hkept

theorem Arranges.reads (hentry : Value.Holds (entry s) name v)
    (hdefault : ∀ w, (.text name, w) ∈ defaults → w = default) :
    Value.Reads entries name default v := by
  have hfield : (.text name, v) ∈ kept ++ left := h.parts.mem_iff.mp ((hentry v).mpr rfl)
  by_cases hkept : (.text name, v) ∈ kept
  · exact .held (h.holds hentry hkept)
  · have hleft : (.text name, v) ∈ left := (List.mem_append.mp hfield).resolve_left hkept
    cases hdefault v (h.silent _ hleft)
    refine .omitted ?_
    intro w hw
    rw [h.mem_iff hentry] at hw
    have hmem : (.text name, w) ∈ entry s := h.parts.mem_iff.mpr (List.mem_append_left _ hw)
    cases (hentry w).mp hmem
    exact hkept hw

theorem describes_of_arranges : Describes entries s := by
  have hnumber : Value.Holds (entry s) "slot" (.int s.number) := by
    intro w
    simp [entry]
  have hkept : (.text "slot", .int s.number) ∈ kept := by
    have hfield := h.parts.mem_iff.mp ((hnumber _).mpr rfl)
    refine (List.mem_append.mp hfield).resolve_right ?_
    intro hleft
    simpa [defaults] using h.silent _ hleft
  refine ⟨h.reads ?_ ?_, h.holds hnumber hkept, h.reads ?_ ?_, h.reads ?_ ?_, h.reads ?_ ?_,
    h.reads ?_ ?_, h.reads ?_ ?_, h.reads ?_ ?_, h.reads ?_ ?_⟩
  all_goals
    intro w
    simp [entry, defaults]

end Arranges

/-! ### An entry in parts -/

def hashOf (entries : Value.Entries) : Except Fault Bytes :=
  match Value.get? "hash" entries with
  | none => .ok []
  | some (.bytes b) => .ok b
  | some v => .error (.badHash v.kind)

def coreOf (entries : Value.Entries) : Except Fault Int :=
  wholeNumber ((Value.get? "image" entries).getD (.int 0))

def numberOf (entries : Value.Entries) : Except Fault Int :=
  match Value.get? "slot" entries with
  | none => .error .noNumber
  | some v => wholeNumber v

def versionOf (entries : Value.Entries) : Except Fault String :=
  let version := (Value.get? "version" entries).getD (.text "")
  if version.isWritable then .ok version.written else .error .unwritableVersion

theorem ofEntry_map (entries : Value.Entries) :
    ofEntry (.map entries) = do
      let hash ← hashOf entries
      let core ← coreOf entries
      let number ← numberOf entries
      let version ← versionOf entries
      return { core, number, hash, version,
               active := flag entries "active", pending := flag entries "pending",
               permanent := flag entries "permanent", confirmed := flag entries "confirmed",
               bootable := flag entries "bootable" } := by
  rw [ofEntry]
  unfold hashOf coreOf numberOf versionOf
  cases hversion : ((Value.get? "version" entries).getD (.text "")).isWritable
  all_goals
    rcases Value.get? "slot" entries with _ | number
    all_goals
      simp only [hversion]
      rcases Value.get? "hash" entries with _ | hash
      · rfl
      · cases hash <;> rfl

/-! ### What an entry describes is read -/

theorem hashOf_of_reads {b : Bytes} (h : Value.Reads entries "hash" (.bytes []) (.bytes b)) :
    hashOf entries = .ok b := by
  unfold hashOf
  rcases Value.get?_of_reads h with hget | ⟨hget, hdefault⟩
  · rw [hget]
  · cases hdefault
    rw [hget]

theorem flag_of_reads {name : String} {b : Bool}
    (h : Value.Reads entries name (.bool false) (.bool b)) : flag entries name = b := by
  unfold flag
  rcases Value.get?_of_reads h with hget | ⟨hget, hdefault⟩
  · rw [hget]
    rfl
  · cases hdefault
    rw [hget]
    rfl

theorem coreOf_of_reads {i : Int} (h : Value.Reads entries "image" (.int 0) (.int i)) :
    coreOf entries = .ok i := by
  unfold coreOf
  rw [Value.getD_of_reads h]
  rfl

theorem numberOf_of_holds {i : Int} (h : Value.Holds entries "slot" (.int i)) :
    numberOf entries = .ok i := by
  unfold numberOf
  rw [Value.get?_of_holds h]
  rfl

theorem versionOf_of_reads {text : String}
    (h : Value.Reads entries "version" (.text "") (.text text)) : versionOf entries = .ok text := by
  unfold versionOf
  rw [Value.getD_of_reads h]
  rfl

theorem ofEntry_of_describes (h : Describes entries s) : ofEntry (.map entries) = .ok s := by
  rw [ofEntry_map, hashOf_of_reads h.hash, coreOf_of_reads h.core, numberOf_of_holds h.number,
    versionOf_of_reads h.version, flag_of_reads h.active, flag_of_reads h.pending,
    flag_of_reads h.permanent, flag_of_reads h.confirmed, flag_of_reads h.bootable]
  rfl

/-! ### Entries that cannot be read -/

/-- An entry with a digest that can be read but a number beyond every bound for its core, or for its
slot where the core can be read. -/
inductive Overflows : Value → Value.NotWhole → Prop where
  | core {entries : Value.Entries} {hash : Bytes} {v : Value} {cause : Value.NotWhole}
      (hhash : hashOf entries = .ok hash) (hcore : Value.get? "image" entries = some v)
      (hv : v.Exceeds cause) : Overflows (.map entries) cause
  | number {entries : Value.Entries} {hash : Bytes} {core : Int} {v : Value}
      {cause : Value.NotWhole} (hhash : hashOf entries = .ok hash)
      (hcore : coreOf entries = .ok core) (hnumber : Value.get? "slot" entries = some v)
      (hv : v.Exceeds cause) : Overflows (.map entries) cause

variable {cause : Value.NotWhole}

theorem wholeNumber_eq_endless_iff {v : Value} :
    wholeNumber v = .error (.badNumber cause) ∧ cause.isEndless = true ↔ v.Exceeds cause := by
  rw [← Value.toInt_eq_endless_iff, wholeNumber, Outcome.mapError_eq_error]
  refine and_congr_left' ?_
  constructor
  · rintro ⟨_, h, hcause⟩
    cases hcause
    exact h
  · intro h
    exact ⟨_, h, rfl⟩

theorem coreOf_eq_endless_iff :
    coreOf entries = .error (.badNumber cause) ∧ cause.isEndless = true ↔
      ∃ v, Value.get? "image" entries = some v ∧ v.Exceeds cause := by
  unfold coreOf
  rw [wholeNumber_eq_endless_iff]
  cases Value.get? "image" entries with
  | none => exact iff_of_false nofun nofun
  | some v => simp only [Option.getD_some, Option.some.injEq, exists_eq_left']

theorem numberOf_eq_endless_iff :
    numberOf entries = .error (.badNumber cause) ∧ cause.isEndless = true ↔
      ∃ v, Value.get? "slot" entries = some v ∧ v.Exceeds cause := by
  unfold numberOf
  cases Value.get? "slot" entries with
  | none => exact iff_of_false nofun nofun
  | some v => simp only [wholeNumber_eq_endless_iff, Option.some.injEq, exists_eq_left']

theorem hashOf_ne_badNumber : hashOf entries ≠ .error (.badNumber cause) := by
  intro h
  unfold hashOf at h
  split at h <;> cases h

theorem versionOf_ne_badNumber : versionOf entries ≠ .error (.badNumber cause) := by
  intro h
  unfold versionOf at h
  dsimp only at h
  split_ifs at h
  cases h

theorem ofEntry_eq_endless_iff {v : Value} :
    ofEntry v = .error (.badNumber cause) ∧ cause.isEndless = true ↔ Overflows v cause := by
  constructor
  · rintro ⟨h, hendless⟩
    cases v with
    | map entries =>
      rw [ofEntry_map] at h
      rcases Outcome.bind_eq_error.mp h with h | ⟨hash, hhash, h⟩
      · exact absurd h hashOf_ne_badNumber
      rcases Outcome.bind_eq_error.mp h with h | ⟨core, hcore, h⟩
      · obtain ⟨v, hget, hv⟩ := coreOf_eq_endless_iff.mp ⟨h, hendless⟩
        exact .core hhash hget hv
      rcases Outcome.bind_eq_error.mp h with h | ⟨number, hnumber, h⟩
      · obtain ⟨v, hget, hv⟩ := numberOf_eq_endless_iff.mp ⟨h, hendless⟩
        exact .number hhash hcore hget hv
      rcases Outcome.bind_eq_error.mp h with h | ⟨version, hversion, h⟩
      · exact absurd h versionOf_ne_badNumber
      · cases h
    | _ => cases h
  · intro h
    cases h with
    | core hhash hget hv =>
      obtain ⟨hcore, hendless⟩ := coreOf_eq_endless_iff.mpr ⟨_, hget, hv⟩
      rw [ofEntry_map, hhash, hcore]
      exact ⟨rfl, hendless⟩
    | number hhash hcore hget hv =>
      obtain ⟨hnumber, hendless⟩ := numberOf_eq_endless_iff.mpr ⟨_, hget, hv⟩
      rw [ofEntry_map, hhash, hcore, hnumber]
      exact ⟨rfl, hendless⟩

end Slot
end Reflash
