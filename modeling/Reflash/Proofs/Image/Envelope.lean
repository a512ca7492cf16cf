import Reflash.Cbor.Decode
import Reflash.Cbor.Encode
import Reflash.Proofs.Image.Reading
import Reflash.Proofs.Outcome
import Reflash.Value.Equality

/-! Images from SUIT envelopes. The digest stands two byte strings deep in the
envelope, in a pair behind its algorithm. A file gives an image exactly where that is
so and the digest gives octets. A byte string gives its own, so then the hash is what
stands in the file; but a count, an array or a map gives octets too, and an image with
those for its hash is made where the pair should have been refused. Nothing is asked of
the codec that reads the parts, nor of the memory that a count finds. -/

namespace Reflash

namespace Suit

variable {codec : Cbor.Codec} {room : Room} {file b hash : Bytes} {v w item algorithm d : Value}
  {n : Nat}

/-! ### Octets of a value -/

inductive IsOctet : Value → UInt8 → Prop where
  | int (x : UInt8) : IsOctet (.int x.toNat) x
  | bool (b : Bool) : IsOctet (.bool b) (if b then 1 else 0)

/-- The octets that a value gives: a byte string its own, a number or flag that many zeros, an array
its items, a map its keys, and a value of another kind those that are seen of it. -/
inductive Gives (room : Room) : Value → Bytes → Prop where
  | bytes (b : Bytes) : Gives room (.bytes b) b
  | count {n : Nat} (hcount : n ≤ maxCount) (hroom : room n) :
      Gives room (.int n) (List.replicate n 0)
  | flag (b : Bool) (hroom : room b.toNat) : Gives room (.bool b) (List.replicate b.toNat 0)
  | items {items : List Value} {b : Bytes} (h : List.Forall₂ IsOctet items b) :
      Gives room (.array items) b
  | keys {entries : Value.Entries} {b : Bytes}
      (h : List.Forall₂ (fun e x => IsOctet e.1 x) entries b) : Gives room (.map entries) b
  | other {traits : Value.Traits} {parts : Value.Entries} {b : Bytes}
      (h : traits.octets = .inr b) : Gives room (.other traits parts) b

theorem octet_eq_ok_iff {x : UInt8} : octet v = .ok x ↔ IsOctet v x := by
  constructor
  · intro h
    cases v with
    | int i =>
      cases i with
      | ofNat n =>
        rw [octet] at h
        split_ifs at h with hn
        cases h
        have hnumber : (UInt8.ofNat n).toNat = n := by
          rw [UInt8.toNat_ofNat']
          exact Nat.mod_eq_of_lt hn
        have hoctet := IsOctet.int (UInt8.ofNat n)
        rw [hnumber] at hoctet
        exact hoctet
      | negSucc n => cases h
    | bool b =>
      cases h
      exact .bool b
    | _ => cases h
  · intro h
    cases h with
    | int x =>
      show (if x.toNat < 256 then Except.ok (UInt8.ofNat x.toNat) else _) = _
      rw [if_pos x.toNat_lt, UInt8.ofNat_toNat]
    | bool b => rfl

theorem zeros_eq_ok_iff {i : Int} :
    zeros room i = .ok b ↔
      ∃ n : Nat, i = n ∧ n ≤ maxCount ∧ room n ∧ b = List.replicate n 0 := by
  cases i with
  | ofNat n =>
    rw [zeros]
    constructor
    · intro h
      split_ifs at h with hcount hroom
      cases h
      exact ⟨n, rfl, Nat.not_lt.mp hcount, hroom, rfl⟩
    · rintro ⟨m, hm, hcount, hroom, rfl⟩
      cases hm
      rw [if_neg (Nat.not_lt.mpr hcount), if_pos hroom]
  | negSucc n =>
    rw [zeros]
    constructor
    · intro h
      split_ifs at h
    · rintro ⟨m, hm, _⟩
      cases hm

theorem zeros_flag_eq_ok_iff {flag : Bool} :
    zeros room (if flag then 1 else 0) = .ok b ↔
      room flag.toNat ∧ b = List.replicate flag.toNat 0 := by
  have hcount : flag.toNat ≤ maxCount :=
    Nat.le_trans (Bool.toNat_le flag) (by decide)
  have hflag : (if flag then 1 else 0 : Int) = flag.toNat := by cases flag <;> rfl
  rw [hflag, zeros_eq_ok_iff]
  constructor
  · rintro ⟨n, hn, -, hroom, rfl⟩
    cases Int.ofNat.inj hn
    exact ⟨hroom, rfl⟩
  · rintro ⟨hroom, rfl⟩
    exact ⟨_, rfl, hcount, hroom, rfl⟩

theorem octets_eq_ok_iff : octets room d = .ok b ↔ Gives room d b := by
  have hoctet : (fun v x => octet v = .ok x) = IsOctet := by
    funext v x
    exact propext octet_eq_ok_iff
  constructor
  · intro h
    cases d with
    | bytes b =>
      cases h
      exact .bytes b
    | int i =>
      obtain ⟨n, rfl, hcount, hroom, rfl⟩ := zeros_eq_ok_iff.mp h
      exact .count hcount hroom
    | bool b =>
      obtain ⟨hroom, rfl⟩ := zeros_flag_eq_ok_iff.mp h
      exact .flag b hroom
    | array items =>
      have hitems := Outcome.mapM_eq_ok.mp h
      rw [hoctet] at hitems
      exact .items hitems
    | map entries =>
      exact .keys ((Outcome.mapM_eq_ok.mp h).imp fun _ _ => octet_eq_ok_iff.mp)
    | other traits parts => exact .other (Outcome.elim_eq_ok.mp h)
    | _ => cases h
  · intro h
    cases h with
    | bytes => rfl
    | count hcount hroom => exact zeros_eq_ok_iff.mpr ⟨_, rfl, hcount, hroom, rfl⟩
    | flag b hroom => exact zeros_flag_eq_ok_iff.mpr ⟨hroom, rfl⟩
    | items hitems =>
      rw [← hoctet] at hitems
      exact Outcome.mapM_eq_ok.mpr hitems
    | keys hkeys => exact Outcome.mapM_eq_ok.mpr (hkeys.imp fun _ _ => octet_eq_ok_iff.mpr)
    | other h => exact Outcome.elim_eq_ok.mpr h

/-! ### Where the digest stands -/

inductive HasPart (n : Nat) : Value → Value → Prop where
  | item {items : List Value} {v : Value} (h : items[n]? = some v) : HasPart n (.array items) v
  | entry {entries : Value.Entries} {v : Value} (h : Value.find? (.int n) entries = some v) :
      HasPart n (.map entries) v
  | part {traits : Value.Traits} {parts : Value.Entries} {v : Value}
      (hfine : traits.partFailure? = none) (h : Value.find? (.int n) parts = some v) :
      HasPart n (.other traits parts) v

def Encodes (codec : Cbor.Codec) (n : Nat) (v item : Value) : Prop :=
  ∃ b, HasPart n v (.bytes b) ∧ codec.decode b = .ok item

inductive IsEnvelope : Value → Value → Prop where
  | plain {v : Value} (h : ∀ number content fixed, v ≠ .tag number content fixed) : IsEnvelope v v
  | tagged (v : Value) (fixed : Bool) : IsEnvelope (.tag 107 v fixed) v

/-- The item in a file that should be its digest: a byte string under 2 in the envelope encodes the
wrapper, and a byte string under 0 in the wrapper encodes the item. -/
def Reaches (codec : Cbor.Codec) (file : Bytes) (item : Value) : Prop :=
  ∃ outer envelope wrapper, codec.decode file = .ok outer ∧ IsEnvelope outer envelope ∧
    Encodes codec 2 envelope wrapper ∧ Encodes codec 0 wrapper item

/-- Asking a value for the item in a part breaks off: the value cannot be asked, or the part breaks
the codec. -/
inductive BreaksPart (codec : Cbor.Codec) (n : Nat) : Value → Value.Mishap → Prop where
  | asked {traits : Value.Traits} {parts : Value.Entries} {mishap : Value.Mishap}
      (h : traits.partFailure? = some mishap) : BreaksPart codec n (.other traits parts) mishap
  | read {v : Value} {b : Bytes} {mishap : Value.Mishap} (hpart : HasPart n v (.bytes b))
      (hdecode : codec.decode b = .error (.broken mishap)) : BreaksPart codec n v mishap

/-- The way to the digest breaks off: at the file, at the envelope or at the wrapper. -/
inductive BreaksOff (codec : Cbor.Codec) (file : Bytes) (mishap : Value.Mishap) : Prop where
  | file (h : codec.decode file = .error (.broken mishap))
  | envelope {outer envelope : Value} (hfile : codec.decode file = .ok outer)
      (henvelope : IsEnvelope outer envelope) (h : BreaksPart codec 2 envelope mishap)
  | wrapper {outer envelope wrapper : Value} (hfile : codec.decode file = .ok outer)
      (henvelope : IsEnvelope outer envelope) (hwrapper : Encodes codec 2 envelope wrapper)
      (h : BreaksPart codec 0 wrapper mishap)

def HoldsDigest (codec : Cbor.Codec) (file : Bytes) (algorithm d : Value) : Prop :=
  Reaches codec file (.array [algorithm, d])

theorem hasPart_iff : HasPart n v w ↔ partFailure? v = none ∧ part? n v = some w := by
  constructor
  · intro h
    cases h with
    | item h => exact ⟨rfl, h⟩
    | entry h => exact ⟨rfl, h⟩
    | part hfine h => exact ⟨hfine, h⟩
  · rintro ⟨hfine, h⟩
    cases v with
    | array items => exact .item h
    | map entries => exact .entry h
    | other traits parts => exact .part hfine h
    | _ => cases h

theorem encoded_eq_ok_iff : encoded codec n v = .ok item ↔ Encodes codec n v item := by
  rw [encoded]
  constructor
  · intro h
    split at h
    · cases h
    · rename_i b hfine hpart
      exact ⟨b, hasPart_iff.mpr ⟨hfine, hpart⟩, Outcome.mapError_eq_ok.mp h⟩
    · cases h
  · rintro ⟨b, hpart, hdecode⟩
    obtain ⟨hfine, hpart⟩ := hasPart_iff.mp hpart
    rw [hfine, hpart]
    exact Outcome.mapError_eq_ok.mpr hdecode

theorem ofFailure_eq_broken_iff {failure : Cbor.Failure} {mishap : Value.Mishap} :
    Fault.ofFailure failure = .broken mishap ↔ failure = .broken mishap := by
  cases failure <;> simp [Fault.ofFailure]

theorem encoded_eq_broken_iff {mishap : Value.Mishap} :
    encoded codec n v = .error (.broken mishap) ↔ BreaksPart codec n v mishap := by
  rw [encoded]
  constructor
  · intro h
    split at h
    · rename_i hfailure
      cases h
      cases v with
      | other traits parts => exact .asked hfailure
      | _ => cases hfailure
    · rename_i b hfine hpart
      obtain ⟨failure, hdecode, hbroken⟩ := Outcome.mapError_eq_error.mp h
      cases ofFailure_eq_broken_iff.mp hbroken
      exact .read (hasPart_iff.mpr ⟨hfine, hpart⟩) hdecode
    · cases h
  · intro h
    cases h with
    | asked hfailure =>
      rw [partFailure?, hfailure]
    | read hpart hdecode =>
      obtain ⟨hfine, hpart⟩ := hasPart_iff.mp hpart
      rw [hfine, hpart]
      exact Outcome.mapError_eq_error.mpr ⟨_, hdecode, rfl⟩

theorem untag_eq_ok_iff : untag v = .ok w ↔ IsEnvelope v w := by
  constructor
  · intro h
    cases v with
    | tag number content fixed =>
      rw [untag] at h
      split_ifs at h with hnumber
      cases h
      cases hnumber
      exact .tagged _ _
    | _ =>
      cases h
      exact .plain nofun
  · intro h
    cases h with
    | tagged v fixed => rfl
    | plain huntagged =>
      cases v with
      | tag number content fixed => exact absurd rfl (huntagged number content fixed)
      | _ => rfl

def innermost (codec : Cbor.Codec) (file : Bytes) : Except Fault Value := do
  let outer ← (codec.decode file).mapError .ofFailure
  let envelope ← untag outer
  let wrapper ← encoded codec wrapperKey envelope
  encoded codec 0 wrapper

def ofItem (room : Room) : Value → Except Fault Bytes
  | .array [_, d] => (octets room d).mapError .notOctets
  | _ => .error .badDigest

theorem digest_eq (codec : Cbor.Codec) (room : Room) (file : Bytes) :
    digest codec room file = innermost codec file >>= ofItem room := by
  simp only [digest, innermost, bind_assoc]
  rfl

theorem innermost_eq_ok_iff : innermost codec file = .ok item ↔ Reaches codec file item := by
  simp only [innermost, Outcome.bind_eq_ok, Outcome.mapError_eq_ok, untag_eq_ok_iff,
    encoded_eq_ok_iff]
  constructor
  · rintro ⟨outer, hdecode, envelope, henvelope, wrapper, hwrapper, hitem⟩
    exact ⟨outer, envelope, wrapper, hdecode, henvelope, hwrapper, hitem⟩
  · rintro ⟨outer, envelope, wrapper, hdecode, henvelope, hwrapper, hitem⟩
    exact ⟨outer, hdecode, envelope, henvelope, wrapper, hwrapper, hitem⟩

theorem untag_eq_error {fault : Fault} (h : untag v = .error fault) :
    ∃ number, fault = .wrongTag number := by
  unfold untag at h
  split at h
  · split_ifs at h
    cases h
    exact ⟨_, rfl⟩
  · cases h

theorem untag_ne_broken {mishap : Value.Mishap} : untag v ≠ .error (.broken mishap) := by
  intro h
  obtain ⟨number, hnumber⟩ := untag_eq_error h
  cases hnumber

theorem innermost_eq_broken_iff {mishap : Value.Mishap} :
    innermost codec file = .error (.broken mishap) ↔ BreaksOff codec file mishap := by
  simp only [innermost, Outcome.bind_eq_error, Outcome.mapError_eq_error, Outcome.mapError_eq_ok,
    ofFailure_eq_broken_iff, untag_ne_broken, untag_eq_ok_iff, encoded_eq_broken_iff,
    encoded_eq_ok_iff, false_or, exists_eq_right]
  constructor
  · rintro (h | ⟨outer, hfile, envelope, henvelope, h | ⟨wrapper, hwrapper, h⟩⟩)
    · exact .file h
    · exact .envelope hfile henvelope h
    · exact .wrapper hfile henvelope hwrapper h
  · intro h
    cases h with
    | file h => exact .inl h
    | envelope hfile henvelope h => exact .inr ⟨_, hfile, _, henvelope, .inl h⟩
    | wrapper hfile henvelope hwrapper h =>
      exact .inr ⟨_, hfile, _, henvelope, .inr ⟨_, hwrapper, h⟩⟩

/-- Faults that have nothing to do with a digest. -/
def Fault.IsEarly (fault : Fault) : Prop :=
  fault ≠ .badDigest ∧ ∀ cause, fault ≠ .notOctets cause

theorem isEarly_ofFailure (failure : Cbor.Failure) : (Fault.ofFailure failure).IsEarly := by
  cases failure <;> exact ⟨nofun, nofun⟩

theorem isEarly_of_encoded {fault : Fault} (h : encoded codec n v = .error fault) :
    fault.IsEarly := by
  rw [encoded] at h
  split at h
  · cases h
    exact ⟨nofun, nofun⟩
  · obtain ⟨failure, -, rfl⟩ := Outcome.mapError_eq_error.mp h
    exact isEarly_ofFailure failure
  · cases h
    exact ⟨nofun, nofun⟩

theorem isEarly_of_innermost {fault : Fault} (h : innermost codec file = .error fault) :
    fault.IsEarly := by
  simp only [innermost, Outcome.bind_eq_error, Outcome.mapError_eq_error] at h
  rcases h with ⟨failure, -, rfl⟩ | ⟨outer, -, huntag | ⟨envelope, -, h | ⟨wrapper, -, h⟩⟩⟩
  · exact isEarly_ofFailure failure
  · obtain ⟨number, rfl⟩ := untag_eq_error huntag
    exact ⟨nofun, nofun⟩
  · exact isEarly_of_encoded h
  · exact isEarly_of_encoded h

theorem Reaches.unique {item' : Value} (h : Reaches codec file item)
    (h' : Reaches codec file item') : item = item' := by
  have hitem := innermost_eq_ok_iff.mpr h
  rw [innermost_eq_ok_iff.mpr h'] at hitem
  cases hitem
  rfl

theorem ofItem_of_not_pair (h : ∀ algorithm d, item ≠ .array [algorithm, d]) :
    ofItem room item = .error .badDigest := by
  unfold ofItem
  split
  · exact (h _ _ rfl).elim
  · rfl

theorem digest_of_reaches (h : Reaches codec file item) :
    digest codec room file = ofItem room item := by
  rw [digest_eq, innermost_eq_ok_iff.mpr h]
  rfl

theorem digest_of_holds (h : HoldsDigest codec file algorithm d) :
    digest codec room file = (octets room d).mapError .notOctets :=
  digest_of_reaches h

theorem reaches_of_digest (h : digest codec room file = .ok b) :
    ∃ item, Reaches codec file item := by
  rw [digest_eq] at h
  obtain ⟨item, hitem, -⟩ := Outcome.bind_eq_ok.mp h
  exact ⟨item, innermost_eq_ok_iff.mp hitem⟩

theorem digest_eq_ok_iff :
    digest codec room file = .ok b ↔
      ∃ algorithm d, HoldsDigest codec file algorithm d ∧ Gives room d b := by
  constructor
  · intro h
    obtain ⟨item, hreaches⟩ := reaches_of_digest h
    rw [digest_of_reaches hreaches] at h
    unfold ofItem at h
    split at h
    · rename_i algorithm d
      have hgives := octets_eq_ok_iff.mp (Outcome.mapError_eq_ok.mp h)
      exact ⟨algorithm, d, hreaches, hgives⟩
    · cases h
  · rintro ⟨algorithm, d, hholds, hgives⟩
    rw [digest_of_holds hholds, octets_eq_ok_iff.mpr hgives]
    rfl

theorem digest_eq_badDigest_iff :
    digest codec room file = .error .badDigest ↔
      ∃ item, Reaches codec file item ∧ ∀ algorithm d, item ≠ .array [algorithm, d] := by
  constructor
  · intro h
    rw [digest_eq] at h
    rcases Outcome.bind_eq_error.mp h with h | ⟨item, hitem, h⟩
    · exact absurd rfl (isEarly_of_innermost h).1
    · refine ⟨item, innermost_eq_ok_iff.mp hitem, ?_⟩
      rintro algorithm d rfl
      obtain ⟨_, -, hcause⟩ := Outcome.mapError_eq_error.mp h
      cases hcause
  · rintro ⟨item, hreaches, hother⟩
    rw [digest_of_reaches hreaches, ofItem_of_not_pair hother]

theorem digest_eq_notOctets_cause_iff {cause : Value.NotOctets} :
    digest codec room file = .error (.notOctets cause) ↔
      ∃ algorithm d, HoldsDigest codec file algorithm d ∧ octets room d = .error cause := by
  constructor
  · intro h
    rw [digest_eq] at h
    rcases Outcome.bind_eq_error.mp h with h | ⟨item, hitem, h⟩
    · exact absurd rfl ((isEarly_of_innermost h).2 cause)
    · unfold ofItem at h
      split at h
      · rename_i algorithm d
        obtain ⟨_, hoctets, hcause⟩ := Outcome.mapError_eq_error.mp h
        cases hcause
        exact ⟨algorithm, d, innermost_eq_ok_iff.mp hitem, hoctets⟩
      · cases h
  · rintro ⟨algorithm, d, hholds, hoctets⟩
    rw [digest_of_holds hholds, hoctets]
    rfl

theorem digest_eq_broken_iff {mishap : Value.Mishap} :
    digest codec room file = .error (.broken mishap) ↔ BreaksOff codec file mishap := by
  rw [digest_eq, Outcome.bind_eq_error, innermost_eq_broken_iff, or_iff_left_iff_imp]
  rintro ⟨item, -, h⟩
  unfold ofItem at h
  split at h
  · obtain ⟨_, -, hcause⟩ := Outcome.mapError_eq_error.mp h
    cases hcause
  · cases h

theorem digest_eq_notOctets_iff :
    (∃ cause, digest codec room file = .error (.notOctets cause)) ↔
      ∃ algorithm d, HoldsDigest codec file algorithm d ∧ ∀ b, ¬ Gives room d b := by
  simp only [digest_eq_notOctets_cause_iff]
  constructor
  · rintro ⟨cause, algorithm, d, hholds, hoctets⟩
    refine ⟨algorithm, d, hholds, ?_⟩
    intro b hgives
    rw [octets_eq_ok_iff.mpr hgives] at hoctets
    cases hoctets
  · rintro ⟨algorithm, d, hholds, hnone⟩
    cases hoctets : octets room d with
    | error cause => exact ⟨cause, algorithm, d, hholds, hoctets⟩
    | ok b => exact (hnone b (octets_eq_ok_iff.mp hoctets)).elim

end Suit

namespace Image

open Suit (Reaches HoldsDigest Gives)

variable {codec : Cbor.Codec} {room : Suit.Room} {file : Bytes} {image : Image}

theorem ofSuit_eq_ok_iff :
    ofSuit codec room file = .ok image ↔
      image.format = .suit ∧ image.data = file ∧
        ∃ algorithm d, HoldsDigest codec file algorithm d ∧ Gives room d image.hash := by
  rw [ofSuit, Outcome.bind_eq_ok]
  constructor
  · rintro ⟨hash, hdigest, hmake⟩
    obtain ⟨hformat, hdata, rfl⟩ := make_eq_ok_iff.mp hmake
    have hholds := Suit.digest_eq_ok_iff.mp (Outcome.mapError_eq_ok.mp hdigest)
    exact ⟨hformat, hdata, hholds⟩
  · rintro ⟨hformat, hdata, hholds⟩
    have hdigest := Suit.digest_eq_ok_iff.mpr hholds
    exact ⟨image.hash, Outcome.mapError_eq_ok.mpr hdigest,
      make_eq_ok_iff.mpr ⟨hformat, hdata, rfl⟩⟩

theorem ofSuit_eq_suit_iff {fault : Suit.Fault} :
    ofSuit codec room file = .error (.suit fault) ↔ Suit.digest codec room file = .error fault := by
  rw [ofSuit, Outcome.bind_eq_error]
  constructor
  · rintro (h | ⟨hash, -, hmake⟩)
    · obtain ⟨cause, hdigest, hcause⟩ := Outcome.mapError_eq_error.mp h
      cases hcause
      exact hdigest
    · rw [make] at hmake
      split_ifs at hmake
      cases hmake
  · intro hdigest
    exact .inl (Outcome.mapError_eq_error.mpr ⟨fault, hdigest, rfl⟩)

/-- The hash of an image from a file is the byte string that is the file's digest, and a file whose
digest is no byte string gives no image. -/
def HashStands (codec : Cbor.Codec) (room : Suit.Room) (file : Bytes) : Prop :=
  (∀ image, ofSuit codec room file = .ok image →
      ∃ algorithm, HoldsDigest codec file algorithm (.bytes image.hash)) ∧
    ∀ algorithm d, HoldsDigest codec file algorithm d → (∀ b, d ≠ .bytes b) →
      ∃ fault, ofSuit codec room file = .error fault

theorem hashStands_iff :
    HashStands codec room file ↔
      ∀ algorithm d b, HoldsDigest codec file algorithm d → Gives room d b →
        d = .bytes b ∨ b = [] := by
  constructor
  · rintro ⟨-, hrefused⟩ algorithm d b hholds hgives
    by_cases hempty : b = []
    · exact .inr hempty
    · by_cases hbytes : ∃ own, d = .bytes own
      · obtain ⟨own, rfl⟩ := hbytes
        cases hgives
        exact .inl rfl
      · have hne : ∀ own, d ≠ .bytes own := fun own h => hbytes ⟨own, h⟩
        obtain ⟨fault, hfault⟩ := hrefused algorithm d hholds hne
        have himage : ofSuit codec room file = .ok ⟨.suit, file, b, hempty⟩ :=
          ofSuit_eq_ok_iff.mpr ⟨rfl, rfl, algorithm, d, hholds, hgives⟩
        rw [himage] at hfault
        cases hfault
  · intro hown
    constructor
    · intro image himage
      obtain ⟨-, -, algorithm, d, hholds, hgives⟩ := ofSuit_eq_ok_iff.mp himage
      rcases hown algorithm d image.hash hholds hgives with rfl | hempty
      · exact ⟨algorithm, hholds⟩
      · exact absurd hempty image.hash_ne_nil
    · intro algorithm d hholds hne
      cases himage : ofSuit codec room file with
      | error fault => exact ⟨fault, rfl⟩
      | ok image =>
        obtain ⟨-, -, algorithm', d', hholds', hgives'⟩ := ofSuit_eq_ok_iff.mp himage
        cases Reaches.unique hholds hholds'
        rcases hown algorithm d image.hash hholds hgives' with hbytes | hempty
        · exact absurd hbytes (hne _)
        · exact absurd hempty image.hash_ne_nil

/-- A file gives an image exactly where a pair stands two byte strings deep and its digest gives
octets, which are the hash. So the hash is the byte string that stands there unless a digest of
another kind gives octets. A file is refused for its digest if what stands there is no pair, and in
other words if it is a pair whose digest gives no octets. -/
theorem ofSuit_reads_digest (codec : Cbor.Codec) (room : Suit.Room) (file : Bytes) :
    (∀ image, ofSuit codec room file = .ok image ↔
      image.format = .suit ∧ image.data = file ∧
        ∃ algorithm d, HoldsDigest codec file algorithm d ∧ Gives room d image.hash) ∧
    (HashStands codec room file ↔
      ∀ algorithm d b, HoldsDigest codec file algorithm d → Gives room d b →
        d = .bytes b ∨ b = []) ∧
    (ofSuit codec room file = .error (.suit .badDigest) ↔
      ∃ item, Reaches codec file item ∧ ∀ algorithm d, item ≠ .array [algorithm, d]) ∧
    ((∃ cause, ofSuit codec room file = .error (.suit (.notOctets cause))) ↔
      ∃ algorithm d, HoldsDigest codec file algorithm d ∧ ∀ b, ¬ Gives room d b) := by
  refine ⟨fun image => ofSuit_eq_ok_iff, hashStands_iff, ?_, ?_⟩
  · rw [ofSuit_eq_suit_iff]
    exact Suit.digest_eq_badDigest_iff
  · simp only [ofSuit_eq_suit_iff]
    exact Suit.digest_eq_notOctets_iff

namespace Sample

def counting : Bytes := [0xA1, 0x02, 0x46, 0x81, 0x44, 0x82, 0x2F, 0x18, 0x20]

theorem holdsDigest_counting : HoldsDigest Cbor.plain counting (.int (-16)) (.int 32) := by
  refine ⟨_, .map [(.int 2, .bytes [0x81, 0x44, 0x82, 0x2F, 0x18, 0x20])],
    .array [.bytes [0x82, 0x2F, 0x18, 0x20]], rfl, .plain nofun, ?_, ?_⟩
  · have hpart : Value.find? (.int 2) [(.int 2, .bytes [0x81, 0x44, 0x82, 0x2F, 0x18, 0x20])] =
        some (.bytes [0x81, 0x44, 0x82, 0x2F, 0x18, 0x20]) := by decide +kernel
    exact ⟨_, .entry hpart, rfl⟩
  · exact ⟨[0x82, 0x2F, 0x18, 0x20], .item rfl, rfl⟩

end Sample

/-- The envelope gives an image with 32 zeros for its hash. -/
theorem hash_made_of_count :
    ¬ HashStands Cbor.plain (fun n => n ≤ 32) Sample.counting := by
  intro h
  have hgives : Gives (fun n => n ≤ 32) (.int 32) (List.replicate 32 0) :=
    .count (by decide) (by decide)
  rcases hashStands_iff.mp h _ _ _ Sample.holdsDigest_counting hgives with hbytes | hempty
  · cases hbytes
  · cases hempty

end Image

end Reflash
