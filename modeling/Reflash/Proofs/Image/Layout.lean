import Mathlib.Tactic.SplitIfs
import Reflash.Image
import Reflash.Proofs.Outcome

/-! MCUboot files in parts. The reader is told by what it reads: a header, an
area or a whole file is read exactly where it has been written as it stands, so
each reader comes with one equation for what is written and one equivalence.
Sizes are as in the file; they need not be those that a careful writer gives,
only those that the reader accepts. -/

namespace Reflash

namespace Bytes

theorem toNatLE_lt (b : Bytes) : toNatLE b < Nat.pow 256 b.length := by
  induction b with
  | nil => exact Nat.one_pos
  | cons x rest ih =>
    have hx := x.toNat_lt
    have hpow : Nat.pow 256 (x :: rest).length = Nat.pow 256 rest.length * 256 := rfl
    rw [hpow, toNatLE]
    omega

theorem ofNatLE_toNatLE (b : Bytes) : ofNatLE b.length (toNatLE b) = b := by
  induction b with
  | nil => rfl
  | cons x rest ih =>
    have hx := x.toNat_lt
    have hrest : (x.toNat + 256 * toNatLE rest) / 256 = toNatLE rest := by omega
    have hhead : UInt8.ofNat (x.toNat + 256 * toNatLE rest) = x := by
      apply UInt8.toNat_inj.mp
      rw [UInt8.toNat_ofNat']
      omega
    rw [List.length_cons, toNatLE, ofNatLE, hrest, hhead, ih]

theorem toNatLE_pair_lt (x y : UInt8) : toNatLE [x, y] < 0x10000 := by
  have hx := x.toNat_lt
  have hy := y.toNat_lt
  simp only [toNatLE]
  omega

theorem take_append_drop_add (b : Bytes) (offset size : Nat) :
    (b.drop offset).take size ++ b.drop (offset + size) = b.drop offset := by
  rw [← List.drop_drop, List.take_append_drop]

end Bytes

namespace McuBoot

open Bytes (ofNatLE toNatLE)

variable {b front rest : Bytes} {offset width n : Nat}

/-! ### Numbers -/

theorem numberAt_length_add (front rest : Bytes) (k width : Nat) :
    numberAt (front ++ rest) (front.length + k) width = numberAt rest k width := by
  rw [numberAt, numberAt, List.drop_length_add_append]

theorem numberAt_ofNatLE (rest : Bytes) (h : n < Nat.pow 256 width) :
    numberAt (ofNatLE width n ++ rest) 0 width = n := by
  have htake : (ofNatLE width n ++ rest).take width = ofNatLE width n := by
    rw [List.take_append_of_le_length (by simp), List.take_of_length_le (by simp)]
  rw [numberAt, List.drop_zero, htake, Bytes.toNatLE_ofNatLE h]

theorem numberAt_skip {k : Nat} (rest : Bytes) (h : width ≤ k) (n w : Nat) :
    numberAt (ofNatLE width n ++ rest) k w = numberAt rest (k - width) w := by
  have hskip := numberAt_length_add (ofNatLE width n) rest (k - width) w
  rwa [Bytes.length_ofNatLE, Nat.add_sub_cancel' h] at hskip

theorem numberAt_lt (b : Bytes) (offset width : Nat) :
    numberAt b offset width < Nat.pow 256 width := by
  refine Nat.lt_of_lt_of_le (Bytes.toNatLE_lt _) ?_
  exact Nat.pow_le_pow_right (by decide) (by rw [List.length_take]; exact Nat.min_le_left ..)

theorem ofNatLE_numberAt (h : offset + width ≤ b.length) :
    ofNatLE width (numberAt b offset width) = (b.drop offset).take width := by
  have hlength : ((b.drop offset).take width).length = width := by
    rw [List.length_take, List.length_drop]
    omega
  have hwritten := Bytes.ofNatLE_toNatLE ((b.drop offset).take width)
  rwa [hlength] at hwritten

/-! ### Headers -/

def numbersAt (b : Bytes) (offset : Nat) : List Nat → List (Nat × Nat)
  | [] => []
  | width :: widths => (width, numberAt b offset width) :: numbersAt b (offset + width) widths

def extent : List Nat → Nat
  | [] => 0
  | width :: widths => width + extent widths

def written (fields : List (Nat × Nat)) : Bytes :=
  fields.flatMap fun (width, value) => ofNatLE width value

theorem lt_of_mem_numbersAt {widths : List Nat} {field : Nat × Nat}
    (h : field ∈ numbersAt b offset widths) : field.2 < Nat.pow 256 field.1 := by
  induction widths generalizing offset with
  | nil => cases h
  | cons width widths ih =>
    rcases List.mem_cons.mp h with rfl | h
    · exact numberAt_lt b offset width
    · exact ih h

theorem numbersAt_written {fields : List (Nat × Nat)}
    (h : ∀ field ∈ fields, field.2 < Nat.pow 256 field.1) (front rest : Bytes) :
    numbersAt (front ++ (written fields ++ rest)) front.length (fields.map Prod.fst) = fields := by
  induction fields generalizing front with
  | nil => rfl
  | cons field fields ih =>
    obtain ⟨width, value⟩ := field
    have hvalue : value < Nat.pow 256 width := h _ List.mem_cons_self
    have hfields := ih (fun x hx => h x (List.mem_cons_of_mem _ hx)) (front ++ ofNatLE width value)
    have hwritten : written ((width, value) :: fields) =
        ofNatLE width value ++ written fields := rfl
    have hat := numberAt_length_add front (ofNatLE width value ++ (written fields ++ rest)) 0 width
    rw [List.length_append, Bytes.length_ofNatLE, List.append_assoc] at hfields
    rw [Nat.add_zero, numberAt_ofNatLE _ hvalue] at hat
    rw [List.map_cons, numbersAt, hwritten, List.append_assoc, hat, hfields]

theorem written_numbersAt {widths : List Nat} (h : offset + extent widths ≤ b.length) :
    written (numbersAt b offset widths) ++ b.drop (offset + extent widths) = b.drop offset := by
  induction widths generalizing offset with
  | nil => rfl
  | cons width widths ih =>
    rw [extent, ← Nat.add_assoc] at h
    have hwritten : written (numbersAt b offset (width :: widths)) =
        ofNatLE width (numberAt b offset width) ++
          written (numbersAt b (offset + width) widths) := rfl
    rw [hwritten, extent, ← Nat.add_assoc, List.append_assoc, ih h, ofNatLE_numberAt (by omega),
      Bytes.take_append_drop_add]

namespace Header

def widths : List Nat := [4, 4, 2, 2, 4, 4, 1, 1, 2, 4]

def fields (h : Header) : List (Nat × Nat) :=
  widths.zip [magic, h.loadAddress, h.headerSize, h.protectedSize, h.bodySize, h.flags,
    h.version.major, h.version.minor, h.version.revision, h.version.build]

def octets (h : Header) : Bytes := written h.fields

def Fits (h : Header) : Prop := ∀ field ∈ h.fields, field.2 < Nat.pow 256 field.1

instance (h : Header) : Decidable h.Fits :=
  inferInstanceAs (Decidable (∀ field ∈ h.fields, field.2 < Nat.pow 256 field.1))

theorem length_octets (h : Header) : h.octets.length = extent widths := by
  simp [octets, written, fields, widths, extent]

end Header

theorem header_octets_append {h : Header} (hfits : h.Fits) (hleast : headerSize ≤ h.headerSize)
    (hrest : 4 ≤ rest.length) : header (h.octets ++ rest) = .ok h := by
  have hlength : (h.octets ++ rest).length = 28 + rest.length := by
    rw [List.length_append, h.length_octets]
    rfl
  have hnumbers : numbersAt (h.octets ++ rest) 0 Header.widths = h.fields :=
    numbersAt_written hfits [] rest
  simp only [numbersAt, Header.fields, Header.widths, List.zip_cons_cons, List.cons.injEq,
    Prod.mk.injEq] at hnumbers
  obtain ⟨⟨_, hmagic⟩, ⟨_, haddress⟩, ⟨_, hsize⟩, ⟨_, hprotected⟩, ⟨_, hbody⟩, ⟨_, hflags⟩,
    ⟨_, hmajor⟩, ⟨_, hminor⟩, ⟨_, hrevision⟩, ⟨_, hbuild⟩, _⟩ := hnumbers
  rw [header, hlength, if_neg (by simp only [headerSize]; omega), hmagic,
    if_neg (fun hne => hne rfl), hsize, if_neg (Nat.not_lt.mpr hleast), haddress, hprotected, hbody,
    hflags, hmajor, hminor, hrevision, hbuild]

theorem exists_rest_of_header {h : Header} (hheader : header b = .ok h) :
    h.Fits ∧ headerSize ≤ h.headerSize ∧ ∃ rest, 4 ≤ rest.length ∧ b = h.octets ++ rest := by
  unfold header at hheader
  split_ifs at hheader with hlength hmagic hsize
  have hlength : 32 ≤ b.length := Nat.not_lt.mp hlength
  have hread := Except.ok.inj hheader
  have hfields : h.fields = numbersAt b 0 Header.widths := by
    rw [← hread, Header.fields, ← Decidable.of_not_not hmagic]
    rfl
  refine ⟨?_, ?_, b.drop 28, ?_, ?_⟩
  · intro field hfield
    rw [hfields] at hfield
    exact lt_of_mem_numbersAt hfield
  · rw [← hread]
    exact Nat.not_lt.mp hsize
  · rw [List.length_drop]
    omega
  · have hinside : 0 + extent Header.widths ≤ b.length := Nat.le_trans (by decide) hlength
    rw [Header.octets, hfields]
    exact (written_numbersAt hinside).symm

theorem header_eq_ok_iff {h : Header} :
    header b = .ok h ↔
      h.Fits ∧ headerSize ≤ h.headerSize ∧ ∃ rest, 4 ≤ rest.length ∧ b = h.octets ++ rest := by
  constructor
  · exact exists_rest_of_header
  · rintro ⟨hfits, hleast, rest, hrest, rfl⟩
    exact header_octets_append hfits hleast hrest

/-! ### Entries and areas -/

namespace Entry

structure Fits (e : Entry) : Prop where
  type : e.type < 0x10000
  size : e.value.length < 0x10000

instance (e : Entry) : Decidable e.Fits :=
  decidable_of_iff (e.type < 0x10000 ∧ e.value.length < 0x10000)
    ⟨fun h => ⟨h.1, h.2⟩, fun h => ⟨h.type, h.size⟩⟩

def octets (e : Entry) : Bytes := ofNatLE 2 e.type ++ (ofNatLE 2 e.value.length ++ e.value)

def isDigest (e : Entry) : Bool := digestTypes.contains e.type

end Entry

def firstDigest (es : List Entry) : Option Bytes := (es.find? Entry.isDigest).map Entry.value

theorem firstDigest_cons (e : Entry) (es : List Entry) :
    firstDigest (e :: es) = if e.isDigest then some e.value else firstDigest es := by
  rw [firstDigest, List.find?_cons]
  split <;> simp_all [firstDigest]

theorem entries_of_length_lt (h : b.length < 4) : entries b = .ok [] := by
  rw [entries.eq_def]
  split
  next => simp only [List.length_cons] at h; omega
  next => rfl

theorem entries_cons (t₀ t₁ l₀ l₁ : UInt8) (rest : Bytes) :
    entries (t₀ :: t₁ :: l₀ :: l₁ :: rest) =
      if rest.length < toNatLE [l₀, l₁] then .error (.overrun (toNatLE [t₀, t₁]))
      else (entries (rest.drop (toNatLE [l₀, l₁]))).map
        (⟨toNatLE [t₀, t₁], rest.take (toNatLE [l₀, l₁])⟩ :: ·) := by
  rw [entries]
  split
  · rfl
  · cases entries (rest.drop (toNatLE [l₀, l₁])) <;> rfl

theorem entries_octets_append {e : Entry} (h : e.Fits) (rest : Bytes) :
    entries (e.octets ++ rest) = (entries rest).map (e :: ·) := by
  have htype : toNatLE (ofNatLE 2 e.type) = e.type := Bytes.toNatLE_ofNatLE h.type
  have hsize : toNatLE (ofNatLE 2 e.value.length) = e.value.length := Bytes.toNatLE_ofNatLE h.size
  simp only [ofNatLE] at htype hsize
  simp only [Entry.octets, ofNatLE, List.cons_append, List.nil_append]
  rw [entries_cons, htype, hsize, if_neg (by simp), List.take_left, List.drop_left]

theorem entries_flatMap_append {es : List Entry} (hfit : ∀ e ∈ es, e.Fits) {slack : Bytes}
    (hslack : slack.length < 4) : entries (es.flatMap Entry.octets ++ slack) = .ok es := by
  induction es with
  | nil => exact entries_of_length_lt hslack
  | cons e es ih =>
    have hes := ih fun x hx => hfit x (List.mem_cons_of_mem _ hx)
    have he := entries_octets_append (hfit e List.mem_cons_self)
    rw [List.flatMap_cons, List.append_assoc, he, hes]
    rfl

theorem exists_slack_of_entries {es : List Entry} (h : entries b = .ok es) :
    (∀ e ∈ es, e.Fits) ∧ ∃ slack, slack.length < 4 ∧ b = es.flatMap Entry.octets ++ slack := by
  fun_induction entries b generalizing es with
  | case1 => cases h
  | case2 t₀ t₁ l₀ l₁ rest type size hsize =>
    rename_i ih
    cases hothers : entries (rest.drop size) with
    | error fault =>
      rw [hothers] at h
      cases h
    | ok others =>
      rw [hothers] at h
      cases h
      obtain ⟨hfit, slack, hslack, hrest⟩ := ih hothers
      have hlength : (rest.take size).length = size := by
        rw [List.length_take]
        omega
      have htype : ofNatLE 2 (toNatLE [t₀, t₁]) = [t₀, t₁] := Bytes.ofNatLE_toNatLE [t₀, t₁]
      have hsize' : ofNatLE 2 size = [l₀, l₁] := Bytes.ofNatLE_toNatLE [l₀, l₁]
      refine ⟨?_, slack, hslack, ?_⟩
      · intro e he
        rcases List.mem_cons.mp he with rfl | he
        · refine ⟨Bytes.toNatLE_pair_lt t₀ t₁, ?_⟩
          rw [hlength]
          exact Bytes.toNatLE_pair_lt l₀ l₁
        · exact hfit e he
      · rw [List.flatMap_cons, Entry.octets, hlength, htype, hsize', List.append_assoc,
          List.append_assoc, List.append_assoc, ← hrest, List.take_append_drop]
        rfl
  | case3 b hshort =>
    cases h
    refine ⟨List.forall_mem_nil _, b, ?_, rfl⟩
    match b, hshort with
    | [], _ | [_], _ | [_, _], _ | [_, _, _], _ => simp
    | t₀ :: t₁ :: l₀ :: l₁ :: rest, hshort => exact (hshort t₀ t₁ l₀ l₁ rest rfl).elim

theorem entries_eq_ok_iff {es : List Entry} :
    entries b = .ok es ↔ (∀ e ∈ es, e.Fits) ∧
      ∃ slack, slack.length < 4 ∧ b = es.flatMap Entry.octets ++ slack := by
  constructor
  · exact exists_slack_of_entries
  · rintro ⟨hfit, slack, hslack, rfl⟩
    exact entries_flatMap_append hfit hslack

/-- An area as it stands in a file. Its size counts the four octets in front of its entries; a size
below four leaves room for none. -/
structure Block where
  size : Nat
  entries : List Entry
  slack : Bytes
  size_lt : size < 0x10000
  fits : ∀ e ∈ entries, e.Fits
  slack_lt : slack.length < 4
  length_content : (entries.flatMap Entry.octets ++ slack).length = size - areaHeadSize

namespace Block

def content (k : Block) : Bytes := k.entries.flatMap Entry.octets ++ k.slack

def octets (magic : Nat) (k : Block) : Bytes := ofNatLE 2 magic ++ (ofNatLE 2 k.size ++ k.content)

def ofEntries (es : List Entry) (hfits : ∀ e ∈ es, e.Fits)
    (hsize : areaHeadSize + (es.flatMap Entry.octets).length < 0x10000) : Block where
  size := areaHeadSize + (es.flatMap Entry.octets).length
  entries := es
  slack := []
  size_lt := hsize
  fits := hfits
  slack_lt := by decide
  length_content := by rw [List.append_nil, Nat.add_sub_cancel_left]

def area (k : Block) (offset : Nat) : Area := ⟨k.entries, offset + k.size⟩

theorem length_octets (magic : Nat) (k : Block) :
    (k.octets magic).length = areaHeadSize + (k.size - areaHeadSize) := by
  simp only [octets, content, List.length_append, Bytes.length_ofNatLE]
  rw [← List.length_append, k.length_content]
  simp only [areaHeadSize]
  omega

end Block

theorem numberAt_block {magic : Nat} (hmagic : magic < 0x10000) (front : Bytes) (k : Block)
    (rest : Bytes) : numberAt (front ++ (k.octets magic ++ rest)) front.length 2 = magic := by
  have hskip := numberAt_length_add front (k.octets magic ++ rest) 0 2
  rw [Nat.add_zero] at hskip
  rw [hskip, Block.octets, List.append_assoc, numberAt_ofNatLE _ hmagic]

theorem size_block (magic : Nat) (front : Bytes) (k : Block) (rest : Bytes) :
    numberAt (front ++ (k.octets magic ++ rest)) (front.length + 2) 2 = k.size := by
  rw [numberAt_length_add, Block.octets, List.append_assoc, List.append_assoc,
    numberAt_skip _ (Nat.le_refl 2), numberAt_ofNatLE _ k.size_lt]

theorem area_octets {magic : Nat} (hmagic : magic < 0x10000) (front : Bytes) (k : Block)
    (rest : Bytes) :
    area (front ++ (k.octets magic ++ rest)) front.length magic = .ok (k.area front.length) := by
  have hlength : (front ++ (k.octets magic ++ rest)).length =
      front.length + (areaHeadSize + (k.size - areaHeadSize)) + rest.length := by
    rw [List.length_append, List.length_append, k.length_octets]
    omega
  have hcontent : ((front ++ (k.octets magic ++ rest)).drop (front.length + areaHeadSize)).take
      (k.size - areaHeadSize) = k.content := by
    have hdrop : (k.octets magic ++ rest).drop areaHeadSize = k.content ++ rest := rfl
    rw [List.drop_length_add_append, hdrop, ← k.length_content]
    exact List.take_left
  have hentries : entries k.content = .ok k.entries := entries_flatMap_append k.fits k.slack_lt
  rw [area, hlength, numberAt_block hmagic, size_block, if_neg (by omega), if_neg (by simp),
    if_neg (by omega), hcontent, hentries]
  rfl

theorem area_parts (h : offset + areaHeadSize ≤ b.length) (size : Nat) :
    b.take offset ++ (ofNatLE 2 (numberAt b offset 2) ++ (ofNatLE 2 (numberAt b (offset + 2) 2) ++
      ((b.drop (offset + areaHeadSize)).take size ++ b.drop (offset + areaHeadSize + size)))) =
      b := by
  have hfour : offset + 4 ≤ b.length := h
  have hmagic : ofNatLE 2 (numberAt b offset 2) = (b.drop offset).take 2 :=
    ofNatLE_numberAt (by omega)
  have hsize : ofNatLE 2 (numberAt b (offset + 2) 2) = (b.drop (offset + 2)).take 2 :=
    ofNatLE_numberAt (by omega)
  have hrest : (b.drop (offset + 2)).take 2 ++ b.drop (offset + areaHeadSize) =
      b.drop (offset + 2) := Bytes.take_append_drop_add b (offset + 2) 2
  rw [Bytes.take_append_drop_add, hsize, hrest, hmagic, Bytes.take_append_drop_add,
    List.take_append_drop]

theorem area_eq_ok_iff {magic : Nat} (hmagic : magic < 0x10000) {a : Area} :
    area b offset magic = .ok a ↔
      ∃ front k rest, b = front ++ (Block.octets magic k ++ rest) ∧ front.length = offset ∧
        a = k.area offset := by
  constructor
  · intro h
    unfold area at h
    dsimp only at h
    split_ifs at h with hhead hnumber hcut
    cases hentries : entries ((b.drop (offset + areaHeadSize)).take
        (numberAt b (offset + 2) 2 - areaHeadSize)) with
    | error fault =>
      rw [hentries] at h
      cases h
    | ok es =>
      rw [hentries] at h
      cases h
      obtain ⟨hfit, slack, hslack, hcontent⟩ := entries_eq_ok_iff.mp hentries
      have hlength : (es.flatMap Entry.octets ++ slack).length =
          numberAt b (offset + 2) 2 - areaHeadSize := by
        rw [← hcontent, List.length_take, List.length_drop]
        omega
      refine ⟨b.take offset, ⟨numberAt b (offset + 2) 2, es, slack, numberAt_lt b (offset + 2) 2,
        hfit, hslack, hlength⟩, b.drop (offset + areaHeadSize +
          (numberAt b (offset + 2) 2 - areaHeadSize)), ?_, ?_, rfl⟩
      · rw [Block.octets, Block.content, ← hcontent, ← Decidable.of_not_not hnumber]
        simp only [List.append_assoc]
        exact (area_parts (Nat.not_lt.mp hhead) _).symm
      · rw [List.length_take]
        omega
  · rintro ⟨front, k, rest, rfl, rfl, rfl⟩
    exact area_octets hmagic front k rest

/-! ### Whole files -/

def reported (h : Header) (inner outer : Option Bytes) : Except Fault (Header × Bytes) :=
  match inner.filter (fun d => !d.isEmpty) <|> outer with
  | some d => .ok (h, d)
  | none => .error .noDigest

theorem digest_of_one {h : Header} (hheader : header b = .ok h) (hsize : h.protectedSize = 0) :
    digest b = (area b (h.headerSize + h.bodySize) areaMagic).bind fun a =>
      reported h none a.digest? := by
  simp only [digest, hheader, hsize, bind, Except.bind, pure, Except.pure, if_true]
  cases area b (h.headerSize + h.bodySize) areaMagic with
  | error fault => rfl
  | ok a =>
    simp only [reported]
    cases a.digest? <;> rfl

theorem digest_of_two {h : Header} (hheader : header b = .ok h) (hsize : h.protectedSize ≠ 0) :
    digest b = (area b (h.headerSize + h.bodySize) protectedMagic).bind fun i =>
      (area b i.stop areaMagic).bind fun a => reported h i.digest? a.digest? := by
  simp only [digest, hheader, hsize, bind, Except.bind, pure, Except.pure, if_false]
  cases area b (h.headerSize + h.bodySize) protectedMagic with
  | error fault => rfl
  | ok i =>
    cases harea : area b i.stop areaMagic with
    | error fault => simp only [harea]
    | ok a =>
      simp only [harea, reported]
      cases i.digest?.filter (fun d => !d.isEmpty) <|> a.digest? <;> rfl

def Block.digest? (k : Block) : Option Bytes := firstDigest k.entries

/-- A file in parts: the header, filled up to the size that it gives, the body, one or two areas,
and whatever follows. -/
structure Layout where
  header : Header
  padding : Bytes
  body : Bytes
  inner : Option Block
  outer : Block
  rest : Bytes
  fits : header.Fits
  headerSize_le : headerSize ≤ header.headerSize
  length_padding : extent Header.widths + padding.length = header.headerSize
  length_body : body.length = header.bodySize
  isSome_inner : inner.isSome = true ↔ header.protectedSize ≠ 0
  inner_size : ∀ k ∈ inner, areaHeadSize ≤ k.size

namespace Layout

variable (f : Layout)

def opening : Bytes := f.header.octets ++ f.padding ++ f.body

def innerOctets : Bytes := f.inner.elim [] (Block.octets protectedMagic)

def octets : Bytes := f.opening ++ (f.innerOctets ++ (f.outer.octets areaMagic ++ f.rest))

theorem length_opening : f.opening.length = f.header.headerSize + f.header.bodySize := by
  rw [opening, List.length_append, List.length_append, f.header.length_octets, f.length_padding,
    f.length_body]

theorem header_octets : McuBoot.header f.octets = .ok f.header := by
  have hrest : 4 ≤ (f.padding ++ (f.body ++ (f.innerOctets ++
      (f.outer.octets areaMagic ++ f.rest)))).length := by
    simp only [List.length_append, Block.length_octets, areaHeadSize]
    omega
  have hheader := header_octets_append f.fits f.headerSize_le hrest
  rwa [← List.append_assoc, ← List.append_assoc] at hheader

theorem digest_octets :
    digest f.octets = reported f.header (f.inner.bind Block.digest?) f.outer.digest? := by
  have hsome := f.isSome_inner
  cases hinner : f.inner with
  | none =>
    have hsize : f.header.protectedSize = 0 := by simpa [hinner] using hsome
    have hoctets : f.octets = f.opening ++ (f.outer.octets areaMagic ++ f.rest) := by
      rw [octets, innerOctets, hinner]
      rfl
    have harea := area_octets (by decide : areaMagic < 0x10000) f.opening f.outer f.rest
    rw [← hoctets, length_opening] at harea
    rw [digest_of_one f.header_octets hsize, harea]
    rfl
  | some k =>
    have hsize : f.header.protectedSize ≠ 0 := by simpa [hinner] using hsome
    have hfour : areaHeadSize ≤ k.size := f.inner_size k hinner
    have hoctets : f.octets =
        f.opening ++ (k.octets protectedMagic ++ (f.outer.octets areaMagic ++ f.rest)) := by
      rw [octets, innerOctets, hinner]
      rfl
    have hfirst := area_octets (by decide : protectedMagic < 0x10000) f.opening k
      (f.outer.octets areaMagic ++ f.rest)
    have hsecond := area_octets (by decide : areaMagic < 0x10000)
      (f.opening ++ k.octets protectedMagic) f.outer f.rest
    -- the second area is looked for where the first one says that it ends
    have hstop : (f.opening ++ k.octets protectedMagic).length =
        f.header.headerSize + f.header.bodySize + k.size := by
      rw [List.length_append, k.length_octets, length_opening, Nat.add_sub_cancel' hfour]
    rw [← hoctets, length_opening] at hfirst
    rw [List.append_assoc, ← hoctets, hstop] at hsecond
    rw [digest_of_two f.header_octets hsize, hfirst]
    simp only [Except.bind, Block.area, hsecond]
    rfl

end Layout

theorem exists_opening {h : Header} (hheader : header (front ++ rest) = .ok h)
    (hlength : front.length = h.headerSize + h.bodySize) :
    ∃ padding body, front = h.octets ++ padding ++ body ∧
      extent Header.widths + padding.length = h.headerSize ∧ body.length = h.bodySize := by
  obtain ⟨-, hleast, tail, -, hwhole⟩ := header_eq_ok_iff.mp hheader
  have hwidths : extent Header.widths = 28 := rfl
  have hleast : 32 ≤ h.headerSize := hleast
  have hoctets : h.octets = front.take 28 := by
    have htake := congrArg (List.take 28) hwhole
    rw [List.take_append_of_le_length (by omega)] at htake
    rw [htake, ← hwidths, ← h.length_octets, List.take_left]
  refine ⟨(front.drop 28).take (h.headerSize - 28), front.drop h.headerSize, ?_, ?_, ?_⟩
  · have hrest := Bytes.take_append_drop_add front 28 (h.headerSize - 28)
    rw [Nat.add_sub_cancel' (by omega)] at hrest
    rw [List.append_assoc, hrest, hoctets, List.take_append_drop]
  · rw [hwidths, List.length_take, List.length_drop]
    omega
  · rw [List.length_drop]
    omega

theorem areaHeadSize_le_size {k : Block}
    (h : numberAt (k.octets protectedMagic ++ rest) k.size 2 = areaMagic) :
    areaHeadSize ≤ k.size := by
  refine Nat.le_of_not_lt fun hsmall => ?_
  have hsize : k.size = 0 ∨ k.size = 1 ∨ k.size = 2 ∨ k.size = 3 := by
    simp only [areaHeadSize] at hsmall
    omega
  have hwrong : ∀ n, toNatLE (((k.octets protectedMagic ++ rest).drop k.size).take 2) = n →
      n ≠ 0x6907 := by
    intro n
    rcases hsize with hsize | hsize | hsize | hsize <;>
      simp only [Block.octets, hsize, ofNatLE, List.cons_append, List.nil_append,
        List.drop_succ_cons, List.drop_zero, List.take_succ_cons, List.take_zero, toNatLE,
        UInt8.toNat_ofNat', protectedMagic] <;>
      omega
  exact hwrong _ h rfl

theorem exists_layout_of_one {h : Header} {a : Area} (hheader : header b = .ok h)
    (hsize : h.protectedSize = 0)
    (harea : area b (h.headerSize + h.bodySize) areaMagic = .ok a) :
    ∃ f : Layout, f.octets = b := by
  obtain ⟨front, k, rest, rfl, hfront, -⟩ :=
    (area_eq_ok_iff (by decide : areaMagic < 0x10000)).mp harea
  obtain ⟨padding, body, hopening, hpadding, hbody⟩ := exists_opening hheader hfront
  obtain ⟨hfits, hleast, -⟩ := header_eq_ok_iff.mp hheader
  refine ⟨⟨h, padding, body, none, k, rest, hfits, hleast, hpadding, hbody, ?_, ?_⟩, ?_⟩
  · simp [hsize]
  · simp
  · rw [hopening]
    rfl

theorem exists_layout_of_two {h : Header} {i a : Area} (hheader : header b = .ok h)
    (hsize : h.protectedSize ≠ 0)
    (hinner : area b (h.headerSize + h.bodySize) protectedMagic = .ok i)
    (harea : area b i.stop areaMagic = .ok a) : ∃ f : Layout, f.octets = b := by
  obtain ⟨front, k, rest, rfl, hfront, rfl⟩ :=
    (area_eq_ok_iff (by decide : protectedMagic < 0x10000)).mp hinner
  obtain ⟨padding, body, hopening, hpadding, hbody⟩ := exists_opening hheader hfront
  obtain ⟨hfits, hleast, -⟩ := header_eq_ok_iff.mp hheader
  have hstop : (k.area (h.headerSize + h.bodySize)).stop = front.length + k.size := by
    rw [hfront]
    rfl
  rw [hstop] at harea
  obtain ⟨front', k', rest', hwhole, hfront', -⟩ :=
    (area_eq_ok_iff (by decide : areaMagic < 0x10000)).mp harea
  have hnumber : numberAt (k.octets protectedMagic ++ rest) k.size 2 = areaMagic := by
    rw [← numberAt_length_add front, hwhole, ← hfront', numberAt_block (by decide)]
  have hfour : areaHeadSize ≤ k.size := areaHeadSize_le_size hnumber
  have hparts : front ++ k.octets protectedMagic = front' ∧
      rest = k'.octets areaMagic ++ rest' := by
    rw [← List.append_assoc] at hwhole
    apply List.append_inj hwhole
    rw [List.length_append, k.length_octets, hfront', Nat.add_sub_cancel' hfour]
  obtain ⟨-, rfl⟩ := hparts
  refine ⟨⟨h, padding, body, some k, k', rest', hfits, hleast, hpadding, hbody, ?_, ?_⟩, ?_⟩
  · simp [hsize]
  · rintro _ ⟨⟩
    exact hfour
  · rw [hopening]
    rfl

theorem exists_layout_of_digest {h : Header} {d : Bytes} (hdigest : digest b = .ok (h, d)) :
    ∃ f : Layout, f.octets = b := by
  obtain ⟨h', hheader, -⟩ := Outcome.bind_eq_ok.mp hdigest
  by_cases hsize : h'.protectedSize = 0
  · rw [digest_of_one hheader hsize] at hdigest
    obtain ⟨a, harea, -⟩ := Outcome.bind_eq_ok.mp hdigest
    exact exists_layout_of_one hheader hsize harea
  · rw [digest_of_two hheader hsize] at hdigest
    obtain ⟨i, hinner, hdigest⟩ := Outcome.bind_eq_ok.mp hdigest
    obtain ⟨a, harea, -⟩ := Outcome.bind_eq_ok.mp hdigest
    exact exists_layout_of_two hheader hsize hinner harea

end McuBoot
end Reflash
