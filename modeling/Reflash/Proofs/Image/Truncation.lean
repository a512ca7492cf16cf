import Reflash.Proofs.Image.Reading

/-! How far a file is read. The header and the inner area say where the outer area
starts, and the outer area says where it ends. Octets behind that end change nothing.
A front of the file that stops before it is no file of its own: if it were, the file
would be that front with more behind it, and would announce an end inside the front. -/

namespace Reflash

namespace McuBoot

variable {b front more : Bytes} {h h' : Header} {d d' : Bytes}

def outerStart (b : Bytes) (h : Header) : Nat :=
  let offset := h.headerSize + h.bodySize
  if h.protectedSize = 0 then offset else offset + numberAt b (offset + 2) 2

def announcedEnd (b : Bytes) (h : Header) : Nat :=
  outerStart b h + numberAt b (outerStart b h + 2) 2

namespace Layout

variable (f : Layout)

def extended (more : Bytes) : Layout := { f with rest := f.rest ++ more }

theorem octets_extended (more : Bytes) : (f.extended more).octets = f.octets ++ more := by
  simp only [octets, List.append_assoc]
  rfl

def stop : Nat := (f.opening ++ f.innerOctets).length + f.outer.size

theorem outerStart_octets :
    outerStart f.octets f.header = (f.opening ++ f.innerOctets).length := by
  have hsome := f.isSome_inner
  rw [outerStart, ← length_opening]
  cases hinner : f.inner with
  | none =>
    have hsize : f.header.protectedSize = 0 := by simpa [hinner] using hsome
    rw [if_pos hsize, innerOctets, hinner, Option.elim_none, List.append_nil]
  | some k =>
    have hsize : f.header.protectedSize ≠ 0 := by simpa [hinner] using hsome
    have hfour : areaHeadSize ≤ k.size := f.inner_size k hinner
    rw [if_neg hsize, octets, innerOctets, hinner, Option.elim_some, size_block,
      List.length_append, k.length_octets, Nat.add_sub_cancel' hfour]

theorem announcedEnd_octets : announcedEnd f.octets f.header = f.stop := by
  rw [announcedEnd, outerStart_octets, octets, ← List.append_assoc, size_block, stop]

theorem stop_le_length : f.stop ≤ f.octets.length := by
  have houter : f.outer.size ≤ (f.outer.octets areaMagic).length := by
    rw [Block.length_octets]
    omega
  simp only [stop, octets, List.length_append]
  omega

end Layout

theorem exists_layout (hdigest : digest b = .ok (h, d)) :
    ∃ f : Layout, f.octets = b ∧ f.header = h ∧ announcedEnd b h = f.stop := by
  obtain ⟨f, rfl⟩ := exists_layout_of_digest hdigest
  rw [f.digest_octets, Layout.reported_eq_ok_iff] at hdigest
  obtain ⟨rfl, -⟩ := hdigest
  exact ⟨f, rfl, rfl, f.announcedEnd_octets⟩

theorem announcedEnd_le_length (hdigest : digest b = .ok (h, d)) :
    announcedEnd b h ≤ b.length := by
  obtain ⟨f, rfl, -, hend⟩ := exists_layout hdigest
  rw [hend]
  exact f.stop_le_length

theorem digest_append (hdigest : digest b = .ok (h, d)) (more : Bytes) :
    digest (b ++ more) = .ok (h, d) ∧ announcedEnd (b ++ more) h = announcedEnd b h := by
  obtain ⟨f, rfl, rfl, hend⟩ := exists_layout hdigest
  rw [← f.octets_extended more, hend]
  constructor
  · rw [← hdigest, Layout.digest_octets, Layout.digest_octets]
    rfl
  · exact (f.extended more).announcedEnd_octets

theorem announcedEnd_le_length_front (hwhole : digest (front ++ more) = .ok (h, d))
    (hfront : digest front = .ok (h', d')) : announcedEnd (front ++ more) h ≤ front.length := by
  obtain ⟨hsame, hend⟩ := digest_append hfront more
  rw [hwhole] at hsame
  cases hsame
  rw [hend]
  exact announcedEnd_le_length hfront

end McuBoot

namespace Image

open McuBoot (Layout announcedEnd)

/-- A file that gives an image ends no sooner than its outer area. A front that stops before that is
refused, and whatever is put behind the file, the image keeps its header and its hash. -/
theorem ofMcuBoot_up_to_end {file : Bytes} {image : Image} (himage : ofMcuBoot file = .ok image) :
    ∃ h, image.header? = some h ∧ announcedEnd file h ≤ file.length ∧
      (∀ front back, file = front ++ back → front.length < announcedEnd file h →
        ∃ cause, ofMcuBoot front = .error (.mcuBoot cause)) ∧
      ∀ more, ∃ longer, ofMcuBoot (file ++ more) = .ok longer ∧ longer.data = file ++ more ∧
        longer.header? = some h ∧ longer.hash = image.hash := by
  obtain ⟨-, h, hdigest, hformat⟩ := ofMcuBoot_eq_ok_iff.mp himage
  refine ⟨h, by rw [header?, hformat], McuBoot.announcedEnd_le_length hdigest, ?_, ?_⟩
  · rintro front back rfl hshort
    cases hfront : McuBoot.digest front with
    | error cause =>
      refine ⟨cause, ?_⟩
      rw [ofMcuBoot, hfront]
      rfl
    | ok found =>
      have hreach := McuBoot.announcedEnd_le_length_front hdigest hfront
      exact absurd hshort (Nat.not_lt.mpr hreach)
  · intro more
    obtain ⟨hmore, -⟩ := McuBoot.digest_append hdigest more
    refine ⟨⟨image.format, file ++ more, image.hash, image.hash_ne_nil⟩, ?_, rfl, ?_, rfl⟩
    · exact ofMcuBoot_eq_ok_iff.mpr ⟨rfl, h, hmore, hformat⟩
    · rw [header?, hformat]

theorem ofMcuBoot_up_to_end_twoDigests :
    ∃ image, ofMcuBoot Layout.twoDigests.octets = .ok image ∧ image.hash = [0xA1] ∧
      announcedEnd Layout.twoDigests.octets Layout.twoDigests.header = 58 ∧
      (∃ cause, ofMcuBoot (Layout.twoDigests.octets.take 57) = .error (.mcuBoot cause)) ∧
      ∃ longer, ofMcuBoot (Layout.twoDigests.octets ++ [1, 2]) = .ok longer ∧
        longer.hash = [0xA1] := by
  have hdigest : McuBoot.digest Layout.twoDigests.octets =
      .ok (Layout.twoDigests.header, [0xA1]) := by
    rw [Layout.digest_octets]
    rfl
  have himage : ofMcuBoot Layout.twoDigests.octets =
      .ok ⟨.mcuBoot (some Layout.twoDigests.header), Layout.twoDigests.octets, [0xA1], by simp⟩ :=
    ofMcuBoot_eq_ok_iff.mpr ⟨rfl, _, hdigest, rfl⟩
  obtain ⟨h, hheader, -, hcut, hlonger⟩ := ofMcuBoot_up_to_end himage
  cases hheader
  have hend : announcedEnd Layout.twoDigests.octets Layout.twoDigests.header = 58 := by
    decide +kernel
  obtain ⟨longer, hok, -, -, hhash⟩ := hlonger [1, 2]
  refine ⟨_, himage, rfl, hend, ?_, longer, hok, hhash⟩
  refine hcut _ _ (List.take_append_drop 57 _).symm ?_
  rw [hend]
  decide +kernel

end Image
end Reflash
