import Reflash.Proofs.Image.Bounds

/-! Images from MCUboot files. A well-formed file gives an image with the first
digest of its areas, the inner area first. The other way round, whatever gives
an image is a well-formed file, and the image's hash is a digest that stands in
one of its areas; anything else is refused for what is wrong with it. -/

namespace Reflash

namespace McuBoot

variable {h h' : Header} {d : Bytes}

def Leads (es : List Entry) (d : Bytes) : Prop :=
  ∃ before e after, es = before ++ e :: after ∧ (∀ x ∈ before, x.isDigest = false) ∧
    e.isDigest = true ∧ e.value = d

theorem firstDigest_eq_some_iff {es : List Entry} : firstDigest es = some d ↔ Leads es d := by
  rw [firstDigest, Option.map_eq_some_iff]
  constructor
  · rintro ⟨e, hfind, hvalue⟩
    obtain ⟨hdigest, before, after, hes, hbefore⟩ := List.find?_eq_some_iff_append.mp hfind
    exact ⟨before, e, after, hes, fun x hx => by simpa using hbefore x hx, hdigest, hvalue⟩
  · rintro ⟨before, e, after, hes, hbefore, hdigest, hvalue⟩
    refine ⟨e, List.find?_eq_some_iff_append.mpr ⟨hdigest, before, after, hes, ?_⟩, hvalue⟩
    intro x hx
    simpa using hbefore x hx

theorem firstDigest_append (es es' : List Entry) :
    firstDigest (es ++ es') = (firstDigest es <|> firstDigest es') := by
  rw [firstDigest, List.find?_append]
  cases hfind : es.find? Entry.isDigest <;> simp [firstDigest, hfind]

theorem isSome_firstDigest {es : List Entry} (h : ∃ e ∈ es, e.isDigest = true) :
    ∃ d, firstDigest es = some d := by
  rw [← List.find?_isSome, Option.isSome_iff_exists] at h
  obtain ⟨e, he⟩ := h
  exact ⟨e.value, by rw [firstDigest, he]; rfl⟩

theorem reported_of_ne_nil {outer : Option Bytes} (hne : d ≠ []) :
    reported h (some d) outer = .ok (h, d) := by
  cases d with
  | nil => exact (hne rfl).elim
  | cons x rest => rfl

theorem reported_of_empty {inner outer : Option Bytes} (hinner : ∀ x ∈ inner, x = []) :
    reported h inner outer = .ok (h', d) ↔ h' = h ∧ outer = some d := by
  have hfilter : inner.filter (fun x => !x.isEmpty) = none := by
    cases inner with
    | none => rfl
    | some x =>
      rw [hinner x rfl]
      rfl
  rw [reported, hfilter]
  cases outer with
  | none => simp
  | some x => simp [eq_comm]

namespace Layout

variable (f : Layout)

def entries : List Entry := f.inner.elim [] Block.entries ++ f.outer.entries

inductive Origin (d : Bytes) : Prop where
  | inner (k : Block) (hinner : f.inner = some k) (hleads : Leads k.entries d) (hne : d ≠ [])
  | outer (hinner : ∀ k ∈ f.inner, ∀ d', Leads k.entries d' → d' = [])
      (hleads : Leads f.outer.entries d)

theorem firstDigest_entries :
    firstDigest f.entries = (f.inner.bind Block.digest? <|> f.outer.digest?) := by
  rw [entries, firstDigest_append]
  cases f.inner <;> rfl

variable {f}

theorem reported_of_firstDigest (hfirst : firstDigest f.entries = some d) (hne : d ≠ []) :
    reported f.header (f.inner.bind Block.digest?) f.outer.digest? = .ok (f.header, d) := by
  rw [firstDigest_entries] at hfirst
  cases hinner : f.inner.bind Block.digest? with
  | none =>
    rw [hinner] at hfirst
    exact (reported_of_empty (by simp)).mpr ⟨rfl, hfirst⟩
  | some x =>
    rw [hinner] at hfirst
    cases hfirst
    exact reported_of_ne_nil hne

theorem reported_eq_ok_iff :
    reported f.header (f.inner.bind Block.digest?) f.outer.digest? = .ok (h, d) ↔
      h = f.header ∧ f.Origin d := by
  by_cases hempty : ∀ x ∈ f.inner.bind Block.digest?, x = []
  · have hnone : ∀ k ∈ f.inner, ∀ x, Leads k.entries x → x = [] := by
      intro k hk x hx
      refine hempty x ?_
      rw [Option.mem_def.mp hk]
      exact firstDigest_eq_some_iff.mpr hx
    rw [reported_of_empty hempty, Block.digest?, firstDigest_eq_some_iff]
    refine and_congr_right fun _ => ⟨.outer hnone, ?_⟩
    rintro (⟨k, hk, hleads, hne⟩ | ⟨-, hleads⟩)
    · exact (hne (hnone k hk _ hleads)).elim
    · exact hleads
  · simp only [Classical.not_forall] at hempty
    obtain ⟨x, hx, hne⟩ := hempty
    obtain ⟨k, hk, hfirst⟩ := Option.bind_eq_some_iff.mp hx
    have hleads : Leads k.entries x := firstDigest_eq_some_iff.mp hfirst
    rw [Option.mem_def.mp hx, reported_of_ne_nil hne, Except.ok.injEq, Prod.mk.injEq,
      eq_comm (a := f.header)]
    refine and_congr_right fun _ => ⟨?_, ?_⟩
    · rintro rfl
      exact .inner k hk hleads hne
    · rintro (⟨k', hk', hleads', -⟩ | ⟨hnone, -⟩)
      · cases hk.symm.trans hk'
        have hfirst' := firstDigest_eq_some_iff.mpr hleads'
        exact Option.some.inj (hfirst.symm.trans hfirst')
      · exact (hne (hnone k hk x hleads)).elim

def twoDigests : Layout where
  header := ⟨0x10000, 32, 13, 3, 0, ⟨1, 2, 3, 4⟩⟩
  padding := [0, 0, 0, 0]
  body := [7, 8, 9]
  inner := some (.ofEntries [⟨0x50, []⟩, ⟨0x11, [0xA1]⟩] (by decide) (by decide))
  outer := .ofEntries [⟨0x10, [0xB2, 0xB3]⟩] (by decide) (by decide)
  rest := [0xFF]
  fits := by decide
  headerSize_le := by decide
  length_padding := by decide
  length_body := by decide
  isSome_inner := by decide
  inner_size := by decide

end Layout

end McuBoot

namespace Image

open McuBoot (Layout Entry Leads firstDigest)

theorem make_eq_ok_iff {format : Format} {data hash : Bytes} {image : Image} :
    make format data hash = .ok image ↔
      image.format = format ∧ image.data = data ∧ image.hash = hash := by
  rw [make]
  split
  · rw [Except.ok.injEq, Image.mk.injEq, eq_comm (a := format), eq_comm (a := data),
      eq_comm (a := hash)]
  case isFalse h =>
    simp only [reduceCtorEq, false_iff]
    rintro ⟨-, -, rfl⟩
    exact h image.hash_ne_nil

theorem ofMcuBoot_eq_ok_iff {file : Bytes} {image : Image} :
    ofMcuBoot file = .ok image ↔
      image.data = file ∧ ∃ h, McuBoot.digest file = .ok (h, image.hash) ∧
        image.format = .mcuBoot (some h) := by
  rw [ofMcuBoot, Outcome.bind_eq_ok]
  constructor
  · rintro ⟨⟨h, d⟩, hdigest, hmake⟩
    obtain ⟨hformat, hdata, rfl⟩ := make_eq_ok_iff.mp hmake
    exact ⟨hdata, h, Outcome.mapError_eq_ok.mp hdigest, hformat⟩
  · rintro ⟨hdata, h, hdigest, hformat⟩
    exact ⟨(h, image.hash), Outcome.mapError_eq_ok.mpr hdigest,
      make_eq_ok_iff.mpr ⟨hformat, hdata, rfl⟩⟩

/-- A well-formed file gives an image with its first digest. -/
theorem ofMcuBoot_octets (f : Layout)
    (hnonempty : ∀ e ∈ f.entries, e.isDigest = true → e.value ≠ [])
    (hsome : ∃ e ∈ f.entries, e.isDigest = true) :
    ∃ image, ofMcuBoot f.octets = .ok image ∧ image.header? = some f.header ∧
      image.data = f.octets ∧ Leads f.entries image.hash := by
  obtain ⟨d, hfirst⟩ := McuBoot.isSome_firstDigest hsome
  have hleads : Leads f.entries d := McuBoot.firstDigest_eq_some_iff.mp hfirst
  have hne : d ≠ [] := by
    obtain ⟨before, e, after, hentries, -, hdigest, rfl⟩ := hleads
    exact hnonempty e (by simp [hentries]) hdigest
  have hdigest : McuBoot.digest f.octets = .ok (f.header, d) := by
    rw [f.digest_octets, Layout.reported_of_firstDigest hfirst hne]
  refine ⟨⟨.mcuBoot (some f.header), f.octets, d, hne⟩, ?_, rfl, rfl, hleads⟩
  exact ofMcuBoot_eq_ok_iff.mpr ⟨rfl, f.header, hdigest, rfl⟩

theorem ofMcuBoot_octets_twoDigests :
    (∀ e ∈ Layout.twoDigests.entries, e.isDigest = true → e.value ≠ []) ∧
      (∃ e ∈ Layout.twoDigests.entries, e.isDigest = true) ∧
      ∃ image, ofMcuBoot Layout.twoDigests.octets = .ok image ∧ image.hash = [0xA1] := by
  refine ⟨by decide, by decide, ?_⟩
  obtain ⟨image, himage, -, -, hleads⟩ := ofMcuBoot_octets .twoDigests (by decide) (by decide)
  have hfirst : firstDigest Layout.twoDigests.entries = some [0xA1] := rfl
  have hhash := McuBoot.firstDigest_eq_some_iff.mpr hleads
  exact ⟨image, himage, Option.some.inj (hhash.symm.trans hfirst)⟩

/-- Every read of a file stays inside it and every walk comes to an end. What gives an image is a
well-formed file whose digest has a legitimate place in it. -/
theorem ofMcuBoot_outcomes (file : Bytes) :
    (McuBoot.digestWithin file).run = some (McuBoot.digest file) ∧
    (∀ fault, ofMcuBoot file = .error fault →
      fault = .emptyHash ∨ ∃ cause, fault = .mcuBoot cause) ∧
    ∀ image, ofMcuBoot file = .ok image ↔
      image.data = file ∧ ∃ f : Layout, f.octets = file ∧
        f.opening.length = f.header.headerSize + f.header.bodySize ∧
        image.format = .mcuBoot (some f.header) ∧ f.Origin image.hash := by
  refine ⟨McuBoot.run_digestWithin file, ?_, ?_⟩
  · intro fault hfault
    rw [ofMcuBoot] at hfault
    cases hdigest : McuBoot.digest file with
    | error cause =>
      rw [hdigest] at hfault
      cases hfault
      exact .inr ⟨cause, rfl⟩
    | ok found =>
      simp only [hdigest, Except.mapError, bind, Except.bind, make] at hfault
      split at hfault
      · cases hfault
      · cases hfault
        exact .inl rfl
  · intro image
    rw [ofMcuBoot_eq_ok_iff]
    refine and_congr_right fun _ => ⟨?_, ?_⟩
    · rintro ⟨h, hdigest, hformat⟩
      obtain ⟨f, rfl⟩ := McuBoot.exists_layout_of_digest hdigest
      rw [f.digest_octets, Layout.reported_eq_ok_iff] at hdigest
      obtain ⟨rfl, horigin⟩ := hdigest
      exact ⟨f, rfl, f.length_opening, hformat, horigin⟩
    · rintro ⟨f, rfl, -, hformat, horigin⟩
      refine ⟨f.header, ?_, hformat⟩
      rw [f.digest_octets, Layout.reported_eq_ok_iff]
      exact ⟨rfl, horigin⟩

end Image
end Reflash
