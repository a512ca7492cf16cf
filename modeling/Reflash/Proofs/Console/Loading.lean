import Reflash.Console.Command
import Reflash.Directory
import Reflash.Proofs.Bundle
import Reflash.Proofs.Image.Envelope

/-! Bundles from arguments. Each image argument gives one target and each cache argument
one cache image, in order, and what goes wrong on the way is answered as a bad parameter.
A few failures come through: a name that leads to no file in a way that is not expected,
an envelope that breaks the codec or whose digest is of a kind that gives no octets, and a
core whose number is too long to write. The bundle is what the arguments say or a bad parameter is
reported exactly where none of these is met first. -/

namespace Reflash

open Outcome

namespace Files

variable {codec : Cbor.Codec} {room : Suit.Room} {files : Files} {name : String} {image : Image}

def isEnvelope (name : String) : Bool :=
  envelopeSuffixes.contains (Text.lower (Path.ofText name).suffix)

def ofFile (codec : Cbor.Codec) (room : Suit.Room) (name : String) (file : Bytes) :
    Except Image.Fault Image :=
  if isEnvelope name then Image.ofSuit codec room file else Image.ofMcuBoot file

/-- Reading an image fails in a way for which the argument is not blamed. -/
inductive Breaks (codec : Cbor.Codec) (room : Suit.Room) (files : Files) (name : String) :
    Prop where
  | isDirectory (h : files (Path.ofText name).text = .error .isDirectory)
  | nameTooLong (h : files (Path.ofText name).text = .error .nameTooLong)
  | system {text : String} (h : files (Path.ofText name).text = .error (.system text))
  | codec {file : Bytes} {mishap : Value.Mishap} (hname : isEnvelope name = true)
      (hfile : files (Path.ofText name).text = .ok file)
      (hbreaks : Suit.BreaksOff codec file mishap) (hother : mishap.blamesValue = false)
  | digest {file : Bytes} {algorithm d : Value} {cause : Value.NotOctets}
      (hname : isEnvelope name = true) (hfile : files (Path.ofText name).text = .ok file)
      (hholds : Suit.HoldsDigest codec file algorithm d)
      (hoctets : Suit.octets room d = .error cause)
      (hcount : cause ≠ .negativeCount) (hrange : cause ≠ .beyondOctet)
      (hother : ∀ mishap, cause = .failed mishap → mishap.blamesValue = false)

theorem data_of_ofFile {file : Bytes} (h : ofFile codec room name file = .ok image) :
    image.data = file := by
  rw [ofFile] at h
  split at h
  · exact (Image.ofSuit_eq_ok_iff.mp h).2.1
  · exact (Image.ofMcuBoot_eq_ok_iff.mp h).1

theorem readImage_eq (codec : Cbor.Codec) (room : Suit.Room) (files : Files) (name : String) :
    files.readImage codec room name =
      (files (Path.ofText name).text).mapError (imageFault (Path.ofText name)) >>=
        fun file => (ofFile codec room name file).mapError .image := by
  unfold readImage ofFile isEnvelope
  simp only [apply_ite]

theorem readImage_eq_ok :
    files.readImage codec room name = .ok image ↔
      files (Path.ofText name).text = .ok image.data ∧
        ofFile codec room name image.data = .ok image := by
  rw [readImage_eq, bind_eq_ok]
  constructor
  · rintro ⟨file, hfile, himage⟩
    have himage := mapError_eq_ok.mp himage
    rw [data_of_ofFile himage]
    exact ⟨mapError_eq_ok.mp hfile, himage⟩
  · rintro ⟨hfile, himage⟩
    exact ⟨image.data, mapError_eq_ok.mpr hfile, mapError_eq_ok.mpr himage⟩

theorem ofMcuBoot_ne_suit {file : Bytes} {fault : Suit.Fault} :
    Image.ofMcuBoot file ≠ .error (.suit fault) := by
  intro h
  rw [Image.ofMcuBoot] at h
  rcases bind_eq_error.mp h with h | ⟨⟨header, hash⟩, -, h⟩
  · obtain ⟨cause, -, hcause⟩ := mapError_eq_error.mp h
    cases hcause
  · simp only [Image.make] at h
    split at h <;> cases h

theorem ofFile_eq_suit_iff {file : Bytes} {fault : Suit.Fault} :
    ofFile codec room name file = .error (.suit fault) ↔
      isEnvelope name = true ∧ Suit.digest codec room file = .error fault := by
  rw [ofFile]
  split
  next hname => rw [Image.ofSuit_eq_suit_iff, and_iff_right hname]
  next hname => exact iff_of_false ofMcuBoot_ne_suit fun h => hname h.1

open Console (blamesArgument)

theorem blamesArgument_notOctets {cause : Value.NotOctets} :
    blamesArgument (.image (.suit (.notOctets cause))) = false ↔
      cause ≠ .negativeCount ∧ cause ≠ .beyondOctet ∧
        ∀ mishap, cause = .failed mishap → mishap.blamesValue = false := by
  cases cause <;> simp [blamesArgument]

theorem breaks_iff :
    files.Breaks codec room name ↔
      ∃ fault, files.readImage codec room name = .error fault ∧ blamesArgument fault = false := by
  simp only [readImage_eq, bind_eq_error, mapError_eq_error, mapError_eq_ok]
  constructor
  · intro h
    cases h with
    | isDirectory h => exact ⟨_, .inl ⟨_, h, rfl⟩, rfl⟩
    | nameTooLong h => exact ⟨_, .inl ⟨_, h, rfl⟩, rfl⟩
    | system h => exact ⟨_, .inl ⟨_, h, rfl⟩, rfl⟩
    | codec hname hfile hbreaks hother =>
      have hdigest : Suit.digest codec room _ = .error (.broken _) :=
        Suit.digest_eq_broken_iff.mpr hbreaks
      exact ⟨_, .inr ⟨_, hfile, _, ofFile_eq_suit_iff.mpr ⟨hname, hdigest⟩, rfl⟩, hother⟩
    | digest hname hfile hholds hoctets hcount hrange hother =>
      have hdigest := Suit.digest_eq_notOctets_cause_iff.mpr ⟨_, _, hholds, hoctets⟩
      exact ⟨_, .inr ⟨_, hfile, _, ofFile_eq_suit_iff.mpr ⟨hname, hdigest⟩, rfl⟩,
        blamesArgument_notOctets.mpr ⟨hcount, hrange, hother⟩⟩
  · rintro ⟨fault, ⟨cause, hfile, rfl⟩ | ⟨file, hfile, cause, himage, rfl⟩, hblames⟩
    · cases cause with
      | isDirectory => exact .isDirectory hfile
      | nameTooLong => exact .nameTooLong hfile
      | system text => exact .system hfile
      | missing | notDirectory | endless | noName => cases hblames
    · cases cause with
      | emptyHash | mcuBoot => cases hblames
      | suit fault =>
        cases fault with
        | unreadable | wrongTag | badDigest => cases hblames
        | broken mishap =>
          obtain ⟨hname, hdigest⟩ := ofFile_eq_suit_iff.mp himage
          exact .codec hname hfile (Suit.digest_eq_broken_iff.mp hdigest) hblames
        | notOctets cause =>
          obtain ⟨hname, hdigest⟩ := ofFile_eq_suit_iff.mp himage
          obtain ⟨algorithm, d, hholds, hoctets⟩ := Suit.digest_eq_notOctets_cause_iff.mp hdigest
          obtain ⟨hcount, hrange, hother⟩ := blamesArgument_notOctets.mp hblames
          exact .digest hname hfile hholds hoctets hcount hrange hother

end Files

namespace Console

variable {codec : Cbor.Codec} {room : Suit.Room} {files : Files} {b result : Bundle}
  {argument : String} {images caches : List String}

/-- A target as an image argument asks for it: the core and the slot that are written there, and the
image in the file that is named there, with the octets of the file. -/
def LoadsImage (codec : Cbor.Codec) (room : Suit.Room) (files : Files) (argument : String)
    (t : Target) : Prop :=
  ∃ a, Argument.image argument = .ok a ∧ t.core = a.core ∧ t.slot = a.slot ∧
    files (Path.ofText a.path).text = .ok t.image.data ∧
    Files.ofFile codec room a.path t.image.data = .ok t.image

def LoadsCache (files : Files) (argument : String) (c : CacheImage) : Prop :=
  ∃ a, Argument.cache argument = .ok a ∧ c.partition = a.partition ∧ files a.path = .ok c.data

structure Loads (codec : Cbor.Codec) (room : Suit.Room) (files : Files)
    (images caches : List String) (b : Bundle) : Prop where
  targets : List.Forall₂ (LoadsImage codec room files) images b.targets
  caches : List.Forall₂ (LoadsCache files) caches b.caches

def Stop.isBadParameter : Stop → Bool
  | .badParameter _ => true
  | _ => false

theorem addImage_eq_ok (codec : Cbor.Codec) (room : Suit.Room) (files : Files) (b : Bundle)
    (argument : String) (result : Bundle) :
    addImage codec room files b argument = .ok result ↔
      ∃ t, LoadsImage codec room files argument t ∧ b.add t = .ok result := by
  simp only [addImage, bind_eq_ok, mapError_eq_ok, Files.readImage_eq_ok]
  constructor
  · rintro ⟨a, ha, image, ⟨hfile, himage⟩, hadd⟩
    exact ⟨{ core := a.core, image, slot := a.slot }, ⟨a, ha, rfl, rfl, hfile, himage⟩, hadd⟩
  · rintro ⟨⟨core, image, slot⟩, ⟨a, ha, rfl, rfl, hfile, himage⟩, hadd⟩
    exact ⟨a, ha, image, ⟨hfile, himage⟩, hadd⟩

theorem addCache_eq_ok (files : Files) (b : Bundle) (argument : String) (result : Bundle) :
    addCache files b argument = .ok result ↔
      ∃ c, LoadsCache files argument c ∧ pure (b.addCache c) = Except.ok (ε := Stop) result := by
  simp only [addCache, bind_eq_ok, mapError_eq_ok]
  constructor
  · rintro ⟨a, ha, data, hfile, hadd⟩
    exact ⟨⟨a.partition, data⟩, ⟨a, ha, rfl, hfile⟩, hadd⟩
  · rintro ⟨⟨partition, data⟩, ⟨a, ha, rfl, hfile⟩, hadd⟩
    exact ⟨a, ha, data, hfile, hadd⟩

theorem addImage_stops_iff :
    (∃ stop, addImage codec room files b argument = .error stop ∧ stop.isBadParameter = false) ↔
      ∃ a, Argument.image argument = .ok a ∧ files.Breaks codec room a.path := by
  simp only [addImage, bind_eq_error, mapError_eq_error, mapError_eq_ok, Files.breaks_iff]
  constructor
  · rintro ⟨stop, ⟨fault, -, rfl⟩ | ⟨a, ha, ⟨fault, hread, rfl⟩ | ⟨image, -, d, -, rfl⟩⟩, hstop⟩
    · cases hstop
    · refine ⟨a, ha, fault, hread, ?_⟩
      rw [imageStop] at hstop
      split at hstop
      · cases hstop
      next hblames => exact Bool.eq_false_iff.mpr hblames
    · rw [duplicateStop] at hstop
      split at hstop <;> cases hstop
  · rintro ⟨a, ha, fault, hread, hblames⟩
    refine ⟨_, .inr ⟨a, ha, .inl ⟨fault, hread, rfl⟩⟩, ?_⟩
    rw [imageStop, hblames]
    rfl

theorem addCache_stops_iff :
    (∃ stop, addCache files b argument = .error stop ∧ stop.isBadParameter = false) ↔
      ∃ a, Argument.cache argument = .ok a ∧ files a.path = .error .noName := by
  simp only [addCache, bind_eq_error, mapError_eq_error, mapError_eq_ok]
  constructor
  · rintro ⟨stop, ⟨fault, -, rfl⟩ | ⟨a, ha, ⟨cause, hfile, rfl⟩ | ⟨data, -, hadd⟩⟩, hstop⟩
    · cases hstop
    · refine ⟨a, ha, ?_⟩
      rw [cacheStop] at hstop
      split at hstop
      next hcause => rw [hfile, hcause]
      · cases hstop
    · cases hadd
  · rintro ⟨a, ha, hfile⟩
    exact ⟨_, .inr ⟨a, ha, .inl ⟨_, hfile, rfl⟩⟩, rfl⟩

theorem foldlM_takeCache {payloads : List CacheImage} :
    payloads.foldlM (fun b c => pure (b.addCache c)) b = Except.ok (ε := Stop) result ↔
      result.targets = b.targets ∧ result.caches = b.caches ++ payloads := by
  rw [List.foldlM_pure]
  induction payloads generalizing b with
  | nil =>
    rw [List.foldl_nil, List.append_nil]
    constructor
    · rintro ⟨⟩
      exact ⟨rfl, rfl⟩
    · rintro ⟨htargets, hcaches⟩
      exact congrArg Except.ok (Bundle.eq_of_lists htargets.symm hcaches.symm)
  | cons c rest ih =>
    rw [List.foldl_cons, ih, List.append_cons]
    rfl

theorem foldlM_addImage_eq_ok :
    images.foldlM (addImage codec room files) b = .ok result ↔
      ∃ targets, List.Forall₂ (LoadsImage codec room files) images targets ∧
        result.targets = b.targets ++ targets ∧ result.caches = b.caches := by
  refine (foldlM_eq_ok_of_reads (addImage_eq_ok codec room files)).trans ?_
  simp only [Bundle.foldlM_add_eq_ok]

theorem foldlM_addCache_eq_ok :
    caches.foldlM (addCache files) b = .ok result ↔
      ∃ payloads, List.Forall₂ (LoadsCache files) caches payloads ∧
        result.targets = b.targets ∧ result.caches = b.caches ++ payloads := by
  refine (foldlM_eq_ok_of_reads (addCache_eq_ok files)).trans ?_
  simp only [foldlM_takeCache]

theorem loads_iff :
    Loads codec room files images caches result ↔
      ∃ b, images.foldlM (addImage codec room files) Bundle.empty = .ok b ∧
        caches.foldlM (addCache files) b = .ok result := by
  simp only [foldlM_addImage_eq_ok, foldlM_addCache_eq_ok]
  constructor
  · intro h
    exact ⟨⟨result.targets, [], result.distinct⟩, ⟨_, h.targets, rfl, rfl⟩, _, h.caches, rfl, rfl⟩
  · rintro ⟨b, ⟨targets, htargets, hb, hnone⟩, payloads, hcaches, hr, hr'⟩
    refine ⟨?_, ?_⟩
    · rw [hr, hb]
      exact htargets
    · rw [hr', hnone]
      exact hcaches

theorem loads_nil_iff :
    Loads codec room files images [] result ↔
      images.foldlM (addImage codec room files) Bundle.empty = .ok result := by
  rw [loads_iff]
  constructor
  · rintro ⟨b, himages, ⟨⟩⟩
    exact himages
  · exact fun himages => ⟨result, himages, rfl⟩

theorem all_cores_iff :
    b.cores.all Decimal.isWritable = true ↔
      ∀ t ∈ b.targets, Decimal.isWritable t.core = true := by
  simp only [Bundle.cores, List.all_eq_true, List.mem_eraseDups, List.forall_mem_map]

theorem bundle_eq_ok_iff :
    bundle codec room files images caches = .ok b ↔
      Loads codec room files images caches b ∧
        ∀ t ∈ b.targets, Decimal.isWritable t.core = true := by
  rw [← all_cores_iff, loads_iff]
  simp only [bundle, bind_eq_ok]
  constructor
  · rintro ⟨first, himages, last, hcaches, hend⟩
    split at hend
    next hcores =>
      cases hend
      exact ⟨⟨first, himages, hcaches⟩, hcores⟩
    · cases hend
  · rintro ⟨⟨first, himages, hcaches⟩, hcores⟩
    exact ⟨first, himages, b, hcaches, if_pos hcores⟩

/-- A failure that is no bad parameter comes through: the first argument that is not loaded names
something that breaks the reading, or all are loaded and a core cannot be written. -/
inductive Escapes (codec : Cbor.Codec) (room : Suit.Room) (files : Files)
    (images caches : List String) : Prop where
  | image {before after : List String} {argument : String} {a : Argument.ImageArgument}
      {b : Bundle} (hsplit : images = before ++ argument :: after)
      (hloads : Loads codec room files before [] b) (hreads : Argument.image argument = .ok a)
      (hbreaks : files.Breaks codec room a.path)
  | cache {before after : List String} {argument : String} {a : Argument.CacheArgument}
      {b : Bundle} (hsplit : caches = before ++ argument :: after)
      (hloads : Loads codec room files images before b) (hreads : Argument.cache argument = .ok a)
      (hname : files a.path = .error .noName)
  | number {b : Bundle} {t : Target} (hloads : Loads codec room files images caches b)
      (ht : t ∈ b.targets) (hlong : Decimal.isWritable t.core = false)

theorem escapes_iff :
    Escapes codec room files images caches ↔
      ∃ stop, bundle codec room files images caches = .error stop ∧
        stop.isBadParameter = false := by
  simp only [bundle, bind_eq_error]
  constructor
  · intro h
    cases h with
    | image hsplit hloads hreads hbreaks =>
      obtain ⟨stop, hadd, hstop⟩ := addImage_stops_iff.mpr ⟨_, hreads, hbreaks⟩
      exact ⟨stop, .inl (foldlM_eq_error.mpr
        ⟨_, _, _, _, hsplit, loads_nil_iff.mp hloads, hadd⟩), hstop⟩
    | cache hsplit hloads hreads hname =>
      obtain ⟨first, himages, hfront⟩ := loads_iff.mp hloads
      obtain ⟨stop, hadd, hstop⟩ := addCache_stops_iff.mpr ⟨_, hreads, hname⟩
      exact ⟨stop, .inr ⟨first, himages, .inl (foldlM_eq_error.mpr
        ⟨_, _, _, _, hsplit, hfront, hadd⟩)⟩, hstop⟩
    | @number b t hloads ht hlong =>
      obtain ⟨first, himages, hcaches⟩ := loads_iff.mp hloads
      have hcores : ¬ b.cores.all Decimal.isWritable = true := by
        rw [all_cores_iff]
        intro hall
        rw [hall t ht] at hlong
        cases hlong
      exact ⟨_, .inr ⟨first, himages, .inr ⟨_, hcaches, if_neg hcores⟩⟩, rfl⟩
  · rintro ⟨stop, himages | ⟨first, himages, hcaches | ⟨last, hcaches, hend⟩⟩, hstop⟩
    · obtain ⟨before, argument, after, b, hsplit, hfront, hadd⟩ := foldlM_eq_error.mp himages
      obtain ⟨a, hreads, hbreaks⟩ := addImage_stops_iff.mp ⟨stop, hadd, hstop⟩
      exact .image hsplit (loads_nil_iff.mpr hfront) hreads hbreaks
    · obtain ⟨before, argument, after, b, hsplit, hfront, hadd⟩ := foldlM_eq_error.mp hcaches
      obtain ⟨a, hreads, hname⟩ := addCache_stops_iff.mp ⟨stop, hadd, hstop⟩
      exact .cache hsplit (loads_iff.mpr ⟨first, himages, hfront⟩) hreads hname
    · split at hend
      · cases hend
      next hcores =>
        rw [all_cores_iff] at hcores
        push Not at hcores
        obtain ⟨t, ht, hlong⟩ := hcores
        exact .number (loads_iff.mpr ⟨first, himages, hcaches⟩) ht (Bool.eq_false_iff.mpr hlong)

def Concludes (codec : Cbor.Codec) (room : Suit.Room) (files : Files)
    (images caches : List String) : Prop :=
  (∃ b, bundle codec room files images caches = .ok b ∧ Loads codec room files images caches b) ∨
    ∃ text, bundle codec room files images caches = .error (.badParameter text)

def isAnswer : Except Stop Bundle → Bool
  | .ok _ => true
  | .error stop => stop.isBadParameter

theorem concludes_iff :
    Concludes codec room files images caches ↔
      isAnswer (bundle codec room files images caches) = true := by
  constructor
  · rintro (⟨b, h, -⟩ | ⟨text, h⟩) <;> rw [h] <;> rfl
  · intro h
    cases hbundle : bundle codec room files images caches with
    | ok b => exact .inl ⟨b, hbundle, (bundle_eq_ok_iff.mp hbundle).1⟩
    | error stop =>
      rw [hbundle] at h
      cases stop with
      | badParameter text => exact .inr ⟨text, hbundle⟩
      | _ => cases h

theorem isAnswer_eq_false_iff {outcome : Except Stop Bundle} :
    isAnswer outcome = false ↔ ∃ stop, outcome = .error stop ∧ stop.isBadParameter = false := by
  cases outcome <;> simp [isAnswer]

/-- A bundle comes of the arguments exactly if it is what they load and its cores can be written.
The arguments are answered unless a failure comes through: in opening an image that is no file, that
has too long a name or that the system does not give, in reading an envelope that breaks the codec
or has a digest of another kind, in opening a cache with a name that no file has, or at last in
naming a core. -/
theorem bundle_concludes_iff (codec : Cbor.Codec) (room : Suit.Room) (files : Files)
    (images caches : List String) :
    (∀ b, bundle codec room files images caches = .ok b ↔
      Loads codec room files images caches b ∧ ∀ t ∈ b.targets, Decimal.isWritable t.core = true) ∧
    (Concludes codec room files images caches ↔ ¬ Escapes codec room files images caches) := by
  refine ⟨fun b => bundle_eq_ok_iff, ?_⟩
  rw [concludes_iff, escapes_iff, ← isAnswer_eq_false_iff, Bool.not_eq_false]

namespace Sample

def unsigned : Directory := [("e.suit", [0xA1, 0x02, 0x45, 0x81, 0x43, 0x82, 0x2F, 0xF6])]

end Sample

theorem unanswered_envelope :
    ¬ ∀ (d : Directory) (images caches : List String),
      Concludes Cbor.plain (fun _ => true) d.files images caches := by
  intro h
  have hanswer := concludes_iff.mp (h Sample.unsigned ["e.suit"] [])
  exact absurd hanswer (by decide +kernel)

end Console

end Reflash
