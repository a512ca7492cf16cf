import Reflash.Proofs.Argument
import Reflash.Proofs.Console.Loading
import Reflash.Proofs.Plan.Uploads

/-! Destinations that arguments ask for. No image argument asks for a core or a slot below
zero, so an image is never sent there. The number of a partition is taken with its sign, and
each cache of a bundle is sent, so a plan sends something below zero exactly if the user has
asked for it. -/

namespace Reflash.Console

open Argument (IsBelowZero NamesImage NamesCache)
open Plan (Made make report working)

variable {codec : Cbor.Codec} {room : Suit.Room} {files : Files} {images caches : List String}
  {argument : String} {b : Bundle} {slots : List Slot} {c : Capabilities} {mode : UpgradeMode}
  {settings : Settings}

theorem nonneg_of_namesImage {s : List Char} {a : Argument.ImageArgument} (h : NamesImage s a) :
    0 ≤ a.core ∧ 0 ≤ a.slot := by
  cases h with
  | path | core =>
    simp only [secondarySlot]
    omega
  | slot _ _ hrange => exact hrange

theorem core_nonneg_of_loadsImage {t : Target} (h : LoadsImage codec room files argument t) :
    0 ≤ t.core := by
  obtain ⟨a, ha, hcore, -⟩ := h
  rw [hcore]
  exact (nonneg_of_namesImage (Argument.image_eq_ok_iff.mp ha)).1

theorem partition_nonneg_iff_of_loadsCache {cache : CacheImage}
    (h : LoadsCache files argument cache) : 0 ≤ cache.partition ↔ ¬ IsBelowZero argument := by
  obtain ⟨a, ha, hpartition, -⟩ := h
  rw [hpartition, ← Argument.partition_neg_iff ha, Int.not_lt]

theorem caches_nonneg_iff (h : Loads codec room files images caches b) :
    (∀ cache ∈ b.caches, 0 ≤ cache.partition) ↔ ∀ argument ∈ caches, ¬ IsBelowZero argument := by
  constructor
  · intro hall argument hargument
    obtain ⟨cache, hcache, hloads⟩ := Outcome.exists_of_forall₂ h.caches hargument
    exact (partition_nonneg_iff_of_loadsCache hloads).mp (hall cache hcache)
  · intro hall cache hcache
    obtain ⟨argument, hargument, hloads⟩ := Outcome.exists_of_forall₂ h.caches.flip hcache
    exact (partition_nonneg_iff_of_loadsCache hloads).mpr (hall argument hargument)

theorem uploads_nonneg_iff (h : Loads codec room files images caches b) :
    (∀ data target, .upload data target ∈ (report b slots c mode settings).steps → 0 ≤ target) ↔
      ∀ argument ∈ caches, ¬ IsBelowZero argument := by
  rw [← caches_nonneg_iff h]
  constructor
  · intro hall cache hcache
    have hsent : .upload cache.data cache.partition ∈ (report b slots c mode settings).steps :=
      Plan.mem_steps_report.mpr (.inr (.inl ⟨cache, hcache, rfl⟩))
    exact hall _ _ hsent
  · intro hall data target hmem
    rcases Plan.upload_mem_steps hmem with ⟨cache, hcache, heq⟩ | ⟨t, ht, heq, -⟩
    · cases heq
      exact hall cache hcache
    · cases heq
      obtain ⟨argument, -, hloads⟩ :=
        Outcome.exists_of_forall₂ h.targets.flip (Plan.mem_working.mp ht).1
      exact core_nonneg_of_loadsImage hloads

/-- A text of another form is refused as an argument, and in no image argument a core or a slot goes
below zero. What a plan sends goes below zero exactly if a number below zero is asked for in a cache
argument. -/
theorem destinations_nonneg_iff (text : String) :
    (∀ a, Argument.image text = .ok a → 0 ≤ a.core ∧ 0 ≤ a.slot) ∧
    ((∃ fault, Argument.image text = .error fault) ↔
      ∀ a, ¬ NamesImage (Text.trimWhile Text.isBlank text.toList) a) ∧
    (∀ a, Argument.cache text = .ok a → (0 ≤ a.partition ↔ ¬ IsBelowZero text)) ∧
    ((∃ fault, Argument.cache text = .error fault) ↔ ∀ a, ¬ NamesCache text.toList a) ∧
    ∀ codec room files images caches b, bundle codec room files images caches = .ok b →
      ∀ listing c mode settings r, (make b listing c mode settings).1 = .ok r →
        ((∀ data target, .upload data target ∈ r.steps → 0 ≤ target) ↔
          listing.getD [] = [] ∨ ∀ argument ∈ caches, ¬ IsBelowZero argument) := by
  refine ⟨fun a ha => ?_, ?_, fun a ha => ?_, ?_, ?_⟩
  · exact nonneg_of_namesImage (Argument.image_eq_ok_iff.mp ha)
  · simp only [Outcome.exists_error_iff, Argument.image_eq_ok_iff]
  · rw [← Argument.partition_neg_iff ha, Int.not_lt]
  · simp only [Outcome.exists_error_iff, Argument.cache_eq_ok_iff]
  · intro codec room files images caches b hb listing c mode settings r hr
    by_cases hlisting : listing.getD [] = []
    · -- without slots there is nothing to plan against
      rw [make, hlisting] at hr
      cases hr
      exact iff_of_true (fun _ _ hmem => absurd hmem List.not_mem_nil) (.inl hlisting)
    · rw [(Plan.make_outcome b listing c mode settings).2.1 r hr hlisting, or_iff_right hlisting]
      exact uploads_nonneg_iff (bundle_eq_ok_iff.mp hb).1

namespace Sample

def directory : Directory :=
  [("e.suit", [0xA1, 0x02, 0x46, 0x81, 0x44, 0x82, 0x2F, 0x41, 0xAA]), ("c.bin", [7])]

def envelope : Image :=
  ⟨.suit, [0xA1, 0x02, 0x46, 0x81, 0x44, 0x82, 0x2F, 0x41, 0xAA], [0xAA], by simp⟩

def loaded (partition : Int) : Bundle where
  targets := [{ image := envelope }]
  caches := [⟨partition, [7]⟩]

theorem bundle_eq_loaded {partition : Int}
    (h : Argument.cache argument = .ok { partition, path := "c.bin" }) :
    bundle Cbor.plain (fun _ => true) directory.files ["e.suit"] [argument] =
      .ok (loaded partition) := by
  have himage :
      LoadsImage Cbor.plain (fun _ => true) directory.files "e.suit" { image := envelope } :=
    ⟨{ path := "e.suit" }, by decide +kernel, rfl, rfl, by decide +kernel, by decide +kernel⟩
  have hfile : directory.files "c.bin" = .ok [7] := by decide +kernel
  have hcores : ∀ t ∈ (loaded partition).targets, Decimal.isWritable t.core = true :=
    List.forall_mem_singleton.mpr (by decide +kernel)
  exact bundle_eq_ok_iff.mpr ⟨⟨.cons himage .nil, .cons ⟨_, h, rfl, hfile⟩ .nil⟩, hcores⟩

def plan (partition : Int) : Report :=
  report (loaded partition) [Plan.Sample.running 0] {} .testAndConfirm {}

theorem made_plan (partition : Int) :
    Made (loaded partition) [Plan.Sample.running 0] {} .testAndConfirm {} (plan partition) :=
  Plan.made_iff.mpr ⟨List.cons_ne_nil _ _, by rw [Plan.isWritable_single rfl]; decide +kernel, rfl⟩

end Sample

theorem destinations_nonneg_iff_signs :
    (∃ a, Argument.image "-0:+1=e.suit" = .ok a ∧ 0 ≤ a.core ∧ 0 ≤ a.slot) ∧
    (∃ a, Argument.cache "-0=c.bin" = .ok a ∧ 0 ≤ a.partition) ∧
    (∀ data target, .upload data target ∈ (Sample.plan 0).steps → 0 ≤ target) ∧
    ¬ ∀ data target, .upload data target ∈ (Sample.plan (-1)).steps → 0 ≤ target := by
  have hdestination : Argument.image "-0:+1=e.suit" = .ok { path := "e.suit" } := by decide +kernel
  have hzero : Argument.cache "-0=c.bin" = .ok { partition := 0, path := "c.bin" } := by
    decide +kernel
  have hbelow : Argument.cache "-1=c.bin" = .ok { partition := -1, path := "c.bin" } := by
    decide +kernel
  obtain ⟨himage, -⟩ := destinations_nonneg_iff "-0:+1=e.suit"
  obtain ⟨-, -, hpartition, -, hplan⟩ := destinations_nonneg_iff "-0=c.bin"
  have hnonneg : ¬ IsBelowZero "-0=c.bin" := (hpartition _ hzero).mp (by decide)
  have hsigned : IsBelowZero "-1=c.bin" := (Argument.partition_neg_iff hbelow).mp (by decide)
  refine ⟨⟨_, hdestination, himage _ hdestination⟩,
    ⟨_, hzero, (hpartition _ hzero).mpr hnonneg⟩, ?_, ?_⟩
  · have hiff := hplan _ _ _ _ _ _ (Sample.bundle_eq_loaded hzero) _ _ _ _ _ (Sample.made_plan 0).1
    exact hiff.mpr (.inr (List.forall_mem_singleton.mpr hnonneg))
  · have hiff :=
      hplan _ _ _ _ _ _ (Sample.bundle_eq_loaded hbelow) _ _ _ _ _ (Sample.made_plan (-1)).1
    intro hall
    have hnone := (hiff.mp hall).resolve_left (List.cons_ne_nil _ _)
    exact hnone _ (List.mem_singleton_self _) hsigned

/-- A number below zero is taken for a partition, and the cache is sent there. -/
theorem partition_below_zero :
    (¬ ∀ text a, Argument.cache text = .ok a → 0 ≤ a.partition) ∧
    ¬ ∀ codec room files images caches b slots c mode settings r,
      bundle codec room files images caches = .ok b → Made b slots c mode settings r →
        ∀ data target, .upload data target ∈ r.steps → 0 ≤ target := by
  have hbelow : Argument.cache "-1=c.bin" = .ok { partition := -1, path := "c.bin" } := by
    decide +kernel
  constructor
  · intro h
    exact absurd (h _ _ hbelow) (by decide)
  · intro h
    have hmem : .upload [7] (-1) ∈ (Sample.plan (-1)).steps :=
      Plan.mem_steps_report.mpr (.inr (.inl ⟨⟨-1, [7]⟩, List.mem_singleton_self _, rfl⟩))
    have hsent :=
      h _ _ _ _ _ _ _ _ _ _ _ (Sample.bundle_eq_loaded hbelow) (Sample.made_plan _) _ _ hmem
    exact absurd hsent (by decide)

end Reflash.Console
