import Mathlib.Data.List.Forall2

/-! Outcomes that are a result or a failure, read back. A failure that is renamed, a
step that follows another and a list that is gone through have the result that they
should or the first failure on the way, and each equivalence here says which. -/

namespace Reflash.Outcome

variable {ε ε' α β σ : Type}

theorem mapError_eq_ok {r : Except ε α} {f : ε → ε'} {a : α} :
    r.mapError f = .ok a ↔ r = .ok a := by
  cases r <;> simp [Except.mapError]

theorem mapError_eq_error {r : Except ε α} {f : ε → ε'} {e : ε'} :
    r.mapError f = .error e ↔ ∃ cause, r = .error cause ∧ f cause = e := by
  cases r <;> simp [Except.mapError]

theorem isOk_iff {r : Except ε α} : r.isOk = true ↔ ∃ a, r = .ok a := by
  cases r <;> simp [Except.isOk, Except.toBool]

theorem eq_ok_of_toOption {r : Except ε α} {a : α} (h : r.toOption = some a) : r = .ok a := by
  cases r with
  | error => cases h
  | ok => exact congrArg Except.ok (Option.some.inj h)

theorem elim_eq_ok {r : ε ⊕ α} {a : α} :
    r.elim Except.error Except.ok = .ok a ↔ r = .inr a := by
  cases r <;> simp

theorem elim_eq_error {r : ε ⊕ α} {e : ε} :
    r.elim Except.error Except.ok = .error e ↔ r = .inl e := by
  cases r <;> simp

theorem bind_eq_ok {r : Except ε α} {f : α → Except ε β} {b : β} :
    r >>= f = .ok b ↔ ∃ a, r = .ok a ∧ f a = .ok b := by
  cases r <;> simp [bind, Except.bind]

theorem bind_eq_error {r : Except ε α} {f : α → Except ε β} {e : ε} :
    r >>= f = .error e ↔ r = .error e ∨ ∃ a, r = .ok a ∧ f a = .error e := by
  cases r <;> simp [bind, Except.bind]

theorem exists_error_iff {r : Except ε α} : (∃ e, r = .error e) ↔ ∀ a, ¬ r = .ok a := by
  cases r <;> simp

theorem exists_of_forall₂ {R : α → β → Prop} {xs : List α} {ys : List β}
    (h : List.Forall₂ R xs ys) {x : α} (hx : x ∈ xs) : ∃ y ∈ ys, R x y := by
  induction h with
  | nil => cases hx
  | @cons _ y _ ys hxy _ ih =>
    rcases List.mem_cons.mp hx with rfl | hx
    · exact ⟨y, List.mem_cons_self, hxy⟩
    · obtain ⟨z, hz, hxz⟩ := ih hx
      exact ⟨z, List.mem_cons_of_mem _ hz, hxz⟩

theorem mapM_eq_ok {f : α → Except ε β} {xs : List α} {ys : List β} :
    xs.mapM f = .ok ys ↔ List.Forall₂ (fun x y => f x = .ok y) xs ys := by
  induction xs generalizing ys with
  | nil =>
    rw [List.mapM_nil, List.forall₂_nil_left_iff]
    exact ⟨fun h => (Except.ok.inj h).symm, fun h => h ▸ rfl⟩
  | cons x xs ih =>
    rw [List.mapM_cons, List.forall₂_cons_left_iff, bind_eq_ok]
    constructor
    · rintro ⟨y, hy, h⟩
      obtain ⟨rest, hrest, h⟩ := bind_eq_ok.mp h
      cases h
      exact ⟨y, rest, hy, ih.mp hrest, rfl⟩
    · rintro ⟨y, rest, hy, hrest, rfl⟩
      exact ⟨y, hy, bind_eq_ok.mpr ⟨rest, ih.mpr hrest, rfl⟩⟩

theorem mapM_eq_error {f : α → Except ε β} {xs : List α} {e : ε} :
    xs.mapM f = .error e ↔
      ∃ before x after ys, xs = before ++ x :: after ∧ before.mapM f = .ok ys ∧
        f x = .error e := by
  induction xs with
  | nil =>
    refine iff_of_false nofun ?_
    rintro ⟨before, x, after, ys, h, _⟩
    exact List.cons_ne_nil _ _ (List.append_eq_nil_iff.mp h.symm).2
  | cons x xs ih =>
    rw [List.mapM_cons, bind_eq_error]
    constructor
    · rintro (hx | ⟨y, hy, h⟩)
      · exact ⟨[], x, xs, [], rfl, rfl, hx⟩
      · rcases bind_eq_error.mp h with hrest | ⟨_, _, h⟩
        · obtain ⟨before, z, after, ys, rfl, hys, hz⟩ := ih.mp hrest
          refine ⟨x :: before, z, after, y :: ys, rfl, ?_, hz⟩
          rw [mapM_eq_ok]
          exact .cons hy (mapM_eq_ok.mp hys)
        · cases h
    · rintro ⟨before, z, after, ys, h, hys, hz⟩
      cases before with
      | nil =>
        cases h
        exact .inl hz
      | cons w before =>
        cases h
        rw [mapM_eq_ok] at hys
        cases hys with
        | cons hw hbefore =>
          have hrest := ih.mpr ⟨before, z, after, _, rfl, mapM_eq_ok.mpr hbefore, hz⟩
          exact .inr ⟨_, hw, bind_eq_error.mpr (.inl hrest)⟩

theorem foldlM_eq_ok_of_reads {f : σ → α → Except ε σ} {Reads : α → β → Prop}
    {take : σ → β → Except ε' σ}
    (hstep : ∀ s x s', f s x = .ok s' ↔ ∃ y, Reads x y ∧ take s y = .ok s') {xs : List α}
    {s s' : σ} :
    xs.foldlM f s = .ok s' ↔ ∃ ys, List.Forall₂ Reads xs ys ∧ ys.foldlM take s = .ok s' := by
  induction xs generalizing s with
  | nil =>
    simp only [List.forall₂_nil_left_iff, exists_eq_left, List.foldlM_nil]
    exact ⟨fun h => by cases h; rfl, fun h => by cases h; rfl⟩
  | cons x xs ih =>
    simp only [List.forall₂_cons_left_iff, List.foldlM_cons, bind_eq_ok, hstep, ih]
    constructor
    · rintro ⟨next, ⟨y, hread, hnext⟩, ys, hreads, hrest⟩
      exact ⟨y :: ys, ⟨y, ys, hread, hreads, rfl⟩, bind_eq_ok.mpr ⟨next, hnext, hrest⟩⟩
    · rintro ⟨_, ⟨y, ys, hread, hreads, rfl⟩, h⟩
      rw [List.foldlM_cons] at h
      obtain ⟨next, hnext, hrest⟩ := bind_eq_ok.mp h
      exact ⟨next, ⟨y, hread, hnext⟩, ys, hreads, hrest⟩

theorem foldlM_eq_error {f : σ → α → Except ε σ} {xs : List α} {s : σ} {e : ε} :
    xs.foldlM f s = .error e ↔
      ∃ before x after s', xs = before ++ x :: after ∧ before.foldlM f s = .ok s' ∧
        f s' x = .error e := by
  induction xs generalizing s with
  | nil =>
    refine iff_of_false nofun ?_
    rintro ⟨before, x, after, s', h, _⟩
    exact List.cons_ne_nil _ _ (List.append_eq_nil_iff.mp h.symm).2
  | cons x xs ih =>
    rw [List.foldlM_cons, bind_eq_error]
    constructor
    · rintro (hx | ⟨next, hnext, h⟩)
      · exact ⟨[], x, xs, s, rfl, rfl, hx⟩
      · obtain ⟨before, z, after, s', rfl, hbefore, hz⟩ := ih.mp h
        refine ⟨x :: before, z, after, s', rfl, ?_, hz⟩
        rw [List.foldlM_cons, bind_eq_ok]
        exact ⟨next, hnext, hbefore⟩
    · rintro ⟨before, z, after, s', h, hbefore, hz⟩
      cases before with
      | nil =>
        cases h
        cases hbefore
        exact .inl hz
      | cons w before =>
        cases h
        rw [List.foldlM_cons] at hbefore
        obtain ⟨next, hnext, hbefore⟩ := bind_eq_ok.mp hbefore
        exact .inr ⟨next, hnext, ih.mpr ⟨before, z, after, s', rfl, hbefore, hz⟩⟩

end Reflash.Outcome
