import Reflash.Proofs.Image.Layout

/-! The reader of MCUboot files once more, by positions in the file: areas are
walked entry by entry and nothing is cut out beforehand. Each read has to lie
inside the file and each walk has a limit of rounds; a run that would break
either has no outcome. Every file has one, and it is the reader's. -/

namespace Reflash.McuBoot

variable {b : Bytes} {offset width : Nat}

abbrev Guarded := ExceptT Fault Option

namespace Guarded

variable {α β : Type}

theorem run_bind {x : Guarded α} {f : α → Guarded β} {r : Except Fault α} {g : α → Except Fault β}
    (hx : x.run = some r) (hf : ∀ a, (f a).run = some (g a)) :
    (x >>= f).run = some (r.bind g) := by
  rw [ExceptT.run_bind, hx]
  cases r with
  | error fault => rfl
  | ok a => exact hf a

theorem run_read {x : Option α} {a : α} {f : α → Guarded β} {r : Except Fault β} (hx : x = some a)
    (hf : (f a).run = some r) : ((liftM x : Guarded α) >>= f).run = some r := by
  rw [hx]
  exact hf

end Guarded

def numberWithin (b : Bytes) (offset width : Nat) : Option Nat :=
  (b.slice? offset width).map Bytes.toNatLE

theorem slice?_of_le (h : offset + width ≤ b.length) :
    b.slice? offset width = some ((b.drop offset).take width) := by
  rw [Bytes.slice?, if_pos]
  rw [List.length_take, List.length_drop]
  omega

theorem numberWithin_of_le (h : offset + width ≤ b.length) :
    numberWithin b offset width = some (numberAt b offset width) := by
  rw [numberWithin, slice?_of_le h]
  rfl

def headerWithin (b : Bytes) : Guarded Header :=
  if b.length < headerSize then throw (.noHeader b.length)
  else do
    let number ← numberWithin b 0 4
    let loadAddress ← numberWithin b 4 4
    let size ← numberWithin b 8 2
    let protectedSize ← numberWithin b 10 2
    let bodySize ← numberWithin b 12 4
    let flags ← numberWithin b 16 4
    let major ← numberWithin b 20 1
    let minor ← numberWithin b 21 1
    let revision ← numberWithin b 22 2
    let build ← numberWithin b 24 4
    if number ≠ magic then throw (.badMagic number)
    else if size < headerSize then throw (.badHeaderSize size)
    else return ⟨loadAddress, size, protectedSize, bodySize, flags, ⟨major, minor, revision, build⟩⟩

def foundWith (b : Bytes) (found : Option Bytes) (type offset size : Nat) : Option (Option Bytes) :=
  if found = none ∧ digestTypes.contains type = true then (b.slice? offset size).map some
  else some found

def walk (b : Bytes) (stop : Nat) : Nat → Nat → Option Bytes → Guarded (Option Bytes)
  | 0, _, _ => liftM (none : Option (Option Bytes))
  | rounds + 1, pos, found =>
    if stop < pos + 4 then return found
    else do
      let type ← numberWithin b pos 2
      let size ← numberWithin b (pos + 2) 2
      if stop < pos + 4 + size then throw (.overrun type)
      else do
        let found ← foundWith b found type (pos + 4) size
        walk b stop rounds (pos + 4 + size) found

def areaWithin (b : Bytes) (offset expected : Nat) : Guarded (Option Bytes × Nat) :=
  if b.length < offset + areaHeadSize then throw .noArea
  else do
    let number ← numberWithin b offset 2
    let total ← numberWithin b (offset + 2) 2
    if number ≠ expected then throw (.badAreaMagic number expected)
    else if b.length < offset + total then throw .cutArea
    else do
      let found ← walk b (offset + total) b.length (offset + areaHeadSize) none
      return (found, offset + total)

def digestWithin (b : Bytes) : Guarded (Header × Bytes) := do
  let h ← headerWithin b
  let offset := h.headerSize + h.bodySize
  let (inner, offset) ←
    if h.protectedSize = 0 then pure (none, offset) else areaWithin b offset protectedMagic
  let (outer, _) ← areaWithin b offset areaMagic
  match inner.filter (fun d => !d.isEmpty) <|> outer with
  | some d => return (h, d)
  | none => throw .noDigest

theorem run_headerWithin (b : Bytes) : (headerWithin b).run = some (header b) := by
  unfold headerWithin header
  by_cases hlength : b.length < headerSize
  · rw [if_pos hlength, if_pos hlength]
    rfl
  · have hlong : 32 ≤ b.length := Nat.not_lt.mp hlength
    have hread : ∀ {offset width}, offset + width ≤ 32 →
        numberWithin b offset width = some (numberAt b offset width) :=
      fun h => numberWithin_of_le (Nat.le_trans h hlong)
    rw [if_neg hlength, if_neg hlength]
    iterate 10 refine Guarded.run_read (hread (by decide)) ?_
    by_cases hmagic : numberAt b 0 4 ≠ magic
    · rw [if_pos hmagic, if_pos hmagic]
      rfl
    · rw [if_neg hmagic, if_neg hmagic]
      split <;> rfl

theorem exists_four (h : 4 ≤ b.length) :
    ∃ t₀ t₁ l₀ l₁ rest, b = t₀ :: t₁ :: l₀ :: l₁ :: rest := by
  match b, h with
  | t₀ :: t₁ :: l₀ :: l₁ :: rest, _ => exact ⟨t₀, t₁, l₀, l₁, rest, rfl⟩
  | [], h | [_], h | [_, _], h | [_, _, _], h =>
    simp only [List.length_cons, List.length_nil] at h
    omega

theorem entries_part {pos stop size : Nat} (hsize : numberAt b (pos + 2) 2 = size)
    (hroom : pos + 4 ≤ stop) (hstop : stop ≤ b.length) :
    entries ((b.drop pos).take (stop - pos)) =
      if stop < pos + 4 + size then .error (.overrun (numberAt b pos 2))
      else (entries ((b.drop (pos + 4 + size)).take (stop - (pos + 4 + size)))).map
        (⟨numberAt b pos 2, (b.drop (pos + 4)).take size⟩ :: ·) := by
  have hlength : (b.drop pos).length = b.length - pos := List.length_drop
  obtain ⟨t₀, t₁, l₀, l₁, rest, hdrop⟩ := exists_four (b := b.drop pos) (by omega)
  have htype : numberAt b pos 2 = Bytes.toNatLE [t₀, t₁] := by
    rw [numberAt, hdrop]
    rfl
  have hsize : Bytes.toNatLE [l₀, l₁] = size := by
    rw [← hsize, numberAt, ← List.drop_drop, hdrop]
    rfl
  have hrest : b.drop (pos + 4) = rest := by
    rw [← List.drop_drop, hdrop]
    rfl
  have hafter : b.drop (pos + 4 + size) = rest.drop size := by rw [← List.drop_drop, hrest]
  have hpart : stop - pos = (stop - (pos + 4)) + 1 + 1 + 1 + 1 := by omega
  have hroom : (rest.take (stop - (pos + 4))).length = stop - (pos + 4) := by
    rw [hdrop] at hlength
    simp only [List.length_cons] at hlength
    rw [List.length_take]
    omega
  rw [hdrop, hpart, List.take_succ_cons, List.take_succ_cons, List.take_succ_cons,
    List.take_succ_cons, entries_cons, hsize, hroom, htype, hrest, hafter]
  by_cases hover : stop < pos + 4 + size
  · rw [if_pos hover, if_pos (by omega)]
  · rw [if_neg hover, if_neg (by omega), List.take_take, Nat.min_eq_left (by omega), List.drop_take,
      Nat.sub_sub]

theorem foundWith_of_le {found : Option Bytes} {type size : Nat} (h : offset + size ≤ b.length) :
    foundWith b found type offset size =
      some (found <|> firstDigest [⟨type, (b.drop offset).take size⟩]) := by
  rw [foundWith, slice?_of_le h, firstDigest_cons, Entry.isDigest]
  cases found with
  | some d => simp
  | none => cases digestTypes.contains type <;> simp [firstDigest]

theorem run_walk {stop rounds pos : Nat} (found : Option Bytes) (hstop : stop ≤ b.length)
    (h : stop - pos < 4 * rounds) :
    (walk b stop rounds pos found).run =
      some ((entries ((b.drop pos).take (stop - pos))).map (found <|> firstDigest ·)) := by
  induction rounds generalizing pos found with
  | zero => omega
  | succ rounds ih =>
    unfold walk
    by_cases hend : stop < pos + 4
    · -- what is left is too short for an entry
      have hshort : ((b.drop pos).take (stop - pos)).length < 4 := by
        rw [List.length_take]
        omega
      rw [if_pos hend, entries_of_length_lt hshort]
      cases found <;> rfl
    · have hnext : stop - (pos + 4 + numberAt b (pos + 2) 2) < 4 * rounds := by omega
      rw [if_neg hend, entries_part rfl (Nat.not_lt.mp hend) hstop]
      refine Guarded.run_read (numberWithin_of_le (by omega)) ?_
      refine Guarded.run_read (numberWithin_of_le (by omega)) ?_
      by_cases hover : stop < pos + 4 + numberAt b (pos + 2) 2
      · rw [if_pos hover, if_pos hover]
        rfl
      · rw [if_neg hover, if_neg hover]
        refine Guarded.run_read (foundWith_of_le (by omega)) ?_
        rw [ih _ hnext]
        cases entries ((b.drop (pos + 4 + numberAt b (pos + 2) 2)).take
            (stop - (pos + 4 + numberAt b (pos + 2) 2))) with
        | error fault => rfl
        | ok es =>
          cases found with
          | some d => rfl
          | none =>
            simp only [Except.map, firstDigest_cons]
            split <;> rfl

theorem run_areaWithin (b : Bytes) (offset expected : Nat) :
    (areaWithin b offset expected).run =
      some ((area b offset expected).map fun a => (a.digest?, a.stop)) := by
  unfold areaWithin area
  by_cases hhead : b.length < offset + areaHeadSize
  · rw [if_pos hhead, if_pos hhead]
    rfl
  · have hfour : offset + 4 ≤ b.length := Nat.not_lt.mp hhead
    rw [if_neg hhead, if_neg hhead]
    refine Guarded.run_read (numberWithin_of_le (by omega)) ?_
    refine Guarded.run_read (numberWithin_of_le (by omega)) ?_
    by_cases hnumber : numberAt b offset 2 ≠ expected
    · rw [if_pos hnumber, if_pos hnumber]
      rfl
    · rw [if_neg hnumber, if_neg hnumber]
      by_cases hcut : b.length < offset + numberAt b (offset + 2) 2
      · rw [if_pos hcut, if_pos hcut]
        rfl
      · have hrounds : offset + numberAt b (offset + 2) 2 - (offset + areaHeadSize) <
            4 * b.length := by
          omega
        have hsize : offset + numberAt b (offset + 2) 2 - (offset + areaHeadSize) =
            numberAt b (offset + 2) 2 - areaHeadSize := Nat.add_sub_add_left ..
        have hwalk := run_walk none (Nat.not_lt.mp hcut) hrounds
        rw [if_neg hcut, if_neg hcut, ExceptT.run_bind, hwalk, hsize]
        cases entries ((b.drop (offset + areaHeadSize)).take
            (numberAt b (offset + 2) 2 - areaHeadSize)) <;> rfl

theorem run_reported (h : Header) (inner outer : Option Bytes) :
    (match inner.filter (fun d => !d.isEmpty) <|> outer with
      | some d => pure (h, d)
      | none => throw .noDigest : Guarded (Header × Bytes)).run =
      some (reported h inner outer) := by
  rw [reported]
  cases inner.filter (fun d => !d.isEmpty) <|> outer <;> rfl

theorem run_digestWithin (b : Bytes) : (digestWithin b).run = some (digest b) := by
  unfold digestWithin
  cases hheader : header b with
  | error fault =>
    rw [ExceptT.run_bind, run_headerWithin, hheader, digest, hheader]
    rfl
  | ok h =>
    rw [ExceptT.run_bind, run_headerWithin, hheader]
    by_cases hsize : h.protectedSize = 0
    · have hrun := Guarded.run_bind (run_areaWithin b (h.headerSize + h.bodySize) areaMagic)
        fun outer => run_reported h none outer.1
      rw [digest_of_one hheader hsize]
      refine (congrArg _ (if_pos hsize)).trans (hrun.trans ?_)
      cases area b (h.headerSize + h.bodySize) areaMagic <;> rfl
    · have hrun := Guarded.run_bind (run_areaWithin b (h.headerSize + h.bodySize) protectedMagic)
        fun inner => Guarded.run_bind (run_areaWithin b inner.2 areaMagic)
          fun outer => run_reported h inner.1 outer.1
      rw [digest_of_two hheader hsize]
      refine (congrArg _ (if_neg hsize)).trans (hrun.trans ?_)
      cases area b (h.headerSize + h.bodySize) protectedMagic with
      | error fault => rfl
      | ok i =>
        simp only [Except.map, Except.bind]
        cases area b i.stop areaMagic <;> rfl

end Reflash.McuBoot
