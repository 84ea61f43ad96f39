import Reiser4Volume.Fsx32.Ops

/-! `lookup_fsx32m` (fsx32.c): the brick a name lands on is the entry of the
system table at the top `nums_bits` bits of the name's 32-bit hash. The hash,
`murmur3_x86_32` of the name and a seed, is computed outside the sources and
is an input here. Splitting every segment `1 << fact_bits` ways keeps every
name on its brick. -/

namespace Reiser4Volume.Fsx32

/-- `lookup_fsx32m` for a name whose hash is `hash`:
`tab[hash >> (32 - dcx->nums_bits)]`, the shift amount computed in u32. -/
def lookupFsx32m (numsBits : Nat) (tab : List UInt32) (hash : UInt32) : Except Fault UInt32 := do
  let shift := subWrap 32 32 numsBits
  if 32 ≤ shift then throw .badShift
  readAt tab (hash.toNat >>> shift)

section Lookup

variable {numsBits : Nat} {tab : List UInt32}

theorem lookupFsx32m_eq_readAt (wide : numsBits ≤ 32) (positive : 0 < numsBits) (hash : UInt32) :
    lookupFsx32m numsBits tab hash = readAt tab (hash.toNat / 2 ^ (32 - numsBits)) := by
  have shift : subWrap 32 32 numsBits = 32 - numsBits := subWrap_of_le wide (by decide)
  simp only [lookupFsx32m, shift, show ¬(32 ≤ 32 - numsBits) by omega, if_false, Nat.shiftRight_eq_div_pow]
  rfl

theorem lookupFsx32m_eq (wide : numsBits ≤ 32) (positive : 0 < numsBits) (sized : tab.length = 2 ^ numsBits)
    (hash : UInt32) :
    ∃ inside : hash.toNat / 2 ^ (32 - numsBits) < tab.length,
      lookupFsx32m numsBits tab hash = .ok tab[hash.toNat / 2 ^ (32 - numsBits)] := by
  have fits : hash.toNat < 2 ^ (32 - numsBits) * 2 ^ numsBits := by
    rw [← Nat.pow_add, Nat.sub_add_cancel wide]; exact hash.toNat_lt_size
  have inside : hash.toNat / 2 ^ (32 - numsBits) < tab.length := by
    rw [sized, Nat.div_lt_iff_lt_mul (Nat.two_pow_pos _), Nat.mul_comm]; exact fits
  exact ⟨inside, by rw [lookupFsx32m_eq_readAt wide positive, readAt_of_lt inside]⟩

theorem lookupFsx32m_zero (tab : List UInt32) (hash : UInt32) : lookupFsx32m 0 tab hash = .error .badShift :=
  rfl

end Lookup

section Stretch

theorem getElem?_stretched (old : List UInt32) {factor : Nat} (positive : 0 < factor) (i : Nat) :
    (stretched old factor)[i]? = old[i / factor]? := by
  induction old generalizing i with
  | nil => simp [stretched, Nat.div_eq_of_lt]
  | cons head old ih =>
    simp only [stretched, List.map_cons, List.flatten_cons] at ih ⊢
    by_cases low : i < factor
    · rw [List.getElem?_append_left (by simpa using low), List.getElem?_replicate, if_pos low,
        Nat.div_eq_of_lt low, List.getElem?_cons_zero]
    · rw [List.getElem?_append_right (by simpa using Nat.not_lt.mp low), List.length_replicate, ih,
        Nat.div_eq_sub_div positive (Nat.not_lt.mp low), List.getElem?_cons_succ]

theorem readAt_congr {a b : List UInt32} {i j : Nat} (same : a[i]? = b[j]?) : readAt a i = readAt b j := by
  simp only [readAt, same]

theorem lookupFsx32m_stretched {numsBits factBits : Nat} (positive : 0 < numsBits) (wide : numsBits + factBits ≤ 32)
    (tab : List UInt32) (hash : UInt32) :
    lookupFsx32m (numsBits + factBits) (stretched tab (2 ^ factBits)) hash = lookupFsx32m numsBits tab hash := by
  rw [lookupFsx32m_eq_readAt wide (by omega), lookupFsx32m_eq_readAt (by omega) positive]
  refine readAt_congr ?_
  rw [getElem?_stretched _ (Nat.two_pow_pos _), Nat.div_div_eq_div_mul, ← Nat.pow_add,
    show 32 - (numsBits + factBits) + factBits = 32 - numsBits by omega]

end Stretch

section Split

variable {ops : BucketOps} {factBits : Nat} {w : World} {tab : List UInt32} {newWeights : List Nat}

/-- `spl_fsx32` when the buckets divide the slots evenly (`nums % numb = 0`):
`balance_spl` only stretches the table, and the fibers are released. -/
theorem splFsx32_stretch_only {alloc₁ alloc₂ : List Bool} (small : w.numsBits + factBits ≤ maxShift)
    (present : w.tab = some tab) (sized : tab.length = 2 ^ w.numsBits) (whole : 2 ^ w.numsBits % w.numb = 0)
    (nonempty : w.numb ≠ 0) (calibrated : calibrate32 w.numb (2 ^ (w.numsBits + factBits)) ops.capAt = .ok newWeights)
    (fresh₁ : allocNext w.alloc = (true, alloc₁)) (fresh₂ : allocNext alloc₁ = (true, alloc₂)) :
    splFsx32 ops factBits w = .ok (0, { w with
      tab := some (stretched tab (2 ^ factBits))
      weights := newWeights
      numsBits := w.numsBits + factBits
      fibers := releaseFibers w.numb w.fibers
      alloc := alloc₂ }) := by
  have bits : wrap 32 (w.numsBits + factBits) = w.numsBits + factBits := wrap_of_lt (by simp only [maxShift] at small; omega)
  have product : tab.length * 2 ^ factBits < 2 ^ 32 := by
    rw [sized, ← Nat.pow_add]; exact Nat.pow_lt_pow_right (by norm_num) (by simp only [maxShift] at small; omega)
  have stretch₁ := @stretch_eq tab (2 ^ factBits) product
  rw [sized] at stretch₁
  simp only [splFsx32, bits, Nat.not_lt.mpr small, if_false, shl1_of_lt (show w.numsBits + factBits < 32 by
      simp only [maxShift] at small; omega), ok_bind, fresh₁, calibrated, balanceSpl,
    shl1_of_lt (show w.numsBits < 32 by simp only [maxShift] at small; omega),
    shl1_of_lt (show factBits < 32 by simp only [maxShift] at small; omega), nonempty, whole, present, fresh₂,
    wrap_of_lt (show 2 ^ w.numsBits * 2 ^ factBits < 2 ^ 32 by rw [← sized]; exact product), stretch₁, if_true,
    pure, Except.pure, Bool.not_true, Bool.false_eq_true, ne_eq, not_true_eq_false]

/-- `spl_fsx32` when the buckets divide the slots evenly keeps every name on
its brick: with `nums_bits` grown by `fact_bits`, every hash looks up in the
new table the id it looked up in the old one. -/
theorem splFsx32_keeps_lookups {alloc₁ alloc₂ : List Bool} (positive : 0 < w.numsBits)
    (small : w.numsBits + factBits ≤ maxShift) (present : w.tab = some tab) (sized : tab.length = 2 ^ w.numsBits)
    (whole : 2 ^ w.numsBits % w.numb = 0) (nonempty : w.numb ≠ 0)
    (calibrated : calibrate32 w.numb (2 ^ (w.numsBits + factBits)) ops.capAt = .ok newWeights)
    (fresh₁ : allocNext w.alloc = (true, alloc₁)) (fresh₂ : allocNext alloc₁ = (true, alloc₂)) :
    ∃ tab', splFsx32 ops factBits w = .ok (0, { w with
        tab := some tab'
        weights := newWeights
        numsBits := w.numsBits + factBits
        fibers := releaseFibers w.numb w.fibers
        alloc := alloc₂ }) ∧
      ∀ hash, lookupFsx32m (w.numsBits + factBits) tab' hash = lookupFsx32m w.numsBits tab hash :=
  ⟨_, splFsx32_stretch_only small present sized whole nonempty calibrated fresh₁ fresh₂,
    lookupFsx32m_stretched positive (by simp only [maxShift] at small; omega) tab⟩

/-- Two bricks on a four-slot table, split once: every name keeps its brick
in the eight-slot table. -/
theorem splFsx32_keeps_lookups_two_bricks :
    ∃ tab', splFsx32 ⟨fun _ => 1, id, id⟩ 1 ⟨2, 2, [2, 2], some [0, 1, 0, 1], fun _ => none, []⟩ =
        .ok (0, ⟨2, 3, [4, 4], some tab', releaseFibers 2 fun _ => none, []⟩) ∧
      ∀ hash, lookupFsx32m 3 tab' hash = lookupFsx32m 2 [0, 1, 0, 1] hash :=
  @splFsx32_keeps_lookups ⟨fun _ => 1, id, id⟩ 1 ⟨2, 2, [2, 2], some [0, 1, 0, 1], fun _ => none, []⟩ [0, 1, 0, 1]
    [4, 4] [] [] (by decide) (by decide) rfl rfl (by decide) (by decide) (by decide) rfl rfl

end Split

end Reiser4Volume.Fsx32
