import Reiser4Volume.Fsx32.Relocate
import Reiser4Volume.Fsx32.Shrink

/-! Setting a distribution context up (fsx32.c). `initv_fsx32` over a table
whose slot counts are the calibrated weights builds every bucket's fiber as
the ascending list of its slots, the state `inc_fsx32`, `dec_fsx32` and
`spl_fsx32` start from. `init_tab_from_scratch` lays the buckets out in runs
of consecutive slots, which `create_fibers` reads back into the same weights. -/

namespace Reiser4Volume.Fsx32

section Initv

variable {ops : BucketOps} {tab : List UInt32} {numb numsBits : Nat} {weights : List Nat} {w : World}

theorem shl1Int_ofNat {bits : Nat} (small : bits < 32) : shl1Int bits = .ok (2 ^ bits) := by
  simp [shl1Int, shl1_of_lt small, Int.natCast_nonneg]

theorem initvFsx32_counts (nonempty : numb ≠ 0) (small : numsBits < maxShift) (enough : numb < 2 ^ numsBits)
    (sized : tab.length = 2 ^ numsBits) (owned : ∀ s < tab.length, ops.owner (tab.getD s 0) < numb)
    (calibrated : calibrate32 numb (2 ^ numsBits) ops.capAt = .ok (countsUpTo ops tab numb tab.length))
    (everyAllocation : w.alloc = []) :
    initvFsx32 ops (some tab) numb numsBits w = .ok (0, some tab, { w with
      numb
      weights := countsUpTo ops tab numb tab.length
      fibers := fun k => if k < numb then some (slotsOf ops tab k tab.length) else w.fibers k
      alloc := [] }) := by
  have guard : ¬((maxShift : Int) ≤ numsBits) := by simp only [maxShift] at small ⊢; omega
  simp only [maxShift] at small
  have fibers := @createFibers_counted ops tab numb numsBits
    { w with numb, weights := countsUpTo ops tab numb tab.length, alloc := [] } (by omega) sized owned rfl
  simp only [initvFsx32, nonempty, false_or, guard, if_false, shl1Int_ofNat (show numsBits < 32 by omega),
    Int.toNat_ofNat, ok_bind, Nat.not_le.mpr enough, everyAllocation, allocNext_nil, calibrated, pure_bind, ne_eq,
    not_true_eq_false, fibers, Bool.not_true, Bool.false_eq_true]
  rfl

/-- `initv_fsx32` with the caller's table, of `2 ^ nums_bits` slots all owned
by the `numb` buckets and counted by the weights `calibrate32` gives them,
every allocation succeeding: it returns 0 with those weights, and the fiber of
each bucket is the ascending list of its slots. -/
theorem initvFsx32_builds_fibers (nonempty : numb ≠ 0) (small : numsBits < maxShift) (enough : numb < 2 ^ numsBits)
    (sized : tab.length = 2 ^ numsBits) (owned : ∀ s < tab.length, ops.owner (tab.getD s 0) < numb)
    (calibrated : calibrate32 numb (2 ^ numsBits) ops.capAt = .ok weights)
    (counted : weights = countsUpTo ops tab numb tab.length) (everyAllocation : w.alloc = []) :
    initvFsx32 ops (some tab) numb numsBits w = .ok (0, some tab, { w with
      numb
      weights
      fibers := fun k => if k < numb then some (slotsOf ops tab k tab.length) else w.fibers k
      alloc := [] }) := by
  subst counted
  exact initvFsx32_counts nonempty small enough sized owned calibrated everyAllocation

/-- Two bricks of equal capacity on a four-slot table, alternating. -/
theorem initvFsx32_builds_fibers_two_bricks :
    initvFsx32 ⟨fun _ => 1, id, id⟩ (some [0, 1, 0, 1]) 2 2 ⟨0, 2, [], none, fun _ => none, []⟩ =
      .ok (0, some [0, 1, 0, 1], ⟨2, 2, [2, 2], none,
        fun k => if k < 2 then some (slotsOf ⟨fun _ => 1, id, id⟩ [0, 1, 0, 1] k 4) else none, []⟩) :=
  @initvFsx32_builds_fibers ⟨fun _ => 1, id, id⟩ [0, 1, 0, 1] 2 2 [2, 2] ⟨0, 2, [], none, fun _ => none, []⟩
    (by decide) (by decide) (by decide) rfl (by decide) (by decide) (by decide) rfl

end Initv

/-- The inner loop of `init_tab_from_scratch` for bucket `i`:
`tab[k++] = idx2id(i)` for `j < weights[i]`. -/
def fillBucket (ops : BucketOps) (weights : List Nat) (i : Nat) (st : List UInt32 × Nat) :
    Except Fault (List UInt32 × Nat) := do
  let count ← readAt weights i
  forLoop (fun _ st => do
      let tab ← writeAt st.1 st.2 (ops.storedId i)
      pure (tab, wrap 32 (st.2 + 1)))
    0 count st

/-- `init_tab_from_scratch`: a table of `1 << nums_bits` entries whose first
`weights[0]` entries hold the id of bucket 0, the next `weights[1]` that of
bucket 1, and so on; `NULL` when it cannot be allocated. -/
def initTabFromScratch (ops : BucketOps) (weights : List Nat) (numb numsBits : Nat) (alloc : List Bool) :
    Except Fault (Option (List UInt32) × List Bool) := do
  let nums ← shl1 numsBits
  match allocNext alloc with
  | (false, alloc) => pure (none, alloc)
  | (true, alloc) =>
    let (tab, _) ← forLoop (fillBucket ops weights) 0 numb (List.replicate nums 0, 0)
    pure (some tab, alloc)

section Scratch

variable {ops : BucketOps} {weights : List Nat}

/-- The runs of ids the first `i` buckets get from `init_tab_from_scratch`. -/
def scratchRuns (ops : BucketOps) (weights : List Nat) (i : Nat) : List UInt32 :=
  ((List.range i).map fun b => List.replicate (weights.getD b 0) (ops.storedId b)).flatten

theorem scratchRuns_succ (i : Nat) :
    scratchRuns ops weights (i + 1) = scratchRuns ops weights i ++ List.replicate (weights.getD i 0) (ops.storedId i) := by
  simp [scratchRuns, List.range_succ]

theorem sum_take_succ_getD (i : Nat) : (weights.take (i + 1)).sum = (weights.take i).sum + weights.getD i 0 := by
  by_cases inside : i < weights.length
  · rw [List.sum_take_succ _ _ inside, List.getD_eq_getElem _ 0 inside]
  · rw [List.take_of_length_le (by omega), List.take_of_length_le (by omega),
      List.getD_eq_default _ _ (by omega), Nat.add_zero]

@[simp] theorem length_scratchRuns (i : Nat) : (scratchRuns ops weights i).length = (weights.take i).sum := by
  induction i with
  | zero => rfl
  | succ i ih => rw [scratchRuns_succ, List.length_append, ih, List.length_replicate, sum_take_succ_getD]

theorem fillBucket_closed {nums i : Nat} (inside : i < weights.length) (fits : (weights.take (i + 1)).sum ≤ nums)
    (small : nums < 2 ^ 32) :
    fillBucket ops weights i (scratchRuns ops weights i ++ List.replicate (nums - (weights.take i).sum) 0,
        (weights.take i).sum) =
      .ok (scratchRuns ops weights (i + 1) ++ List.replicate (nums - (weights.take (i + 1)).sum) 0,
        (weights.take (i + 1)).sum) := by
  have step := @sum_take_succ_getD weights i
  have inner := @forLoop_closed _ (fun _ (st : List UInt32 × Nat) => do
      let tab ← writeAt st.1 st.2 (ops.storedId i)
      pure (tab, wrap 32 (st.2 + 1)))
    (fun j => (scratchRuns ops weights i ++ List.replicate j (ops.storedId i) ++
      List.replicate (nums - (weights.take i).sum - j) 0, (weights.take i).sum + j)) 0 (weights.getD i 0)
    fun j _ below => by
      obtain ⟨r, rest⟩ : ∃ r, nums - (weights.take i).sum - j = r + 1 := ⟨_, (Nat.succ_pred_eq_of_pos (by omega)).symm⟩
      have set := replicate_set_next (scratchRuns ops weights i) j r (ops.storedId i) 0
      rw [length_scratchRuns] at set
      have room : (weights.take i).sum + j <
          (scratchRuns ops weights i ++ List.replicate j (ops.storedId i) ++ List.replicate (r + 1) 0).length := by
        simp only [List.length_append, List.length_replicate, length_scratchRuns]; omega
      simp only [rest, writeAt_of_lt room, set, ok_bind,
        wrap_of_lt (show (weights.take i).sum + j + 1 < 2 ^ 32 by omega)]
      rw [show nums - (weights.take i).sum - (j + 1) = r by omega]
      rfl
  simp only [Nat.zero_add, Nat.add_zero, List.replicate_zero, List.append_nil, Nat.sub_zero] at inner
  simp only [fillBucket, readAt_of_lt inside, ← List.getD_eq_getElem _ 0 inside, ok_bind, inner, scratchRuns_succ, step,
    Nat.sub_add_eq]

/-- With weights for `numb` buckets that add up to `2 ^ nums_bits`, the table
is the buckets' runs in order. -/
theorem initTabFromScratch_eq {numb numsBits : Nat} {alloc alloc' : List Bool} (small : numsBits < 32)
    (sized : weights.length = numb) (total : weights.sum = 2 ^ numsBits) (fresh : allocNext alloc = (true, alloc')) :
    initTabFromScratch ops weights numb numsBits alloc = .ok (some (scratchRuns ops weights numb), alloc') := by
  subst sized
  have limit : 2 ^ numsBits < 2 ^ 32 := Nat.pow_lt_pow_right (by norm_num) small
  have run := @forLoop_closed _ (fillBucket ops weights)
    (fun i => (scratchRuns ops weights i ++ List.replicate (2 ^ numsBits - (weights.take i).sum) 0,
      (weights.take i).sum)) 0 weights.length fun i _ below => by
      have prefixSum := (List.take_sublist (i + 1) weights).sum_le_sum fun _ _ => Nat.zero_le _
      exact fillBucket_closed (by omega) (by omega) limit
  simp only [Nat.zero_add, List.take_zero, List.sum_nil, Nat.sub_zero, List.take_length, total, Nat.sub_self,
    List.replicate_zero, List.append_nil] at run
  rw [show scratchRuns ops weights 0 = [] from rfl, List.nil_append] at run
  simp only [initTabFromScratch, shl1_of_lt small, ok_bind, fresh, run]
  rfl

theorem getElem?_scratchRuns {i s : Nat} (inside : i ≤ weights.length) (below : s < (weights.take i).sum) :
    (scratchRuns ops weights i)[s]? = some (ops.storedId (recipientOf weights s)) := by
  induction i with
  | zero => simp at below
  | succ i ih =>
    rw [scratchRuns_succ]
    by_cases earlier : s < (weights.take i).sum
    · rw [List.getElem?_append_left (by simpa using earlier), ih (by omega) earlier]
    · have step := @sum_take_succ_getD weights i
      rw [List.getElem?_append_right (by rw [length_scratchRuns]; omega), length_scratchRuns, List.getElem?_replicate,
        if_pos (by omega),
        (recipientOf_eq_iff (show i < weights.length by omega)).mpr ⟨by omega, by omega⟩]

theorem slotsOf_scratchRuns (inverse : ∀ b < weights.length, ops.owner (ops.storedId b) = b) {k : Nat}
    (inside : k < weights.length) :
    slotsOf ops (scratchRuns ops weights weights.length) k weights.sum =
      List.range' (weights.take k).sum (weights.getD k 0) := by
  refine slotsOf_eq_of_sorted (List.pairwise_lt_range' _ _) fun s => ?_
  rw [List.mem_range'_1]
  have step := @sum_take_succ_getD weights k
  have runEnd := (List.take_sublist (k + 1) weights).sum_le_sum fun _ _ => Nat.zero_le _
  constructor
  · intro ⟨low, high⟩
    have covered : s < (weights.take weights.length).sum := by rw [List.take_length]; omega
    rw [List.getD_eq_getElem?_getD, getElem?_scratchRuns le_rfl covered, Option.getD_some,
      inverse _ (recipientOf_lt (by rw [List.take_length] at covered; exact covered)),
      (recipientOf_eq_iff inside).mpr ⟨low, by omega⟩]
    exact ⟨by omega, rfl⟩
  · intro ⟨covered, owner⟩
    have covered' : s < (weights.take weights.length).sum := by rw [List.take_length]; exact covered
    rw [List.getD_eq_getElem?_getD, getElem?_scratchRuns le_rfl covered', Option.getD_some,
      inverse _ (recipientOf_lt covered), recipientOf_eq_iff inside] at owner
    omega

theorem countsUpTo_scratchRuns (inverse : ∀ b < weights.length, ops.owner (ops.storedId b) = b) :
    countsUpTo ops (scratchRuns ops weights weights.length) weights.length weights.sum = weights := by
  conv_rhs => rw [← map_range_getD weights]
  exact List.map_congr_left fun k member => by
    rw [slotsOf_scratchRuns inverse (List.mem_range.mp member), List.length_range']

/-- A table made from scratch, read back: `init_tab_from_scratch` with
weights for `numb` buckets that add up to `2 ^ nums_bits`, then `create_fibers`
over its table with the same weights, every allocation succeeding: the weights
come back unchanged and each bucket's fiber is its run of consecutive slots. -/
theorem initTabFromScratch_createFibers {numb numsBits : Nat} {alloc alloc' : List Bool} {w : World}
    (small : numsBits < 32) (sized : weights.length = numb) (total : weights.sum = 2 ^ numsBits)
    (inverse : ∀ b < numb, ops.owner (ops.storedId b) = b) (fresh : allocNext alloc = (true, alloc'))
    (everyAllocation : w.alloc = []) :
    ∃ tab, initTabFromScratch ops weights numb numsBits alloc = .ok (some tab, alloc') ∧
      createFibers ops numsBits tab numb weights w = .ok (0, weights, { w with
        fibers := fun k => if k < numb then some (List.range' (weights.take k).sum (weights.getD k 0))
          else w.fibers k }) := by
  refine ⟨_, initTabFromScratch_eq small sized total fresh, ?_⟩
  subst sized
  have long : (scratchRuns ops weights weights.length).length = 2 ^ numsBits := by
    rw [length_scratchRuns, List.take_length, total]
  have owned : ∀ s < (scratchRuns ops weights weights.length).length,
      ops.owner ((scratchRuns ops weights weights.length).getD s 0) < weights.length := fun s inside => by
    rw [length_scratchRuns] at inside
    have covered : s < weights.sum := by rwa [List.take_length] at inside
    rw [List.getD_eq_getElem?_getD, getElem?_scratchRuns le_rfl inside, Option.getD_some,
      inverse _ (recipientOf_lt covered)]
    exact recipientOf_lt covered
  have runs : ∀ k < weights.length, slotsOf ops (scratchRuns ops weights weights.length) k
      (scratchRuns ops weights weights.length).length = List.range' (weights.take k).sum (weights.getD k 0) :=
    fun k inside => by rw [long, ← total]; exact slotsOf_scratchRuns inverse inside
  have counted : countsUpTo ops (scratchRuns ops weights weights.length) weights.length
      (scratchRuns ops weights weights.length).length = weights := by
    rw [long, ← total]
    exact countsUpTo_scratchRuns inverse
  have fibers := @createFibers_counted ops _ weights.length numsBits w small long owned everyAllocation
  rw [counted] at fibers
  rw [fibers]
  congr
  funext k
  split_ifs with inside
  · rw [runs k inside]
  · rfl

/-- Three bricks weighted `2, 1, 1` on four slots: runs `[0, 1]`, `[2]`, `[3]`. -/
theorem initTabFromScratch_three_bricks :
    ∃ tab, initTabFromScratch ⟨fun _ => 1, id, id⟩ [2, 1, 1] 3 2 [] = .ok (some tab, []) ∧
      createFibers ⟨fun _ => 1, id, id⟩ 2 tab 3 [2, 1, 1] ⟨3, 2, [2, 1, 1], none, fun _ => none, []⟩ =
        .ok (0, [2, 1, 1], ⟨3, 2, [2, 1, 1], none,
          fun k => if k < 3 then some (List.range' ([2, 1, 1].take k).sum ([2, 1, 1].getD k 0)) else none, []⟩) :=
  @initTabFromScratch_createFibers ⟨fun _ => 1, id, id⟩ [2, 1, 1] 3 2 [] [] ⟨3, 2, [2, 1, 1], none, fun _ => none, []⟩
    (by decide) rfl rfl (by decide) rfl rfl

end Scratch

end Reiser4Volume.Fsx32
