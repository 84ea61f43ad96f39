import Mathlib.Data.List.GetD
import Reiser4Volume.Fsx32.Balance

/-! The entry points of the distribution core (fsx32.c): context set-up,
`inc_fsx32`, `dec_fsx32` with its pre-flight `check_space`, and `spl_fsx32`.
Each entry point builds its new weights with `calibrate32`, runs a rebalancer,
and on success swaps the new weights and bucket count in. -/

namespace Reiser4Volume.Fsx32

def maxShift : Nat := 31
def maxBuckets : Nat := 2 ^ 31
def minNumsBits : Nat := 10

/-- `dcx->tab`, dereferenced. -/
def workingTab (w : World) : Except Fault (List UInt32) :=
  match w.tab with
  | some tab => .ok tab
  | none => .error .nullDeref

/-- `clone_systab`: a fresh copy of the `1 << nums_bits` entries of `tab` in
`dcx->tab`, or `-ENOMEM` with `dcx->tab` left `NULL`. -/
def cloneSystab (tab : List UInt32) (w : World) : Except Fault (Int × World) := do
  let nums ← shl1 w.numsBits
  match allocNext w.alloc with
  | (false, alloc) => pure (-ENOMEM, { w with tab := none, alloc })
  | (true, alloc) =>
    if tab.length < nums then throw .outOfBounds
    pure (0, { w with tab := some (tab.take nums), alloc })

theorem cloneSystab_of_fresh {tab : List UInt32} {w : World} {alloc : List Bool} (small : w.numsBits < 32)
    (long : 2 ^ w.numsBits ≤ tab.length) (fresh : allocNext w.alloc = (true, alloc)) :
    cloneSystab tab w = .ok (0, { w with tab := some (tab.take (2 ^ w.numsBits)), alloc }) := by
  simp [cloneSystab, shl1_of_lt small, fresh, Nat.not_lt.mpr long]
  rfl

/-- `free_cloned_systab`. -/
def freeClonedSystab (w : World) : World := { w with tab := none }

/-- The success path of `inc_fsx32` and `dec_fsx32`: the fibers are released
and the working table, the new weights and the new bucket count stay. -/
def commitTab (w : World) (clone : List UInt32) (newNumb : Nat) (newWeights : List Nat) : World :=
  { w with
    tab := some clone, fibers := releaseFibers newNumb w.fibers, weights := newWeights
    numb := newNumb }

/-- `replace_fsx32`: the table built in `dcx->tab` goes to the caller's
pointer, and `dcx->tab` is cleared. -/
def replaceFsx32 (w : World) : Option (List UInt32) × World := (w.tab, { w with tab := none })

/-- `inc_fsx32`: add the bucket `new` at `target_pos` of the new vector, or
with `new = false` re-weight bucket `target_pos`. `tab` is the caller's table. -/
def incFsx32 (ops : BucketOps) (tab : List UInt32) (targetPos : Nat) (new : Bool) (w : World) :
    Except Fault (Int × World) := do
  if new ∧ w.numb = maxBuckets then return (-EINVAL, w)
  let newNumb := if new then w.numb + 1 else w.numb
  let nums ← shl1 w.numsBits
  if nums < newNumb then return (-EINVAL, w)
  match allocNext w.alloc with
  | (false, alloc) => return (-ENOMEM, freeClonedSystab { w with alloc })
  | (true, alloc) =>
    let (ret, w) ← cloneSystab tab { w with alloc }
    if ret ≠ 0 then return (ret, freeClonedSystab w)
    let clone ← workingTab w
    let newWeights ← calibrate32 newNumb nums ops.capAt
    let (ret, clone, w) ← balanceInc ops newNumb clone w.weights newWeights targetPos new w
    if ret ≠ 0 then return (ret, freeClonedSystab w)
    return (0, commitTab w clone newNumb newWeights)

/-- Adding a bucket can raise a survivor's share: with these capacities the
weights of a 1024-slot table go from `[101, 101, 200, 311, 311]` to
`[101, 101, 201, 310, 310, 1]`, `exc[2] = 200 - 201` wraps to `2^32 - 1`, and
stealing from bucket 2 reads entry 201 of its 200-entry fiber. -/
theorem incFsx32_share_rise_reads_past_fiber (idx2id id2idx : Nat → Nat) (tab : List UInt32)
    (fibers : Fibers) (fib : List Nat) (tabLen : tab.length = 1024) (fiber2 : fibers 2 = some fib)
    (fibLen : fib.length = 200) :
    incFsx32 ⟨fun i => [10050, 10050, 20090, 31105, 31105, 101].getD i 0, idx2id, id2idx⟩ tab 5 true
      ⟨5, 10, [101, 101, 200, 311, 311], none, fibers, []⟩ = .error .outOfBounds := by
  have weights : calibrate32 6 1024 (fun i => [10050, 10050, 20090, 31105, 31105, 101].getD i 0) =
      .ok [101, 101, 201, 310, 310, 1] := by decide
  have exc : forLoop (excessAt [101, 101, 200, 311, 311] [101, 101, 201, 310, 310, 1] 5 true) 0 5
      (List.replicate 6 0) = .ok [0, 0, 4294967295, 1, 1, 0] := by decide
  have clone := @cloneSystab_of_fresh tab ⟨5, 10, [101, 101, 200, 311, 311], none, fibers, []⟩ []
    (by simp) (by simp [tabLen]) rfl
  dsimp only at clone
  simp only [Nat.reducePow, List.take_of_length_le (Nat.le_of_eq tabLen)] at clone
  have steals : forLoop (stealTail ⟨fun i => [10050, 10050, 20090, 31105, 31105, 101].getD i 0, idx2id, id2idx⟩
      fibers [101, 101, 201, 310, 310, 1] [0, 0, 4294967295, 1, 1, 0] 5) 0 5 tab = .error .outOfBounds := by
    have short := @stealTail_past_fiber ⟨fun i => [10050, 10050, 20090, 31105, 31105, 101].getD i 0, idx2id, id2idx⟩
      fibers [101, 101, 201, 310, 310, 1] [0, 0, 4294967295, 1, 1, 0] 5 2 tab fib fiber2 (by simp)
      (by simp [fibLen]) (by simp) (by simp) (by simp)
    simp only [forLoop_succ, stealTail_of_zero (by simp : 0 < [0, 0, 4294967295, 1, 1, 0].length) rfl,
      stealTail_of_zero (by simp : 1 < [0, 0, 4294967295, 1, 1, 0].length) rfl, Nat.reduceAdd, short]
  simp only [incFsx32, if_true, maxBuckets, Bool.true_eq_false, false_and, if_false, Nat.reduceAdd,
    shl1_of_lt (by decide : 10 < 32), Nat.reducePow, ok_bind, allocNext_nil, clone, pure, Except.pure, ne_eq,
    not_true_eq_false, workingTab, weights, balanceInc, exc, Nat.sub_self, forLoop_zero, steals, error_bind,
    decide_False, decide_True, Bool.true_and, true_and]
  rfl

theorem incFsx32_share_rise_on_uniform_fibers :
    incFsx32 ⟨fun i => [10050, 10050, 20090, 31105, 31105, 101].getD i 0, id, id⟩ (List.replicate 1024 0) 5 true
      ⟨5, 10, [101, 101, 200, 311, 311], none, fun _ => some (List.replicate 200 0), []⟩ = .error .outOfBounds :=
  incFsx32_share_rise_reads_past_fiber id id _ _ _ (List.length_replicate _ _) rfl (List.length_replicate _ _)

/-- The comparison loop of `check_space`: `-ENOSPC` when some bucket's
capacity is below the share of the occupied space calibrated onto it. -/
def spaceShortage (capAt : Nat → Nat) (shares : List Nat) : Int :=
  if (List.range shares.length).any fun i => capAt i < shares.getD i 0 then -ENOSPC else 0

/-- `check_space(rdcx, numb, occ)`. -/
def checkSpace (ops : BucketOps) (numb occ : Nat) (w : World) : Except Fault (Int × World) :=
  match allocNext w.alloc with
  | (false, alloc) => .ok (-ENOMEM, { w with alloc })
  | (true, alloc) => do
    let shares ← calibrate64 numb occ ops.capAt
    pure (spaceShortage ops.capAt shares, { w with alloc })

/-- `dec_fsx32`: remove the bucket `removeme` from `target_pos`, or with
`removeme = none` shrink bucket `target_pos`. `occ` is what
`space_occupied()` returns. -/
def decFsx32 (ops : BucketOps) (occ : Nat) (tab : List UInt32) (targetPos : Nat)
    (removeme : Option Victim) (w : World) : Except Fault (Int × World) := do
  let newNumb := if removeme.isSome then w.numb - 1 else w.numb
  let (ret, w) ← checkSpace ops newNumb occ w
  if ret ≠ 0 then return (ret, freeClonedSystab w)
  let nums ← shl1 w.numsBits
  match allocNext w.alloc with
  | (false, alloc) => return (-ENOMEM, freeClonedSystab { w with alloc })
  | (true, alloc) =>
    let (ret, w) ← cloneSystab tab { w with alloc }
    if ret ≠ 0 then return (ret, freeClonedSystab w)
    let clone ← workingTab w
    let newWeights ← calibrate32 newNumb nums ops.capAt
    let (ret, clone, w) ← balanceDec ops newNumb clone w.weights newWeights targetPos removeme w
    if ret ≠ 0 then return (ret, freeClonedSystab w)
    return (0, commitTab w clone newNumb newWeights)

/-- Removing a bucket can lower a survivor's share: removing the last bucket
of the volume of `incFsx32_share_rise_reads_past_fiber` takes bucket 2 from 201
slots to 200, `sho[2] = 200 - 201` wraps to `2^32 - 1`, and handing out to
bucket 2 reads past the end of the victim's one-entry fiber. -/
theorem decFsx32_share_drop_reads_past_victim (idx2id id2idx : Nat → Nat) (victimId slot : Nat)
    (tab : List UInt32) (fibers : Fibers) (tabLen : tab.length = 1024) (slotIn : slot < 1024) :
    decFsx32 ⟨fun i => [10050, 10050, 20090, 31105, 31105].getD i 0, idx2id, id2idx⟩ 0 tab 5
      (some ⟨victimId, some [slot]⟩) ⟨6, 10, [101, 101, 201, 310, 310, 1], none, fibers, []⟩ =
      .error .outOfBounds := by
  have shares : calibrate64 5 0 (fun i => [10050, 10050, 20090, 31105, 31105].getD i 0) =
      .ok [0, 0, 0, 0, 0] := by decide
  have enough : spaceShortage (fun i => [10050, 10050, 20090, 31105, 31105].getD i 0) [0, 0, 0, 0, 0] = 0 := by
    decide
  have weights : calibrate32 5 1024 (fun i => [10050, 10050, 20090, 31105, 31105].getD i 0) =
      .ok [101, 101, 200, 311, 311] := by decide
  have sho : forLoop (shortageAt [101, 101, 201, 310, 310, 1] [101, 101, 200, 311, 311] 5 true) 0 5
      (List.replicate 5 0) = .ok [0, 0, 4294967295, 1, 1] := by decide
  have handOuts : forLoop (handOut ⟨fun i => [10050, 10050, 20090, 31105, 31105].getD i 0, idx2id, id2idx⟩
      [slot] [0, 0, 4294967295, 1, 1]) 0 5 (tab, 0) = .error .outOfBounds := by
    have short := @handOut_past_source ⟨fun i => [10050, 10050, 20090, 31105, 31105].getD i 0, idx2id, id2idx⟩
      [slot] [0, 0, 4294967295, 1, 1] 2 tab 0 (by simp [slotIn, tabLen]) (by simp) (by simp) (by simp) (by simp)
    simp only [forLoop_succ, handOut_of_zero (by simp : 0 < [0, 0, 4294967295, 1, 1].length) rfl,
      handOut_of_zero (by simp : 1 < [0, 0, 4294967295, 1, 1].length) rfl, Nat.reduceAdd, short]
  have clone := @cloneSystab_of_fresh tab ⟨6, 10, [101, 101, 201, 310, 310, 1], none, fibers, []⟩ []
    (by simp) (by simp [tabLen]) rfl
  dsimp only at clone
  simp only [Nat.reducePow, List.take_of_length_le (Nat.le_of_eq tabLen)] at clone
  simp only [decFsx32, Option.isSome_some, if_true, Nat.reduceSub, checkSpace, allocNext_nil, shares,
    enough, ok_bind, pure, Except.pure, ne_eq, not_true_eq_false, if_false, shl1_of_lt (by decide : 10 < 32),
    Nat.reducePow, clone, workingTab, weights, balanceDec, sho, Nat.sub_self, forLoop_zero, handOuts, error_bind]

theorem decFsx32_share_drop_from_slot_zero :
    decFsx32 ⟨fun i => [10050, 10050, 20090, 31105, 31105].getD i 0, id, id⟩ 0 (List.replicate 1024 0) 5
      (some ⟨5, some [0]⟩) ⟨6, 10, [101, 101, 201, 310, 310, 1], none, fun _ => none, []⟩ =
      .error .outOfBounds :=
  decFsx32_share_drop_reads_past_victim id id 5 0 _ _ (List.length_replicate _ _) (by decide)

/-- The products `occ * cap` of `check_space` wrap in u64. With two bricks of
`2^32` blocks left after the removal and `2^32` blocks occupied, both products
are `2^64`, which wraps to 0: the shares sum to 0, `rest` is `2^32`, and the
remainder loop runs past the two-entry array. -/
theorem decFsx32_occupied_product_overflows (idx2id id2idx : Nat → Nat) (tab : List UInt32)
    (targetPos : Nat) (victim : Victim) (w : World) :
    decFsx32 ⟨fun _ => 2 ^ 32, idx2id, id2idx⟩ (2 ^ 32) tab targetPos (some victim)
      { w with numb := 3, alloc := [] } = .error .outOfBounds := by
  have shares : calibrate64 2 (2 ^ 32) (fun _ => 2 ^ 32) = .error .outOfBounds := by decide
  simp only [decFsx32, Option.isSome_some, if_true, Nat.reduceSub, checkSpace, allocNext_nil, shares,
    error_bind]

/-- `spl_fsx32`: multiply the number of slots by `1 << fact_bits`. The guard
adds in u32. -/
def splFsx32 (ops : BucketOps) (factBits : Nat) (w : World) : Except Fault (Int × World) := do
  let bits := wrap 32 (w.numsBits + factBits)
  if maxShift < bits then return (-EINVAL, w)
  let newNums ← shl1 bits
  match allocNext w.alloc with
  | (false, alloc) => return (-ENOMEM, { w with alloc })
  | (true, alloc) =>
    let newWeights ← calibrate32 w.numb newNums ops.capAt
    let r ← balanceSpl ops w.numb w.numsBits w.tab w.weights newWeights factBits { w with alloc }
    let w := { r.world with tab := r.tab, weights := r.oldWeights }
    if r.ret ≠ 0 then return (r.ret, w)
    return (0, { w with weights := newWeights, numsBits := bits })

/-- When the allocation of `exc` fails, `balance_spl` jumps to its error label
with `ret` still 0 and `spl_fsx32` reports success: `nums_bits` and the weights
are those of a 2048-slot table, while `dcx->tab` is the old 1024-entry one. -/
theorem splFsx32_exc_failure_reports_success (idx2id id2idx : Nat → Nat) (tab : List UInt32) (fibers : Fibers) :
    splFsx32 ⟨fun _ => 1, idx2id, id2idx⟩ 1 ⟨3, 10, [342, 341, 341], some tab, fibers, [true, false]⟩ =
      .ok (0, ⟨3, 11, [683, 683, 682], some tab, fibers, []⟩) := by
  unfold splFsx32
  dsimp only
  rfl

/-- With unequal capacities `nums % numb` can be 0 although the stretched
weights are not the calibrated ones: `balance_spl` then only stretches the
table, so bucket 0 owns `2 * 342 = 684` slots where its new weight is 683. -/
theorem splFsx32_unequal_capacities_keep_stretch (idx2id id2idx : Nat → Nat) (tab : List UInt32)
    (fibers : Fibers) (tabLen : tab.length = 1024) (owned : tab.count (UInt32.ofNat (idx2id 0)) = 342) :
    splFsx32 ⟨fun i => [1, 2].getD i 0, idx2id, id2idx⟩ 1 ⟨2, 10, [342, 682], some tab, fibers, []⟩ =
      .ok (0, ⟨2, 11, [683, 1365], some (stretched tab 2), releaseFibers 2 fibers, []⟩) ∧
    (stretched tab 2).count (UInt32.ofNat (idx2id 0)) = 684 := by
  have weights : calibrate32 2 2048 (fun i => [1, 2].getD i 0) = .ok [683, 1365] := by decide
  have stretch2 := @stretch_eq tab 2 (by omega)
  simp only [tabLen, Nat.reduceMul] at stretch2
  refine ⟨?_, by rw [count_stretched, owned]⟩
  simp only [splFsx32, wrap, Nat.reduceAdd, Nat.reducePow, Nat.reduceMod, maxShift, Nat.reduceLT, if_false,
    shl1_of_lt (by decide : 11 < 32), allocNext_nil, ok_bind, weights, balanceSpl, shl1_of_lt (by decide : 10 < 32),
    shl1_of_lt (by decide : 1 < 32), Nat.reduceMul, stretch2, if_true, pure, Except.pure, Nat.reduceEqDiff,
    Bool.not_true, Bool.false_eq_true, ne_eq, not_true_eq_false]

theorem splFsx32_unequal_capacities_on_sorted_table :
    splFsx32 ⟨fun i => [1, 2].getD i 0, id, id⟩ 1
        ⟨2, 10, [342, 682], some (List.replicate 342 0 ++ List.replicate 682 1), fun _ => none, []⟩ =
      .ok (0, ⟨2, 11, [683, 1365], some (stretched (List.replicate 342 0 ++ List.replicate 682 1) 2),
        releaseFibers 2 fun _ => none, []⟩) ∧
    (stretched (List.replicate 342 0 ++ List.replicate 682 1) 2).count (UInt32.ofNat (id 0)) = 684 :=
  splFsx32_unequal_capacities_keep_stretch id id _ _
    (by simp only [List.length_append, List.length_replicate])
    (by simp only [List.count_append, List.count_replicate, id]; decide)

/-- `initr_fsx32`: allocate the caller's table `*tab` of `1 << nums_bits`
entries unless it exists. The warning of edward-1953 prints `1ull << nums_bits`
before the `-EINVAL` return, a shift undefined for a negative `nums_bits`. -/
def initrFsx32 (tab : Option (List UInt32)) (numsBits : Int) (w : World) :
    Except Fault (Int × Option (List UInt32) × World) := do
  if tab.isSome then return (0, tab, w)
  if numsBits < minNumsBits then
    if numsBits < 0 then throw .badShift
    return (-EINVAL, tab, w)
  let nums ← shl1Int numsBits
  match allocNext w.alloc with
  | (false, alloc) => pure (-ENOMEM, none, { w with alloc })
  | (true, alloc) => pure (0, some (List.replicate nums 0), { w with numsBits := numsBits.toNat, alloc })

/-- `initv_fsx32`: weights calibrated over the `numb` buckets and fibers built
from the caller's table `*tab` (a one-brick table when there is none). On
error the table and the weights are freed. -/
def initvFsx32 (ops : BucketOps) (tab : Option (List UInt32)) (numb : Nat) (numsBits : Int) (w : World) :
    Except Fault (Int × Option (List UInt32) × World) := do
  if numb = 0 ∨ maxShift ≤ numsBits then return (-EINVAL, tab, w)
  let nums ← shl1Int numsBits
  if nums ≤ numb then return (-EINVAL, tab, w)
  let w := { w with numb }
  match allocNext w.alloc with
  | (false, alloc) => return (-ENOMEM, none, { w with weights := [], alloc })
  | (true, alloc) =>
    let weights ← calibrate32 numb nums ops.capAt
    let w := { w with weights, alloc }
    let (ret, tab, w) ← match tab with
      | some tab => pure (0, some tab, w)
      | none => do
        let (ret, tab, w) ← initrFsx32 none numsBits w
        pure (ret, tab.map fun t => t.map fun _ => ops.storedId 0, w)
    if ret ≠ 0 then return (ret, none, { w with weights := [] })
    let table ← match tab with
      | some t => pure t
      | none => throw .nullDeref
    let (ret, weights, w) ← createFibers ops numsBits.toNat table numb w.weights w
    if ret ≠ 0 then return (ret, none, { w with weights := [] })
    return (0, tab, { w with weights })

/-- A table read from a damaged disk in which bucket 0 owns every slot makes
`init_fibers_by_tab` write past the 512-entry fiber `create_fibers` allocated
for bucket 0: nothing checks the table before the writes. -/
theorem initvFsx32_damaged_table_overflows_fiber (w : World) :
    initvFsx32 ⟨fun _ => 1, id, id⟩ (some (List.replicate 1024 0)) 2 10 { w with alloc := [] } =
      .error .outOfBounds := by
  have weights : calibrate32 2 1024 (fun _ => 1) = .ok [512, 512] := by decide
  have fibers := @allocFibers_succeeds [512, 512] 0 2 (by decide) w.fibers
  have owners : ∀ s, (⟨fun _ => 1, id, id⟩ : BucketOps).owner ((List.replicate 1024 (0 : UInt32)).getD s 0) = 0 := by
    intro s
    simp only [BucketOps.owner, List.getD_eq_getElem?_getD, List.getElem?_getD_replicate_default_eq,
      UInt32.toNat_zero, id]
  generalize List.replicate 1024 (0 : UInt32) = tab at owners ⊢
  simp only [initvFsx32, maxShift, shl1Int, Nat.cast_ofNat, Int.reduceLE, Int.reduceLT, OfNat.ofNat_ne_zero,
    or_self, if_false, Int.reduceToNat, pure_bind, shl1_of_lt (by decide : 10 < 32), Nat.reducePow]
  rw [ok_bind]
  simp only [Nat.reduceLeDiff, if_false, allocNext_nil, weights]
  rw [ok_bind]
  simp only [ne_eq, not_true_eq_false, if_false, createFibers, fibers]
  rw [ok_bind]
  simp only [Bool.not_true, Bool.false_eq_true, if_false, pure_bind]
  rw [@initFibersByTab_overflow _ 2 10 tab _ [512, 512] rfl (by decide)]
  · rfl
  case owned =>
    intro s inside
    have := owners s
    rw [List.getD_eq_getElem?_getD, List.getElem?_eq_getElem inside, Option.getD_some] at this
    omega
  case present =>
    intro k below
    simp [below]
  case over =>
    have all : slotsOf ⟨fun _ => 1, id, id⟩ tab 0 (2 ^ 10) = List.range (2 ^ 10) :=
      List.filter_eq_self.mpr fun s _ => decide_eq_true (owners s)
    refine ⟨0, by decide, ?_⟩
    rw [all, List.length_range, if_pos (by decide)]
    simp only [fiberLength, Option.map_some', Option.getD_some, List.length_replicate]
    decide

/-- Three shifts of the distribution core go out of range for arguments its
entry points accept. `initv_fsx32` bounds `nums_bits` only from above, so a
negative one reaches `1 << nums_bits`, whatever the table. `initr_fsx32`
bounds it only from below, so one of 32 or more reaches it. The guard of
`spl_fsx32` adds in u32: a `fact_bits` near `2^32` wraps the sum below
`MAX_SHIFT`, and `balance_spl` then computes `1 << fact_bits`. -/
theorem fsx32_shift_out_of_range (ops : BucketOps) (w : World) :
    (∀ (tab : Option (List UInt32)) (numb : Nat) (numsBits : Int), numb ≠ 0 → numsBits < 0 →
      initvFsx32 ops tab numb numsBits w = .error .badShift) ∧
    (∀ numsBits : Int, 32 ≤ numsBits → initrFsx32 none numsBits w = .error .badShift) ∧
    ∀ (factBits : Nat) (alloc : List Bool) (weights : List Nat), w.numsBits < 32 →
      2 ^ 32 ≤ w.numsBits + factBits → wrap 32 (w.numsBits + factBits) ≤ maxShift →
      allocNext w.alloc = (true, alloc) →
      calibrate32 w.numb (2 ^ wrap 32 (w.numsBits + factBits)) ops.capAt = .ok weights →
      splFsx32 ops factBits w = .error .badShift := by
  refine ⟨fun tab numb numsBits nonzero negative => ?_, fun numsBits big => ?_,
    fun factBits alloc weights small wraps guard fresh calibrated => ?_⟩
  · have below : ¬((maxShift : Int) ≤ numsBits) := by simp only [maxShift]; omega
    simp [initvFsx32, nonzero, below, shl1Int, negative]
  · have bits : ¬(32 > numsBits.toNat) := by omega
    simp [initrFsx32, minNumsBits, shl1Int, shl1, bits, show ¬(numsBits < 10) by omega, show ¬(numsBits < 0) by omega]
  · have wrapSmall : wrap 32 (w.numsBits + factBits) < 32 := by simp only [maxShift] at guard; omega
    have factShift : shl1 factBits = .error .badShift := by simp [shl1, show ¬(factBits < 32) by omega]
    simp only [splFsx32, Nat.not_lt.mpr guard, if_false, pure_bind, shl1_of_lt wrapSmall, ok_bind, fresh,
      calibrated, balanceSpl, shl1_of_lt small, factShift, error_bind]

/-- A concrete instance of each: `initv_fsx32` with `nums_bits = -1`,
`initr_fsx32` with `nums_bits = 32`, and `spl_fsx32` on a 1024-slot table of
three equal buckets with `fact_bits = 2^32 - 9`, whose u32 sum with 10 is 1. -/
theorem fsx32_shift_out_of_range_samples (tab : List UInt32) (fibers : Fibers) :
    initvFsx32 ⟨fun _ => 1, id, id⟩ none 1 (-1) ⟨1, 10, [], some tab, fibers, []⟩ = .error .badShift ∧
      initrFsx32 none 32 ⟨1, 10, [], some tab, fibers, []⟩ = .error .badShift ∧
      splFsx32 ⟨fun _ => 1, id, id⟩ (2 ^ 32 - 9) ⟨3, 10, [342, 341, 341], some tab, fibers, []⟩ = .error .badShift :=
  ⟨(fsx32_shift_out_of_range ⟨fun _ => 1, id, id⟩ ⟨1, 10, [], some tab, fibers, []⟩).1 none 1 (-1) (by decide)
      (by decide),
    (fsx32_shift_out_of_range ⟨fun _ => 1, id, id⟩ ⟨1, 10, [], some tab, fibers, []⟩).2.1 32 le_rfl,
    (fsx32_shift_out_of_range ⟨fun _ => 1, id, id⟩ ⟨3, 10, [342, 341, 341], some tab, fibers, []⟩).2.2
      (2 ^ 32 - 9) [] [1, 1, 0] (show 10 < 32 by decide) (show 2 ^ 32 ≤ 10 + (2 ^ 32 - 9) by decide)
      (show wrap 32 (10 + (2 ^ 32 - 9)) ≤ maxShift by decide) rfl
      (show calibrate32 3 (2 ^ wrap 32 (10 + (2 ^ 32 - 9))) (fun _ => 1) = .ok [1, 1, 0] by decide)⟩

end Reiser4Volume.Fsx32
