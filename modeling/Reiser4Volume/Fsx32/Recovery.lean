import Reiser4Volume.Fsx32.Relocate

/-! What a failed reconfiguration leaves in the distribution context
(fsx32.c). `inc_fsx32` and `dec_fsx32` work on a clone of the system table and
swap the new weights and bucket count in only on success, so every error path
leaves the context's bucket count, table size, weights and fibers as they
were (`Keeps`). `balance_spl` instead frees `dcx->tab` and scales
`dcx->weights` in place before it rebuilds the fibers, and its error path
restores neither. `dec_fsx32` with no bucket to remove never succeeds:
`balance_dec` reads `removeme->id` before anything else. -/

namespace Reiser4Volume.Fsx32

/-- The part of the distribution context that a reconfiguration replaces only
when it succeeds: the bucket count, the table size, the weights and the
fibers. The working table `dcx->tab` and the allocator are left out: a failed
call frees its working table. -/
structure Keeps (w w' : World) : Prop where
  numb : w'.numb = w.numb
  numsBits : w'.numsBits = w.numsBits
  weights : w'.weights = w.weights
  fibers : w'.fibers = w.fibers

section Keeps

variable {w w' w'' : World}

theorem Keeps.refl (w : World) : Keeps w w := ⟨rfl, rfl, rfl, rfl⟩

theorem Keeps.trans (first : Keeps w w') (second : Keeps w' w'') : Keeps w w'' :=
  ⟨second.numb.trans first.numb, second.numsBits.trans first.numsBits, second.weights.trans first.weights,
    second.fibers.trans first.fibers⟩

theorem keeps_with (tab : Option (List UInt32)) (alloc : List Bool) : Keeps w { w with tab, alloc } :=
  ⟨rfl, rfl, rfl, rfl⟩

theorem Keeps.free (kept : Keeps w w') : Keeps w (freeClonedSystab w') :=
  ⟨kept.numb, kept.numsBits, kept.weights, kept.fibers⟩

end Keeps

section Steps

variable {ops : BucketOps} {tab : List UInt32} {w w' : World} {r : Int}

theorem cloneSystab_keeps (run : cloneSystab tab w = .ok (r, w')) : Keeps w w' := by
  obtain ⟨nums, -, run⟩ := bind_eq_ok.mp run
  split at run
  · cases run; exact keeps_with _ _
  · split at run
    · cases run
    · cases run; exact keeps_with _ _

theorem checkSpace_keeps {numb occ : Nat} (run : checkSpace ops numb occ w = .ok (r, w')) : Keeps w w' := by
  unfold checkSpace at run
  split at run
  · cases run; exact keeps_with w.tab _
  · obtain ⟨shares, -, run⟩ := bind_eq_ok.mp run
    cases run; exact keeps_with w.tab _

theorem balanceInc_keeps {newNumb targetPos : Nat} {oldWeights newWeights : List Nat} {new : Bool}
    {t : List UInt32} (run : balanceInc ops newNumb tab oldWeights newWeights targetPos new w = .ok (r, t, w')) :
    Keeps w w' := by
  unfold balanceInc at run
  split at run
  · cases run; exact keeps_with w.tab _
  · obtain ⟨_, -, run⟩ := bind_eq_ok.mp run
    obtain ⟨_, -, run⟩ := bind_eq_ok.mp run
    obtain ⟨_, -, run⟩ := bind_eq_ok.mp run
    obtain ⟨_, -, run⟩ := bind_eq_ok.mp run
    cases run; exact keeps_with w.tab _

theorem balanceDec_keeps {newNumb targetPos : Nat} {oldWeights newWeights : List Nat} {removeme : Option Victim}
    {t : List UInt32} (run : balanceDec ops newNumb tab oldWeights newWeights targetPos removeme w = .ok (r, t, w')) :
    Keeps w w' := by
  cases removeme with
  | none => simp [balanceDec, error_bind] at run
  | some victim =>
    simp only [balanceDec, ok_bind] at run
    split at run
    · cases run; exact keeps_with w.tab _
    · obtain ⟨_, -, run⟩ := bind_eq_ok.mp run
      obtain ⟨_, -, run⟩ := bind_eq_ok.mp run
      obtain ⟨_, -, run⟩ := bind_eq_ok.mp run
      obtain ⟨_, -, run⟩ := bind_eq_ok.mp run
      obtain ⟨_, -, run⟩ := bind_eq_ok.mp run
      obtain ⟨_, -, run⟩ := bind_eq_ok.mp run
      cases run; exact keeps_with w.tab _

end Steps

section Failure

variable {ops : BucketOps} {tab : List UInt32} {targetPos : Nat} {w w' : World} {ret : Int}

theorem incFsx32_failure_keeps {new : Bool} (run : incFsx32 ops tab targetPos new w = .ok (ret, w'))
    (failed : ret ≠ 0) : Keeps w w' := by
  unfold incFsx32 at run
  dsimp only at run
  generalize (if new = true then w.numb + 1 else w.numb) = newNumb at run
  simp only [pure_bind] at run
  split at run
  · cases run; exact Keeps.refl w
  · obtain ⟨nums, -, run⟩ := bind_eq_ok.mp run
    split at run
    · cases run; exact Keeps.refl w
    · split at run
      · cases run; exact (keeps_with w.tab _).free
      · obtain ⟨⟨ret₁, w₁⟩, cloned, run⟩ := bind_eq_ok.mp run
        have kept := (keeps_with w.tab _).trans (cloneSystab_keeps cloned)
        split at run
        · cases run; exact kept.free
        · obtain ⟨_, -, run⟩ := bind_eq_ok.mp run
          obtain ⟨_, -, run⟩ := bind_eq_ok.mp run
          obtain ⟨⟨ret₂, t, w₂⟩, balanced, run⟩ := bind_eq_ok.mp run
          replace kept := kept.trans (balanceInc_keeps balanced)
          split at run
          · cases run; exact kept.free
          · cases run; exact absurd rfl failed

theorem decFsx32_failure_keeps {occ : Nat} {removeme : Option Victim}
    (run : decFsx32 ops occ tab targetPos removeme w = .ok (ret, w')) (failed : ret ≠ 0) : Keeps w w' := by
  unfold decFsx32 at run
  dsimp only at run
  generalize (if removeme.isSome = true then w.numb - 1 else w.numb) = newNumb at run
  simp only [pure_bind] at run
  obtain ⟨⟨ret₁, w₁⟩, checked, run⟩ := bind_eq_ok.mp run
  have kept := checkSpace_keeps checked
  split at run
  · cases run; exact kept.free
  · obtain ⟨nums, -, run⟩ := bind_eq_ok.mp run
    split at run
    · cases run; exact (kept.trans (keeps_with w₁.tab _)).free
    · obtain ⟨⟨ret₂, w₂⟩, cloned, run⟩ := bind_eq_ok.mp run
      replace kept := (kept.trans (keeps_with w₁.tab _)).trans (cloneSystab_keeps cloned)
      split at run
      · cases run; exact kept.free
      · obtain ⟨_, -, run⟩ := bind_eq_ok.mp run
        obtain ⟨_, -, run⟩ := bind_eq_ok.mp run
        obtain ⟨⟨ret₃, t, w₃⟩, balanced, run⟩ := bind_eq_ok.mp run
        replace kept := kept.trans (balanceDec_keeps balanced)
        split at run
        · cases run; exact kept.free
        · cases run; exact absurd rfl failed

/-- `inc_fsx32` and `dec_fsx32` are all-or-nothing: a call that returns an
error, whichever allocation or check failed, leaves the bucket count, the table
size, the weights and the fibers of the context as they were. -/
theorem incFsx32_decFsx32_failure_keeps :
    (∀ tab targetPos new w ret w', incFsx32 ops tab targetPos new w = .ok (ret, w') → ret ≠ 0 → Keeps w w') ∧
    (∀ occ tab targetPos removeme w ret w', decFsx32 ops occ tab targetPos removeme w = .ok (ret, w') → ret ≠ 0 →
      Keeps w w') :=
  ⟨fun _ _ _ _ _ _ => incFsx32_failure_keeps, fun _ _ _ _ _ _ _ => decFsx32_failure_keeps⟩

/-- Adding a third brick when the allocation of the weights fails: the call
returns `-ENOMEM` and the context keeps its two buckets. -/
theorem incFsx32_allocation_failure_keeps :
    incFsx32 ⟨fun _ => 1, id, id⟩ [0, 1, 0, 1] 0 true ⟨2, 2, [2, 2], none, fun _ => none, [false]⟩ =
        .ok (-ENOMEM, ⟨2, 2, [2, 2], none, fun _ => none, []⟩) ∧
      Keeps ⟨2, 2, [2, 2], none, fun _ => none, [false]⟩ ⟨2, 2, [2, 2], none, fun _ => none, []⟩ :=
  ⟨rfl, (@incFsx32_decFsx32_failure_keeps ⟨fun _ => 1, id, id⟩).1 [0, 1, 0, 1] 0 true _ (-ENOMEM) _ rfl (by decide)⟩

/-- `spl_fsx32` is not: when a fiber cannot be allocated in `replace_fibers`,
`balance_spl` has already freed `dcx->tab` and scaled `dcx->weights` in place,
and the error path restores neither. The call returns `-ENOMEM` with no table,
the weights of the stretched table, the old `nums_bits` and the old fibers
released. -/
theorem splFsx32_fiber_failure_loses_table {factBits : Nat} {newWeights : List Nat} {fibers : Fibers}
    {alloc₁ alloc₂ alloc₃ alloc₄ : List Bool} (small : w.numsBits + factBits ≤ maxShift) (present : w.tab = some tab)
    (sized : tab.length = 2 ^ w.numsBits) (nonempty : w.numb ≠ 0) (uneven : 2 ^ w.numsBits % w.numb ≠ 0)
    (weighed : w.weights.length = w.numb)
    (calibrated : calibrate32 w.numb (2 ^ (w.numsBits + factBits)) ops.capAt = .ok newWeights)
    (fresh₁ : allocNext w.alloc = (true, alloc₁)) (fresh₂ : allocNext alloc₁ = (true, alloc₂))
    (fresh₃ : allocNext alloc₂ = (true, alloc₃))
    (fiberFails : allocFibers (w.weights.map fun x => wrap 32 (x * 2 ^ factBits)) 0 w.numb
      (releaseFibers w.numb w.fibers) alloc₃ = .ok (false, fibers, alloc₄)) :
    splFsx32 ops factBits w = .ok (-ENOMEM, { w with
      tab := none
      weights := w.weights.map fun x => wrap 32 (x * 2 ^ factBits)
      fibers := fibers
      alloc := alloc₄ }) := by
  simp only [maxShift] at small
  have fewer : 2 ^ w.numsBits % w.numb < w.numb := Nat.mod_lt _ (by omega)
  have product : tab.length * 2 ^ factBits < 2 ^ 32 := by
    rw [sized, ← Nat.pow_add]; exact Nat.pow_lt_pow_right (by norm_num) (by omega)
  have stretch₁ := @stretch_eq tab (2 ^ factBits) product
  rw [sized] at stretch₁
  simp only [splFsx32, wrap_of_lt (show w.numsBits + factBits < 2 ^ 32 by omega), maxShift,
    Nat.not_lt.mpr small, if_false, shl1_of_lt (show w.numsBits + factBits < 32 by omega), ok_bind, fresh₁,
    calibrated, present, pure_bind, balanceSpl, shl1_of_lt (show w.numsBits < 32 by omega),
    shl1_of_lt (show factBits < 32 by omega), nonempty, uneven, fresh₂, Bool.not_true, Bool.false_eq_true,
    donorExcess_closed weighed (length_calibrate calibrated) fewer.le,
    recipientShortage_closed weighed (length_calibrate calibrated) fewer.le, fresh₃,
    wrap_of_lt (show 2 ^ w.numsBits * 2 ^ factBits < 2 ^ 32 by rw [← sized]; exact product), stretch₁,
    scale_closed weighed, replaceFibers, createFibers, fiberFails, Bool.not_false, if_true, pure_bind,
    show (-ENOMEM : Int) ≠ 0 by decide]
  rfl

/-- Three bricks on a four-slot table, split once, with the first fiber
allocation failing: `dcx->tab` is gone and the weights are doubled while
`nums_bits` still says four slots. -/
theorem splFsx32_fiber_failure_three_bricks :
    splFsx32 ⟨fun _ => 1, id, id⟩ 1 ⟨3, 2, [2, 1, 1], some [0, 0, 1, 2], fun _ => none, [true, true, true, false]⟩ =
      .ok (-ENOMEM, ⟨3, 2, [4, 2, 2], none, releaseFibers 3 fun _ => none, []⟩) :=
  @splFsx32_fiber_failure_loses_table ⟨fun _ => 1, id, id⟩ [0, 0, 1, 2]
    ⟨3, 2, [2, 1, 1], some [0, 0, 1, 2], fun _ => none, [true, true, true, false]⟩ 1 [3, 3, 2]
    (releaseFibers 3 fun _ => none) [true, true, false] [true, false] [false] [] (by decide) rfl rfl (by decide)
    (by decide) rfl (by decide) rfl rfl rfl rfl

theorem balanceDec_none {newNumb : Nat} {oldWeights newWeights : List Nat} :
    balanceDec ops newNumb tab oldWeights newWeights targetPos none w = .error .nullDeref :=
  rfl

/-- `dec_fsx32` with `removeme` NULL, which is to shrink bucket `target_pos`,
never succeeds: every run that reaches `balance_dec` faults there, and every
code it returns is an error that leaves the context as it was. -/
theorem decFsx32_shrink_never_commits {occ : Nat} (run : decFsx32 ops occ tab targetPos none w = .ok (ret, w')) :
    ret ≠ 0 ∧ Keeps w w' := by
  have failed : ret ≠ 0 := by
    unfold decFsx32 at run
    simp only [Option.isSome_none, pure_bind] at run
    obtain ⟨⟨ret₁, w₁⟩, -, run⟩ := bind_eq_ok.mp run
    split at run
    · cases run; assumption
    · obtain ⟨_, -, run⟩ := bind_eq_ok.mp run
      split at run
      · cases run; decide
      · obtain ⟨⟨ret₂, w₂⟩, -, run⟩ := bind_eq_ok.mp run
        split at run
        · cases run; assumption
        · obtain ⟨_, -, run⟩ := bind_eq_ok.mp run
          obtain ⟨_, -, run⟩ := bind_eq_ok.mp run
          obtain ⟨_, balanced, -⟩ := bind_eq_ok.mp run
          cases balanceDec_none.symm.trans balanced
  exact ⟨failed, decFsx32_failure_keeps run failed⟩

/-- Shrinking the first of two bricks while 5 blocks are occupied on 2 blocks
of capacity: `check_space` refuses, and the context is kept. -/
theorem decFsx32_shrink_refused_for_space :
    decFsx32 ⟨fun _ => 1, id, id⟩ 5 [0, 1, 0, 1] 0 none ⟨2, 2, [2, 2], none, fun _ => none, []⟩ =
        .ok (-ENOSPC, ⟨2, 2, [2, 2], none, fun _ => none, []⟩) ∧
      -ENOSPC ≠ 0 ∧ Keeps ⟨2, 2, [2, 2], none, fun _ => none, []⟩ ⟨2, 2, [2, 2], none, fun _ => none, []⟩ :=
  have run : decFsx32 ⟨fun _ => 1, id, id⟩ 5 [0, 1, 0, 1] 0 none ⟨2, 2, [2, 2], none, fun _ => none, []⟩ =
      .ok (-ENOSPC, ⟨2, 2, [2, 2], none, fun _ => none, []⟩) := rfl
  ⟨run, decFsx32_shrink_never_commits run⟩

end Failure

end Reiser4Volume.Fsx32
