import Reiser4Volume.Machine
import Mathlib.Algebra.Order.BigOperators.Group.Finset
import Mathlib.Algebra.BigOperators.Ring

/-! `calibrate`: the apportionment of an integer budget over the buckets in
proportion to their capacities (fsx32.c). The remainder goes to the first
buckets by position; the source marks that order as part of the disk format. -/

namespace Reiser4Volume.Fsx32

open Finset

/-- `sum_not_scaled`: the capacities of buckets `0..n`, added in u64. -/
def sumNotScaled (capAt : Nat → Nat) : Nat → Nat
  | 0 => 0
  | n + 1 => wrap 64 (sumNotScaled capAt n + capAt n)

/-- The remainder loop of `calibrate`, `ret[i] = ret[i] + 1` for `i < rest`, on
`w`-bit slots: index `rest - 1` must lie inside `ret`. -/
def bumpFirst (w : Nat) : Nat → List Nat → Except Fault (List Nat)
  | 0, ret => .ok ret
  | _ + 1, [] => .error .outOfBounds
  | n + 1, r :: ret =>
    match bumpFirst w n ret with
    | .ok ret' => .ok (wrap w (r + 1) :: ret')
    | .error e => .error e

/-- `calibrate(num, val, vec, cap_at, ret, ...)` writing `w`-bit elements: each
bucket gets `div64_u64(val * cap, sum)`, all in u64, and the `val - sum_scaled`
units left over go one each to the first buckets. -/
def calibrate (w num val : Nat) (capAt : Nat → Nat) : Except Fault (List Nat) :=
  let total := sumNotScaled capAt num
  if 0 < num ∧ total = 0 then .error .divideByZero else
  let scaled := (List.range num).map fun i => wrap 64 (val * capAt i) / total
  let sumScaled := scaled.foldl (fun s r => wrap 64 (s + r)) 0
  bumpFirst w (subWrap 64 val sumScaled) (scaled.map (wrap w))

/-- `calibrate32`: the weights of the system table, in a `u32` array. -/
def calibrate32 (num val : Nat) (capAt : Nat → Nat) : Except Fault (List Nat) :=
  calibrate 32 num val capAt

/-- `calibrate64`: the space shares of `check_space`, in a `u64` array. -/
def calibrate64 (num val : Nat) (capAt : Nat → Nat) : Except Fault (List Nat) :=
  calibrate 64 num val capAt

/-- The floor share `val * cap / S` of bucket `i`. -/
def floorShare (num val : Nat) (capAt : Nat → Nat) (i : Nat) : Nat :=
  val * capAt i / ∑ j ∈ range num, capAt j

/-- The number of buckets that get one unit more than their floor share. -/
def remainder (num val : Nat) (capAt : Nat → Nat) : Nat :=
  val - ∑ i ∈ range num, floorShare num val capAt i

/-- Floor shares, plus one for each of the first `remainder` buckets. -/
def exactShares (num val : Nat) (capAt : Nat → Nat) : List Nat :=
  (List.range num).map fun i =>
    floorShare num val capAt i + if i < remainder num val capAt then 1 else 0

theorem sumNotScaled_eq (capAt : Nat → Nat) (n : Nat) :
    sumNotScaled capAt n = (∑ i ∈ range n, capAt i) % 2 ^ 64 := by
  induction n with
  | zero => rfl
  | succ n ih => simp [sumNotScaled, ih, wrap, sum_range_succ, Nat.mod_add_mod]

theorem foldl_wrapSum (l : List Nat) {a : Nat} (small : a < 2 ^ 64) :
    l.foldl (fun s r => wrap 64 (s + r)) a = (a + l.sum) % 2 ^ 64 := by
  induction l generalizing a with
  | nil => exact (Nat.mod_eq_of_lt small).symm
  | cons r l ih =>
    rw [List.foldl_cons, ih (wrap_lt 64 _)]
    simp only [wrap, List.sum_cons, Nat.mod_add_mod, Nat.add_assoc]

theorem sum_map_range (f : Nat → Nat) (n : Nat) :
    ((List.range n).map f).sum = ∑ i ∈ range n, f i := by
  induction n with
  | zero => rfl
  | succ n ih => simp [List.range_succ, sum_range_succ, ih]

theorem bumpFirst_range' {w : Nat} (f : Nat → Nat) {k m n : Nat} (le : n ≤ m)
    (fits : ∀ i, k ≤ i → i < k + n → f i + 1 < 2 ^ w) :
    bumpFirst w n ((List.range' k m).map f) =
      .ok ((List.range' k m).map fun i => f i + if i < k + n then 1 else 0) := by
  induction m generalizing k n with
  | zero =>
    obtain rfl : n = 0 := by omega
    rfl
  | succ m ih =>
    cases n with
    | zero =>
      simp only [bumpFirst, Except.ok.injEq]
      refine List.map_congr_left fun i member => ?_
      have low := (List.mem_range'_1.mp member).1
      simp [Nat.not_lt.mpr low]
    | succ n =>
      have rest := @ih (k + 1) n (by omega) fun i low high => fits i (by omega) (by omega)
      simp only [List.range'_succ, List.map_cons, bumpFirst, rest, wrap_of_lt (fits k le_rfl (by omega))]
      simp [show k < k + (n + 1) by omega, show k + 1 + n = k + (n + 1) by omega]

theorem bumpFirst_overflow {w n : Nat} {ret : List Nat} (over : ret.length < n) :
    bumpFirst w n ret = .error .outOfBounds := by
  induction ret generalizing n with
  | nil => cases n with
    | zero => simp at over
    | succ n => rfl
  | cons r ret ih =>
    cases n with
    | zero => simp at over
    | succ n => simp [bumpFirst, ih (by simpa using over)]

theorem length_bumpFirst {w n : Nat} {ret ret' : List Nat} (bumped : bumpFirst w n ret = .ok ret') :
    ret'.length = ret.length := by
  induction ret generalizing n ret' with
  | nil => cases n <;> cases bumped; rfl
  | cons r ret ih =>
    cases n with
    | zero => cases bumped; rfl
    | succ n =>
      simp only [bumpFirst] at bumped
      split at bumped <;> cases bumped
      simp [ih ‹_›]

theorem length_calibrate {w num val : Nat} {capAt : Nat → Nat} {ret : List Nat}
    (calibrated : calibrate w num val capAt = .ok ret) : ret.length = num := by
  simp only [calibrate] at calibrated
  split at calibrated
  · cases calibrated
  · simpa using length_bumpFirst calibrated

section Shares

variable {num : Nat} (val : Nat) {capAt : Nat → Nat}

theorem floorSum_mul_le (S : Nat) :
    S * ∑ i ∈ range num, val * capAt i / S ≤ val * ∑ i ∈ range num, capAt i := by
  rw [mul_sum, mul_sum]
  exact sum_le_sum fun i _ => by rw [Nat.mul_comm]; exact Nat.div_mul_le_self _ _

theorem lt_floorSum_add {S : Nat} (positive : 0 < S) (nonempty : 0 < num) :
    val * ∑ i ∈ range num, capAt i < S * (∑ i ∈ range num, val * capAt i / S + num) := by
  have each : ∀ i ∈ range num, val * capAt i < S * (val * capAt i / S + 1) :=
    fun i _ => Nat.lt_mul_div_succ _ positive
  calc val * ∑ i ∈ range num, capAt i = ∑ i ∈ range num, val * capAt i := mul_sum _ _ _
    _ < ∑ i ∈ range num, S * (val * capAt i / S + 1) :=
      sum_lt_sum_of_nonempty (nonempty_range_iff.mpr (by omega)) each
    _ = S * (∑ i ∈ range num, val * capAt i / S + num) := by
      rw [← mul_sum, sum_add_distrib]; simp

theorem floorSum_le (positive : 0 < ∑ i ∈ range num, capAt i) :
    ∑ i ∈ range num, floorShare num val capAt i ≤ val :=
  Nat.le_of_mul_le_mul_left (by rw [Nat.mul_comm _ val]; exact floorSum_mul_le val _) positive

theorem remainder_lt (positive : 0 < ∑ i ∈ range num, capAt i) :
    remainder num val capAt < num := by
  have nonempty : 0 < num := by
    rcases Nat.eq_zero_or_pos num with rfl | h
    · simp at positive
    · exact h
  have bound := @lt_floorSum_add num val capAt _ positive nonempty
  rw [Nat.mul_comm] at bound
  have := Nat.lt_of_mul_lt_mul_left bound
  unfold remainder floorShare
  omega

theorem sum_indicator (r n : Nat) :
    ∑ i ∈ range n, (if i < r then 1 else 0) = min r n := by
  induction n with
  | zero => simp
  | succ n ih => rw [sum_range_succ, ih]; split <;> omega

theorem exactShares_sum (positive : 0 < ∑ i ∈ range num, capAt i) :
    (exactShares num val capAt).sum = val := by
  have rest := remainder_lt val positive
  have floor := floorSum_le val positive
  rw [exactShares, sum_map_range, sum_add_distrib, sum_indicator, Nat.min_eq_left rest.le]
  unfold remainder
  omega

theorem share_le (positive : 0 < ∑ i ∈ range num, capAt i) {i : Nat} (member : i < num) :
    floorShare num val capAt i + (if i < remainder num val capAt then 1 else 0) ≤ val := by
  have floor := floorSum_le val positive
  have single : floorShare num val capAt i ≤ ∑ i ∈ range num, floorShare num val capAt i :=
    single_le_sum (fun _ _ => Nat.zero_le _) (mem_range.mpr member)
  unfold remainder
  split <;> omega

theorem exactShares_lt_pow {w : Nat} (positive : 0 < ∑ i ∈ range num, capAt i) (valFits : val < 2 ^ w) :
    ∀ x ∈ exactShares num val capAt, x < 2 ^ w := by
  intro x listed
  obtain ⟨i, inRange, rfl⟩ := List.mem_map.mp listed
  have := share_le val positive (List.mem_range.mp inRange)
  omega

end Shares

/-- Without u64 overflow, `calibrate` computes the floor shares exactly, the
remainder loop stays inside `ret`, and it returns the exact apportionment. -/
theorem calibrate_eq_exactShares {w num val : Nat} {capAt : Nat → Nat}
    (positive : 0 < ∑ i ∈ range num, capAt i) (sumFits : ∑ i ∈ range num, capAt i < 2 ^ 64)
    (productsFit : ∀ i < num, val * capAt i < 2 ^ 64) (valFits : val < 2 ^ w) :
    calibrate w num val capAt = .ok (exactShares num val capAt) := by
  have rest := remainder_lt val positive
  have floor := floorSum_le val positive
  have shareLe := fun i (member : i < num) => share_le val positive member
  have valSmall : val < 2 ^ 64 := by
    obtain ⟨i, member, nonzero⟩ := exists_ne_zero_of_sum_ne_zero positive.ne'
    exact lt_of_le_of_lt (Nat.le_mul_of_pos_right val (Nat.pos_of_ne_zero nonzero))
      (productsFit i (mem_range.mp member))
  have total : sumNotScaled capAt num ≠ 0 := by
    rw [sumNotScaled_eq, Nat.mod_eq_of_lt sumFits]; exact positive.ne'
  have scaled : (List.range num).map (fun i => wrap 64 (val * capAt i) / sumNotScaled capAt num) =
      (List.range num).map (floorShare num val capAt) :=
    List.map_congr_left fun i member => by
      rw [wrap_of_lt (productsFit i (List.mem_range.mp member)), sumNotScaled_eq,
        Nat.mod_eq_of_lt sumFits, floorShare]
  have truncated : ((List.range num).map (floorShare num val capAt)).map (wrap w) =
      (List.range num).map (floorShare num val capAt) := by
    rw [List.map_map]
    refine List.map_congr_left fun i member => wrap_of_lt ?_
    have := shareLe i (List.mem_range.mp member)
    omega
  have folded := @foldl_wrapSum ((List.range num).map (floorShare num val capAt)) 0 (by norm_num)
  rw [sum_map_range, Nat.zero_add, Nat.mod_eq_of_lt (by omega)] at folded
  simp only [calibrate, total, and_false, if_false, scaled, folded, truncated,
    subWrap_of_le floor valSmall]
  rw [List.range_eq_range', bumpFirst_range' _ (by simpa [remainder] using rest.le)]
  · simp [exactShares, remainder, List.range_eq_range']
  · intro i _ high
    have := shareLe i (by simp only [remainder] at rest; omega)
    simp only [remainder, Nat.zero_add] at high this
    rw [if_pos high] at this
    omega

/-- Without u64 overflow, `calibrate` returns the exact apportionment: floor
shares plus one unit for each of the first `rest` buckets, with `rest < num`
(so the remainder loop stays inside `ret`). The shares add up to `val`, and no
share exceeds `val`, so none is truncated by a `w`-bit slot. -/
theorem calibrate_apportions {w num val : Nat} {capAt : Nat → Nat}
    (positive : 0 < ∑ i ∈ range num, capAt i) (sumFits : ∑ i ∈ range num, capAt i < 2 ^ 64)
    (productsFit : ∀ i < num, val * capAt i < 2 ^ 64) (valFits : val < 2 ^ w) :
    calibrate w num val capAt = .ok (exactShares num val capAt) ∧
      remainder num val capAt < num ∧ (exactShares num val capAt).sum = val ∧
      ∀ x ∈ exactShares num val capAt, x < 2 ^ w :=
  ⟨calibrate_eq_exactShares positive sumFits productsFit valFits, remainder_lt val positive,
    exactShares_sum val positive, exactShares_lt_pow val positive valFits⟩

theorem calibrate_apportions_equal_three :
    calibrate 32 3 1024 (fun _ => 1) = .ok (exactShares 3 1024 fun _ => 1) ∧
      remainder 3 1024 (fun _ => 1) < 3 ∧ (exactShares 3 1024 fun _ => 1).sum = 1024 ∧
      ∀ x ∈ exactShares 3 1024 (fun _ => 1), x < 2 ^ 32 :=
  calibrate_apportions (by decide) (by decide) (by decide) (by decide)

/-- The remainder unit goes to the first bucket, not to the last. -/
example : calibrate32 3 1024 (fun _ => 1) = .ok [342, 341, 341] := by decide

theorem getD_exactShares {num val : Nat} {capAt : Nat → Nat} {i : Nat} (member : i < num) :
    (exactShares num val capAt).getD i 0 =
      floorShare num val capAt i + if i < remainder num val capAt then 1 else 0 := by
  simp [exactShares, List.getD_eq_getElem?_getD, member]

theorem ceil_lt_floor_add {a S e : Nat} (positive : 0 < S) (small : e ≤ 1) :
    (a + S - 1) / S < a / S + e ↔ e = 1 ∧ S ∣ a := by
  have split := Nat.div_add_mod a S
  have rest := Nat.mod_lt a positive
  rw [Nat.div_lt_iff_lt_mul positive, Nat.dvd_iff_mod_eq_zero, Nat.add_mul, Nat.mul_comm (a / S)]
  constructor
  · intro below
    rcases Nat.eq_zero_or_pos e with rfl | one
    · omega
    · refine ⟨by omega, ?_⟩
      have : e * S = S := by rw [show e = 1 by omega, Nat.one_mul]
      omega
  · rintro ⟨rfl, exact⟩
    omega

/-- The share `calibrate` gives a bucket is its floor share or one unit more,
and it is above the ceiling of the exact share `val * cap / S` exactly when the
bucket is among the first `rest` and its exact share is a whole number. A
bucket of capacity 0 among the first `rest` thus gets one unit. -/
theorem calibrate_share_above_ceiling_iff {w num val : Nat} {capAt : Nat → Nat}
    (positive : 0 < ∑ i ∈ range num, capAt i) (sumFits : ∑ i ∈ range num, capAt i < 2 ^ 64)
    (productsFit : ∀ i < num, val * capAt i < 2 ^ 64) (valFits : val < 2 ^ w) {i : Nat} (member : i < num) :
    ∃ out, calibrate w num val capAt = .ok out ∧
      val * capAt i / ∑ j ∈ range num, capAt j ≤ out.getD i 0 ∧
      out.getD i 0 ≤ val * capAt i / ∑ j ∈ range num, capAt j + 1 ∧
      ((val * capAt i + ∑ j ∈ range num, capAt j - 1) / ∑ j ∈ range num, capAt j < out.getD i 0 ↔
        i < remainder num val capAt ∧ (∑ j ∈ range num, capAt j) ∣ val * capAt i) := by
  refine ⟨_, calibrate_eq_exactShares positive sumFits productsFit valFits, ?_⟩
  rw [getD_exactShares member, floorShare, ceil_lt_floor_add positive (by split <;> omega)]
  refine ⟨by omega, by split <;> omega, ?_⟩
  split <;> simp_all

/-- The capacities `[0, 1, 1]` and a budget of 1: bucket 0, of capacity 0, gets the unit. -/
theorem calibrate_zero_capacity_gets_unit :
    ∃ out, calibrate 32 3 1 (fun i => [0, 1, 1].getD i 0) = .ok out ∧
      1 * [0, 1, 1].getD 0 0 / ∑ j ∈ range 3, [0, 1, 1].getD j 0 ≤ out.getD 0 0 ∧
      out.getD 0 0 ≤ 1 * [0, 1, 1].getD 0 0 / ∑ j ∈ range 3, [0, 1, 1].getD j 0 + 1 ∧
      ((1 * [0, 1, 1].getD 0 0 + ∑ j ∈ range 3, [0, 1, 1].getD j 0 - 1) / ∑ j ∈ range 3, [0, 1, 1].getD j 0 <
          out.getD 0 0 ↔
        0 < remainder 3 1 (fun i => [0, 1, 1].getD i 0) ∧
          (∑ j ∈ range 3, [0, 1, 1].getD j 0) ∣ 1 * [0, 1, 1].getD 0 0) :=
  calibrate_share_above_ceiling_iff (by decide) (by decide) (by decide) (by decide) (by decide)

/-- Capacities `[3, 1, 1, 1]` and a budget of 1024: bucket 0's exact share is
the whole number 512, and it gets 513. -/
theorem calibrate_whole_share_gets_unit :
    calibrate32 4 1024 (fun i => [3, 1, 1, 1].getD i 0) = .ok [513, 171, 170, 170] ∧
      (1024 * [3, 1, 1, 1].getD 0 0 + ∑ j ∈ range 4, [3, 1, 1, 1].getD j 0 - 1) /
        ∑ j ∈ range 4, [3, 1, 1, 1].getD j 0 < 513 := by
  decide

/-- In `check_space` as in the system table: the capacity-0 bucket 0 gets one
unit of the occupied space and one slot. -/
example : calibrate64 3 1 (fun i => [0, 1, 1].getD i 0) = .ok [1, 0, 0] ∧
    calibrate32 3 1 (fun i => [0, 1, 1].getD i 0) = .ok [1, 0, 0] := by decide

/-- A larger bucket after a smaller one with the same floor share gets one unit less. -/
theorem calibrate_larger_bucket_fewer_units :
    calibrate32 3 1024 (fun i => [1000, 1001, 1000].getD i 0) = .ok [342, 341, 341] := by decide

/-- `calibrate` is monotone in capacity up to the one remainder unit: a bucket
of no smaller capacity gets at most one unit less, and none less when it comes
first. -/
theorem calibrate_monotone_up_to_one {w num val : Nat} {capAt : Nat → Nat}
    (positive : 0 < ∑ i ∈ range num, capAt i) (sumFits : ∑ i ∈ range num, capAt i < 2 ^ 64)
    (productsFit : ∀ i < num, val * capAt i < 2 ^ 64) (valFits : val < 2 ^ w) {i j : Nat}
    (iMember : i < num) (jMember : j < num) (larger : capAt j ≤ capAt i) :
    ∃ out, calibrate w num val capAt = .ok out ∧ out.getD j 0 ≤ out.getD i 0 + 1 ∧
      (i < j → out.getD j 0 ≤ out.getD i 0) := by
  have floors : floorShare num val capAt j ≤ floorShare num val capAt i :=
    Nat.div_le_div_right (Nat.mul_le_mul_left val larger)
  refine ⟨_, calibrate_eq_exactShares positive sumFits productsFit valFits, ?_⟩
  rw [getD_exactShares iMember, getD_exactShares jMember]
  split <;> split <;> exact ⟨by omega, fun _ => by omega⟩

/-- The capacities `[1000, 1001, 1000]` with a budget of 1024: bucket 1 gets
one unit less than bucket 0. -/
theorem calibrate_monotone_three_buckets :
    ∃ out, calibrate 32 3 1024 (fun i => [1000, 1001, 1000].getD i 0) = .ok out ∧
      out.getD 0 0 ≤ out.getD 1 0 + 1 ∧ (1 < 0 → out.getD 0 0 ≤ out.getD 1 0) :=
  calibrate_monotone_up_to_one (by decide) (by decide) (by decide) (by decide) (by decide) (by decide)
    (by decide)

end Reiser4Volume.Fsx32
