import Reiser4Volume.Fsx32.Lookup
import Reiser4Volume.Fsx32.Relabel

/-! The relocation branch of `balance_spl` (fsx32.c), taken when the buckets
do not divide the slots evenly (`num_exc = nums % numb ≠ 0`): the excess of
the first `num_exc` buckets is computed, the table stretched, the weights
scaled and the fibers rebuilt from the stretched table by `replace_fibers`;
then the donors' tails are gathered into `reloc` and distributed to the
recipients by the counts in `sho = exc + num_exc`. Each loop is given in
closed form, and the run is followed to where it reads `sho[0]`, which the
source computes from bucket 0's weights. -/

namespace Reiser4Volume.Fsx32

section Fill

variable {α : Type} {n m : Nat} {v g : Nat → α}

/-- An array of `n` entries after a loop has written `v i` at each index
`i < m` of an array that held `g`. -/
def filledTo (n : Nat) (v g : Nat → α) (m : Nat) : List α :=
  (List.range n).map fun s => if s < m then v s else g s

@[simp] theorem length_filledTo : (filledTo n v g m).length = n := by
  simp [filledTo]

theorem filledTo_full (le : n ≤ m) : filledTo n v g m = (List.range n).map v :=
  List.map_congr_left fun s member => if_pos (by have := List.mem_range.mp member; omega)

theorem readAt_filledTo {i : Nat} (inside : i < n) : readAt (filledTo n v g m) i = .ok (if i < m then v i else g i) := by
  simp [filledTo, inside]

theorem writeAt_filledTo (inside : m < n) : writeAt (filledTo n v g m) m (v m) = .ok (filledTo n v g (m + 1)) := by
  rw [writeAt_of_lt (by simpa using inside)]
  refine congrArg Except.ok (List.ext_getElem (by simp) fun s _ _ => ?_)
  simp only [filledTo, List.getElem_set, List.getElem_map, List.getElem_range]
  split_ifs <;> first | rfl | omega | (subst_vars; rfl)

end Fill

section Excess

variable {oldWeights newWeights : List Nat} {factor numExc numb : Nat}

/-- What the two loops of `balance_spl` store in `exc`: at a donor `i <
num_exc` its excess `factor * old_weights[i] - new_weights[i]`, and at
`sho[i] = exc[num_exc + i]` the difference `new_weights[i] - factor *
old_weights[i]` of bucket `i`, all in u32. -/
def splExcess (oldWeights newWeights : List Nat) (factor numExc s : Nat) : Nat :=
  if s < numExc then subWrap 32 (wrap 32 (factor * oldWeights.getD s 0)) (newWeights.getD s 0)
  else subWrap 32 (newWeights.getD (s - numExc) 0) (wrap 32 (factor * oldWeights.getD (s - numExc) 0))

theorem donorExcess_closed (sizedOld : oldWeights.length = numb) (sizedNew : newWeights.length = numb)
    (fewer : numExc ≤ numb) :
    forLoop (donorExcess oldWeights newWeights factor) 0 numExc (List.replicate numb 0) =
      .ok (filledTo numb (splExcess oldWeights newWeights factor numExc) (fun _ => 0) numExc) := by
  have start : List.replicate numb 0 = filledTo numb (splExcess oldWeights newWeights factor numExc) (fun _ => 0) 0 := by
    simp [filledTo, List.map_const']
  have run := @forLoop_closed _ (donorExcess oldWeights newWeights factor)
    (filledTo numb (splExcess oldWeights newWeights factor numExc) (fun _ => 0)) 0 numExc fun i _ below => by
      simp only [donorExcess, readAt_of_lt (show i < oldWeights.length by omega),
        readAt_of_lt (show i < newWeights.length by omega), ok_bind, ← List.getD_eq_getElem _ 0 (show i < oldWeights.length by omega),
        ← List.getD_eq_getElem _ 0 (show i < newWeights.length by omega)]
      have := @writeAt_filledTo _ numb i (splExcess oldWeights newWeights factor numExc) (fun _ => 0) (by omega)
      simpa only [splExcess, if_pos (show i < numExc by omega)] using this
  rwa [← start, Nat.zero_add] at run

theorem recipientShortage_closed (sizedOld : oldWeights.length = numb) (sizedNew : newWeights.length = numb)
    (fewer : numExc ≤ numb) :
    forLoop (recipientShortage oldWeights newWeights factor numExc) 0 (numb - numExc)
        (filledTo numb (splExcess oldWeights newWeights factor numExc) (fun _ => 0) numExc) =
      .ok ((List.range numb).map (splExcess oldWeights newWeights factor numExc)) := by
  have run := @forLoop_closed _ (recipientShortage oldWeights newWeights factor numExc)
    (fun i => filledTo numb (splExcess oldWeights newWeights factor numExc) (fun _ => 0) (numExc + i)) 0 (numb - numExc)
    fun i _ below => by
      simp only [recipientShortage, readAt_of_lt (show i < oldWeights.length by omega),
        readAt_of_lt (show i < newWeights.length by omega), ok_bind, ← List.getD_eq_getElem _ 0 (show i < oldWeights.length by omega),
        ← List.getD_eq_getElem _ 0 (show i < newWeights.length by omega)]
      have := @writeAt_filledTo _ numb (numExc + i) (splExcess oldWeights newWeights factor numExc) (fun _ => 0) (by omega)
      simpa only [splExcess, if_neg (show ¬(numExc + i < numExc) by omega), Nat.add_sub_cancel_left] using this
  simpa only [Nat.add_zero, Nat.zero_add, Nat.add_sub_cancel' fewer, filledTo_full le_rfl] using run

theorem scale_closed {ws : List Nat} {factor n : Nat} (sized : ws.length = n) :
    forLoop (fun i ws => do
        let old ← readAt ws i
        writeAt ws i (wrap 32 (old * factor))) 0 n ws =
      .ok (ws.map fun x => wrap 32 (x * factor)) := by
  have run := @forLoop_closed _ (fun i ws => do
        let old ← readAt ws i
        writeAt ws i (wrap 32 (old * factor)))
    (filledTo n (fun s => wrap 32 (ws.getD s 0 * factor)) (ws.getD · 0)) 0 n fun i _ below => by
      simp only [readAt_filledTo (show i < n by omega), if_neg (Nat.lt_irrefl i), ok_bind]
      exact writeAt_filledTo (by omega)
  have start : filledTo n (fun s => wrap 32 (ws.getD s 0 * factor)) (ws.getD · 0) 0 = ws := by
    simp only [filledTo, Nat.not_lt_zero, if_false, ← sized, map_range_getD]
  rw [start, Nat.zero_add, filledTo_full le_rfl] at run
  rw [run, ← sized]
  conv_rhs => rw [← map_range_getD ws]
  rw [List.map_map]
  rfl

end Excess

section Stretched

variable {ops : BucketOps} {tab : List UInt32} {factor : Nat}

theorem getD_stretched (positive : 0 < factor) (s : Nat) :
    (stretched tab factor).getD s 0 = tab.getD (s / factor) 0 := by
  simp only [List.getD_eq_getElem?_getD, getElem?_stretched _ positive]

theorem length_slotsOf_stretched (positive : 0 < factor) (k n : Nat) :
    (slotsOf ops (stretched tab factor) k (n * factor)).length = factor * (slotsOf ops tab k n).length := by
  induction n with
  | zero => simp [slotsOf]
  | succ n ih =>
    have block : (((List.range factor).map (n * factor + ·)).filter
        fun s => ops.owner ((stretched tab factor).getD s 0) = k).length =
        if ops.owner (tab.getD n 0) = k then factor else 0 := by
      rw [List.filter_map, List.length_map]
      have same : ∀ j ∈ List.range factor, decide (ops.owner ((stretched tab factor).getD (n * factor + j) 0) = k) =
          decide (ops.owner (tab.getD n 0) = k) := fun j member => by
        rw [getD_stretched positive, Nat.mul_comm, Nat.mul_add_div positive,
          Nat.div_eq_of_lt (List.mem_range.mp member), Nat.add_zero]
      rw [Function.comp_def, List.filter_congr same]
      split_ifs with mine <;> simp only [mine, decide_True, decide_False, List.filter_true, List.filter_false,
        List.length_range, List.length_nil]
    rw [Nat.succ_mul, slotsOf, List.range_add, List.filter_append, List.length_append, ← slotsOf, ih, block,
      slotsOf_succ, List.length_append]
    split_ifs <;> simp [Nat.mul_succ]

theorem countsUpTo_stretched (positive : 0 < factor) (numb n : Nat) :
    countsUpTo ops (stretched tab factor) numb (n * factor) = (countsUpTo ops tab numb n).map (· * factor) := by
  simp only [countsUpTo, List.map_map, Function.comp_def, length_slotsOf_stretched positive, Nat.mul_comm factor]

theorem owner_stretched_lt {numb : Nat} (positive : 0 < factor)
    (owned : ∀ s < tab.length, ops.owner (tab.getD s 0) < numb) {s : Nat} (inside : s < (stretched tab factor).length) :
    ops.owner ((stretched tab factor).getD s 0) < numb := by
  rw [getD_stretched positive]
  exact owned _ (by rw [length_stretched, Nat.mul_comm] at inside; exact Nat.div_lt_of_lt_mul inside)

theorem scaled_countsUpTo {numb : Nat} (positive : 0 < factor) (fits : tab.length * factor < 2 ^ 32) :
    (countsUpTo ops tab numb tab.length).map (fun x => wrap 32 (x * factor)) =
      countsUpTo ops (stretched tab factor) numb (stretched tab factor).length := by
  rw [length_stretched, countsUpTo_stretched positive]
  refine List.map_congr_left fun x member => wrap_of_lt ?_
  obtain ⟨k, -, rfl⟩ := List.mem_map.mp member
  exact Nat.lt_of_le_of_lt (Nat.mul_le_mul_right factor (slotsOf_length_le k tab.length)) fits

end Stretched

section Create

variable {ops : BucketOps} {T : List UInt32} {numb : Nat}

theorem slotsOf_of_le {k n : Nat} (owned : ∀ s < n, ops.owner (T.getD s 0) < numb) (above : numb ≤ k) :
    slotsOf ops T k n = [] :=
  List.filter_eq_nil_iff.mpr fun s member => by
    have := owned s (List.mem_range.mp member)
    simp only [decide_eq_true_eq]
    omega

/-- `create_fibers` with weights that count the table's slots, every
allocation succeeding: bucket `k < numb` gets the ascending list of its slots,
the weights come back as they were, and the other fibers are untouched. -/
theorem createFibers_counted {numsBits : Nat} {w : World} (small : numsBits < 32)
    (sizedTab : T.length = 2 ^ numsBits) (owned : ∀ s < T.length, ops.owner (T.getD s 0) < numb)
    (everyAllocation : w.alloc = []) :
    createFibers ops numsBits T numb (countsUpTo ops T numb T.length) w =
      .ok (0, countsUpTo ops T numb T.length,
        { w with fibers := fun k => if k < numb then some (slotsOf ops T k T.length) else w.fibers k }) := by
  have allocated := @allocFibers_succeeds (countsUpTo ops T numb T.length) 0 numb (by simp [countsUpTo]) w.fibers
  have filled := @initFibersByTab_eq ops T
    (fun k => if 0 ≤ k ∧ k < 0 + numb then some (List.replicate ((countsUpTo ops T numb T.length).getD k 0) 0)
      else w.fibers k) numb numsBits (countsUpTo ops T numb T.length) small sizedTab (by simp [countsUpTo])
    (fun s inside => List.getD_eq_getElem T 0 inside ▸ owned s inside)
    fun k below => ⟨_, if_pos ⟨Nat.zero_le k, by omega⟩, by rw [List.length_replicate, getD_countsUpTo below, sizedTab]⟩
  have rebuilt : fibersUpTo ops T (fun k => if 0 ≤ k ∧ k < 0 + numb then
      some (List.replicate ((countsUpTo ops T numb T.length).getD k 0) 0) else w.fibers k) T.length =
      fun k => if k < numb then some (slotsOf ops T k T.length) else w.fibers k := by
    funext k
    by_cases below : k < numb
    · simp only [fibersUpTo, Nat.zero_le, true_and, Nat.zero_add, below, if_true, getD_countsUpTo below,
        Option.map_some', List.drop_replicate, Nat.sub_self, List.replicate_zero, List.append_nil]
    · simp [fibersUpTo, below, slotsOf_of_le owned (Nat.not_lt.mp below)]
  rw [← sizedTab, rebuilt] at filled
  simp only [createFibers, everyAllocation, allocated, ok_bind, Bool.not_true, Bool.false_eq_true, if_false, filled]
  rfl

end Create

section Gather

variable {fibers : Fibers} {newWeights exc : List Nat} {N : Nat}

theorem gatherTail_ok {i : Nat} {fib : List Nat} (present : fibers i = some fib) (inside : i < newWeights.length)
    (counted : i < exc.length) (tail : newWeights[i] + exc[i] ≤ fib.length) (small : fib.length < 2 ^ 32)
    (slots : ∀ x ∈ fib, x < N) {reloc : List Nat} {k : Nat} (room : k + exc[i] ≤ reloc.length)
    (short : reloc.length < 2 ^ 32) (entries : ∀ x ∈ reloc, x < N) :
    ∃ reloc', gatherTail fibers newWeights exc i (reloc, k) = .ok (reloc', k + exc[i]) ∧
      reloc'.length = reloc.length ∧ ∀ x ∈ reloc', x < N := by
  obtain ⟨⟨reloc', k'⟩, run, rfl, sized, within⟩ := @forLoop_ok _ (fun j (st : List Nat × Nat) => do
      let fib ← fiberAt fibers i
      let base ← readAt newWeights i
      let slot ← readAt fib (wrap 32 (base + j))
      let reloc ← writeAt st.1 st.2 slot
      pure (reloc, wrap 32 (st.2 + 1)))
    (fun j (st : List Nat × Nat) => st.2 = k + j ∧ st.1.length = reloc.length ∧ ∀ x ∈ st.1, x < N) 0 exc[i]
    (fun j ⟨r, k'⟩ _ below ⟨atK, sized, within⟩ => by
      dsimp only at atK sized within below ⊢
      subst atK
      have inFib : newWeights[i] + j < fib.length := by omega
      refine ⟨(r.set (k + j) fib[newWeights[i] + j], k + (j + 1)), ?_, rfl, by simpa using sized, fun x member => ?_⟩
      · simp only [fiberAt_some present, readAt_of_lt inside, wrap_of_lt (show newWeights[i] + j < 2 ^ 32 by omega),
          readAt_of_lt inFib, writeAt_of_lt (show k + j < r.length by omega), ok_bind,
          wrap_of_lt (show k + j + 1 < 2 ^ 32 by omega)]
        rfl
      · rcases List.mem_or_eq_of_mem_set member with old | rfl
        · exact within x old
        · exact slots _ (List.getElem_mem inFib))
    _ (show (reloc, k).2 = k + 0 ∧ _ from ⟨rfl, rfl, entries⟩)
  simp only [gatherTail, readAt_of_lt counted, ok_bind]
  exact ⟨reloc', by simpa using run, sized, within⟩

theorem gather_ok {numExc : Nat} (weighed : numExc ≤ newWeights.length) (counted : numExc ≤ exc.length)
    (donors : ∀ i < numExc, ∃ fib, fibers i = some fib ∧ newWeights.getD i 0 + exc.getD i 0 ≤ fib.length ∧
      fib.length < 2 ^ 32 ∧ ∀ x ∈ fib, x < N)
    {reloc : List Nat} (room : (exc.take numExc).sum ≤ reloc.length) (short : reloc.length < 2 ^ 32)
    (entries : ∀ x ∈ reloc, x < N) :
    ∃ reloc', forLoop (gatherTail fibers newWeights exc) 0 numExc (reloc, 0) = .ok (reloc', (exc.take numExc).sum) ∧
      reloc'.length = reloc.length ∧ ∀ x ∈ reloc', x < N := by
  obtain ⟨⟨reloc', k⟩, run, atK, sized, within⟩ := @forLoop_ok _ (gatherTail fibers newWeights exc)
    (fun i (st : List Nat × Nat) => st.2 = (exc.take i).sum ∧ st.1.length = reloc.length ∧ ∀ x ∈ st.1, x < N) 0 numExc
    (fun i ⟨r, k⟩ _ below ⟨atK, sized, within⟩ => by
      dsimp only at atK sized within below ⊢
      obtain ⟨fib, present, tail, small, slots⟩ := donors i (by omega)
      have inside : i < newWeights.length := by omega
      have inExc : i < exc.length := by omega
      have upTo := List.sum_take_succ exc i inExc
      have prefixSum := (List.take_sublist_take_left exc (show i + 1 ≤ numExc by omega)).sum_le_sum
        fun _ _ => Nat.zero_le _
      rw [List.getD_eq_getElem _ _ inside, List.getD_eq_getElem _ _ inExc] at tail
      obtain ⟨r', run, sized', within'⟩ := gatherTail_ok present inside inExc tail small slots
        (show k + exc[i] ≤ r.length by omega) (by omega) within
      exact ⟨(r', k + exc[i]), run, by rw [upTo, atK], sized'.trans sized, within'⟩)
    (reloc, 0) ⟨rfl, rfl, entries⟩
  dsimp only at atK sized within
  rw [Nat.zero_add] at atK
  exact ⟨reloc', by rw [run, atK], sized, within⟩

theorem relocCount_eq {numExc : Nat} (inside : numExc ≤ exc.length) (small : (exc.take numExc).sum < 2 ^ 32) :
    relocCount exc numExc = .ok (exc.take numExc).sum := by
  have run := @forLoop_closed _ (fun i sum => do
      let e ← readAt exc i
      pure (wrap 32 (sum + e))) (fun i => (exc.take i).sum) 0 numExc fun i _ below => by
    have upTo := List.sum_take_succ exc i (by omega)
    have prefixSum := (List.take_sublist_take_left exc (show i + 1 ≤ numExc by omega)).sum_le_sum
      fun _ _ => Nat.zero_le _
    simp only [readAt_of_lt (show i < exc.length by omega), ok_bind, upTo, wrap_of_lt (show
      (exc.take i).sum + exc[i] < 2 ^ 32 by omega)]
    rfl
  simpa only [relocCount, Nat.zero_add, List.take_zero, List.sum_nil] using run

end Gather

section Relocate

variable {ops : BucketOps} {numb numsBits factBits : Nat} {tab : List UInt32} {oldWeights newWeights : List Nat}
  {w : World}

theorem distributeTo_eq_handOut (reloc exc : List Nat) (numExc i : Nat) :
    distributeTo ops reloc exc numExc i = handOut ops reloc exc (numExc + i) := rfl

theorem splExcess_donor {factor numExc i : Nat} (donor : i < numExc) (fits : factor * oldWeights.getD i 0 < 2 ^ 32)
    (shrinks : newWeights.getD i 0 ≤ factor * oldWeights.getD i 0) :
    splExcess oldWeights newWeights factor numExc i = factor * oldWeights.getD i 0 - newWeights.getD i 0 := by
  rw [splExcess, if_pos donor, wrap_of_lt fits, subWrap_of_le shrinks fits]

theorem splExcess_first_recipient {factor numExc : Nat} (fits : factor * oldWeights.getD 0 0 < 2 ^ 32)
    (gives : newWeights.getD 0 0 < factor * oldWeights.getD 0 0) :
    splExcess oldWeights newWeights factor numExc numExc =
      2 ^ 32 - (factor * oldWeights.getD 0 0 - newWeights.getD 0 0) := by
  rw [splExcess, if_neg (Nat.lt_irrefl _), Nat.sub_self, wrap_of_lt fits, subWrap_of_lt gives fits]

theorem getD_map_range (g : Nat → Nat) {i n : Nat} (inside : i < n) : ((List.range n).map g).getD i 0 = g i := by
  simp [inside]

theorem sum_take_map_range (g : Nat → Nat) {m n : Nat} (le : m ≤ n) :
    (((List.range n).map g).take m).sum = ∑ i ∈ Finset.range m, g i := by
  rw [← List.map_take, List.take_range, Nat.min_eq_left le, sum_map_range]

theorem sum_splExcess_le {factor numExc total : Nat} (fewer : numExc ≤ numb)
    (donors : ∀ i < numExc, splExcess oldWeights newWeights factor numExc i ≤ factor * oldWeights.getD i 0)
    (oldSum : ∑ i ∈ Finset.range numb, oldWeights.getD i 0 = total) :
    (List.take numExc ((List.range numb).map (splExcess oldWeights newWeights factor numExc))).sum ≤ factor * total := by
  rw [sum_take_map_range _ fewer]
  calc ∑ i ∈ Finset.range numExc, splExcess oldWeights newWeights factor numExc i
      ≤ ∑ i ∈ Finset.range numExc, factor * oldWeights.getD i 0 :=
        Finset.sum_le_sum fun i donor => donors i (Finset.mem_range.mp donor)
    _ ≤ ∑ i ∈ Finset.range numb, factor * oldWeights.getD i 0 :=
        Finset.sum_le_sum_of_subset (Finset.range_subset.mpr fewer)
    _ = factor * total := by rw [← Finset.mul_sum, oldSum]

theorem balanceSpl_first_donor_fault (small : numsBits + factBits ≤ maxShift) (sized : tab.length = 2 ^ numsBits)
    (owned : ∀ s < tab.length, ops.owner (tab.getD s 0) < numb)
    (counted : oldWeights = countsUpTo ops tab numb tab.length)
    (uneven : 2 ^ numsBits % numb ≠ 0) (sizedNew : newWeights.length = numb)
    (donorsShrink : ∀ i < 2 ^ numsBits % numb, newWeights.getD i 0 ≤ 2 ^ factBits * oldWeights.getD i 0)
    (gives : newWeights.getD 0 0 < 2 ^ factBits * oldWeights.getD 0 0)
    (shared : oldWeights.getD 0 0 < 2 ^ numsBits)
    (everyAllocation : w.alloc = []) :
    balanceSpl ops numb numsBits (some tab) oldWeights newWeights factBits w = .error .outOfBounds := by
  simp only [maxShift] at small
  have nonempty : numb ≠ 0 := fun none => by
    have := owned 0 (by rw [sized]; exact Nat.two_pow_pos _)
    omega
  have sizedOld : oldWeights.length = numb := by rw [counted]; simp [countsUpTo]
  have fewer : 2 ^ numsBits % numb < numb := Nat.mod_lt _ (by omega)
  have positive : 0 < 2 ^ factBits := Nat.two_pow_pos _
  have fitsAll : 2 ^ factBits * 2 ^ numsBits ≤ 2 ^ 31 := by
    rw [← Nat.pow_add]; exact Nat.pow_le_pow_right (by norm_num) (by omega)
  have oldAt : ∀ i < numb, oldWeights.getD i 0 = (slotsOf ops tab i tab.length).length := fun i below => by
    rw [counted, getD_countsUpTo below]
  have oldLe : ∀ i < numb, oldWeights.getD i 0 ≤ 2 ^ numsBits := fun i below => by
    rw [oldAt i below, ← sized]; exact slotsOf_length_le _ _
  have oldSum : ∑ i ∈ Finset.range numb, oldWeights.getD i 0 = 2 ^ numsBits := by
    rw [← sum_map_range, ← sizedOld, map_range_getD, counted, sum_countsUpTo owned, sized]
  have stretch₁ := @stretch_eq tab (2 ^ factBits) (by rw [sized, Nat.mul_comm]; omega)
  rw [sized] at stretch₁
  have lenT : (stretched tab (2 ^ factBits)).length = 2 ^ (numsBits + factBits) := by
    rw [length_stretched, sized, Nat.pow_add]
  have scaled : oldWeights.map (fun x => wrap 32 (x * 2 ^ factBits)) =
      countsUpTo ops (stretched tab (2 ^ factBits)) numb (stretched tab (2 ^ factBits)).length := by
    rw [counted]; exact scaled_countsUpTo positive (by rw [sized, Nat.mul_comm]; omega)
  have fibers := @createFibers_counted ops (stretched tab (2 ^ factBits)) numb (numsBits + factBits)
    { { w with alloc := [] } with fibers := releaseFibers numb w.fibers } (by omega) lenT
    (fun _ inside => owner_stretched_lt positive owned inside) rfl
  dsimp only at fibers
  have excDonor : ∀ i < 2 ^ numsBits % numb, splExcess oldWeights newWeights (2 ^ factBits) (2 ^ numsBits % numb) i =
      2 ^ factBits * oldWeights.getD i 0 - newWeights.getD i 0 := fun i donor =>
    splExcess_donor donor (by have := Nat.mul_le_mul_left (2 ^ factBits) (oldLe i (by omega)); omega)
      (donorsShrink i donor)
  have excSum := @sum_splExcess_le numb oldWeights newWeights (2 ^ factBits) (2 ^ numsBits % numb) (2 ^ numsBits)
    fewer.le (fun i donor => by rw [excDonor i donor]; omega) oldSum
  have first := @splExcess_first_recipient oldWeights newWeights (2 ^ factBits) (2 ^ numsBits % numb)
    (by have := Nat.mul_le_mul_left (2 ^ factBits) shared.le; omega) gives
  have fitsT : (stretched tab (2 ^ factBits)).length ≤ 2 ^ 31 := by
    rw [lenT]; exact Nat.pow_le_pow_right (by norm_num) small
  have giveLe : 2 ^ factBits * oldWeights.getD 0 0 < 2 ^ factBits * 2 ^ numsBits := (Nat.mul_lt_mul_left positive).mpr shared
  obtain ⟨reloc, gathered, relocLen, relocIn⟩ := @gather_ok
    (fun k => if k < numb then some (slotsOf ops (stretched tab (2 ^ factBits)) k (stretched tab (2 ^ factBits)).length)
      else releaseFibers numb w.fibers k) newWeights
    ((List.range numb).map (splExcess oldWeights newWeights (2 ^ factBits) (2 ^ numsBits % numb)))
    (stretched tab (2 ^ factBits)).length (2 ^ numsBits % numb) (by omega)
    (by simp only [List.length_map, List.length_range]; omega)
    (fun i donor => ⟨_, if_pos (by omega), by
      rw [length_stretched, length_slotsOf_stretched positive, ← oldAt i (by omega), getD_map_range _ (by omega),
        excDonor i donor]
      have := donorsShrink i donor
      omega, by have := @slotsOf_length_le ops (stretched tab (2 ^ factBits)) i (stretched tab (2 ^ factBits)).length
                omega, fun x member => (mem_slotsOf.mp member).1⟩)
    (List.replicate (List.take (2 ^ numsBits % numb)
      ((List.range numb).map (splExcess oldWeights newWeights (2 ^ factBits) (2 ^ numsBits % numb)))).sum 0)
    (List.length_replicate _ _).ge (by rw [List.length_replicate]; omega)
    fun x member => by rw [List.eq_of_mem_replicate member, lenT]; exact Nat.two_pow_pos _
  simp only [balanceSpl, shl1_of_lt (show numsBits < 32 by omega), shl1_of_lt (show factBits < 32 by omega),
    nonempty, if_false, uneven, everyAllocation, allocNext_nil, ok_bind, Bool.not_true, Bool.false_eq_true,
    donorExcess_closed sizedOld sizedNew fewer.le, recipientShortage_closed sizedOld sizedNew fewer.le, pure_bind,
    wrap_of_lt (show 2 ^ numsBits * 2 ^ factBits < 2 ^ 32 by rw [Nat.mul_comm]; omega), stretch₁, scale_closed sizedOld, scaled,
    replaceFibers, fibers, @relocCount_eq ((List.range numb).map
      (splExcess oldWeights newWeights (2 ^ factBits) (2 ^ numsBits % numb))) (2 ^ numsBits % numb)
      (by simp only [List.length_map, List.length_range]; omega) (by omega), ne_eq, not_true_eq_false, gathered]
  obtain ⟨rest, more⟩ : ∃ rest, numb - 2 ^ numsBits % numb = rest + 1 := ⟨numb - 2 ^ numsBits % numb - 1, by omega⟩
  rw [more, forLoop_succ, distributeTo_eq_handOut, handOut_past_source relocIn
    (by simp only [List.length_map, List.length_range]; omega) (Nat.zero_le _)
    (by simp only [List.getElem_map, List.getElem_range, Nat.add_zero, first, relocLen, List.length_replicate]; omega)
    (by rw [relocLen, List.length_replicate]; omega)]
  rfl

/-- `spl_fsx32` on a volume whose `nums % numb` is not 0, with a table whose
weights count its slots and every allocation succeeding: when bucket 0 must
give slots up to reach its new weight (and does not own the whole table), the
call ends in an out-of-bounds read, past the end of `reloc`. -/
theorem splFsx32_first_donor_reads_past_reloc {factBits : Nat} {w : World} {tab : List UInt32}
    {newWeights : List Nat} (small : w.numsBits + factBits ≤ maxShift) (present : w.tab = some tab)
    (sized : tab.length = 2 ^ w.numsBits) (owned : ∀ s < tab.length, ops.owner (tab.getD s 0) < w.numb)
    (counted : w.weights = countsUpTo ops tab w.numb tab.length) (uneven : 2 ^ w.numsBits % w.numb ≠ 0)
    (calibrated : calibrate32 w.numb (2 ^ (w.numsBits + factBits)) ops.capAt = .ok newWeights)
    (donorsShrink : ∀ i < 2 ^ w.numsBits % w.numb, newWeights.getD i 0 ≤ 2 ^ factBits * w.weights.getD i 0)
    (gives : newWeights.getD 0 0 < 2 ^ factBits * w.weights.getD 0 0) (shared : w.weights.getD 0 0 < 2 ^ w.numsBits)
    (everyAllocation : w.alloc = []) :
    splFsx32 ops factBits w = .error .outOfBounds := by
  have bits : wrap 32 (w.numsBits + factBits) = w.numsBits + factBits :=
    wrap_of_lt (by simp only [maxShift] at small; omega)
  have fault : balanceSpl ops w.numb w.numsBits (some tab) w.weights newWeights factBits
      { w with tab := some tab, alloc := [] } = .error .outOfBounds :=
    balanceSpl_first_donor_fault small sized owned counted uneven (length_calibrate calibrated) donorsShrink gives
      shared rfl
  simp only [splFsx32, bits, Nat.not_lt.mpr small, if_false, shl1_of_lt (show w.numsBits + factBits < 32 by
      simp only [maxShift] at small; omega), ok_bind, everyAllocation, allocNext_nil, calibrated, present, pure_bind,
    fault, error_bind]

/-- Three equal bricks on a four-slot table, split once: bucket 0 goes from 2
slots to 4 stretched ones with a new weight of 3, `sho[0] = 3 - 4` wraps, and
the distribution reads past the one-entry `reloc`. -/
theorem splFsx32_first_donor_three_bricks :
    splFsx32 ⟨fun _ => 1, id, id⟩ 1 ⟨3, 2, [2, 1, 1], some [0, 0, 1, 2], fun _ => none, []⟩ = .error .outOfBounds :=
  @splFsx32_first_donor_reads_past_reloc ⟨fun _ => 1, id, id⟩ 1 ⟨3, 2, [2, 1, 1], some [0, 0, 1, 2], fun _ => none, []⟩
    [0, 0, 1, 2] [3, 3, 2] (by decide) rfl rfl (by decide) (by decide) (by decide) (by decide) (by decide) (by decide)
    (by decide) rfl

end Relocate

end Reiser4Volume.Fsx32
