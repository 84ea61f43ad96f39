import Reiser4Volume.Fsx32.Relabel
import Reiser4Volume.Fsx32.Ops

/-! `balance_inc` and `inc_fsx32` on a table their fibers describe. Each
survivor keeps the first `new_weights[i]` slots of its fiber and gives the rest
to the bucket at `target_pos`; no other slot changes. When no survivor's share
rises, this is what the code computes, and the new weights count the new
table. -/

namespace Reiser4Volume.Fsx32

section Steal

variable {ops : BucketOps} {tab : List UInt32} {newWeights : List Nat} {targetPos : Nat}

/-- The slots `balance_inc` has given to `target_pos` once it has stolen from
every survivor below `i`, and from survivor `i` the first `j` slots past
position `new_weights[i]` of its fiber: those of a survivor so handled that
stand at or past its new weight in its fiber. -/
def stolenUpTo (ops : BucketOps) (tab : List UInt32) (newWeights : List Nat) (targetPos i j s : Nat) :
    Option UInt32 :=
  let k := ops.owner (tab.getD s 0)
  let rank := (slotsOf ops tab k s).length
  if k ≠ targetPos ∧ newWeights.getD k 0 ≤ rank ∧ (k < i ∨ k = i ∧ rank < newWeights.getD k 0 + j) then
    some (ops.storedId targetPos)
  else none

theorem stolenUpTo_zero : stolenUpTo ops tab newWeights targetPos 0 0 = fun _ => none := by
  funext s
  simp only [stolenUpTo]
  split_ifs <;> first | rfl | omega

theorem stolenUpTo_target (j : Nat) :
    stolenUpTo ops tab newWeights targetPos targetPos j = stolenUpTo ops tab newWeights targetPos (targetPos + 1) 0 := by
  funext s
  simp only [stolenUpTo]
  split_ifs <;> first | rfl | omega

theorem stolenUpTo_step {i j slot : Nat} (survivor : i ≠ targetPos)
    (at_slot : (slotsOf ops tab i tab.length)[newWeights.getD i 0 + j]? = some slot) :
    ∀ s < tab.length, Function.update (stolenUpTo ops tab newWeights targetPos i j) slot
      (some (ops.storedId targetPos)) s = stolenUpTo ops tab newWeights targetPos i (j + 1) s := by
  obtain ⟨-, slotOwner, slotRank⟩ := rank_of_slotsOf at_slot
  intro s lower
  by_cases here : s = slot
  · subst here
    rw [Function.update_same]
    simp only [stolenUpTo, slotOwner, slotRank]
    rw [if_pos ⟨survivor, by omega, .inr ⟨trivial, by omega⟩⟩]
  · rw [Function.update_noteq here]
    obtain ⟨k, owner⟩ : ∃ k, ops.owner (tab.getD s 0) = k := ⟨_, rfl⟩
    simp only [stolenUpTo, owner]
    by_cases mine : k = i
    · subst mine
      have other : (slotsOf ops tab k s).length ≠ newWeights.getD k 0 + j := fun same => here <| by
        have := slotsOf_rank lower owner
        rw [same, at_slot] at this
        exact (Option.some.inj this).symm
      split_ifs <;> first | rfl | omega
    · split_ifs <;> first | rfl | omega

theorem stolenUpTo_next {i : Nat} (noRise : newWeights.getD i 0 ≤ (slotsOf ops tab i tab.length).length) :
    ∀ s < tab.length, stolenUpTo ops tab newWeights targetPos i
        ((slotsOf ops tab i tab.length).length - newWeights.getD i 0) s =
      stolenUpTo ops tab newWeights targetPos (i + 1) 0 s := by
  intro s lower
  obtain ⟨k, owner⟩ : ∃ k, ops.owner (tab.getD s 0) = k := ⟨_, rfl⟩
  simp only [stolenUpTo, owner]
  by_cases mine : k = i
  · subst mine
    have := slotsOf_rank_lt lower owner
    split_ifs <;> first | rfl | omega
  · split_ifs <;> first | rfl | omega

theorem stealTail_closed {fibers : Fibers} {exc : List Nat} {i : Nat} (survivor : i ≠ targetPos)
    (small : tab.length < 2 ^ 32) (weighed : i < newWeights.length)
    (fiber : fibers i = some (slotsOf ops tab i tab.length))
    (noRise : newWeights.getD i 0 ≤ (slotsOf ops tab i tab.length).length)
    (excess : exc[i]? = some ((slotsOf ops tab i tab.length).length - newWeights.getD i 0)) :
    stealTail ops fibers newWeights exc targetPos i (relabel tab (stolenUpTo ops tab newWeights targetPos i 0)) =
      .ok (relabel tab (stolenUpTo ops tab newWeights targetPos (i + 1) 0)) := by
  have base : readAt newWeights i = .ok (newWeights.getD i 0) :=
    readAt_of_getElem? (by rw [List.getElem?_eq_getElem weighed, List.getD_eq_getElem?_getD,
      List.getElem?_eq_getElem weighed, Option.getD_some])
  have fits := @slotsOf_length_le ops tab i tab.length
  have inner := @forLoop_closed _ (fun j t => do
      let fib ← fiberAt fibers i
      let base ← readAt newWeights i
      let slot ← readAt fib (wrap 32 (base + j))
      writeAt t slot (ops.storedId targetPos))
    (fun j => relabel tab (stolenUpTo ops tab newWeights targetPos i j)) 0
    ((slotsOf ops tab i tab.length).length - newWeights.getD i 0) fun j _ below => by
      obtain ⟨slot, at_slot⟩ : ∃ slot, (slotsOf ops tab i tab.length)[newWeights.getD i 0 + j]? = some slot :=
        ⟨_, List.getElem?_eq_getElem (by omega)⟩
      simp only [fiberAt_some fiber, ok_bind, base, wrap_of_lt (show newWeights.getD i 0 + j < 2 ^ 32 by omega),
        readAt_of_getElem? at_slot, writeAt_relabel (rank_of_slotsOf at_slot).1]
      exact congrArg Except.ok (relabel_congr (stolenUpTo_step survivor at_slot))
  simp only [Nat.zero_add] at inner
  simp only [stealTail, readAt_of_getElem? excess, ok_bind, inner, relabel_congr (stolenUpTo_next noRise)]

/-- `exc` once `balance_inc` has filled its entries below `i`, `target_pos`
left at 0: each survivor's fiber length less its new weight. -/
def excessUpTo (ops : BucketOps) (tab : List UInt32) (newWeights : List Nat) (newNumb targetPos i : Nat) :
    List Nat :=
  (List.range newNumb).map fun k =>
    if k < i ∧ k ≠ targetPos then (slotsOf ops tab k tab.length).length - newWeights.getD k 0 else 0

theorem excessUpTo_zero (newNumb : Nat) :
    excessUpTo ops tab newWeights newNumb targetPos 0 = List.replicate newNumb 0 := by
  simp [excessUpTo, List.map_const']

theorem excessUpTo_target (newNumb : Nat) :
    excessUpTo ops tab newWeights newNumb targetPos (targetPos + 1) =
      excessUpTo ops tab newWeights newNumb targetPos targetPos :=
  List.map_congr_left fun k _ => by split_ifs <;> first | rfl | omega

theorem excessAt_closed {oldWeights : List Nat} {new : Bool} {newNumb i : Nat} (survivor : i ≠ targetPos)
    (inside : i < newNumb) (weighed : i < newWeights.length) (small : tab.length < 2 ^ 32)
    (counted : oldWeights[if new ∧ targetPos < i then i - 1 else i]? = some (slotsOf ops tab i tab.length).length)
    (noRise : newWeights.getD i 0 ≤ (slotsOf ops tab i tab.length).length) :
    excessAt oldWeights newWeights targetPos new i (excessUpTo ops tab newWeights newNumb targetPos i) =
      .ok (excessUpTo ops tab newWeights newNumb targetPos (i + 1)) := by
  have base : readAt newWeights i = .ok (newWeights.getD i 0) :=
    readAt_of_getElem? (by rw [List.getElem?_eq_getElem weighed, List.getD_eq_getElem?_getD,
      List.getElem?_eq_getElem weighed, Option.getD_some])
  have fits := @slotsOf_length_le ops tab i tab.length
  simp only [excessAt, readAt_of_getElem? counted, base, ok_bind, @subWrap_of_le 32 _ _ noRise (by omega),
    writeAt_of_lt (show i < (excessUpTo ops tab newWeights newNumb targetPos i).length by simpa [excessUpTo])]
  refine congrArg Except.ok (List.ext_getElem (by simp [excessUpTo]) fun k _ _ => ?_)
  simp only [excessUpTo, List.getElem_set, List.getElem_map, List.getElem_range]
  by_cases here : i = k
  · subst here; rw [if_pos rfl, if_pos ⟨Nat.lt_succ_self _, survivor⟩]
  · rw [if_neg here]; split_ifs <;> first | rfl | omega

/-- `balance_inc` on a table whose survivors' fibers list their slots and
whose old weights count them, when no survivor's share rises: it returns 0
with the tail of each survivor's fiber past its new weight given to
`target_pos`. -/
theorem balanceInc_eq {oldWeights : List Nat} {newNumb : Nat} {new : Bool} {w : World} {alloc : List Bool}
    (small : tab.length < 2 ^ 32) (target : targetPos < newNumb) (weighed : newWeights.length = newNumb)
    (fibers : ∀ i < newNumb, i ≠ targetPos → w.fibers i = some (slotsOf ops tab i tab.length))
    (counted : ∀ i < newNumb, i ≠ targetPos →
      oldWeights[if new ∧ targetPos < i then i - 1 else i]? = some (slotsOf ops tab i tab.length).length)
    (noRise : ∀ i < newNumb, i ≠ targetPos → newWeights.getD i 0 ≤ (slotsOf ops tab i tab.length).length)
    (fresh : allocNext w.alloc = (true, alloc)) :
    balanceInc ops newNumb tab oldWeights newWeights targetPos new w =
      .ok (0, relabel tab (stolenUpTo ops tab newWeights targetPos newNumb 0), { w with alloc }) := by
  have last : targetPos + 1 + (newNumb - (targetPos + 1)) = newNumb := by omega
  have excLow := @forLoop_closed _ (excessAt oldWeights newWeights targetPos new)
    (excessUpTo ops tab newWeights newNumb targetPos) 0 targetPos fun i _ below =>
      excessAt_closed (by omega) (by omega) (by omega) small (counted i (by omega) (by omega))
        (noRise i (by omega) (by omega))
  have excHigh := @forLoop_closed _ (excessAt oldWeights newWeights targetPos new)
    (excessUpTo ops tab newWeights newNumb targetPos) (targetPos + 1) (newNumb - (targetPos + 1)) fun i low below =>
      excessAt_closed (by omega) (by omega) (by omega) small (counted i (by omega) (by omega))
        (noRise i (by omega) (by omega))
  rw [excessUpTo_target, last] at excHigh
  have excess : ∀ i < newNumb, i ≠ targetPos → (excessUpTo ops tab newWeights newNumb targetPos newNumb)[i]? =
      some ((slotsOf ops tab i tab.length).length - newWeights.getD i 0) := fun i below other => by
    simp [excessUpTo, below, other]
  have stealLow := @forLoop_closed _ (stealTail ops w.fibers newWeights
      (excessUpTo ops tab newWeights newNumb targetPos newNumb) targetPos)
    (fun i => relabel tab (stolenUpTo ops tab newWeights targetPos i 0)) 0 targetPos fun i _ below =>
      stealTail_closed (by omega) small (by omega) (fibers i (by omega) (by omega)) (noRise i (by omega) (by omega))
        (excess i (by omega) (by omega))
  have stealHigh := @forLoop_closed _ (stealTail ops w.fibers newWeights
      (excessUpTo ops tab newWeights newNumb targetPos newNumb) targetPos)
    (fun i => relabel tab (stolenUpTo ops tab newWeights targetPos i 0)) (targetPos + 1)
    (newNumb - (targetPos + 1)) fun i low below =>
      stealTail_closed (by omega) small (by omega) (fibers i (by omega) (by omega)) (noRise i (by omega) (by omega))
        (excess i (by omega) (by omega))
  simp only [Nat.zero_add, stolenUpTo_zero, relabel_none, excessUpTo_zero] at excLow stealLow
  simp only [← stolenUpTo_target 0, last] at stealHigh
  simp only [balanceInc, fresh, excLow, ok_bind, excHigh, stealLow, stealHigh]
  rfl

end Steal

section Stolen

variable {ops : BucketOps} {tab : List UInt32} {newWeights : List Nat} {targetPos newNumb : Nat}

theorem getD_stolen {s : Nat} (inside : s < tab.length) :
    (relabel tab (stolenUpTo ops tab newWeights targetPos newNumb 0)).getD s 0 =
      (stolenUpTo ops tab newWeights targetPos newNumb 0 s).getD (tab.getD s 0) := by
  simp only [List.getD_eq_getElem?_getD, getElem?_relabel, List.getElem?_eq_getElem inside, Option.map_some',
    Option.getD_some]

theorem slotsOf_stolen {k : Nat} (inverse : ops.owner (ops.storedId targetPos) = targetPos)
    (below : k < newNumb) (survivor : k ≠ targetPos) :
    slotsOf ops (relabel tab (stolenUpTo ops tab newWeights targetPos newNumb 0)) k tab.length =
      (slotsOf ops tab k tab.length).take (newWeights.getD k 0) := by
  rw [take_slotsOf]
  refine List.filter_congr fun s member => ?_
  rw [getD_stolen (List.mem_range.mp member), decide_eq_decide]
  obtain ⟨k', owner⟩ : ∃ k', ops.owner (tab.getD s 0) = k' := ⟨_, rfl⟩
  simp only [stolenUpTo, owner]
  split_ifs with moved
  · rw [Option.getD_some, inverse]
    exact iff_of_false (Ne.symm survivor) fun ⟨same, early⟩ => by subst same; omega
  · rw [Option.getD_none, owner]
    exact ⟨fun same => by subst same; exact ⟨rfl, by omega⟩, And.left⟩

theorem stolen_entry {s : Nat} (inside : s < tab.length) :
    (relabel tab (stolenUpTo ops tab newWeights targetPos newNumb 0))[s]? = tab[s]? ∨
      (relabel tab (stolenUpTo ops tab newWeights targetPos newNumb 0))[s]? = some (ops.storedId targetPos) := by
  refine (relabel_entry inside).imp_right fun ⟨id, moved, entry⟩ => ?_
  simp only [stolenUpTo] at moved
  split_ifs at moved
  cases moved
  exact entry

theorem countsUpTo_stolen (inverse : ops.owner (ops.storedId targetPos) = targetPos) (target : targetPos < newNumb)
    (weighed : newWeights.length = newNumb) (apportioned : newWeights.sum = tab.length)
    (owned : ∀ s < tab.length, ops.owner (tab.getD s 0) < newNumb)
    (noRise : ∀ i < newNumb, i ≠ targetPos → newWeights.getD i 0 ≤ (slotsOf ops tab i tab.length).length) :
    newWeights = countsUpTo ops (relabel tab (stolenUpTo ops tab newWeights targetPos newNumb 0)) newNumb tab.length := by
  have survivors : ∀ k < newNumb, k ≠ targetPos →
      (slotsOf ops (relabel tab (stolenUpTo ops tab newWeights targetPos newNumb 0)) k tab.length).length =
        newWeights.getD k 0 := fun k below survivor => by
    rw [slotsOf_stolen inverse below survivor, List.length_take, Nat.min_eq_left (noRise k below survivor)]
  have total := @sum_countsUpTo ops (relabel tab (stolenUpTo ops tab newWeights targetPos newNumb 0)) tab.length
    newNumb fun s lower => by
      rw [getD_stolen lower]
      simp only [stolenUpTo]
      split_ifs
      · rw [Option.getD_some, inverse]; exact target
      · exact owned s lower
  have listed : newWeights = (List.range newNumb).map (newWeights.getD · 0) := by rw [← weighed, map_range_getD]
  have sums : ∑ k ∈ Finset.range newNumb,
      (slotsOf ops (relabel tab (stolenUpTo ops tab newWeights targetPos newNumb 0)) k tab.length).length =
        ∑ k ∈ Finset.range newNumb, newWeights.getD k 0 := by
    rw [← sum_map_range, ← sum_map_range, ← listed, apportioned]
    exact total
  refine listed.trans (List.map_congr_left fun k member => ?_)
  have below := List.mem_range.mp member
  by_cases survivor : k = targetPos
  · subst survivor
    exact (eq_of_sum_eq_of_ne below sums fun k below other => survivors k below other).symm
  · exact (survivors k below survivor).symm

theorem stolen_changed_iff (inverse : ops.owner (ops.storedId targetPos) = targetPos) {s : Nat}
    (inside : s < tab.length) :
    (relabel tab (stolenUpTo ops tab newWeights targetPos newNumb 0))[s]? ≠ tab[s]? ↔
      ops.owner ((relabel tab (stolenUpTo ops tab newWeights targetPos newNumb 0)).getD s 0) = targetPos ∧
        ops.owner (tab.getD s 0) ≠ targetPos := by
  have old : tab[s]? = some (tab.getD s 0) := by rw [List.getD_eq_getElem _ _ inside, List.getElem?_eq_getElem inside]
  rw [getElem?_relabel, old, getD_stolen inside, Option.map_some', ne_eq, Option.some.injEq]
  simp only [stolenUpTo]
  split_ifs with moved
  · rw [Option.getD_some, inverse]
    exact iff_of_true (fun same => moved.1 (by rw [← same, inverse])) ⟨rfl, moved.1⟩
  · simp only [Option.getD_none, not_true_eq_false, false_iff, not_and, not_not]
    exact fun mine => mine

end Stolen

theorem length_filter_and_not {l : List Nat} {p q : Nat → Bool} (sub : ∀ x ∈ l, q x → p x) :
    (l.filter fun x => p x && !q x).length = (l.filter p).length - (l.filter q).length := by
  have split := @List.length_eq_length_filter_add _ (l.filter p) q
  rw [List.filter_filter, List.filter_filter] at split
  have both : (l.filter fun x => q x && p x) = l.filter q :=
    List.filter_congr fun x member => by cases hq : q x <;> simp [sub x member, hq]
  have rest : (l.filter fun x => !q x && p x) = l.filter fun x => p x && !q x :=
    List.filter_congr fun x _ => Bool.and_comm _ _
  rw [both, rest] at split
  omega

section Inc

variable {ops : BucketOps} {tab : List UInt32} {targetPos : Nat} {new : Bool} {w : World}

/-- The run of `inc_fsx32` when the three allocations succeed and
`balance_inc` finds each survivor's fiber long enough. -/
theorem incFsx32_commits {newNumb : Nat} {newWeights : List Nat} {alloc₁ alloc₂ alloc₃ : List Bool}
    (grown : newNumb = if new then w.numb + 1 else w.numb) (room : ¬(new ∧ w.numb = maxBuckets))
    (small : w.numsBits < 32) (sized : tab.length = 2 ^ w.numsBits) (fits : newNumb ≤ 2 ^ w.numsBits)
    (target : targetPos < newNumb)
    (fibers : ∀ i < newNumb, i ≠ targetPos → w.fibers i = some (slotsOf ops tab i tab.length))
    (counted : ∀ i < newNumb, i ≠ targetPos →
      w.weights[if new ∧ targetPos < i then i - 1 else i]? = some (slotsOf ops tab i tab.length).length)
    (calibrated : calibrate32 newNumb (2 ^ w.numsBits) ops.capAt = .ok newWeights)
    (noRise : ∀ i < newNumb, i ≠ targetPos → newWeights.getD i 0 ≤ (slotsOf ops tab i tab.length).length)
    (fresh₁ : allocNext w.alloc = (true, alloc₁)) (fresh₂ : allocNext alloc₁ = (true, alloc₂))
    (fresh₃ : allocNext alloc₂ = (true, alloc₃)) :
    incFsx32 ops tab targetPos new w = .ok (0, commitTab { w with alloc := alloc₃ }
      (relabel tab (stolenUpTo ops tab newWeights targetPos newNumb 0)) newNumb newWeights) := by
  have limit : tab.length < 2 ^ 32 := sized ▸ Nat.pow_lt_pow_right (by norm_num) small
  have clone := @cloneSystab_of_fresh tab { w with alloc := alloc₁ } alloc₂ small (by simp [sized]) fresh₂
  rw [List.take_of_length_le (by simp [sized])] at clone
  have balanced := @balanceInc_eq ops tab newWeights targetPos w.weights newNumb new
    { w with tab := some tab, alloc := alloc₂ } alloc₃ limit target (length_calibrate calibrated) fibers counted
    noRise fresh₃
  subst grown
  simp only [incFsx32, room, if_false, shl1_of_lt small, ok_bind, Nat.not_lt.mpr fits, fresh₁, clone, ne_eq,
    not_true_eq_false, workingTab, calibrated, balanced, pure, Except.pure]
  rfl

/-- `inc_fsx32` on a table of `2 ^ nums_bits` slots whose survivors' fibers
list their slots and whose weights count them, all slots belonging to buckets
of the new vector, when the three allocations succeed, the calibrated weights
add up to the table's size and no survivor's share rises: it returns 0 and
commits the new weights and a table in which each slot keeps its id or gets
the id of `target_pos`, each survivor keeps exactly the first
`new_weights[k]` slots of its fiber, and the new weights count every bucket's
slots. -/
theorem incFsx32_rebalances {newNumb : Nat} {newWeights : List Nat} {alloc₁ alloc₂ alloc₃ : List Bool}
    (grown : newNumb = if new then w.numb + 1 else w.numb) (room : ¬(new ∧ w.numb = maxBuckets))
    (small : w.numsBits < 32) (sized : tab.length = 2 ^ w.numsBits) (fits : newNumb ≤ 2 ^ w.numsBits)
    (target : targetPos < newNumb) (owned : ∀ s < tab.length, ops.owner (tab.getD s 0) < newNumb)
    (inverse : ops.owner (ops.storedId targetPos) = targetPos)
    (fibers : ∀ i < newNumb, i ≠ targetPos → w.fibers i = some (slotsOf ops tab i tab.length))
    (counted : ∀ i < newNumb, i ≠ targetPos →
      w.weights[if new ∧ targetPos < i then i - 1 else i]? = some (slotsOf ops tab i tab.length).length)
    (calibrated : calibrate32 newNumb (2 ^ w.numsBits) ops.capAt = .ok newWeights)
    (apportioned : newWeights.sum = 2 ^ w.numsBits)
    (noRise : ∀ i < newNumb, i ≠ targetPos → newWeights.getD i 0 ≤ (slotsOf ops tab i tab.length).length)
    (fresh₁ : allocNext w.alloc = (true, alloc₁)) (fresh₂ : allocNext alloc₁ = (true, alloc₂))
    (fresh₃ : allocNext alloc₂ = (true, alloc₃)) :
    ∃ tab', incFsx32 ops tab targetPos new w = .ok (0, commitTab { w with alloc := alloc₃ } tab' newNumb newWeights) ∧
      (∀ s < tab.length, tab'[s]? = tab[s]? ∨ tab'[s]? = some (ops.storedId targetPos)) ∧
      (∀ k < newNumb, k ≠ targetPos →
        slotsOf ops tab' k tab.length = (slotsOf ops tab k tab.length).take (newWeights.getD k 0)) ∧
      newWeights = countsUpTo ops tab' newNumb tab.length :=
  ⟨_, incFsx32_commits grown room small sized fits target fibers counted calibrated noRise fresh₁ fresh₂ fresh₃,
    fun _ inside => stolen_entry inside, fun _ below survivor => slotsOf_stolen inverse below survivor,
    countsUpTo_stolen inverse target (length_calibrate calibrated) (sized ▸ apportioned) owned noRise⟩

/-- A second brick of the same capacity joins a one-brick volume of four
slots: it takes the last two slots of the first brick's fiber. -/
theorem incFsx32_rebalances_second_brick :
    ∃ tab', incFsx32 ⟨fun _ => 1, id, id⟩ [0, 0, 0, 0] 1 true ⟨1, 2, [4], none, fun _ => some [0, 1, 2, 3], []⟩ =
        .ok (0, commitTab ⟨1, 2, [4], none, fun _ => some [0, 1, 2, 3], []⟩ tab' 2 [2, 2]) ∧
      (∀ s < 4, tab'[s]? = [0, 0, 0, 0][s]? ∨ tab'[s]? = some 1) ∧
      (∀ k < 2, k ≠ 1 → slotsOf ⟨fun _ => 1, id, id⟩ tab' k 4 =
        (slotsOf ⟨fun _ => 1, id, id⟩ [0, 0, 0, 0] k 4).take ([2, 2].getD k 0)) ∧
      [2, 2] = countsUpTo ⟨fun _ => 1, id, id⟩ tab' 2 4 :=
  @incFsx32_rebalances ⟨fun _ => 1, id, id⟩ [0, 0, 0, 0] 1 true ⟨1, 2, [4], none, fun _ => some [0, 1, 2, 3], []⟩
    2 [2, 2] [] [] [] rfl (by decide) (by decide) rfl (by decide) (by decide) (by decide) (by decide)
    (by decide) (by decide) (by decide) (by decide) (by decide) rfl rfl rfl

/-- `inc_fsx32` moves no more slots than the bucket at `target_pos` gains:
a slot changes exactly when it passes from a survivor to `target_pos`, and
`new_weights[target_pos]` less the slots `target_pos` owned before change. -/
theorem incFsx32_moves_target_gain {newNumb : Nat} {newWeights : List Nat} {alloc₁ alloc₂ alloc₃ : List Bool}
    (grown : newNumb = if new then w.numb + 1 else w.numb) (room : ¬(new ∧ w.numb = maxBuckets))
    (small : w.numsBits < 32) (sized : tab.length = 2 ^ w.numsBits) (fits : newNumb ≤ 2 ^ w.numsBits)
    (target : targetPos < newNumb) (owned : ∀ s < tab.length, ops.owner (tab.getD s 0) < newNumb)
    (inverse : ops.owner (ops.storedId targetPos) = targetPos)
    (fibers : ∀ i < newNumb, i ≠ targetPos → w.fibers i = some (slotsOf ops tab i tab.length))
    (counted : ∀ i < newNumb, i ≠ targetPos →
      w.weights[if new ∧ targetPos < i then i - 1 else i]? = some (slotsOf ops tab i tab.length).length)
    (calibrated : calibrate32 newNumb (2 ^ w.numsBits) ops.capAt = .ok newWeights)
    (apportioned : newWeights.sum = 2 ^ w.numsBits)
    (noRise : ∀ i < newNumb, i ≠ targetPos → newWeights.getD i 0 ≤ (slotsOf ops tab i tab.length).length)
    (fresh₁ : allocNext w.alloc = (true, alloc₁)) (fresh₂ : allocNext alloc₁ = (true, alloc₂))
    (fresh₃ : allocNext alloc₂ = (true, alloc₃)) :
    ∃ tab', incFsx32 ops tab targetPos new w = .ok (0, commitTab { w with alloc := alloc₃ } tab' newNumb newWeights) ∧
      (∀ s < tab.length, tab'[s]? ≠ tab[s]? ↔
        ops.owner (tab'.getD s 0) = targetPos ∧ ops.owner (tab.getD s 0) ≠ targetPos) ∧
      ((List.range tab.length).filter fun s => tab'[s]? ≠ tab[s]?).length =
        newWeights.getD targetPos 0 - (slotsOf ops tab targetPos tab.length).length := by
  refine ⟨_, incFsx32_commits grown room small sized fits target fibers counted calibrated noRise fresh₁ fresh₂
    fresh₃, fun _ inside => stolen_changed_iff inverse inside, ?_⟩
  set tab' := relabel tab (stolenUpTo ops tab newWeights targetPos newNumb 0)
  have gained : newWeights.getD targetPos 0 = (slotsOf ops tab' targetPos tab.length).length := by
    conv_lhs => rw [countsUpTo_stolen inverse target (length_calibrate calibrated) (sized ▸ apportioned) owned noRise]
    exact getD_countsUpTo target
  have changed : ((List.range tab.length).filter fun s => tab'[s]? ≠ tab[s]?) = (List.range tab.length).filter
      fun s => decide (ops.owner (tab'.getD s 0) = targetPos) && !decide (ops.owner (tab.getD s 0) = targetPos) :=
    List.filter_congr fun s member => by
      rw [← decide_not, ← Bool.decide_and, decide_eq_decide]
      exact stolen_changed_iff inverse (List.mem_range.mp member)
  have kept : ∀ s ∈ List.range tab.length, decide (ops.owner (tab.getD s 0) = targetPos) = true →
      decide (ops.owner (tab'.getD s 0) = targetPos) = true := fun s member mine => by
    rw [decide_eq_true_eq] at mine ⊢
    have same : tab'[s]? = tab[s]? :=
      not_not.mp fun moved => ((stolen_changed_iff inverse (List.mem_range.mp member)).mp moved).2 mine
    rwa [List.getD_eq_getElem?_getD, same, ← List.getD_eq_getElem?_getD]
  rw [gained, changed, length_filter_and_not kept]
  rfl

/-- A second brick joins a one-brick volume of four slots: exactly the two
slots it gains change. -/
theorem incFsx32_moves_second_brick :
    ∃ tab', incFsx32 ⟨fun _ => 1, id, id⟩ [0, 0, 0, 0] 1 true ⟨1, 2, [4], none, fun _ => some [0, 1, 2, 3], []⟩ =
        .ok (0, commitTab ⟨1, 2, [4], none, fun _ => some [0, 1, 2, 3], []⟩ tab' 2 [2, 2]) ∧
      (∀ s < 4, tab'[s]? ≠ [0, 0, 0, 0][s]? ↔ BucketOps.owner ⟨fun _ => 1, id, id⟩ (tab'.getD s 0) = 1 ∧
        BucketOps.owner ⟨fun _ => 1, id, id⟩ ([0, 0, 0, 0].getD s 0) ≠ 1) ∧
      ((List.range 4).filter fun s => tab'[s]? ≠ [0, 0, 0, 0][s]?).length =
        [2, 2].getD 1 0 - (slotsOf ⟨fun _ => 1, id, id⟩ [0, 0, 0, 0] 1 4).length :=
  @incFsx32_moves_target_gain ⟨fun _ => 1, id, id⟩ [0, 0, 0, 0] 1 true ⟨1, 2, [4], none, fun _ => some [0, 1, 2, 3], []⟩
    2 [2, 2] [] [] [] rfl (by decide) (by decide) rfl (by decide) (by decide) (by decide) (by decide)
    (by decide) (by decide) (by decide) (by decide) (by decide) rfl rfl rfl

end Inc

end Reiser4Volume.Fsx32
