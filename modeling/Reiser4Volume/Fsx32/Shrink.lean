import Reiser4Volume.Fsx32.Relabel
import Reiser4Volume.Fsx32.Ops

/-! `balance_dec` and `dec_fsx32` removing a bucket whose fiber lists the slots
holding its id: the survivors take those slots in fiber order, `sho[0]` of
them for bucket 0, then `sho[1]` for bucket 1, and so on; no other slot
changes. When no survivor's share drops, this is what the code computes, the
removed bucket is left with no slot, and the new weights count the new table.
`check_space`, which `dec_fsx32` runs first, lets the operation through
exactly when the occupied space fits in the bricks' total capacity, when each
brick has some. -/

namespace Reiser4Volume.Fsx32

/-- The slots below `n` that hold `id`, in ascending order: the fiber of the
bucket `dec_fsx32` removes. -/
def slotsHolding (tab : List UInt32) (id : UInt32) (n : Nat) : List Nat :=
  (List.range n).filter fun s => tab.getD s 0 = id

/-- The survivor that receives the victim's slot at position `r` of its fiber,
when survivor `i` takes the next `sho[i]` slots in turn. -/
def recipientOf : List Nat → Nat → Nat
  | [], _ => 0
  | c :: cs, r => if r < c then 0 else recipientOf cs (r - c) + 1

theorem recipientOf_eq_iff {sho : List Nat} {r k : Nat} (inside : k < sho.length) :
    recipientOf sho r = k ↔ (sho.take k).sum ≤ r ∧ r < (sho.take (k + 1)).sum := by
  induction sho generalizing r k with
  | nil => simp at inside
  | cons c cs ih =>
    cases k with
    | zero => simp only [recipientOf, List.take_zero, List.sum_nil, List.take_succ_cons, List.sum_cons]; split <;> omega
    | succ k =>
      simp only [recipientOf, List.take_succ_cons, List.sum_cons]
      split
      · omega
      · rw [Nat.add_right_cancel_iff, ih (by simpa using inside)]; omega

theorem recipientOf_lt {sho : List Nat} {r : Nat} (handed : r < sho.sum) : recipientOf sho r < sho.length := by
  induction sho generalizing r with
  | nil => simp at handed
  | cons c cs ih =>
    simp only [recipientOf, List.length_cons]
    split
    · omega
    · have := @ih (r - c) (by simp at handed; omega); omega

section Handed

variable {ops : BucketOps} {tab : List UInt32} {vid : UInt32} {sho : List Nat}

/-- The victim's slots handed out once `m` of them have been: the slot at
position `r < m` of the victim's fiber carries the id of `recipientOf sho r`. -/
def handedUpTo (ops : BucketOps) (tab : List UInt32) (vid : UInt32) (sho : List Nat) (m s : Nat) : Option UInt32 :=
  let rank := (slotsHolding tab vid s).length
  if tab.getD s 0 = vid ∧ rank < m then some (ops.storedId (recipientOf sho rank)) else none

theorem handedUpTo_zero : handedUpTo ops tab vid sho 0 = fun _ => none := by
  funext s
  simp only [handedUpTo]
  split_ifs <;> first | rfl | omega

theorem handedUpTo_step {m slot : Nat} (at_slot : (slotsHolding tab vid tab.length)[m]? = some slot) :
    ∀ s < tab.length, Function.update (handedUpTo ops tab vid sho m) slot
      (some (ops.storedId (recipientOf sho m))) s = handedUpTo ops tab vid sho (m + 1) s := by
  obtain ⟨-, slotHolds, slotRank⟩ := rank_of_getElem? _ at_slot
  intro s lower
  by_cases here : s = slot
  · subst here
    rw [Function.update_same]
    simp only [handedUpTo, slotsHolding, of_decide_eq_true slotHolds, slotRank]
    rw [if_pos ⟨trivial, by omega⟩]
  · rw [Function.update_noteq here]
    simp only [handedUpTo]
    by_cases holds : tab.getD s 0 = vid
    · have other : (slotsHolding tab vid s).length ≠ m := fun same => here <| by
        have := getElem?_filter_range_rank (fun s => decide (tab.getD s 0 = vid)) lower (decide_eq_true holds)
        rw [← slotsHolding, ← slotsHolding, same, at_slot] at this
        exact (Option.some.inj this).symm
      simp only [holds, true_and]
      split_ifs <;> first | rfl | omega
    · simp only [holds, false_and, if_false]

end Handed

section HandOut

variable {ops : BucketOps} {tab : List UInt32} {vid : UInt32} {sho : List Nat}

theorem handOut_closed {i : Nat} (small : tab.length < 2 ^ 32) (inside : i < sho.length)
    (within : (sho.take (i + 1)).sum ≤ (slotsHolding tab vid tab.length).length) :
    handOut ops (slotsHolding tab vid tab.length) sho i
        (relabel tab (handedUpTo ops tab vid sho (sho.take i).sum), (sho.take i).sum) =
      .ok (relabel tab (handedUpTo ops tab vid sho (sho.take (i + 1)).sum), (sho.take (i + 1)).sum) := by
  have next := List.sum_take_succ sho i inside
  have fits : (slotsHolding tab vid tab.length).length ≤ tab.length := by
    simpa using (List.filter_sublist (List.range tab.length)).length_le
  have inner := @forLoop_closed _ (fun _ st => do
      let slot ← readAt (slotsHolding tab vid tab.length) st.2
      let tab ← writeAt st.1 slot (ops.storedId i)
      pure (tab, wrap 32 (st.2 + 1)))
    (fun j => (relabel tab (handedUpTo ops tab vid sho ((sho.take i).sum + j)), (sho.take i).sum + j)) 0 sho[i]
    fun j _ below => by
      obtain ⟨slot, at_slot⟩ : ∃ slot, (slotsHolding tab vid tab.length)[(sho.take i).sum + j]? = some slot :=
        ⟨_, List.getElem?_eq_getElem (by omega)⟩
      have recipient : recipientOf sho ((sho.take i).sum + j) = i := (recipientOf_eq_iff inside).mpr ⟨by omega, by omega⟩
      have step := @handedUpTo_step ops tab vid sho _ _ at_slot
      simp only [recipient] at step
      simp only [readAt_of_getElem? at_slot, ok_bind, writeAt_relabel (rank_of_getElem? _ at_slot).1,
        wrap_of_lt (show (sho.take i).sum + j + 1 < 2 ^ 32 by omega), pure, Except.pure]
      rw [relabel_congr step, Nat.add_assoc]
  simp only [Nat.zero_add, Nat.add_zero] at inner
  simp only [handOut, readAt_of_getElem? (List.getElem?_eq_getElem inside), ok_bind, inner, next]

/-- `sho` once `balance_dec` has filled its entries below `i`: each survivor's
new weight less the slots it owns. -/
def shortageUpTo (ops : BucketOps) (tab : List UInt32) (newWeights : List Nat) (newNumb i : Nat) : List Nat :=
  (List.range newNumb).map fun k =>
    if k < i then newWeights.getD k 0 - (slotsOf ops tab k tab.length).length else 0

theorem shortageUpTo_zero (newWeights : List Nat) (newNumb : Nat) :
    shortageUpTo ops tab newWeights newNumb 0 = List.replicate newNumb 0 := by
  simp [shortageUpTo, List.map_const']

theorem shortageAt_closed {oldWeights newWeights : List Nat} {targetPos newNumb i : Nat} (inside : i < newNumb)
    (weighed : i < newWeights.length) (fits : newWeights.getD i 0 < 2 ^ 32)
    (counted : oldWeights[if targetPos ≤ i then i + 1 else i]? = some (slotsOf ops tab i tab.length).length)
    (noDrop : (slotsOf ops tab i tab.length).length ≤ newWeights.getD i 0) :
    shortageAt oldWeights newWeights targetPos true i (shortageUpTo ops tab newWeights newNumb i) =
      .ok (shortageUpTo ops tab newWeights newNumb (i + 1)) := by
  have base : readAt newWeights i = .ok (newWeights.getD i 0) :=
    readAt_of_getElem? (by rw [List.getElem?_eq_getElem weighed, List.getD_eq_getElem?_getD,
      List.getElem?_eq_getElem weighed, Option.getD_some])
  simp only [shortageAt, true_and, readAt_of_getElem? counted, base, ok_bind, subWrap_of_le noDrop fits,
    writeAt_of_lt (show i < (shortageUpTo ops tab newWeights newNumb i).length by simpa [shortageUpTo])]
  refine congrArg Except.ok (List.ext_getElem (by simp [shortageUpTo]) fun k _ _ => ?_)
  simp only [shortageUpTo, List.getElem_set, List.getElem_map, List.getElem_range]
  by_cases here : i = k
  · subst here; rw [if_pos rfl, if_pos (Nat.lt_succ_self _)]
  · rw [if_neg here]; split_ifs <;> first | rfl | omega

/-- `balance_dec` removing the bucket at `target_pos` whose fiber lists the
slots holding its id, when the survivors' old weights count their slots, no
survivor's share drops and the victim has slots enough for the shortages: it
returns 0 with the victim's slots handed out in fiber order. -/
theorem balanceDec_eq {oldWeights newWeights : List Nat} {targetPos newNumb victimId : Nat} {w : World}
    {alloc : List Bool} (small : tab.length < 2 ^ 32) (target : targetPos ≤ newNumb)
    (weighed : newWeights.length = newNumb) (fits : ∀ i < newNumb, newWeights.getD i 0 < 2 ^ 32)
    (counted : ∀ i < newNumb,
      oldWeights[if targetPos ≤ i then i + 1 else i]? = some (slotsOf ops tab i tab.length).length)
    (noDrop : ∀ i < newNumb, (slotsOf ops tab i tab.length).length ≤ newWeights.getD i 0)
    (enough : (shortageUpTo ops tab newWeights newNumb newNumb).sum ≤
      (slotsHolding tab (UInt32.ofNat victimId) tab.length).length)
    (fresh : allocNext w.alloc = (true, alloc)) :
    balanceDec ops newNumb tab oldWeights newWeights targetPos
        (some ⟨victimId, some (slotsHolding tab (UInt32.ofNat victimId) tab.length)⟩) w =
      .ok (0, relabel tab (handedUpTo ops tab (UInt32.ofNat victimId) (shortageUpTo ops tab newWeights newNumb newNumb)
        (shortageUpTo ops tab newWeights newNumb newNumb).sum), { w with alloc }) := by
  have last : targetPos + (newNumb - targetPos) = newNumb := by omega
  have shoLow := @forLoop_closed _ (shortageAt oldWeights newWeights targetPos true)
    (shortageUpTo ops tab newWeights newNumb) 0 targetPos fun i _ below =>
      shortageAt_closed (by omega) (by omega) (fits i (by omega)) (counted i (by omega)) (noDrop i (by omega))
  have shoHigh := @forLoop_closed _ (shortageAt oldWeights newWeights targetPos true)
    (shortageUpTo ops tab newWeights newNumb) targetPos (newNumb - targetPos) fun i _ below =>
      shortageAt_closed (by omega) (by omega) (fits i (by omega)) (counted i (by omega)) (noDrop i (by omega))
  rw [last] at shoHigh
  simp only [Nat.zero_add, shortageUpTo_zero] at shoLow
  have length : (shortageUpTo ops tab newWeights newNumb newNumb).length = newNumb := by simp [shortageUpTo]
  have within : ∀ i, ((shortageUpTo ops tab newWeights newNumb newNumb).take i).sum ≤
      (slotsHolding tab (UInt32.ofNat victimId) tab.length).length := fun i =>
    le_trans ((List.take_sublist _ _).sum_le_sum fun _ _ => Nat.zero_le _) enough
  have handLow := @forLoop_closed _ (handOut ops (slotsHolding tab (UInt32.ofNat victimId) tab.length)
      (shortageUpTo ops tab newWeights newNumb newNumb))
    (fun i => (relabel tab (handedUpTo ops tab (UInt32.ofNat victimId) (shortageUpTo ops tab newWeights newNumb newNumb)
      ((shortageUpTo ops tab newWeights newNumb newNumb).take i).sum),
      ((shortageUpTo ops tab newWeights newNumb newNumb).take i).sum)) 0 targetPos fun i _ below =>
    handOut_closed small (by omega) (within (i + 1))
  have handHigh := @forLoop_closed _ (handOutRight ops oldWeights (slotsHolding tab (UInt32.ofNat victimId) tab.length)
      (shortageUpTo ops tab newWeights newNumb newNumb))
    (fun i => (relabel tab (handedUpTo ops tab (UInt32.ofNat victimId) (shortageUpTo ops tab newWeights newNumb newNumb)
      ((shortageUpTo ops tab newWeights newNumb newNumb).take i).sum),
      ((shortageUpTo ops tab newWeights newNumb newNumb).take i).sum)) targetPos (newNumb - targetPos)
    fun i low below => by
      have old := counted i (by omega)
      rw [if_pos low] at old
      simp only [handOutRight, readAt_of_getElem? old, ok_bind]
      exact handOut_closed small (by omega) (within (i + 1))
  simp only [List.take_zero, List.sum_nil, handedUpTo_zero, relabel_none, Nat.zero_add] at handLow
  simp only [last, List.take_of_length_le length.le] at handHigh
  simp only [balanceDec, fresh, ok_bind, Option.isSome_some, shoLow, shoHigh, handLow, handHigh, pure, Except.pure]

end HandOut

section Handed

variable {ops : BucketOps} {tab : List UInt32} {newWeights : List Nat} {newNumb victimId : Nat}

theorem getD_relabel {moved : Nat → Option UInt32} {s : Nat} (inside : s < tab.length) :
    (relabel tab moved).getD s 0 = (moved s).getD (tab.getD s 0) := by
  simp only [List.getD_eq_getElem?_getD, getElem?_relabel, List.getElem?_eq_getElem inside, Option.map_some',
    Option.getD_some]

theorem handed_entry_other {sho : List Nat} {m s : Nat} (inside : s < tab.length)
    (other : tab[s]? ≠ some (UInt32.ofNat victimId)) :
    (relabel tab (handedUpTo ops tab (UInt32.ofNat victimId) sho m))[s]? = tab[s]? := by
  have keeps : handedUpTo ops tab (UInt32.ofNat victimId) sho m s = none := by
    simp only [handedUpTo]
    rw [if_neg fun ⟨holds, _⟩ => other (by rw [List.getElem?_eq_getElem inside, ← holds,
      List.getD_eq_getElem?_getD, List.getElem?_eq_getElem inside, Option.getD_some])]
  rw [getElem?_relabel, keeps, List.getElem?_eq_getElem inside]
  rfl

theorem handed_entry_cases {vid : UInt32} {sho : List Nat} {m s : Nat} (inside : s < tab.length) :
    (relabel tab (handedUpTo ops tab vid sho m)).getD s 0 = tab.getD s 0 ∨
      ∃ r < m, (relabel tab (handedUpTo ops tab vid sho m)).getD s 0 = ops.storedId (recipientOf sho r) := by
  rw [getD_relabel inside]
  simp only [handedUpTo]
  split_ifs with handed
  · exact .inr ⟨_, handed.2, rfl⟩
  · exact .inl rfl

theorem owner_handed {sho : List Nat} {k s : Nat} (inside : s < tab.length) (below : k < sho.length)
    (foreign : sho.length ≤ ops.owner (UInt32.ofNat victimId)) (inverse : ∀ k < sho.length, ops.owner (ops.storedId k) = k) :
    ops.owner ((relabel tab (handedUpTo ops tab (UInt32.ofNat victimId) sho sho.sum)).getD s 0) = k ↔
      ops.owner (tab.getD s 0) = k ∨ (tab.getD s 0 = UInt32.ofNat victimId ∧
        (sho.take k).sum ≤ (slotsHolding tab (UInt32.ofNat victimId) s).length ∧
        (slotsHolding tab (UInt32.ofNat victimId) s).length < (sho.take (k + 1)).sum) := by
  have late : (sho.take (k + 1)).sum ≤ sho.sum := (List.take_sublist _ _).sum_le_sum fun _ _ => Nat.zero_le _
  rw [getD_relabel inside]
  simp only [handedUpTo]
  by_cases holds : tab.getD s 0 = UInt32.ofNat victimId
  · have stranger : ops.owner (UInt32.ofNat victimId) ≠ k := by omega
    split_ifs with handed
    · rw [Option.getD_some, inverse _ (recipientOf_lt handed.2), recipientOf_eq_iff below]
      simp only [holds, stranger, true_and, false_or]
    · have past : sho.sum ≤ (slotsHolding tab (UInt32.ofNat victimId) s).length :=
        Nat.not_lt.mp fun early => handed ⟨holds, early⟩
      rw [Option.getD_none]
      simp only [holds, stranger, true_and, false_or, false_iff]
      omega
  · rw [if_neg fun ⟨same, _⟩ => holds same, Option.getD_none]
    simp only [holds, false_and, or_false]

theorem length_slotsOf_handed {sho : List Nat} {k : Nat} (below : k < sho.length)
    (foreign : sho.length ≤ ops.owner (UInt32.ofNat victimId)) (inverse : ∀ k < sho.length, ops.owner (ops.storedId k) = k)
    (enough : sho.sum ≤ (slotsHolding tab (UInt32.ofNat victimId) tab.length).length) :
    (slotsOf ops (relabel tab (handedUpTo ops tab (UInt32.ofNat victimId) sho sho.sum)) k tab.length).length =
      (slotsOf ops tab k tab.length).length + sho[k] := by
  have late : (sho.take (k + 1)).sum ≤ sho.sum := (List.take_sublist _ _).sum_le_sum fun _ _ => Nat.zero_le _
  have next := List.sum_take_succ sho k below
  have split : slotsOf ops (relabel tab (handedUpTo ops tab (UInt32.ofNat victimId) sho sho.sum)) k tab.length =
      (List.range tab.length).filter fun s => decide (ops.owner (tab.getD s 0) = k) ||
        (decide (tab.getD s 0 = UInt32.ofNat victimId) &&
          decide ((sho.take k).sum ≤ ((List.range s).filter fun s' => tab.getD s' 0 = UInt32.ofNat victimId).length) &&
          decide (((List.range s).filter fun s' => tab.getD s' 0 = UInt32.ofNat victimId).length <
            (sho.take (k + 1)).sum)) :=
    List.filter_congr fun s member => by
      rw [Bool.eq_iff_iff]
      simp only [decide_eq_true_eq, Bool.or_eq_true, Bool.and_eq_true]
      rw [owner_handed (List.mem_range.mp member) below foreign inverse, and_assoc]
      exact Iff.rfl
  rw [split, length_filter_or fun s _ ⟨mine, theirs⟩ => by
      simp only [decide_eq_true_eq, Bool.and_eq_true] at mine theirs
      rw [theirs.1.1] at mine
      omega,
    length_filter_range_between _ (by omega) (show _ ≤ (slotsHolding tab (UInt32.ofNat victimId) tab.length).length by omega)]
  show (slotsOf ops tab k tab.length).length + _ = _
  omega

theorem handed_entry_victim {sho : List Nat} {s : Nat} (inside : s < tab.length)
    (foreign : sho.length ≤ ops.owner (UInt32.ofNat victimId)) (inverse : ∀ k < sho.length, ops.owner (ops.storedId k) = k)
    (all : sho.sum = (slotsHolding tab (UInt32.ofNat victimId) tab.length).length) :
    (relabel tab (handedUpTo ops tab (UInt32.ofNat victimId) sho sho.sum))[s]? ≠ some (UInt32.ofNat victimId) := by
  rw [getElem?_relabel, List.getElem?_eq_getElem inside, Option.map_some']
  intro same
  have entry := Option.some.inj same
  simp only [handedUpTo] at entry
  split_ifs at entry with handed
  · rw [Option.getD_some] at entry
    have owner := inverse _ (recipientOf_lt handed.2)
    rw [entry] at owner
    have := recipientOf_lt handed.2
    omega
  · rw [Option.getD_none, ← List.getD_eq_getElem _ _ inside] at entry
    exact handed ⟨entry, all ▸ length_filter_range_lt _ inside (decide_eq_true entry)⟩

theorem sum_shortageUpTo (apportioned : newWeights.sum = tab.length) (weighed : newWeights.length = newNumb)
    (owned : ∀ s < tab.length, tab.getD s 0 ≠ UInt32.ofNat victimId → ops.owner (tab.getD s 0) < newNumb)
    (foreign : newNumb ≤ ops.owner (UInt32.ofNat victimId))
    (noDrop : ∀ i < newNumb, (slotsOf ops tab i tab.length).length ≤ newWeights.getD i 0) :
    (shortageUpTo ops tab newWeights newNumb newNumb).sum = (slotsHolding tab (UInt32.ofNat victimId) tab.length).length := by
  have split := @List.length_eq_length_filter_add _ (List.range tab.length)
    fun s => decide (tab.getD s 0 = UInt32.ofNat victimId)
  have others : ((List.range tab.length).filter fun s => !decide (tab.getD s 0 = UInt32.ofNat victimId)) =
      (List.range tab.length).filter fun s => decide (ops.owner (tab.getD s 0) < newNumb) :=
    List.filter_congr fun s member => by
      by_cases holds : tab.getD s 0 = UInt32.ofNat victimId
      · rw [holds, decide_eq_true rfl, decide_eq_false (Nat.not_lt.mpr foreign)]; rfl
      · rw [decide_eq_false holds, decide_eq_true (owned s (List.mem_range.mp member) holds)]; rfl
  rw [List.length_range, others, ← sum_countsUpTo_eq, countsUpTo, sum_map_range] at split
  rw [← map_range_getD newWeights, weighed, sum_map_range] at apportioned
  rw [shortageUpTo, sum_map_range, Finset.sum_congr rfl fun k member => if_pos (Finset.mem_range.mp member),
    Finset.sum_tsub_distrib _ fun k member => noDrop k (Finset.mem_range.mp member), apportioned]
  unfold slotsHolding
  omega

theorem countsUpTo_handed (weighed : newWeights.length = newNumb)
    (foreign : newNumb ≤ ops.owner (UInt32.ofNat victimId)) (inverse : ∀ k < newNumb, ops.owner (ops.storedId k) = k)
    (noDrop : ∀ i < newNumb, (slotsOf ops tab i tab.length).length ≤ newWeights.getD i 0)
    (enough : (shortageUpTo ops tab newWeights newNumb newNumb).sum ≤
      (slotsHolding tab (UInt32.ofNat victimId) tab.length).length) :
    newWeights = countsUpTo ops (relabel tab (handedUpTo ops tab (UInt32.ofNat victimId)
      (shortageUpTo ops tab newWeights newNumb newNumb) (shortageUpTo ops tab newWeights newNumb newNumb).sum))
      newNumb tab.length := by
  have length : (shortageUpTo ops tab newWeights newNumb newNumb).length = newNumb := by simp [shortageUpTo]
  refine (map_range_getD newWeights).symm.trans ?_
  rw [weighed]
  refine List.map_congr_left fun k member => ?_
  have below := List.mem_range.mp member
  rw [length_slotsOf_handed (by omega) (by omega) (fun k lower => inverse k (by omega)) enough]
  simp only [shortageUpTo, List.getElem_map, List.getElem_range, if_pos below]
  have := noDrop k below
  omega

end Handed

section Space

open Finset

variable {num occ : Nat} {capAt : Nat → Nat}

theorem length_exactShares : (exactShares num occ capAt).length = num := by
  simp [exactShares]

theorem exactShare_le_capacity (roomy : ∀ i < num, 0 < capAt i) (fits : occ ≤ ∑ j ∈ range num, capAt j)
    {i : Nat} (member : i < num) :
    floorShare num occ capAt i + (if i < remainder num occ capAt then 1 else 0) ≤ capAt i := by
  have positive : 0 < ∑ j ∈ range num, capAt j :=
    sum_pos (fun j inRange => roomy j (mem_range.mp inRange)) (nonempty_range_iff.mpr (by omega))
  rcases Nat.lt_or_eq_of_le fits with below | full
  · have floor : floorShare num occ capAt i < capAt i := by
      rw [floorShare, Nat.div_lt_iff_lt_mul positive, Nat.mul_comm (capAt i)]
      exact Nat.mul_lt_mul_of_pos_right below (roomy i member)
    split <;> omega
  · have exact : ∀ j, floorShare num occ capAt j = capAt j := fun j => by
      rw [floorShare, full, Nat.mul_div_cancel_left _ positive]
    have none : remainder num occ capAt = 0 := by
      rw [remainder, sum_congr rfl fun j _ => exact j, full, Nat.sub_self]
    rw [exact, none, if_neg (Nat.not_lt_zero i), Nat.add_zero]

theorem spaceShortage_exactShares (roomy : ∀ i < num, 0 < capAt i) (nonempty : 0 < num) :
    spaceShortage capAt (exactShares num occ capAt) = if occ ≤ ∑ j ∈ range num, capAt j then 0 else -ENOSPC := by
  have positive : 0 < ∑ j ∈ range num, capAt j :=
    sum_pos (fun j inRange => roomy j (mem_range.mp inRange)) (nonempty_range_iff.mpr (Nat.pos_iff_ne_zero.mp nonempty))
  unfold spaceShortage
  rw [length_exactShares]
  by_cases fits : occ ≤ ∑ j ∈ range num, capAt j
  · rw [if_pos fits, if_neg]
    simp only [List.any_eq_true, List.mem_range, decide_eq_true_eq, not_exists, not_and, Nat.not_lt]
    intro i member
    rw [getD_exactShares member]
    exact exactShare_le_capacity roomy fits member
  · rw [if_neg fits, if_pos]
    simp only [List.any_eq_true, List.mem_range, decide_eq_true_eq]
    by_contra within
    simp only [not_exists, not_and, Nat.not_lt] at within
    have total := exactShares_sum occ positive
    rw [exactShares, sum_map_range] at total
    have bounded : ∑ i ∈ range num, (floorShare num occ capAt i + if i < remainder num occ capAt then 1 else 0) ≤
        ∑ i ∈ range num, capAt i :=
      sum_le_sum fun i inRange => by
        have := within i (mem_range.mp inRange)
        rwa [getD_exactShares (mem_range.mp inRange)] at this
    omega

/-- `check_space` for bricks of positive capacity, its shares computed without
overflow: it lets the operation through exactly when the occupied space fits
in the bricks' total capacity, and returns `-ENOSPC` otherwise. -/
theorem checkSpace_admits_iff {ops : BucketOps} {numb : Nat} {w : World} {alloc : List Bool}
    (fresh : allocNext w.alloc = (true, alloc)) (nonempty : 0 < numb) (roomy : ∀ i < numb, 0 < ops.capAt i)
    (sumFits : ∑ i ∈ range numb, ops.capAt i < 2 ^ 64) (productsFit : ∀ i < numb, occ * ops.capAt i < 2 ^ 64)
    (occFits : occ < 2 ^ 64) :
    checkSpace ops numb occ w =
      .ok (if occ ≤ ∑ i ∈ range numb, ops.capAt i then 0 else -ENOSPC, { w with alloc }) := by
  have positive : 0 < ∑ i ∈ range numb, ops.capAt i :=
    sum_pos (fun j inRange => roomy j (mem_range.mp inRange)) (nonempty_range_iff.mpr (Nat.pos_iff_ne_zero.mp nonempty))
  simp only [checkSpace, fresh, calibrate64, calibrate_eq_exactShares positive sumFits productsFit occFits,
    ok_bind, spaceShortage_exactShares roomy nonempty]
  rfl

/-- Three bricks of 4, 2 and 2 blocks do not hold 9 occupied blocks. -/
theorem checkSpace_refuses_nine_of_eight :
    (0 < 3 ∧ (∀ i < 3, 0 < [4, 2, 2].getD i 0) ∧ ∑ i ∈ range 3, [4, 2, 2].getD i 0 < 2 ^ 64 ∧
      (∀ i < 3, 9 * [4, 2, 2].getD i 0 < 2 ^ 64) ∧ 9 < 2 ^ 64) ∧
    checkSpace ⟨fun i => [4, 2, 2].getD i 0, id, id⟩ 3 9 ⟨3, 2, [2, 1, 1], none, fun _ => none, []⟩ =
      .ok (if 9 ≤ ∑ i ∈ range 3, [4, 2, 2].getD i 0 then 0 else -ENOSPC, ⟨3, 2, [2, 1, 1], none, fun _ => none, []⟩) :=
  ⟨⟨by decide, by decide, by decide, by decide, by decide⟩,
    @checkSpace_admits_iff 9 ⟨fun i => [4, 2, 2].getD i 0, id, id⟩ 3 ⟨3, 2, [2, 1, 1], none, fun _ => none, []⟩ []
      rfl (by decide) (by decide) (by decide) (by decide) (by decide)⟩

end Space

section Dec

variable {ops : BucketOps} {tab : List UInt32} {targetPos occ victimId : Nat} {w : World}

theorem decFsx32_commits {newNumb : Nat} {shares newWeights : List Nat}
    {alloc₁ alloc₂ alloc₃ alloc₄ : List Bool} (removing : w.numb = newNumb + 1)
    (small : w.numsBits < 32) (sized : tab.length = 2 ^ w.numsBits) (target : targetPos ≤ newNumb)
    (owned : ∀ s < tab.length, tab.getD s 0 ≠ UInt32.ofNat victimId → ops.owner (tab.getD s 0) < newNumb)
    (foreign : newNumb ≤ ops.owner (UInt32.ofNat victimId))
    (counted : ∀ i < newNumb,
      w.weights[if targetPos ≤ i then i + 1 else i]? = some (slotsOf ops tab i tab.length).length)
    (checked : calibrate64 newNumb occ ops.capAt = .ok shares) (room : spaceShortage ops.capAt shares = 0)
    (calibrated : calibrate32 newNumb (2 ^ w.numsBits) ops.capAt = .ok newWeights)
    (apportioned : newWeights.sum = 2 ^ w.numsBits)
    (noDrop : ∀ i < newNumb, (slotsOf ops tab i tab.length).length ≤ newWeights.getD i 0)
    (fresh₁ : allocNext w.alloc = (true, alloc₁)) (fresh₂ : allocNext alloc₁ = (true, alloc₂))
    (fresh₃ : allocNext alloc₂ = (true, alloc₃)) (fresh₄ : allocNext alloc₃ = (true, alloc₄)) :
    decFsx32 ops occ tab targetPos (some ⟨victimId, some (slotsHolding tab (UInt32.ofNat victimId) tab.length)⟩) w =
      .ok (0, commitTab { w with alloc := alloc₄ } (relabel tab (handedUpTo ops tab (UInt32.ofNat victimId)
        (shortageUpTo ops tab newWeights newNumb newNumb) (shortageUpTo ops tab newWeights newNumb newNumb).sum))
        newNumb newWeights) := by
  have limit : tab.length < 2 ^ 32 := sized ▸ Nat.pow_lt_pow_right (by norm_num) small
  have weighed := length_calibrate calibrated
  have fits : ∀ i < newNumb, newWeights.getD i 0 < 2 ^ 32 := fun i below => by
    rw [List.getD_eq_getElem _ _ (by omega)]
    have := List.le_sum_of_mem (List.getElem_mem (show i < newWeights.length by omega))
    omega
  have all := sum_shortageUpTo (sized ▸ apportioned) weighed owned foreign noDrop
  have clone := @cloneSystab_of_fresh tab { w with alloc := alloc₂ } alloc₃ small (by simp [sized]) fresh₃
  rw [List.take_of_length_le (by simp [sized])] at clone
  have balanced := @balanceDec_eq ops tab w.weights newWeights targetPos newNumb victimId
    { w with tab := some tab, alloc := alloc₃ } alloc₄ limit target weighed fits counted noDrop all.le fresh₄
  have drop : w.numb - 1 = newNumb := by omega
  simp only [decFsx32, Option.isSome_some, if_true, drop, checkSpace, fresh₁, checked,
    ok_bind, room, ne_eq, not_true_eq_false, if_false, pure, Except.pure, shl1_of_lt small, fresh₂, clone,
    workingTab, calibrated, balanced]
  rfl

/-- `dec_fsx32` removing the bucket at `target_pos`, from a table of
`2 ^ nums_bits` slots in which every slot holds the victim's id or belongs to
a survivor, with the victim's fiber listing its slots and the old weights
counting the survivors', when `check_space` finds room, the four allocations
succeed, the calibrated weights add up to the table's size and no survivor's
share drops: it returns 0 and commits the new weights and a table in which
every slot not holding the victim's id keeps its entry, none holds the
victim's id, and the new weights count every bucket's slots. -/
theorem decFsx32_rebalances {newNumb : Nat} {shares newWeights : List Nat}
    {alloc₁ alloc₂ alloc₃ alloc₄ : List Bool} (removing : w.numb = newNumb + 1)
    (small : w.numsBits < 32) (sized : tab.length = 2 ^ w.numsBits) (target : targetPos ≤ newNumb)
    (owned : ∀ s < tab.length, tab.getD s 0 ≠ UInt32.ofNat victimId → ops.owner (tab.getD s 0) < newNumb)
    (foreign : newNumb ≤ ops.owner (UInt32.ofNat victimId)) (inverse : ∀ k < newNumb, ops.owner (ops.storedId k) = k)
    (counted : ∀ i < newNumb,
      w.weights[if targetPos ≤ i then i + 1 else i]? = some (slotsOf ops tab i tab.length).length)
    (checked : calibrate64 newNumb occ ops.capAt = .ok shares) (room : spaceShortage ops.capAt shares = 0)
    (calibrated : calibrate32 newNumb (2 ^ w.numsBits) ops.capAt = .ok newWeights)
    (apportioned : newWeights.sum = 2 ^ w.numsBits)
    (noDrop : ∀ i < newNumb, (slotsOf ops tab i tab.length).length ≤ newWeights.getD i 0)
    (fresh₁ : allocNext w.alloc = (true, alloc₁)) (fresh₂ : allocNext alloc₁ = (true, alloc₂))
    (fresh₃ : allocNext alloc₂ = (true, alloc₃)) (fresh₄ : allocNext alloc₃ = (true, alloc₄)) :
    ∃ tab', decFsx32 ops occ tab targetPos
          (some ⟨victimId, some (slotsHolding tab (UInt32.ofNat victimId) tab.length)⟩) w =
        .ok (0, commitTab { w with alloc := alloc₄ } tab' newNumb newWeights) ∧
      (∀ s < tab.length, tab[s]? ≠ some (UInt32.ofNat victimId) → tab'[s]? = tab[s]?) ∧
      (∀ s < tab.length, tab'[s]? ≠ some (UInt32.ofNat victimId)) ∧
      newWeights = countsUpTo ops tab' newNumb tab.length := by
  have all := sum_shortageUpTo (sized ▸ apportioned) (length_calibrate calibrated) owned foreign noDrop
  have length : (shortageUpTo ops tab newWeights newNumb newNumb).length = newNumb := by simp [shortageUpTo]
  exact ⟨_, decFsx32_commits removing small sized target owned foreign counted checked room calibrated apportioned
      noDrop fresh₁ fresh₂ fresh₃ fresh₄, fun s inside other => handed_entry_other inside other,
    fun s inside => handed_entry_victim inside (by omega) (fun k below => inverse k (by omega)) all,
    countsUpTo_handed (length_calibrate calibrated) foreign inverse noDrop all.le⟩

/-- Removing the second of two bricks that share a four-slot table: the
survivor takes both of the victim's slots. -/
theorem decFsx32_rebalances_last_brick :
    ∃ tab', decFsx32 ⟨fun _ => 1, id, id⟩ 0 [0, 1, 0, 1] 1 (some ⟨1, some (slotsHolding [0, 1, 0, 1] 1 4)⟩)
          ⟨2, 2, [2, 2], none, fun _ => none, []⟩ =
        .ok (0, commitTab ⟨2, 2, [2, 2], none, fun _ => none, []⟩ tab' 1 [4]) ∧
      (∀ s < 4, ([0, 1, 0, 1] : List UInt32)[s]? ≠ some 1 → tab'[s]? = ([0, 1, 0, 1] : List UInt32)[s]?) ∧
      (∀ s < 4, tab'[s]? ≠ some 1) ∧
      [4] = countsUpTo ⟨fun _ => 1, id, id⟩ tab' 1 4 :=
  @decFsx32_rebalances ⟨fun _ => 1, id, id⟩ [0, 1, 0, 1] 1 0 1 ⟨2, 2, [2, 2], none, fun _ => none, []⟩ 1 [0] [4]
    [] [] [] [] rfl (by decide) rfl (by decide) (by decide) (by decide) (by decide) (by decide) (by decide)
    (by decide) (by decide) (by decide) (by decide) rfl rfl rfl rfl

end Dec

end Reiser4Volume.Fsx32
