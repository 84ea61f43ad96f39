import Mathlib.Data.List.Sort
import Reiser4Volume.Fsx32.Fibers

/-! The system table and the fibers as two encodings of one slot assignment:
`init_fibers_by_tab` and `init_tab_by_fibers` (fsx32.c) in closed form, and
the round trips between them. A fiber is written in place, so it must have
been allocated with room for the slots its bucket owns; `create_fibers`
allocates it with the bucket's new weight. -/

namespace Reiser4Volume.Fsx32

section Slots

variable {ops : BucketOps} {tab : List UInt32}

theorem mem_slotsOf {k n s : Nat} : s ∈ slotsOf ops tab k n ↔ s < n ∧ ops.owner (tab.getD s 0) = k := by
  simp [slotsOf]

theorem slotsOf_sorted (k n : Nat) : (slotsOf ops tab k n).Sorted (· < ·) :=
  (List.sorted_lt_range n).filter _

theorem slotsOf_length_mono (k : Nat) {m n : Nat} (le : m ≤ n) :
    (slotsOf ops tab k m).length ≤ (slotsOf ops tab k n).length :=
  ((List.range_sublist.mpr le).filter _).length_le

theorem slotsOf_length_le (k n : Nat) : (slotsOf ops tab k n).length ≤ n := by
  simpa [slotsOf] using (List.filter_sublist (List.range n)).length_le

theorem slotsOf_eq_of_sorted {k n : Nat} {L : List Nat} (sorted : L.Sorted (· < ·))
    (members : ∀ s, s ∈ L ↔ s < n ∧ ops.owner (tab.getD s 0) = k) : slotsOf ops tab k n = L :=
  List.eq_of_perm_of_sorted
    ((List.perm_ext_iff_of_nodup (slotsOf_sorted k n).nodup sorted.nodup).mpr fun s => by
      rw [mem_slotsOf, members])
    (slotsOf_sorted k n) sorted

end Slots

/-- The fibers once the slot loop has seen slots `0 .. i - 1`: each bucket's
fiber starts with the slots it owns among them, the rest as allocated. -/
def fibersUpTo (ops : BucketOps) (tab : List UInt32) (fibers : Fibers) (i : Nat) : Fibers :=
  fun k => (fibers k).map fun fib => slotsOf ops tab k i ++ fib.drop (slotsOf ops tab k i).length

/-- The weights once the slot loop has seen slots `0 .. i - 1`: how many of
them each of the `numb` buckets owns. -/
def countsUpTo (ops : BucketOps) (tab : List UInt32) (numb i : Nat) : List Nat :=
  (List.range numb).map fun k => (slotsOf ops tab k i).length

section Fill

variable {ops : BucketOps} {tab : List UInt32} {fibers : Fibers} {numb n : Nat}

theorem fibersUpTo_zero : fibersUpTo ops tab fibers 0 = fibers := by
  funext k
  cases present : fibers k <;> simp [fibersUpTo, slotsOf, present]

theorem countsUpTo_zero : countsUpTo ops tab numb 0 = List.replicate numb 0 := by
  simp [countsUpTo, slotsOf, List.map_const']

theorem getD_countsUpTo {k : Nat} (inside : k < numb) :
    (countsUpTo ops tab numb n).getD k 0 = (slotsOf ops tab k n).length := by
  simp [countsUpTo, inside]

theorem set_fill {fib slots : List Nat} {i : Nat} (room : slots.length < fib.length) :
    (slots ++ fib.drop slots.length).set slots.length i = slots ++ [i] ++ fib.drop (slots.length + 1) := by
  rw [List.set_append_right _ _ le_rfl, Nat.sub_self, List.drop_eq_getElem_cons room, List.set_cons_zero,
    List.append_assoc, List.singleton_append]

theorem fiberSlot_closed (sizedTab : tab.length = n) (small : n ≤ 2 ^ 31)
    (owned : ∀ s (inside : s < tab.length), ops.owner tab[s] < numb)
    (room : ∀ k < numb, ∃ fib, fibers k = some fib ∧ (slotsOf ops tab k n).length ≤ fib.length)
    {i : Nat} (inside : i < n) :
    fiberSlot ops tab i (fibersUpTo ops tab fibers i, countsUpTo ops tab numb i) =
      .ok (fibersUpTo ops tab fibers (i + 1), countsUpTo ops tab numb (i + 1)) := by
  have inTab : i < tab.length := by omega
  obtain ⟨k, owner⟩ : ∃ k, ops.owner tab[i] = k := ⟨_, rfl⟩
  have below : k < numb := owner ▸ owned i inTab
  obtain ⟨fib, present, fits⟩ := room k below
  have entry : tab.getD i 0 = tab[i] := by simp [List.getD_eq_getElem?_getD, List.getElem?_eq_getElem inTab]
  have grown : ∀ k', slotsOf ops tab k' (i + 1) = slotsOf ops tab k' i ++ if k = k' then [i] else [] := by
    intro k'; rw [slotsOf_succ, entry, owner]
  have seen : (slotsOf ops tab k i).length < fib.length := by
    have := @slotsOf_length_mono ops tab k (i + 1) n (by omega)
    rw [grown, if_pos rfl, List.length_append, List.length_singleton] at this
    omega
  have weighed : k < (countsUpTo ops tab numb i).length := by simp [countsUpTo, below]
  have filled : (slotsOf ops tab k i).length < (slotsOf ops tab k i ++ fib.drop (slotsOf ops tab k i).length).length := by
    simp; omega
  have fiber : fibersUpTo ops tab fibers i k = some (slotsOf ops tab k i ++ fib.drop (slotsOf ops tab k i).length) := by
    simp [fibersUpTo, present]
  have count : (countsUpTo ops tab numb i)[k] = (slotsOf ops tab k i).length := by simp [countsUpTo]
  simp only [fiberSlot, readAt_of_lt inTab, ok_bind, owner, fiberAt_some fiber, readAt_of_lt weighed, count,
    writeAt_of_lt filled, writeAt_of_lt weighed, set_fill seen,
    wrap_of_lt (show (slotsOf ops tab k i).length + 1 < 2 ^ 32 by have := @slotsOf_length_le ops tab k i; omega)]
  refine congrArg Except.ok (Prod.ext ?_ ?_)
  · funext k'
    by_cases same : k' = k
    · subst same; simp [fibersUpTo, present, grown]
    · simp [Function.update_noteq same, fibersUpTo, grown, Ne.symm same]
  · refine List.ext_getElem (by simp [countsUpTo]) fun k' _ _ => ?_
    simp only [countsUpTo, List.getElem_set, List.getElem_map, List.getElem_range, grown, List.length_append]
    split_ifs <;> simp_all

/-- `init_fibers_by_tab` on a table of `2 ^ nums_bits` entries, all owned by
buckets below `numb` whose fibers have room for their slots: the weights
count each bucket's slots, and each fiber starts with them. -/
theorem initFibersByTab_eq {numsBits : Nat} {weights : List Nat} (small : numsBits < 32)
    (sizedTab : tab.length = 2 ^ numsBits) (sized : weights.length = numb)
    (owned : ∀ s (inside : s < tab.length), ops.owner tab[s] < numb)
    (room : ∀ k < numb, ∃ fib, fibers k = some fib ∧ (slotsOf ops tab k (2 ^ numsBits)).length ≤ fib.length) :
    initFibersByTab ops numb numsBits tab fibers weights =
      .ok (fibersUpTo ops tab fibers (2 ^ numsBits), countsUpTo ops tab numb (2 ^ numsBits)) := by
  have zeroed := @forLoop_closed _ (fun i w => writeAt w i 0) (fun j => List.replicate j 0 ++ weights.drop j) 0 numb
    fun j _ below => by
      dsimp only
      rw [writeAt_of_lt (by simp; omega), List.set_append_right _ _ (by simp), List.length_replicate, Nat.sub_self,
        List.drop_eq_getElem_cons (by omega), List.set_cons_zero, List.replicate_succ', List.append_assoc,
        List.singleton_append]
  have filled := @forLoop_closed _ (fiberSlot ops tab) (fun i => (fibersUpTo ops tab fibers i, countsUpTo ops tab numb i))
    0 (2 ^ numsBits) fun i _ below =>
      fiberSlot_closed sizedTab (Nat.pow_le_pow_right (by norm_num) (by omega)) owned room (by omega)
  simp only [List.replicate_zero, List.nil_append, List.drop_zero, Nat.zero_add,
    List.drop_eq_nil_of_le (show weights.length ≤ numb by omega), List.append_nil] at zeroed
  simp only [fibersUpTo_zero, countsUpTo_zero, Nat.zero_add] at filled
  simp only [initFibersByTab, shl1_of_lt small, ok_bind, zeroed, filled]

end Fill

section Table

variable {ops : BucketOps} {numb : Nat} {fibers : Fibers} {weights : List Nat} {tab : List UInt32}

private theorem writeFiber_spec (S : Nat → List Nat) {i : Nat} {fib : List Nat} (present : fibers i = some fib)
    (listed : S i <+: fib) (labels : ∀ s ∈ S i, tab[s]? = some (ops.storedId i)) {j : Nat} (inside : j < (S i).length)
    {t : List UInt32} (sized : t.length = tab.length)
    (agree : ∀ s, (∃ i' < i, s ∈ S i') ∨ s ∈ (S i).take j → t[s]? = tab[s]?) :
    ∃ t', (do let fib ← fiberAt fibers i; let slot ← readAt fib j; writeAt t slot (ops.storedId i)) = .ok t' ∧
      t'.length = tab.length ∧ ∀ s, (∃ i' < i, s ∈ S i') ∨ s ∈ (S i).take (j + 1) → t'[s]? = tab[s]? := by
  have slot : fib[j]? = some (S i)[j] := by
    rw [List.getElem?_eq_getElem (by have := listed.length_le; omega), ← listed.getElem inside]
  have label := labels _ (List.getElem_mem inside)
  have inTab : (S i)[j] < t.length := by
    rw [sized]; exact (List.getElem?_eq_some_iff.mp label).1
  refine ⟨t.set (S i)[j] (ops.storedId i), by simp [fiberAt_some present, readAt, slot, inTab], by simp [sized],
    fun s written => ?_⟩
  by_cases here : (S i)[j] = s
  · subst here; rw [List.getElem?_set_self inTab, label]
  · rw [List.getElem?_set_ne here]
    refine agree s (written.imp_right fun taken => ?_)
    rw [List.take_succ, List.getElem?_eq_getElem inside, List.mem_append] at taken
    exact taken.resolve_right fun last => here (by simp at last; exact last.symm)

theorem initTabByFibers_eq (S : Nat → List Nat)
    (listed : ∀ i < numb, ∃ fib, fibers i = some fib ∧ S i <+: fib)
    (counted : ∀ i < numb, weights[i]? = some (S i).length)
    (labels : ∀ i < numb, ∀ s ∈ S i, tab[s]? = some (ops.storedId i))
    (covered : ∀ s < tab.length, ∃ i < numb, s ∈ S i)
    {tab0 : List UInt32} (sameLength : tab0.length = tab.length) :
    initTabByFibers ops numb tab0 fibers weights = .ok tab := by
  obtain ⟨t, run, sized, agree⟩ : ∃ t, initTabByFibers ops numb tab0 fibers weights = .ok t ∧
      t.length = tab.length ∧ ∀ s, (∃ i' < 0 + numb, s ∈ S i') → t[s]? = tab[s]? :=
    forLoop_ok (fun i (t : List UInt32) => t.length = tab.length ∧ ∀ s, (∃ i' < i, s ∈ S i') → t[s]? = tab[s]?)
      (fun i t _ below ⟨sized, agree⟩ => by
        obtain ⟨fib, present, leads⟩ := listed i (by omega)
        obtain ⟨t', inner, sized', agree'⟩ := @forLoop_ok _ (fun j t => do
              let fib ← fiberAt fibers i
              let slot ← readAt fib j
              writeAt t slot (ops.storedId i))
            (fun j (t : List UInt32) => t.length = tab.length ∧
              ∀ s, (∃ i' < i, s ∈ S i') ∨ s ∈ (S i).take j → t[s]? = tab[s]?) 0 (S i).length
            (fun j t _ inside ⟨sized, agree⟩ =>
              writeFiber_spec S present leads (labels i (by omega)) (by omega) sized agree)
            t ⟨sized, fun s written => agree s (written.resolve_right (by simp))⟩
        refine ⟨t', by simpa [readAt, counted i (by omega)] using inner, sized', fun s ⟨i', lower, member⟩ => ?_⟩
        rcases Nat.lt_succ_iff_lt_or_eq.mp lower with earlier | rfl
        · exact agree' s (.inl ⟨i', earlier, member⟩)
        · exact agree' s (.inr (by simpa using member)))
      ⟨sameLength, fun _ ⟨_, never, _⟩ => absurd never (Nat.not_lt_zero _)⟩
  refine (run.trans (congrArg Except.ok (List.ext_getElem? fun s => ?_)))
  by_cases inside : s < tab.length
  · obtain ⟨i, below, member⟩ := covered s inside
    exact agree s ⟨i, by omega, member⟩
  · rw [List.getElem?_eq_none (by omega), List.getElem?_eq_none (by omega)]

end Table

section RoundTrip

variable {ops : BucketOps} {numb n : Nat}

theorem storedId_owner {id : UInt32} (inverse : ops.idx2id (ops.owner id) = id.toNat) :
    ops.storedId (ops.owner id) = id :=
  UInt32.toNat.inj (by rw [BucketOps.storedId, inverse, UInt32.toNat_ofNat_of_lt id.toNat_lt_size])

private theorem labelled_table (L : Nat → List Nat) (inRange : ∀ k < numb, ∀ s ∈ L k, s < n)
    (unique : ∀ k < numb, ∀ k' < numb, ∀ s ∈ L k, s ∈ L k' → k = k') :
    ∃ tab : List UInt32, tab.length = n ∧ ∀ k < numb, ∀ s ∈ L k, tab[s]? = some (ops.storedId k) := by
  refine ⟨(List.range n).map fun s => ops.storedId (((List.range numb).find? fun k => s ∈ L k).getD 0),
    by simp, fun k below s member => ?_⟩
  rw [List.getElem?_map, List.getElem?_range (inRange k below s member), Option.map_some']
  cases found : (List.range numb).find? fun k => s ∈ L k with
  | none =>
    exact absurd (List.find?_eq_none.mp found k (List.mem_range.mpr below)) (by simpa using member)
  | some k' =>
    have listed : s ∈ L k' := by simpa using List.find?_some found
    have lower : k' < numb := List.mem_range.mp (List.mem_of_find?_eq_some found)
    rw [Option.getD_some, unique k' lower k below s listed member]

private theorem partition_table (L : Nat → List Nat) (inverse : ∀ k < numb, ops.owner (ops.storedId k) = k)
    (sorted : ∀ k < numb, (L k).Sorted (· < ·)) (inRange : ∀ k < numb, ∀ s ∈ L k, s < n)
    (covered : ∀ s < n, ∃ k < numb, s ∈ L k) (unique : ∀ k < numb, ∀ k' < numb, ∀ s ∈ L k, s ∈ L k' → k = k') :
    ∃ tab : List UInt32, tab.length = n ∧ (∀ k < numb, ∀ s ∈ L k, tab[s]? = some (ops.storedId k)) ∧
      ∀ k, slotsOf ops tab k n = if k < numb then L k else [] := by
  obtain ⟨tab, sized, labels⟩ := @labelled_table ops numb n L inRange unique
  have entry : ∀ k < numb, ∀ s ∈ L k, ops.owner (tab.getD s 0) = k := fun k below s member => by
    rw [List.getD_eq_getElem?_getD, labels k below s member, Option.getD_some, inverse k below]
  refine ⟨tab, sized, labels, fun k => ?_⟩
  split_ifs with below
  · exact slotsOf_eq_of_sorted (sorted k below) fun s =>
      ⟨fun member => ⟨inRange k below s member, entry k below s member⟩, fun ⟨lower, owner⟩ => by
        obtain ⟨k', below', member'⟩ := covered s lower
        rw [entry k' below' s member'] at owner
        exact owner ▸ member'⟩
  · refine List.eq_nil_iff_forall_not_mem.mpr fun s member => ?_
    obtain ⟨lower, owner⟩ := mem_slotsOf.mp member
    obtain ⟨k', below', member'⟩ := covered s lower
    rw [entry k' below' s member'] at owner
    omega

/-- The table and the fibers encode one slot assignment. Loading a table of
`2 ^ nums_bits` entries whose ids belong to the `numb` buckets (with
`idx2id (id2idx id) = id`) into fibers with room for their buckets' slots sets
each weight to the number of slots the bucket owns and starts each fiber with
those slots, ascending; `init_tab_by_fibers` of the result rebuilds the table
over any array of its size. Conversely, fibers that partition the slots into
ascending lists, with their lengths as weights, make a table from which
`init_fibers_by_tab` gives back the same fibers and weights, in any fibers
allocated with the same lengths. -/
theorem fibers_table_round_trip {numsBits : Nat} (small : numsBits < 32) :
    (∀ (tab tab0 : List UInt32) (fibers : Fibers) (weights : List Nat),
      tab.length = 2 ^ numsBits → tab0.length = 2 ^ numsBits → weights.length = numb →
      (∀ s (inside : s < tab.length), ops.owner tab[s] < numb ∧ ops.idx2id (ops.owner tab[s]) = tab[s].toNat) →
      (∀ k < numb, ∃ fib, fibers k = some fib ∧ (slotsOf ops tab k (2 ^ numsBits)).length ≤ fib.length) →
      initFibersByTab ops numb numsBits tab fibers weights =
          .ok (fibersUpTo ops tab fibers (2 ^ numsBits), countsUpTo ops tab numb (2 ^ numsBits)) ∧
        (∀ k, (slotsOf ops tab k (2 ^ numsBits)).Sorted (· < ·)) ∧
        initTabByFibers ops numb tab0 (fibersUpTo ops tab fibers (2 ^ numsBits))
          (countsUpTo ops tab numb (2 ^ numsBits)) = .ok tab) ∧
    (∀ (L : Nat → List Nat) (fibers store : Fibers) (tab0 : List UInt32) (weights : List Nat),
      tab0.length = 2 ^ numsBits → weights.length = numb →
      (∀ k < numb, ops.owner (ops.storedId k) = k) →
      (∀ k < numb, fibers k = some (L k) ∧ (L k).Sorted (· < ·) ∧ ∀ s ∈ L k, s < 2 ^ numsBits) →
      (∀ s < 2 ^ numsBits, ∃ k < numb, s ∈ L k) →
      (∀ k < numb, ∀ k' < numb, ∀ s ∈ L k, s ∈ L k' → k = k') →
      (∀ k < numb, ∃ fib, store k = some fib ∧ fib.length = (L k).length) →
      ∃ tab, initTabByFibers ops numb tab0 fibers ((List.range numb).map fun k => (L k).length) = .ok tab ∧
        initFibersByTab ops numb numsBits tab store weights =
          .ok (fun k => if k < numb then fibers k else store k, (List.range numb).map fun k => (L k).length)) := by
  refine ⟨fun tab tab0 fibers weights sizedTab sized0 sized owned room => ⟨initFibersByTab_eq small sizedTab sized
    (fun s inside => (owned s inside).1) room, fun k => slotsOf_sorted k _, ?_⟩,
    fun L fibers store tab0 weights sized0 sized inverse parts covered unique room => ?_⟩
  · refine initTabByFibers_eq (fun k => slotsOf ops tab k (2 ^ numsBits)) (fun k below => ?_)
      (fun k below => by simp [countsUpTo, below]) (fun k _ s member => ?_) (fun s inside => ?_) (by omega)
    · obtain ⟨fib, present, _⟩ := room k below
      exact ⟨_ ++ fib.drop (slotsOf ops tab k (2 ^ numsBits)).length, by simp [fibersUpTo, present],
        List.prefix_append _ _⟩
    · obtain ⟨lower, owner⟩ := mem_slotsOf.mp member
      have inTab : s < tab.length := by omega
      rw [List.getD_eq_getElem?_getD, List.getElem?_eq_getElem inTab, Option.getD_some] at owner
      rw [List.getElem?_eq_getElem inTab, ← owner, storedId_owner (owned s inTab).2]
    · exact ⟨_, (owned s inside).1, mem_slotsOf.mpr ⟨by omega,
        by simp [List.getD_eq_getElem?_getD, List.getElem?_eq_getElem inside]⟩⟩
  · obtain ⟨tab, sizedTab, labels, slots⟩ := @partition_table ops numb (2 ^ numsBits) L inverse
      (fun k below => (parts k below).2.1) (fun k below => (parts k below).2.2) covered unique
    refine ⟨tab, initTabByFibers_eq L (fun k below => ⟨L k, (parts k below).1, List.prefix_refl _⟩)
      (fun k below => by simp [below]) labels (fun s inside => covered s (by omega)) (by omega), ?_⟩
    rw [initFibersByTab_eq small sizedTab sized (fun s inside => ?_) (fun k below => ?_)]
    · refine congrArg Except.ok (Prod.ext (funext fun k => ?_) (List.map_congr_left fun k member => ?_))
      · by_cases below : k < numb
        · obtain ⟨fib, present, len⟩ := room k below
          simp [fibersUpTo, present, slots, below, len, (parts k below).1]
        · simp [fibersUpTo, slots, below]
      · rw [slots, if_pos (List.mem_range.mp member)]
    · have member : s ∈ slotsOf ops tab (ops.owner tab[s]) (2 ^ numsBits) :=
        mem_slotsOf.mpr ⟨by omega, by simp [List.getD_eq_getElem?_getD, List.getElem?_eq_getElem inside]⟩
      rw [slots] at member
      split_ifs at member with below
      · exact below
      · cases member
    · obtain ⟨fib, present, len⟩ := room k below
      exact ⟨fib, present, by rw [slots, if_pos below, len]⟩

/-- A concrete instance: four slots shared by two buckets, slots 0 and 2 in
one and 1 and 3 in the other, loaded into fibers of two entries. -/
theorem fibers_table_round_trip_two_buckets :
    (initFibersByTab ⟨fun _ => 1, id, id⟩ 2 2 [0, 1, 0, 1] (fun _ => some [0, 0]) [0, 0] =
        .ok (fibersUpTo ⟨fun _ => 1, id, id⟩ [0, 1, 0, 1] (fun _ => some [0, 0]) (2 ^ 2),
          countsUpTo ⟨fun _ => 1, id, id⟩ [0, 1, 0, 1] 2 (2 ^ 2)) ∧
      (∀ k, (slotsOf ⟨fun _ => 1, id, id⟩ [0, 1, 0, 1] k (2 ^ 2)).Sorted (· < ·)) ∧
      initTabByFibers ⟨fun _ => 1, id, id⟩ 2 [0, 0, 0, 0]
          (fibersUpTo ⟨fun _ => 1, id, id⟩ [0, 1, 0, 1] (fun _ => some [0, 0]) (2 ^ 2))
          (countsUpTo ⟨fun _ => 1, id, id⟩ [0, 1, 0, 1] 2 (2 ^ 2)) = .ok [0, 1, 0, 1]) ∧
    ∃ tab, initTabByFibers ⟨fun _ => 1, id, id⟩ 2 [0, 0, 0, 0] (fun k => some (if k = 0 then [0, 2] else [1, 3]))
        ((List.range 2).map fun k => (if k = 0 then [0, 2] else [1, 3]).length) = .ok tab ∧
      initFibersByTab ⟨fun _ => 1, id, id⟩ 2 2 tab (fun _ => some [0, 0]) [0, 0] =
        .ok (fun k => if k < 2 then some (if k = 0 then [0, 2] else [1, 3]) else some [0, 0],
          (List.range 2).map fun k => (if k = 0 then [0, 2] else [1, 3]).length) :=
  ⟨(fibers_table_round_trip (by decide)).1 [0, 1, 0, 1] [0, 0, 0, 0] (fun _ => some [0, 0]) [0, 0] rfl rfl rfl
      (by decide) fun k below => ⟨[0, 0], rfl,
        (by decide : ∀ k < 2, (slotsOf ⟨fun _ => 1, id, id⟩ [0, 1, 0, 1] k (2 ^ 2)).length ≤ 2) k below⟩,
    (fibers_table_round_trip (by decide)).2 (fun k => if k = 0 then [0, 2] else [1, 3])
      (fun k => some (if k = 0 then [0, 2] else [1, 3])) (fun _ => some [0, 0]) [0, 0, 0, 0] [0, 0] rfl rfl
      (by decide) (by decide) (by decide) (by decide) fun k below => ⟨[0, 0], rfl,
        (by decide : ∀ k < 2, 2 = (if k = 0 then [0, 2] else [1, 3]).length) k below⟩⟩

/-- Two slots owned by bucket 0, loaded into a fiber allocated with one entry:
`init_fibers_by_tab` writes the second slot past the end of the fiber. -/
theorem initFibersByTab_short_fiber_overflows :
    initFibersByTab ⟨fun _ => 1, id, id⟩ 1 1 [0, 0] (fun _ => some [0]) [0] = .error .outOfBounds := rfl

end RoundTrip

end Reiser4Volume.Fsx32
