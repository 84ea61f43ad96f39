import Reiser4Volume.Fsx32.Encoding

/-! What the rebalancers of fsx32.c do to a system table, slot by slot. Each
of their loops writes one slot per iteration, read from a known position of a
fiber, so after any number of iterations the table is the old one with some
slots carrying new ids (`relabel`). A fiber is the ascending list of its
bucket's slots: the slot at position `r` of it is the one with `r` slots of
the bucket below it. -/

namespace Reiser4Volume.Fsx32

section Rank

variable (p : Nat → Bool) {s n : Nat}

theorem filter_range_split (lower : s < n) (holds : p s) :
    ∃ rest, (List.range n).filter p = (List.range s).filter p ++ s :: rest := by
  obtain ⟨m, rfl⟩ : ∃ m, n = s + 1 + m := ⟨n - s - 1, by omega⟩
  refine ⟨((List.range m).map (s + 1 + ·)).filter p, ?_⟩
  rw [List.range_add, List.filter_append, List.range_succ, List.filter_append]
  simp [holds]

theorem getElem?_filter_range_rank (lower : s < n) (holds : p s) :
    ((List.range n).filter p)[((List.range s).filter p).length]? = some s := by
  obtain ⟨rest, split⟩ := filter_range_split p lower holds
  rw [split, List.getElem?_append_right le_rfl, Nat.sub_self, List.getElem?_cons_zero]

theorem length_filter_range_lt (lower : s < n) (holds : p s) :
    ((List.range s).filter p).length < ((List.range n).filter p).length :=
  (List.getElem?_eq_some_iff.mp (getElem?_filter_range_rank p lower holds)).1

theorem rank_of_getElem? {r : Nat} (at_r : ((List.range n).filter p)[r]? = some s) :
    s < n ∧ p s ∧ ((List.range s).filter p).length = r := by
  obtain ⟨inside, first⟩ := List.getElem?_eq_some_iff.mp at_r
  have member := first ▸ List.getElem_mem inside
  rw [List.mem_filter, List.mem_range] at member
  obtain ⟨_, second⟩ := List.getElem?_eq_some_iff.mp (getElem?_filter_range_rank p member.1 member.2)
  exact ⟨member.1, member.2,
    ((List.nodup_range n).filter p).getElem_inj_iff.mp (second.trans first.symm)⟩

theorem take_filter_range (m : Nat) :
    ((List.range n).filter p).take m =
      (List.range n).filter fun s => p s && decide (((List.range s).filter p).length < m) := by
  induction n with
  | zero => simp
  | succ n ih =>
    rw [List.range_succ, List.filter_append, List.take_append_eq_append_take, ih, List.filter_append]
    congr 1
    by_cases holds : p n
    · by_cases room : ((List.range n).filter p).length < m
      · obtain ⟨d, more⟩ : ∃ d, m - ((List.range n).filter p).length = d + 1 :=
          ⟨_, (Nat.succ_pred_eq_of_pos (by omega)).symm⟩
        simp [holds, room, more]
      · simp [holds, room, Nat.sub_eq_zero_of_le (Nat.not_lt.mp room)]
    · simp [holds]

theorem length_filter_or {l : List Nat} {f g : Nat → Bool} (disjoint : ∀ x ∈ l, ¬(f x ∧ g x)) :
    (l.filter fun x => f x || g x).length = (l.filter f).length + (l.filter g).length := by
  induction l with
  | nil => rfl
  | cons x l ih =>
    have apart := disjoint x (List.mem_cons_self _ _)
    have rest := ih fun y member => disjoint y (List.mem_cons_of_mem _ member)
    by_cases hf : f x = true <;> by_cases hg : g x = true <;> simp [List.filter_cons, hf, hg] at apart ⊢ <;> omega

theorem length_filter_range_between {a b : Nat} (le : a ≤ b) (within : b ≤ ((List.range n).filter p).length) :
    ((List.range n).filter fun s => p s && decide (a ≤ ((List.range s).filter p).length) &&
      decide (((List.range s).filter p).length < b)).length = b - a := by
  have first : ∀ m ≤ ((List.range n).filter p).length,
      ((List.range n).filter fun s => p s && decide (((List.range s).filter p).length < m)).length = m :=
    fun m le => by rw [← take_filter_range, List.length_take, Nat.min_eq_left le]
  have split := @length_filter_or (List.range n) (fun s => p s && decide (((List.range s).filter p).length < a))
    (fun s => p s && decide (a ≤ ((List.range s).filter p).length) &&
      decide (((List.range s).filter p).length < b)) fun s _ both => by
    simp only [Bool.and_eq_true, decide_eq_true_eq] at both
    obtain ⟨⟨_, early⟩, ⟨_, late⟩, _⟩ := both
    omega
  have merged : ((List.range n).filter fun s => (p s && decide (((List.range s).filter p).length < a)) ||
      (p s && decide (a ≤ ((List.range s).filter p).length) && decide (((List.range s).filter p).length < b))) =
      (List.range n).filter fun s => p s && decide (((List.range s).filter p).length < b) :=
    List.filter_congr fun s _ => by
      cases p s
      · rfl
      · by_cases early : ((List.range s).filter p).length < a
        · simp [early, show ((List.range s).filter p).length < b by omega]
        · simp [early, Nat.not_lt.mp early]
  rw [merged, first b within, first a (by omega)] at split
  omega

end Rank

section Fibers

variable {ops : BucketOps} {tab : List UInt32} {k s n : Nat}

theorem slotsOf_rank (lower : s < n) (owner : ops.owner (tab.getD s 0) = k) :
    (slotsOf ops tab k n)[(slotsOf ops tab k s).length]? = some s :=
  getElem?_filter_range_rank _ lower (by simpa using owner)

theorem slotsOf_rank_lt (lower : s < n) (owner : ops.owner (tab.getD s 0) = k) :
    (slotsOf ops tab k s).length < (slotsOf ops tab k n).length :=
  length_filter_range_lt _ lower (by simpa using owner)

theorem rank_of_slotsOf {r : Nat} (at_r : (slotsOf ops tab k n)[r]? = some s) :
    s < n ∧ ops.owner (tab.getD s 0) = k ∧ (slotsOf ops tab k s).length = r :=
  let ⟨lower, holds, rank⟩ := rank_of_getElem? _ at_r
  ⟨lower, of_decide_eq_true holds, rank⟩

theorem take_slotsOf (m : Nat) :
    (slotsOf ops tab k n).take m =
      (List.range n).filter fun s => ops.owner (tab.getD s 0) = k ∧ (slotsOf ops tab k s).length < m := by
  rw [slotsOf, take_filter_range]
  simp only [Bool.decide_and]
  rfl

theorem sum_countsUpTo_eq (m : Nat) :
    (countsUpTo ops tab m n).sum = ((List.range n).filter fun s => ops.owner (tab.getD s 0) < m).length := by
  induction n with
  | zero => simp [countsUpTo, slotsOf, List.map_const']
  | succ n ih =>
    have grown : countsUpTo ops tab m (n + 1) = (List.range m).map fun k =>
        (slotsOf ops tab k n).length + if ops.owner (tab.getD n 0) = k then 1 else 0 := by
      simp only [countsUpTo, slotsOf_succ, List.length_append, apply_ite List.length, List.length_singleton,
        List.length_nil]
    rw [grown, sum_map_range, Finset.sum_add_distrib, ← sum_map_range, ← countsUpTo, ih, Finset.sum_ite_eq,
      List.range_succ, List.filter_append, List.length_append]
    by_cases mine : ops.owner (tab.getD n 0) < m
    · simp only [Finset.mem_range, mine, if_true, List.filter_cons, List.filter_nil, decide_True,
        List.length_singleton]
    · simp only [Finset.mem_range, mine, if_false, List.filter_cons, List.filter_nil, decide_False,
        Bool.false_eq_true, List.length_nil]

theorem sum_countsUpTo {m : Nat} (owned : ∀ s < n, ops.owner (tab.getD s 0) < m) :
    (countsUpTo ops tab m n).sum = n := by
  rw [sum_countsUpTo_eq, List.filter_eq_self.mpr fun s member => decide_eq_true (owned s (List.mem_range.mp member)),
    List.length_range]

theorem map_range_getD (l : List Nat) : (List.range l.length).map (l.getD · 0) = l :=
  List.ext_getElem (by simp) fun k _ inside => by
    rw [List.getElem_map, List.getElem_range, List.getD_eq_getElem?_getD, List.getElem?_eq_getElem inside,
      Option.getD_some]

theorem eq_of_sum_eq_of_ne {f g : Nat → Nat} {m t : Nat} (inside : t < m)
    (sums : ∑ k ∈ Finset.range m, f k = ∑ k ∈ Finset.range m, g k) (others : ∀ k < m, k ≠ t → f k = g k) :
    f t = g t := by
  have member := Finset.mem_range.mpr inside
  have rest : ∑ k ∈ (Finset.range m).erase t, f k = ∑ k ∈ (Finset.range m).erase t, g k :=
    Finset.sum_congr rfl fun k erased =>
      others k (Finset.mem_range.mp (Finset.mem_of_mem_erase erased)) (Finset.ne_of_mem_erase erased)
  rw [← Finset.add_sum_erase _ _ member, ← Finset.add_sum_erase _ _ member, rest] at sums
  omega

end Fibers

theorem readAt_of_getElem? {α : Type} {a : List α} {i : Nat} {v : α} (found : a[i]? = some v) :
    readAt a i = .ok v := by
  simp [readAt, found]

section Relabel

variable {tab : List UInt32} {moved moved' : Nat → Option UInt32}

/-- `tab` with each slot `s` that `moved` maps to an id carrying that id. -/
def relabel (tab : List UInt32) (moved : Nat → Option UInt32) : List UInt32 :=
  (List.range tab.length).map fun s => (moved s).getD (tab.getD s 0)

@[simp] theorem length_relabel : (relabel tab moved).length = tab.length := by
  simp [relabel]

theorem getElem?_relabel (s : Nat) : (relabel tab moved)[s]? = tab[s]?.map fun id => (moved s).getD id := by
  by_cases inside : s < tab.length
  · simp [relabel, inside, List.getElem?_eq_getElem inside, List.getD_eq_getElem?_getD]
  · simp [relabel, List.getElem?_eq_none (Nat.not_lt.mp inside)]; omega

theorem relabel_none (tab : List UInt32) : relabel tab (fun _ => none) = tab :=
  List.ext_getElem? fun s => by rw [getElem?_relabel]; cases tab[s]? <;> rfl

theorem relabel_congr (same : ∀ s < tab.length, moved s = moved' s) : relabel tab moved = relabel tab moved' :=
  List.map_congr_left fun s member => by rw [same s (List.mem_range.mp member)]

theorem writeAt_relabel {slot : Nat} (inside : slot < tab.length) (id : UInt32) :
    writeAt (relabel tab moved) slot id = .ok (relabel tab (Function.update moved slot (some id))) := by
  rw [writeAt_of_lt (by simpa using inside)]
  refine congrArg Except.ok (List.ext_getElem? fun s => ?_)
  by_cases here : s = slot
  · subst here
    rw [List.getElem?_set_self (by simpa using inside), getElem?_relabel, List.getElem?_eq_getElem inside]
    simp
  · rw [List.getElem?_set_ne (Ne.symm here), getElem?_relabel, getElem?_relabel, Function.update_noteq here]

theorem relabel_entry {s : Nat} (inside : s < tab.length) :
    (relabel tab moved)[s]? = tab[s]? ∨ ∃ id, moved s = some id ∧ (relabel tab moved)[s]? = some id := by
  rw [getElem?_relabel, List.getElem?_eq_getElem inside]
  cases moved s with
  | none => exact .inl rfl
  | some id => exact .inr ⟨id, rfl, rfl⟩

end Relabel

end Reiser4Volume.Fsx32
