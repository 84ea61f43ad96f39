import Reiser4Volume.Fsx32.Calibrate

/-! The state a reconfiguration works on, and the two encodings of one slot
assignment: the system table (slot to brick id) and the fibers (bucket to its
slots in ascending order), with the loops of fsx32.c that convert between them. -/

namespace Reiser4Volume.Fsx32

/-- The accessors of `struct bucket_ops` the distribution core calls. -/
structure BucketOps where
  /-- `cap_at`: the capacity of the bucket at a position (u64). -/
  capAt : Nat → Nat
  /-- `idx2id`: the brick id of the bucket at a position (u64). -/
  idx2id : Nat → Nat
  /-- `id2idx`: the position of the bucket with a given brick id. -/
  id2idx : Nat → Nat

/-- What `tab[s] = idx2id(i)` stores: the table is a `u32` array. -/
def BucketOps.storedId (ops : BucketOps) (i : Nat) : UInt32 := UInt32.ofNat (ops.idx2id i)

/-- The position `id2idx(tab[s])` of the bucket that owns a table entry. -/
def BucketOps.owner (ops : BucketOps) (id : UInt32) : Nat := ops.id2idx id.toNat

/-- The fiber slot of each bucket of the vector (`fib_at`); `none` is `NULL`. -/
abbrev Fibers := Nat → Option (List Nat)

/-- The memory a call of the distribution core reads and writes besides its
arguments: the fields of `struct fsx32_dcx` the code uses, the fibers of the
current bucket vector, and the allocator's outcomes still to come. -/
structure World where
  numb : Nat
  numsBits : Nat
  weights : List Nat
  /-- `dcx->tab`: the working clone during `inc`/`dec`, the table itself for `spl`. -/
  tab : Option (List UInt32)
  fibers : Fibers
  alloc : List Bool

/-- `fiber_at(vec, k)`, dereferenced. -/
def fiberAt (fibers : Fibers) (k : Nat) : Except Fault (List Nat) :=
  match fibers k with
  | some fib => .ok fib
  | none => .error .nullDeref

@[simp] theorem fiberAt_some {fibers : Fibers} {k : Nat} {fib : List Nat} (present : fibers k = some fib) :
    fiberAt fibers k = .ok fib := by
  simp [fiberAt, present]

/-- One iteration of the slot loop of `init_fibers_by_tab`:
`fib[weights[id2idx(tab[i])]++] = i`. -/
def fiberSlot (ops : BucketOps) (tab : List UInt32) (i : Nat) (st : Fibers × List Nat) :
    Except Fault (Fibers × List Nat) := do
  let id ← readAt tab i
  let k := ops.owner id
  let fib ← fiberAt st.1 k
  let pos ← readAt st.2 k
  let fib ← writeAt fib pos i
  let weights ← writeAt st.2 k (wrap 32 (pos + 1))
  pure (Function.update st.1 k (some fib), weights)

/-- `init_fibers_by_tab`: zero the weights of buckets `0..numb`, then append
every slot to the fiber of its owner, counting it in that owner's weight. -/
def initFibersByTab (ops : BucketOps) (numb numsBits : Nat) (tab : List UInt32) (fibers : Fibers)
    (weights : List Nat) : Except Fault (Fibers × List Nat) := do
  let nums ← shl1 numsBits
  let weights ← forLoop (fun i w => writeAt w i 0) 0 numb weights
  forLoop (fiberSlot ops tab) 0 nums (fibers, weights)

/-- `init_tab_by_fibers`: write the id of bucket `i` into the first
`weights[i]` slots its fiber lists. -/
def initTabByFibers (ops : BucketOps) (numb : Nat) (tab : List UInt32) (fibers : Fibers)
    (weights : List Nat) : Except Fault (List UInt32) :=
  forLoop (fun i tab => do
      let len ← readAt weights i
      forLoop (fun j tab => do
          let fib ← fiberAt fibers i
          let slot ← readAt fib j
          writeAt tab slot (ops.storedId i))
        0 len tab)
    0 numb tab

/-- The slots below `n` whose entry belongs to bucket `k`, in ascending order. -/
def slotsOf (ops : BucketOps) (tab : List UInt32) (k n : Nat) : List Nat :=
  (List.range n).filter fun s => ops.owner (tab.getD s 0) = k

/-- The allocated length of a fiber slot; `NULL` holds nothing. -/
def fiberLength (fib : Option (List Nat)) : Nat := (fib.map List.length).getD 0

theorem slotsOf_succ (ops : BucketOps) (tab : List UInt32) (k n : Nat) :
    slotsOf ops tab k (n + 1) =
      slotsOf ops tab k n ++ if ops.owner (tab.getD n 0) = k then [n] else [] := by
  simp only [slotsOf, List.range_succ, List.filter_append, List.filter_cons, List.filter_nil]
  split <;> simp_all

/-- The invariant of the slot loop after slots `0..i`: every weight counts the
slots of its bucket seen so far, and no count exceeds the allocated fiber. -/
def SlotInv (ops : BucketOps) (numb : Nat) (tab : List UInt32) (fibers0 : Fibers) (i : Nat)
    (st : Fibers × List Nat) : Prop :=
  st.2.length = numb ∧ (∀ k, fiberLength (st.1 k) = fiberLength (fibers0 k)) ∧
    ∀ k (inside : k < st.2.length), st.2[k] = (slotsOf ops tab k i).length ∧
      (slotsOf ops tab k i).length ≤ fiberLength (fibers0 k)

theorem zeroLoop_spec {numb : Nat} {weights zeros : List Nat}
    (run : forLoop (fun i w => writeAt w i 0) 0 numb weights = .ok zeros) :
    zeros.length = weights.length ∧ ∀ k (inside : k < zeros.length), k < numb → zeros[k] = 0 := by
  have := forLoop_inv (fun i (w : List Nat) => w.length = weights.length ∧
      ∀ k (inside : k < w.length), k < i → w[k] = 0)
    (fun i w w' _ _ inv step => by
      obtain ⟨len, zero⟩ := inv
      have inside : i < w.length := by
        by_contra outside
        rw [writeAt_of_le (by omega)] at step
        cases step
      rw [writeAt_of_lt inside] at step
      cases step
      refine ⟨by simp [len], fun k inside' below => ?_⟩
      rw [List.getElem_set]
      split
      · rfl
      · exact zero k (by simpa using inside') (by omega))
    ⟨rfl, fun _ _ below => absurd below (Nat.not_lt_zero _)⟩ run
  simpa using this

theorem fiberSlot_inv {ops : BucketOps} {numb : Nat} {tab : List UInt32} {fibers0 : Fibers} {i : Nat}
    {st st' : Fibers × List Nat} (small : i < 2 ^ 31) (inv : SlotInv ops numb tab fibers0 i st)
    (step : fiberSlot ops tab i st = .ok st') : SlotInv ops numb tab fibers0 (i + 1) st' := by
  obtain ⟨len, lengths, counts⟩ := inv
  have inTab : i < tab.length := by
    by_contra outside
    simp [fiberSlot, readAt_of_le (Nat.not_lt.mp outside)] at step
  simp only [fiberSlot, readAt_of_lt inTab, ok_bind] at step
  cases present : st.1 (ops.owner tab[i]) with
  | none => simp [fiberAt, present] at step
  | some fib =>
  simp only [fiberAt_some present, ok_bind] at step
  have inWeights : ops.owner tab[i] < st.2.length := by
    by_contra outside
    simp [readAt_of_le (Nat.not_lt.mp outside)] at step
  obtain ⟨counted, bounded⟩ := counts _ inWeights
  have inFiber : st.2[ops.owner tab[i]] < fib.length := by
    by_contra outside
    simp [readAt_of_lt inWeights, writeAt_of_le (Nat.not_lt.mp outside)] at step
  have fibLen : fiberLength (fibers0 (ops.owner tab[i])) = fib.length := by
    rw [← lengths]; simp [fiberLength, present]
  have slotsSmall : (slotsOf ops tab (ops.owner tab[i]) i).length ≤ i := by
    simpa [slotsOf] using (List.filter_sublist (List.range i)).length_le
  simp only [readAt_of_lt inWeights, writeAt_of_lt inFiber, writeAt_of_lt inWeights, ok_bind] at step
  cases step
  refine ⟨by simp [len], fun k => ?_, fun k inside => ?_⟩
  · by_cases same : k = ops.owner tab[i]
    · subst same; simpa [fiberLength] using fibLen.symm
    · simp [Function.update_noteq same, lengths]
  · have owner : ops.owner (tab.getD i 0) = ops.owner tab[i] := by
      simp [List.getD_eq_getElem?_getD, List.getElem?_eq_getElem inTab]
    simp only [List.length_set] at inside
    rw [List.getElem_set, slotsOf_succ, owner]
    by_cases same : ops.owner tab[i] = k
    · subst same
      simp only [if_true, List.length_append, List.length_singleton]
      rw [wrap_of_lt (by omega)]
      omega
    · simp only [same, if_false, List.append_nil]
      exact counts k inside

theorem initFibersByTab_within {ops : BucketOps} {numb numsBits : Nat} {tab : List UInt32}
    {fibers : Fibers} {weights : List Nat} {result : Fibers × List Nat}
    (sized : weights.length = numb)
    (run : initFibersByTab ops numb numsBits tab fibers weights = .ok result) :
    ∀ k < numb, (slotsOf ops tab k (2 ^ numsBits)).length ≤ fiberLength (fibers k) := by
  have bits : numsBits < 32 := by
    by_contra big; simp [initFibersByTab, shl1, big] at run
  simp only [initFibersByTab, shl1_of_lt bits, ok_bind] at run
  cases zeroing : forLoop (fun i w => writeAt w i 0) 0 numb weights with
  | error e => simp [zeroing] at run
  | ok zeros =>
  simp only [zeroing, ok_bind] at run
  obtain ⟨zerosLen, zero⟩ := zeroLoop_spec zeroing
  have init : SlotInv ops numb tab fibers 0 (fibers, zeros) :=
    ⟨show zeros.length = numb by omega, fun _ => rfl, fun k inside => ⟨zero k inside (by simp at inside; omega), by simp [slotsOf]⟩⟩
  have small : 2 ^ numsBits ≤ 2 ^ 31 := Nat.pow_le_pow_right (by norm_num) (by omega)
  have final := forLoop_inv (SlotInv ops numb tab fibers)
    (fun i st st' _ high inv step => fiberSlot_inv (by omega) inv step) init run
  intro k below
  simpa using (final.2.2 k (by rw [final.1]; exact below)).2

theorem fiberSlot_updates {ops : BucketOps} {tab : List UInt32} {i : Nat} {st st' : Fibers × List Nat}
    (step : fiberSlot ops tab i st = .ok st') : ∃ k fib, st'.1 = Function.update st.1 k (some fib) := by
  simp only [fiberSlot, bind_eq_ok] at step
  obtain ⟨_, _, _, _, _, _, _, _, _, _, done⟩ := step
  cases done
  exact ⟨_, _, rfl⟩

theorem fiberSlot_fault {ops : BucketOps} {numb : Nat} {tab : List UInt32} {i : Nat} {st : Fibers × List Nat}
    {e : Fault} (owned : ∀ s (inside : s < tab.length), ops.owner tab[s] < numb)
    (present : ∀ k < numb, (st.1 k).isSome) (step : fiberSlot ops tab i st = .error e) : e = .outOfBounds := by
  simp only [fiberSlot, bind_eq_error] at step
  rcases step with read | ⟨id, read, step⟩
  · exact readAt_fault read
  have inTab : i < tab.length := by
    by_contra outside; simp [readAt_of_le (Nat.not_lt.mp outside)] at read
  obtain ⟨fib, present⟩ := Option.isSome_iff_exists.mp (present _ (owned i inTab))
  simp only [readAt_of_lt inTab, Except.ok.injEq] at read
  subst read
  rcases step with fiber | ⟨_, _, step⟩
  · simp [fiberAt_some present] at fiber
  rcases step with pos | ⟨_, _, step⟩
  · exact readAt_fault pos
  rcases step with write | ⟨_, _, step⟩
  · exact writeAt_fault write
  rcases step with write | ⟨_, _, step⟩
  · exact writeAt_fault write
  · cases step

theorem initFibersByTab_overflow {ops : BucketOps} {numb numsBits : Nat} {tab : List UInt32}
    {fibers : Fibers} {weights : List Nat} (sized : weights.length = numb) (small : numsBits < 32)
    (owned : ∀ s (inside : s < tab.length), ops.owner tab[s] < numb)
    (present : ∀ k < numb, (fibers k).isSome)
    (over : ∃ k < numb, fiberLength (fibers k) < (slotsOf ops tab k (2 ^ numsBits)).length) :
    initFibersByTab ops numb numsBits tab fibers weights = .error .outOfBounds := by
  obtain ⟨k, below, more⟩ := over
  cases run : initFibersByTab ops numb numsBits tab fibers weights with
  | ok result => exact absurd (initFibersByTab_within sized run k below) (Nat.not_le.mpr more)
  | error e =>
  congr
  simp only [initFibersByTab, shl1_of_lt small, ok_bind, bind_eq_error] at run
  rcases run with zeroing | ⟨_, _, run⟩
  · exact forLoop_fault (fun _ _ => True) (· = .outOfBounds) (fun _ _ _ _ _ => trivial)
      (fun _ _ _ _ write => writeAt_fault write) trivial zeroing
  · exact forLoop_fault (fun _ (st : Fibers × List Nat) => ∀ k < numb, (st.1 k).isSome) (· = .outOfBounds)
      (fun _ st st' inv step k below => by
        obtain ⟨j, fib, updated⟩ := fiberSlot_updates step
        by_cases same : k = j
        · simp [updated, same]
        · simpa [updated, Function.update_noteq same] using inv k below)
      (fun _ _ _ inv step => fiberSlot_fault owned inv step) present run

/-- `release_fibers`: free the fibers of buckets `0..numb` and clear their slots. -/
def releaseFibers (numb : Nat) (fibers : Fibers) : Fibers :=
  fun k => if k < numb then none else fibers k

/-- The allocation loop of `create_fibers`: a zeroed fiber of `new_weights[i]`
slots for buckets `i, i + 1, ...`; `false` at the first allocation that fails. -/
def allocFibers (weights : List Nat) : Nat → Nat → Fibers → List Bool →
    Except Fault (Bool × Fibers × List Bool)
  | _, 0, fibers, alloc => .ok (true, fibers, alloc)
  | i, n + 1, fibers, alloc => do
    let len ← readAt weights i
    match allocNext alloc with
    | (false, alloc) => pure (false, fibers, alloc)
    | (true, alloc) =>
      allocFibers weights (i + 1) n (Function.update fibers i (some (List.replicate len 0))) alloc

theorem allocFibers_succeeds (weights : List Nat) {start n : Nat} (sized : start + n ≤ weights.length)
    (fibers : Fibers) :
    allocFibers weights start n fibers [] =
      .ok (true, (fun k => if start ≤ k ∧ k < start + n then some (List.replicate (weights.getD k 0) 0)
        else fibers k), []) := by
  induction n generalizing start fibers with
  | zero =>
    simp only [allocFibers, Nat.add_zero, Except.ok.injEq, Prod.mk.injEq, true_and, and_true]
    funext k
    rw [if_neg (by omega)]
  | succ n ih =>
    have inside : start < weights.length := by omega
    simp only [allocFibers, readAt_of_lt inside, ok_bind, allocNext_nil, @ih (start + 1) (by omega)]
    congr
    funext k
    by_cases low : start = k
    · subst low; simp [List.getD_eq_getElem?_getD, List.getElem?_eq_getElem inside]
    · simp only [Function.update_noteq (Ne.symm low)]
      by_cases range : start + 1 ≤ k ∧ k < start + 1 + n
      · simp only [range, and_self, if_true]; rw [if_pos (by omega)]
      · rw [if_neg range, if_neg (by omega)]

/-- `create_fibers`: `-ENOMEM` when a fiber cannot be allocated; otherwise the
fibers are filled from the table and `new_weights` is recounted from it. The
weights array comes back with the result because the code rewrites it in place. -/
def createFibers (ops : BucketOps) (numsBits : Nat) (tab : List UInt32) (newNumb : Nat)
    (newWeights : List Nat) (w : World) : Except Fault (Int × List Nat × World) := do
  let (ok, fibers, alloc) ← allocFibers newWeights 0 newNumb w.fibers w.alloc
  if !ok then return (-ENOMEM, newWeights, { w with fibers, alloc })
  let (fibers, weights) ← initFibersByTab ops newNumb numsBits tab fibers newWeights
  return (0, weights, { w with fibers, alloc })

/-- `replace_fibers`: release the old fibers, then create the new ones. -/
def replaceFibers (ops : BucketOps) (numsBits : Nat) (tab : List UInt32) (oldNumb newNumb : Nat)
    (newWeights : List Nat) (w : World) : Except Fault (Int × List Nat × World) :=
  createFibers ops numsBits tab newNumb newWeights { w with fibers := releaseFibers oldNumb w.fibers }

end Reiser4Volume.Fsx32
