import Reiser4Volume.Fsx32.Fibers

/-! The three rebalancers of fsx32.c. Each rewrites a system table so that the
slots follow new weights: `balance_inc` moves the tails of the survivors'
fibers to a new (or grown) bucket, `balance_dec` hands the slots of a removed
(or shrunk) bucket out to the others, and `balance_spl` stretches the table by
a power of two and then moves donors' tails to recipients. The branches under
`FSX32_PRECISE`, a macro defined to 0, are compiled out and not modelled. -/

namespace Reiser4Volume.Fsx32

/-- `exc[i] = old_weights[i'] - new_weights[i]` in u32, where `i'` is the old
position of the bucket now at `i`: one less right of `target_pos` when a bucket
is inserted there. -/
def excessAt (oldWeights newWeights : List Nat) (targetPos : Nat) (new : Bool) (i : Nat)
    (exc : List Nat) : Except Fault (List Nat) := do
  let old ← readAt oldWeights (if new ∧ targetPos < i then i - 1 else i)
  let weight ← readAt newWeights i
  writeAt exc i (subWrap 32 old weight)

/-- The stealing loop for survivor `i`: the entries at positions
`new_weights[i] + j`, `j < exc[i]`, of its fiber get the id of `target_pos`. -/
def stealTail (ops : BucketOps) (fibers : Fibers) (newWeights exc : List Nat) (targetPos i : Nat)
    (tab : List UInt32) : Except Fault (List UInt32) := do
  let count ← readAt exc i
  forLoop (fun j tab => do
      let fib ← fiberAt fibers i
      let base ← readAt newWeights i
      let slot ← readAt fib (wrap 32 (base + j))
      writeAt tab slot (ops.storedId targetPos))
    0 count tab

/-- `balance_inc` on the table `tab` (`dcx->tab`), with the fibers of the new
bucket vector. -/
def balanceInc (ops : BucketOps) (newNumb : Nat) (tab : List UInt32) (oldWeights newWeights : List Nat)
    (targetPos : Nat) (new : Bool) (w : World) : Except Fault (Int × List UInt32 × World) :=
  match allocNext w.alloc with
  | (false, alloc) => .ok (-ENOMEM, tab, { w with alloc })
  | (true, alloc) => do
    let exc ← forLoop (excessAt oldWeights newWeights targetPos new) 0 targetPos
      (List.replicate newNumb 0)
    let exc ← forLoop (excessAt oldWeights newWeights targetPos new) (targetPos + 1)
      (newNumb - (targetPos + 1)) exc
    let tab ← forLoop (stealTail ops w.fibers newWeights exc targetPos) 0 targetPos tab
    let tab ← forLoop (stealTail ops w.fibers newWeights exc targetPos) (targetPos + 1)
      (newNumb - (targetPos + 1)) tab
    pure (0, tab, { w with alloc })

theorem stealTail_of_zero {ops : BucketOps} {fibers : Fibers} {newWeights exc : List Nat}
    {targetPos i : Nat} {tab : List UInt32} (counted : i < exc.length) (zero : exc[i] = 0) :
    stealTail ops fibers newWeights exc targetPos i tab = .ok tab := by
  simp [stealTail, readAt_of_lt counted, zero]

theorem stealTail_past_fiber {ops : BucketOps} {fibers : Fibers} {newWeights exc : List Nat}
    {targetPos i : Nat} {tab : List UInt32} {fib : List Nat} (present : fibers i = some fib)
    (inside : i < newWeights.length) (short : fib.length ≤ newWeights[i])
    (small : newWeights[i] < 2 ^ 32) (counted : i < exc.length) (positive : 0 < exc[i]) :
    stealTail ops fibers newWeights exc targetPos i tab = .error .outOfBounds := by
  obtain ⟨n, more⟩ : ∃ n, exc[i] = n + 1 := ⟨exc[i] - 1, by omega⟩
  simp [stealTail, readAt_of_lt counted, more, forLoop_succ, fiberAt_some present,
    readAt_of_lt inside, wrap_of_lt small, readAt_of_le short]

/-- The bucket `removeme` of `dec_fsx32`: its brick id and its fiber slot. -/
structure Victim where
  id : Nat
  fiber : Option (List Nat)

/-- `sho[i] = new_weights[i] - old_weights[i'']` in u32, where `i''` is the old
position of the bucket now at `i`: one more from `target_pos` on when a bucket
is removed there. -/
def shortageAt (oldWeights newWeights : List Nat) (targetPos : Nat) (removing : Bool) (i : Nat)
    (sho : List Nat) : Except Fault (List Nat) := do
  let old ← readAt oldWeights (if removing ∧ targetPos ≤ i then i + 1 else i)
  let weight ← readAt newWeights i
  writeAt sho i (subWrap 32 weight old)

/-- The hand-out loop for survivor `i`: the next `sho[i]` entries of the
source fiber, from offset `off_in_target` on, get the id of `i`. -/
def handOut (ops : BucketOps) (source sho : List Nat) (i : Nat) (st : List UInt32 × Nat) :
    Except Fault (List UInt32 × Nat) := do
  let count ← readAt sho i
  forLoop (fun _ st => do
      let slot ← readAt source st.2
      let tab ← writeAt st.1 slot (ops.storedId i)
      pure (tab, wrap 32 (st.2 + 1)))
    0 count st

theorem handOut_of_zero {ops : BucketOps} {source sho : List Nat} {i : Nat} {st : List UInt32 × Nat}
    (counted : i < sho.length) (zero : sho[i] = 0) : handOut ops source sho i st = .ok st := by
  simp [handOut, readAt_of_lt counted, zero]

theorem handOut_past_source {ops : BucketOps} {source sho : List Nat} {i : Nat} {tab : List UInt32}
    {off : Nat} (inRange : ∀ slot ∈ source, slot < tab.length) (counted : i < sho.length)
    (within : off ≤ source.length) (over : source.length < off + sho[i])
    (small : source.length < 2 ^ 32) :
    handOut ops source sho i (tab, off) = .error .outOfBounds := by
  have loop : ∀ n j (tab : List UInt32) off, (∀ slot ∈ source, slot < tab.length) →
      off ≤ source.length → source.length < off + n →
      forLoop (fun _ (st : List UInt32 × Nat) => do
          let slot ← readAt source st.2
          let tab ← writeAt st.1 slot (ops.storedId i)
          pure (tab, wrap 32 (st.2 + 1))) j n (tab, off) = .error .outOfBounds := by
    intro n
    induction n with
    | zero => intro _ _ _ _ _ over; omega
    | succ n ih =>
      intro j tab off inRange within over
      rw [forLoop_succ]
      by_cases last : off = source.length
      · simp [readAt_of_le (Nat.le_of_eq last.symm)]
      · have inside : off < source.length := by omega
        have slotIn := inRange _ (List.getElem_mem inside)
        simp only [readAt_of_lt inside, writeAt_of_lt slotIn, ok_bind]
        rw [wrap_of_lt (by omega)]
        exact ih (j + 1) _ (off + 1) (by simpa using inRange) (by omega) (by omega)
  simp only [handOut, readAt_of_lt counted, ok_bind]
  exact loop _ 0 tab off inRange within over

/-- The survivors right of `target_pos` also run the check loop of edward-1903,
whose bound reads `old_weights[i + 1]`. -/
def handOutRight (ops : BucketOps) (oldWeights source sho : List Nat) (i : Nat)
    (st : List UInt32 × Nat) : Except Fault (List UInt32 × Nat) := do
  let _ ← readAt oldWeights (i + 1)
  handOut ops source sho i st

/-- `balance_dec` on the table `tab` (`dcx->tab`): `removeme` is the bucket to
remove, or `none` to shrink bucket `target_pos`, whose `victim_id` is read
through `removeme` before anything else. -/
def balanceDec (ops : BucketOps) (newNumb : Nat) (tab : List UInt32) (oldWeights newWeights : List Nat)
    (targetPos : Nat) (removeme : Option Victim) (w : World) : Except Fault (Int × List UInt32 × World) := do
  let _victim ← match removeme with
    | some victim => .ok victim.id
    | none => .error .nullDeref
  match allocNext w.alloc with
  | (false, alloc) => pure (-ENOMEM, tab, { w with alloc })
  | (true, alloc) =>
    let removing := removeme.isSome
    let sho ← forLoop (shortageAt oldWeights newWeights targetPos removing) 0 targetPos
      (List.replicate newNumb 0)
    let sho ← forLoop (shortageAt oldWeights newWeights targetPos removing) targetPos
      (newNumb - targetPos) sho
    let (source, off) ← match removeme with
      | some victim => do
        let fib ← (match victim.fiber with | some f => .ok f | none => .error .nullDeref)
        pure (fib, 0)
      | none => do
        let fib ← fiberAt w.fibers targetPos
        let old ← readAt oldWeights targetPos
        let weight ← readAt newWeights targetPos
        pure (fib, subWrap 32 old weight)
    let st ← forLoop (handOut ops source sho) 0 targetPos (tab, off)
    let st ← forLoop (handOutRight ops oldWeights source sho) targetPos (newNumb - targetPos) st
    pure (0, st.1, { w with alloc })

/-- The stretch loop: `tab[i * factor + j] = old[i]` for `i < nums`, `j < factor`. -/
def stretch (old : List UInt32) (nums factor : Nat) (tab : List UInt32) : Except Fault (List UInt32) :=
  forLoop (fun i tab => forLoop (fun j tab => do
      let id ← readAt old i
      writeAt tab (wrap 32 (i * factor + j)) id) 0 factor tab) 0 nums tab

/-- The table the stretch loops build: every old entry `factor` times in place. -/
def stretched (old : List UInt32) (factor : Nat) : List UInt32 :=
  (old.map (List.replicate factor)).flatten

theorem length_stretched (old : List UInt32) (factor : Nat) :
    (stretched old factor).length = old.length * factor := by
  induction old with
  | nil => simp [stretched]
  | cons id old ih =>
    simp only [stretched] at ih
    simp [stretched, ih, Nat.succ_mul, Nat.add_comm]

theorem count_stretched (old : List UInt32) (factor : Nat) (id : UInt32) :
    (stretched old factor).count id = factor * old.count id := by
  induction old with
  | nil => simp [stretched]
  | cons head old ih =>
    simp only [stretched] at ih
    simp only [stretched, List.map_cons, List.flatten_cons, List.count_append, ih, List.count_replicate,
      List.count_cons]
    split <;> simp_all [Nat.mul_add]; omega

theorem replicate_set_next {α : Type} (pre : List α) (j r : Nat) (v z : α) :
    (pre ++ List.replicate j v ++ List.replicate (r + 1) z).set (pre.length + j) v =
      pre ++ List.replicate (j + 1) v ++ List.replicate r z := by
  rw [List.append_assoc, List.set_append_right _ _ (by simp), Nat.add_sub_cancel_left,
    List.set_append_right _ _ (by simp), List.length_replicate, Nat.sub_self, List.replicate_succ,
    List.set_cons_zero, List.replicate_succ', List.append_assoc, List.append_assoc, List.singleton_append]

theorem stretch_inner {old : List UInt32} {factor i : Nat} (inside : i < old.length)
    (pre : List UInt32) (sized : pre.length = i * factor) {j m r : Nat}
    (small : i * factor + j + m < 2 ^ 32) :
    forLoop (fun j tab => do
        let id ← readAt old i
        writeAt tab (wrap 32 (i * factor + j)) id) j m
      (pre ++ List.replicate j old[i] ++ List.replicate (m + r) 0) =
    .ok (pre ++ List.replicate (j + m) old[i] ++ List.replicate r 0) := by
  have body : (fun j tab => do
      let id ← readAt old i
      writeAt tab (wrap 32 (i * factor + j)) id) =
      fun j tab => writeAt tab (wrap 32 (i * factor + j)) old[i] := by
    funext j tab; simp [readAt_of_lt inside]
  rw [body]
  induction m generalizing j with
  | zero => simp
  | succ m ih =>
    have target : wrap 32 (i * factor + j) = pre.length + j := by rw [wrap_of_lt (by omega), sized]
    have room : pre.length + j < (pre ++ List.replicate j old[i] ++ List.replicate (m + r + 1) 0).length := by
      simp only [List.length_append, List.length_replicate]; omega
    rw [show m + 1 + r = m + r + 1 by omega, forLoop_succ, target, writeAt_of_lt room, replicate_set_next]
    dsimp only
    rw [ih (by omega), show j + 1 + m = j + (m + 1) by omega]

theorem stretch_eq {old : List UInt32} {factor : Nat} (small : old.length * factor < 2 ^ 32) :
    stretch old old.length factor (List.replicate (old.length * factor) 0) = .ok (stretched old factor) := by
  have outer : ∀ i m r, i + m + r = old.length →
      forLoop (fun i tab => forLoop (fun j tab => do
          let id ← readAt old i
          writeAt tab (wrap 32 (i * factor + j)) id) 0 factor tab) i m
        (stretched (old.take i) factor ++ List.replicate ((m + r) * factor) 0) =
      .ok (stretched (old.take (i + m)) factor ++ List.replicate (r * factor) 0) := by
    intro i m r total
    induction m generalizing i with
    | zero => simp
    | succ m ih =>
      have inside : i < old.length := by omega
      have sized : (stretched (old.take i) factor).length = i * factor := by
        rw [length_stretched, List.length_take, Nat.min_eq_left (by omega)]
      have fits : i * factor + 0 + factor < 2 ^ 32 := by
        have : (i + 1) * factor ≤ old.length * factor := Nat.mul_le_mul_right _ (by omega)
        rw [Nat.succ_mul] at this; omega
      have inner := stretch_inner inside _ sized (j := 0) (m := factor) (r := (m + r) * factor) fits
      rw [List.replicate_zero, List.append_nil, Nat.zero_add] at inner
      have taken : stretched (old.take (i + 1)) factor =
          stretched (old.take i) factor ++ List.replicate factor old[i] := by
        rw [List.take_succ, List.getElem?_eq_getElem inside]
        simp only [stretched, Option.toList_some, List.map_append, List.flatten_append, List.map_cons,
          List.map_nil, List.flatten_cons, List.flatten_nil, List.append_nil]
      rw [forLoop_succ, show (m + 1 + r) * factor = factor + (m + r) * factor by
        rw [Nat.add_right_comm, Nat.succ_mul, Nat.add_comm], inner]
      dsimp only
      rw [← taken, ih (i + 1) (by omega), show i + 1 + m = i + (m + 1) by omega]
  have run := outer 0 old.length 0 (by omega)
  rw [List.take_zero, Nat.add_zero, Nat.zero_add, List.take_length, Nat.zero_mul, List.replicate_zero,
    List.append_nil] at run
  exact run

/-- The excess of donor `i`: `exc[i] = factor * old_weights[i] - new_weights[i]`. -/
def donorExcess (oldWeights newWeights : List Nat) (factor i : Nat) (exc : List Nat) :
    Except Fault (List Nat) := do
  let old ← readAt oldWeights i
  let weight ← readAt newWeights i
  writeAt exc i (subWrap 32 (wrap 32 (factor * old)) weight)

/-- The shortage stored at `sho[i]`, that is `exc[num_exc + i]`: the source
computes it as `new_weights[i] - factor * old_weights[i]`. -/
def recipientShortage (oldWeights newWeights : List Nat) (factor numExc i : Nat) (exc : List Nat) :
    Except Fault (List Nat) := do
  let old ← readAt oldWeights i
  let weight ← readAt newWeights i
  writeAt exc (numExc + i) (subWrap 32 weight (wrap 32 (factor * old)))

/-- `num_reloc = exc[0] + ... + exc[num_exc - 1]`, in u32. -/
def relocCount (exc : List Nat) (numExc : Nat) : Except Fault Nat :=
  forLoop (fun i sum => do
      let e ← readAt exc i
      pure (wrap 32 (sum + e)))
    0 numExc 0

/-- The gathering loop: `reloc[k++] = fib[new_weights[i] + j]` for donor `i`
and `j < exc[i]`. -/
def gatherTail (fibers : Fibers) (newWeights exc : List Nat) (i : Nat) (st : List Nat × Nat) :
    Except Fault (List Nat × Nat) := do
  let count ← readAt exc i
  forLoop (fun j st => do
      let fib ← fiberAt fibers i
      let base ← readAt newWeights i
      let slot ← readAt fib (wrap 32 (base + j))
      let reloc ← writeAt st.1 st.2 slot
      pure (reloc, wrap 32 (st.2 + 1)))
    0 count st

/-- The distributing loop: `tab[reloc[k++]] = idx2id(num_exc + i)` for
`j < sho[i]`, with `sho[i]` read at `exc[num_exc + i]`. -/
def distributeTo (ops : BucketOps) (reloc exc : List Nat) (numExc i : Nat) (st : List UInt32 × Nat) :
    Except Fault (List UInt32 × Nat) := do
  let count ← readAt exc (numExc + i)
  forLoop (fun _ st => do
      let slot ← readAt reloc st.2
      let tab ← writeAt st.1 slot (ops.storedId (numExc + i))
      pure (tab, wrap 32 (st.2 + 1)))
    0 count st

/-- What `balance_spl` leaves behind: its return code, `*tabp`, the array
`old_weights` (which it scales in place) and the rest of the memory. -/
structure SplResult where
  ret : Int
  tab : Option (List UInt32)
  oldWeights : List Nat
  world : World

/-- `balance_spl`: stretch `*tabp` by `factor = 1 << fact_bits`, then, unless
`nums % numb = 0`, move the tails of the first `nums % numb` buckets' stretched
fibers to the others. A failed allocation of `exc` or of `reloc` jumps to
`error` with `ret` still 0; the old table is freed once stretched. -/
def balanceSpl (ops : BucketOps) (numb numsBits : Nat) (tabp : Option (List UInt32))
    (oldWeights newWeights : List Nat) (factBits : Nat) (w : World) : Except Fault SplResult := do
  let nums ← shl1 numsBits
  let factor ← shl1 factBits
  if numb = 0 then throw .divideByZero
  let numExc := nums % numb
  let numSho := numb - numExc
  let (excOk, alloc) := if numExc = 0 then (true, w.alloc) else allocNext w.alloc
  if !excOk then return ⟨0, tabp, oldWeights, { w with alloc }⟩
  let exc ← if numExc = 0 then pure [] else do
    let exc ← forLoop (donorExcess oldWeights newWeights factor) 0 numExc (List.replicate numb 0)
    forLoop (recipientShortage oldWeights newWeights factor numExc) 0 numSho exc
  match allocNext alloc with
  | (false, alloc) => return ⟨-ENOMEM, tabp, oldWeights, { w with alloc }⟩
  | (true, alloc) =>
    let old ← match tabp with
      | some old => pure old
      | none => throw .nullDeref
    let tab ← stretch old nums factor (List.replicate (wrap 32 (nums * factor)) 0)
    if numExc = 0 then
      return ⟨0, some tab, oldWeights, { w with fibers := releaseFibers numb w.fibers, alloc }⟩
    let oldWeights ← forLoop (fun i ws => do
        let old ← readAt ws i
        writeAt ws i (wrap 32 (old * factor))) 0 numb oldWeights
    let (ret, oldWeights, w) ←
      replaceFibers ops (numsBits + factBits) tab numb numb oldWeights { w with alloc }
    if ret ≠ 0 then return ⟨ret, none, oldWeights, w⟩
    let numReloc ← relocCount exc numExc
    match allocNext w.alloc with
    | (false, alloc) => return ⟨0, none, oldWeights, { w with alloc }⟩
    | (true, alloc) =>
      let (reloc, _) ← forLoop (gatherTail w.fibers newWeights exc) 0 numExc
        (List.replicate numReloc 0, 0)
      let (tab, _) ← forLoop (distributeTo ops reloc exc numExc) 0 numSho (tab, 0)
      return ⟨0, some tab, oldWeights, { w with fibers := releaseFibers numb w.fibers, alloc }⟩

end Reiser4Volume.Fsx32
