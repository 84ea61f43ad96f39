import Mathlib.Logic.Relation
import Reiser4Volume.Fsx32.Setup
import Reiser4Volume.Fsx32.Grow
import Reiser4Volume.Fsx32.Lookup

/-! Runs of reconfigurations of the distribution core (fsx32.c). The volume
layer drives each one: `initv_fsx32` builds the fibers of the published table,
the bucket vector is edited, then `inc_fsx32` adds the bucket at `target_pos`,
`dec_fsx32` removes it or `spl_fsx32` multiplies the slots, and
`replace_fsx32` publishes the table built in `dcx->tab`. The invariant the
code keeps across reconfigurations (every slot holds the id of a live bucket,
and each bucket holds as many slots as its calibrated weight) holds of the
table `init_tab_from_scratch` lays out, and every cycle that returns 0 keeps
it, so it holds of every table a run of cycles reaches. A cycle asks that no
survivor's share moves against the operation and, for `spl_fsx32`, that the
buckets divide the slots evenly and that calibrating the larger table scales
the weights: without these the code faults, or keeps a table whose counts
are not its weights. -/

namespace Reiser4Volume.Fsx32

/-- What a volume keeps between reconfigurations: its bucket vector, through
the bucket operations, the distribution context and the published table. -/
structure Dist where
  ops : BucketOps
  ctx : World
  tab : List UInt32

/-- The invariant of a published table: `2 ^ nums_bits` slots, each holding
the id of one of the `numb` buckets, and as many slots for each bucket as the
weight `calibrate32` gives it. -/
structure Balanced (d : Dist) : Prop where
  sized : d.tab.length = 2 ^ d.ctx.numsBits
  live : ∀ s < d.tab.length, ∃ k < d.ctx.numb, d.tab.getD s 0 = d.ops.storedId k
  inverse : ∀ k < d.ctx.numb, d.ops.owner (d.ops.storedId k) = k
  calibrated : calibrate32 d.ctx.numb (2 ^ d.ctx.numsBits) d.ops.capAt =
    .ok (countsUpTo d.ops d.tab d.ctx.numb d.tab.length)

/-- The position of old bucket `k` once a bucket is inserted at `pos`. -/
def shiftUp (pos k : Nat) : Nat := if k < pos then k else k + 1

/-- The position of old bucket `k ≠ pos` once the bucket at `pos` is removed. -/
def shiftDown (pos k : Nat) : Nat := if k < pos then k else k - 1

theorem shiftUp_lt {pos k n : Nat} (below : k < n) : shiftUp pos k < n + 1 := by
  unfold shiftUp; split <;> omega

theorem shiftDown_lt {pos k n : Nat} (target : pos < n) (below : k < n) (survivor : k ≠ pos) :
    shiftDown pos k < n - 1 := by
  unfold shiftDown; split <;> omega

/-- The fibers, which live in the bucket objects, once a bucket with none is
inserted into the vector at `pos`. -/
def insertFiber (pos : Nat) (fibers : Fibers) : Fibers :=
  fun i => if i < pos then fibers i else if i = pos then none else fibers (i - 1)

/-- The fibers once the bucket at `pos` is removed from the vector. -/
def removeFiber (pos : Nat) (fibers : Fibers) : Fibers :=
  fun i => if i < pos then fibers i else fibers (i + 1)

/-- One reconfiguration that returns 0. `ops'` is the edited vector: the old
one with a bucket inserted at `target_pos`, or with the bucket at `target_pos`
removed, the other buckets keeping their ids. -/
inductive Cycle : Dist → Dist → Prop
  | grow {d : Dist} {ops' : BucketOps} {targetPos : Nat} {newWeights : List Nat} {w₁ w₂ ctx : World}
      {tab' : List UInt32} (everyAllocation : d.ctx.alloc = []) (target : targetPos ≤ d.ctx.numb)
      (sameIds : ∀ k < d.ctx.numb, ops'.storedId (shiftUp targetPos k) = d.ops.storedId k)
      (inverse : ∀ k < d.ctx.numb + 1, ops'.owner (ops'.storedId k) = k)
      (calibrated : calibrate32 (d.ctx.numb + 1) (2 ^ d.ctx.numsBits) ops'.capAt = .ok newWeights)
      (apportioned : newWeights.sum = 2 ^ d.ctx.numsBits)
      (noRise : ∀ i < d.ctx.numb + 1, i ≠ targetPos →
        newWeights.getD i 0 ≤ (slotsOf ops' d.tab i d.tab.length).length)
      (loaded : initvFsx32 d.ops (some d.tab) d.ctx.numb d.ctx.numsBits d.ctx = .ok (0, some d.tab, w₁))
      (committed : incFsx32 ops' d.tab targetPos true { w₁ with fibers := insertFiber targetPos w₁.fibers } =
        .ok (0, w₂))
      (handed : replaceFsx32 w₂ = (some tab', ctx)) :
      Cycle d ⟨ops', ctx, tab'⟩
  | remove {d : Dist} {ops' : BucketOps} {targetPos occ : Nat} {newWeights : List Nat} {w₁ w₂ ctx : World}
      {tab' : List UInt32} (everyAllocation : d.ctx.alloc = []) (target : targetPos < d.ctx.numb)
      (sameIds : ∀ k < d.ctx.numb, k ≠ targetPos → ops'.storedId (shiftDown targetPos k) = d.ops.storedId k)
      (inverse : ∀ k < d.ctx.numb - 1, ops'.owner (ops'.storedId k) = k)
      (foreign : d.ctx.numb - 1 ≤ ops'.owner (d.ops.storedId targetPos))
      (calibrated : calibrate32 (d.ctx.numb - 1) (2 ^ d.ctx.numsBits) ops'.capAt = .ok newWeights)
      (apportioned : newWeights.sum = 2 ^ d.ctx.numsBits)
      (noDrop : ∀ i < d.ctx.numb - 1, (slotsOf ops' d.tab i d.tab.length).length ≤ newWeights.getD i 0)
      (loaded : initvFsx32 d.ops (some d.tab) d.ctx.numb d.ctx.numsBits d.ctx = .ok (0, some d.tab, w₁))
      (committed : decFsx32 ops' occ d.tab targetPos (some ⟨d.ops.idx2id targetPos, w₁.fibers targetPos⟩)
        { w₁ with fibers := removeFiber targetPos w₁.fibers } = .ok (0, w₂))
      (handed : replaceFsx32 w₂ = (some tab', ctx)) :
      Cycle d ⟨ops', ctx, tab'⟩
  | split {d : Dist} {factBits : Nat} {w₁ w₂ ctx : World} {tab' : List UInt32}
      (everyAllocation : d.ctx.alloc = []) (small : d.ctx.numsBits + factBits ≤ maxShift)
      (whole : 2 ^ d.ctx.numsBits % d.ctx.numb = 0)
      (scaled : calibrate32 d.ctx.numb (2 ^ (d.ctx.numsBits + factBits)) d.ops.capAt =
        (calibrate32 d.ctx.numb (2 ^ d.ctx.numsBits) d.ops.capAt).map (List.map (· * 2 ^ factBits)))
      (loaded : initvFsx32 d.ops (some d.tab) d.ctx.numb d.ctx.numsBits d.ctx = .ok (0, some d.tab, w₁))
      (resolved : splFsx32 d.ops factBits { w₁ with tab := some d.tab } = .ok (0, w₂))
      (handed : replaceFsx32 w₂ = (some tab', ctx)) :
      Cycle d ⟨d.ops, ctx, tab'⟩

section Guards

variable {ops : BucketOps} {numb numsBits : Nat} {w w' : World}

theorem initvFsx32_guards {tab t : Option (List UInt32)} (run : initvFsx32 ops tab numb numsBits w = .ok (0, t, w')) :
    numb ≠ 0 ∧ numsBits < maxShift ∧ numb < 2 ^ numsBits := by
  have guard : ¬(numb = 0 ∨ (maxShift : Int) ≤ numsBits) := fun bad => by
    simp only [initvFsx32, if_pos bad] at run
    cases run
  simp only [not_or, maxShift] at guard
  have small : numsBits < 32 := by omega
  refine ⟨guard.1, by simp only [maxShift]; omega, Nat.not_le.mp fun full => ?_⟩
  simp [initvFsx32, guard, maxShift, shl1Int_ofNat small, full] at run
  cases run

theorem incFsx32_guards {tab : List UInt32} {targetPos : Nat} (run : incFsx32 ops tab targetPos true w = .ok (0, w'))
    (small : w.numsBits < 32) : w.numb ≠ maxBuckets ∧ w.numb + 1 ≤ 2 ^ w.numsBits := by
  have room : w.numb ≠ maxBuckets := fun full => by simp [incFsx32, full] at run; cases run
  refine ⟨room, Nat.not_lt.mp fun over => ?_⟩
  simp [incFsx32, room, shl1_of_lt small, over] at run
  cases run

theorem decFsx32_checked {occ targetPos : Nat} {tab : List UInt32} {victim : Victim} (everyAllocation : w.alloc = [])
    (run : decFsx32 ops occ tab targetPos (some victim) w = .ok (0, w')) :
    ∃ shares, calibrate64 (w.numb - 1) occ ops.capAt = .ok shares ∧ spaceShortage ops.capAt shares = 0 := by
  cases checked : calibrate64 (w.numb - 1) occ ops.capAt with
  | error e => simp [decFsx32, checkSpace, everyAllocation, checked] at run
  | ok shares =>
    refine ⟨shares, rfl, by_contra fun short => ?_⟩
    simp only [decFsx32, Option.isSome_some, if_true, checkSpace, everyAllocation, allocNext_nil, checked, ok_bind,
      pure_bind, ne_eq, short, not_false_eq_true, if_true, pure, Except.pure, Except.ok.injEq, Prod.mk.injEq] at run
    exact run.1

end Guards

section Relocated

variable {ops ops' : BucketOps} {tab : List UInt32} {n : Nat}

theorem slotsOf_relocated {f : Nat → Nat} {i j : Nat}
    (moved : ∀ s < n, ops'.owner (tab.getD s 0) = f (ops.owner (tab.getD s 0))) (onto : ∀ k, f k = i ↔ k = j) :
    slotsOf ops' tab i n = slotsOf ops tab j n :=
  List.filter_congr fun s member => by simp only [moved s (List.mem_range.mp member), onto]

theorem getElem?_countsUpTo {k numb : Nat} (inside : k < numb) :
    (countsUpTo ops tab numb n)[k]? = some (slotsOf ops tab k n).length := by
  simp [countsUpTo, inside]

end Relocated

/-- The context `initv_fsx32` leaves over the table of `d`: the weights are
the slot counts and every bucket's fiber lists its slots. -/
def Dist.loaded (d : Dist) : World :=
  { d.ctx with
    weights := countsUpTo d.ops d.tab d.ctx.numb d.tab.length
    fibers := fun k => if k < d.ctx.numb then some (slotsOf d.ops d.tab k d.tab.length) else d.ctx.fibers k
    alloc := [] }

namespace Balanced

variable {d : Dist} {ops' : BucketOps} {targetPos : Nat} {newWeights : List Nat} {w₁ w₂ : World}

theorem owned (bal : Balanced d) {s : Nat} (inside : s < d.tab.length) : d.ops.owner (d.tab.getD s 0) < d.ctx.numb := by
  obtain ⟨k, below, entry⟩ := bal.live s inside
  rw [entry, bal.inverse k below]
  exact below

theorem slotsOf_eq_slotsHolding (bal : Balanced d) {k : Nat} (below : k < d.ctx.numb) :
    slotsOf d.ops d.tab k d.tab.length = slotsHolding d.tab (d.ops.storedId k) d.tab.length :=
  List.filter_congr fun s member => by
    obtain ⟨j, inside, entry⟩ := bal.live s (List.mem_range.mp member)
    rw [entry, bal.inverse j inside]
    by_cases same : j = k
    · simp [same]
    · have other : d.ops.storedId j ≠ d.ops.storedId k := fun ids =>
        same (by rw [← bal.inverse j inside, ids, bal.inverse k below])
      simp [same, other]

/-- `initv_fsx32` over a balanced table leaves `Dist.loaded`. -/
theorem initv (bal : Balanced d) (everyAllocation : d.ctx.alloc = [])
    (loaded : initvFsx32 d.ops (some d.tab) d.ctx.numb d.ctx.numsBits d.ctx = .ok (0, some d.tab, w₁)) :
    w₁ = d.loaded := by
  obtain ⟨nonempty, small, enough⟩ := initvFsx32_guards loaded
  rw [initvFsx32_counts nonempty small enough bal.sized (fun _ => bal.owned) bal.calibrated everyAllocation] at loaded
  simp only [Except.ok.injEq, Prod.mk.injEq] at loaded
  exact loaded.2.2.symm

section Grow

variable (sameIds : ∀ k < d.ctx.numb, ops'.storedId (shiftUp targetPos k) = d.ops.storedId k)
  (inverse : ∀ k < d.ctx.numb + 1, ops'.owner (ops'.storedId k) = k)
include sameIds inverse

theorem owner_shiftUp (bal : Balanced d) {s : Nat} (inside : s < d.tab.length) :
    ops'.owner (d.tab.getD s 0) = shiftUp targetPos (d.ops.owner (d.tab.getD s 0)) := by
  obtain ⟨k, below, entry⟩ := bal.live s inside
  rw [entry, bal.inverse k below, ← sameIds k below, inverse _ (shiftUp_lt below)]

theorem slotsOf_shiftUp (bal : Balanced d) {i : Nat} (survivor : i ≠ targetPos) :
    slotsOf ops' d.tab i d.tab.length = slotsOf d.ops d.tab (if i < targetPos then i else i - 1) d.tab.length :=
  slotsOf_relocated (fun _ inside => bal.owner_shiftUp sameIds inverse inside) fun k => by
    unfold shiftUp; split_ifs <;> omega

theorem grow_commits (bal : Balanced d) (everyAllocation : d.ctx.alloc = []) (target : targetPos ≤ d.ctx.numb)
    (calibrated : calibrate32 (d.ctx.numb + 1) (2 ^ d.ctx.numsBits) ops'.capAt = .ok newWeights)
    (noRise : ∀ i < d.ctx.numb + 1, i ≠ targetPos →
      newWeights.getD i 0 ≤ (slotsOf ops' d.tab i d.tab.length).length)
    (loaded : initvFsx32 d.ops (some d.tab) d.ctx.numb d.ctx.numsBits d.ctx = .ok (0, some d.tab, w₁))
    (committed : incFsx32 ops' d.tab targetPos true { w₁ with fibers := insertFiber targetPos w₁.fibers } =
      .ok (0, w₂)) :
    w₂ = commitTab { w₁ with fibers := insertFiber targetPos w₁.fibers, alloc := [] }
      (relabel d.tab (stolenUpTo ops' d.tab newWeights targetPos (d.ctx.numb + 1) 0)) (d.ctx.numb + 1) newWeights := by
  obtain ⟨-, small, -⟩ := initvFsx32_guards loaded
  have small : d.ctx.numsBits < 32 := by simp only [maxShift] at small; omega
  obtain rfl := bal.initv everyAllocation loaded
  obtain ⟨room, fits⟩ := incFsx32_guards committed small
  have fibers : ∀ i < d.ctx.numb + 1, i ≠ targetPos → insertFiber targetPos (fun k =>
      if k < d.ctx.numb then some (slotsOf d.ops d.tab k d.tab.length) else d.ctx.fibers k) i =
        some (slotsOf ops' d.tab i d.tab.length) := fun i below survivor => by
    rw [bal.slotsOf_shiftUp sameIds inverse survivor]
    simp only [insertFiber]
    split_ifs <;> first | rfl | omega
  have counted : ∀ i < d.ctx.numb + 1, i ≠ targetPos →
      (countsUpTo d.ops d.tab d.ctx.numb d.tab.length)[if true ∧ targetPos < i then i - 1 else i]? =
        some (slotsOf ops' d.tab i d.tab.length).length := fun i below survivor => by
    have index : (if true ∧ targetPos < i then i - 1 else i) = if i < targetPos then i else i - 1 := by
      simp only [true_and]
      split_ifs <;> omega
    rw [index, bal.slotsOf_shiftUp sameIds inverse survivor, getElem?_countsUpTo (by split <;> omega)]
  rw [@incFsx32_commits ops' d.tab targetPos true { d.loaded with fibers := insertFiber targetPos d.loaded.fibers }
      (d.ctx.numb + 1) newWeights [] [] [] rfl (by simpa using room)
    small bal.sized fits (by omega) fibers counted calibrated noRise allocNext_nil allocNext_nil allocNext_nil] at committed
  simp only [Except.ok.injEq, Prod.mk.injEq] at committed
  exact committed.2.symm

theorem grow (bal : Balanced d) (target : targetPos ≤ d.ctx.numb)
    (calibrated : calibrate32 (d.ctx.numb + 1) (2 ^ d.ctx.numsBits) ops'.capAt = .ok newWeights)
    (apportioned : newWeights.sum = 2 ^ d.ctx.numsBits)
    (noRise : ∀ i < d.ctx.numb + 1, i ≠ targetPos →
      newWeights.getD i 0 ≤ (slotsOf ops' d.tab i d.tab.length).length)
    {ctx : World} (numbered : ctx.numb = d.ctx.numb + 1) (bits : ctx.numsBits = d.ctx.numsBits) :
    Balanced ⟨ops', ctx, relabel d.tab (stolenUpTo ops' d.tab newWeights targetPos (d.ctx.numb + 1) 0)⟩ where
  sized := by simp only [length_relabel, bits, bal.sized]
  live s inside := by
    dsimp only at inside ⊢
    rw [length_relabel] at inside
    obtain ⟨k, below, entry⟩ := bal.live s inside
    rcases @stolen_entry ops' d.tab newWeights targetPos (d.ctx.numb + 1) s inside with kept | taken
    · refine ⟨shiftUp targetPos k, numbered ▸ shiftUp_lt below, ?_⟩
      rw [List.getD_eq_getElem?_getD, kept, ← List.getD_eq_getElem?_getD, entry, sameIds k below]
    · exact ⟨targetPos, by omega, by rw [List.getD_eq_getElem?_getD, taken, Option.getD_some]⟩
  inverse := numbered ▸ inverse
  calibrated := by
    dsimp only
    have owned : ∀ s < d.tab.length, ops'.owner (d.tab.getD s 0) < d.ctx.numb + 1 := fun s inside => by
      rw [bal.owner_shiftUp sameIds inverse inside]
      exact shiftUp_lt (bal.owned inside)
    rw [numbered, bits, length_relabel, ← countsUpTo_stolen (inverse targetPos (by omega)) (by omega)
      (length_calibrate calibrated) (bal.sized ▸ apportioned) owned noRise]
    exact calibrated

end Grow

section Remove

variable (sameIds : ∀ k < d.ctx.numb, k ≠ targetPos → ops'.storedId (shiftDown targetPos k) = d.ops.storedId k)
  (inverse : ∀ k < d.ctx.numb - 1, ops'.owner (ops'.storedId k) = k) (target : targetPos < d.ctx.numb)
include sameIds inverse target

theorem owner_shiftDown (bal : Balanced d) {s : Nat} (inside : s < d.tab.length) :
    ops'.owner (d.tab.getD s 0) = if d.ops.owner (d.tab.getD s 0) = targetPos then ops'.owner (d.ops.storedId targetPos)
      else shiftDown targetPos (d.ops.owner (d.tab.getD s 0)) := by
  obtain ⟨k, below, entry⟩ := bal.live s inside
  rw [entry, bal.inverse k below]
  split_ifs with victim
  · rw [victim]
  · rw [← sameIds k below victim, inverse _ (shiftDown_lt target below victim)]

theorem owner_survivor (bal : Balanced d) {s : Nat} (inside : s < d.tab.length)
    (other : d.tab.getD s 0 ≠ d.ops.storedId targetPos) : ops'.owner (d.tab.getD s 0) < d.ctx.numb - 1 := by
  obtain ⟨k, below, entry⟩ := bal.live s inside
  have survivor : k ≠ targetPos := fun same => other (by rw [entry, same])
  rw [entry, ← sameIds k below survivor, inverse _ (shiftDown_lt target below survivor)]
  exact shiftDown_lt target below survivor

theorem slotsOf_shiftDown (bal : Balanced d) (foreign : d.ctx.numb - 1 ≤ ops'.owner (d.ops.storedId targetPos))
    {i : Nat} (below : i < d.ctx.numb - 1) :
    slotsOf ops' d.tab i d.tab.length = slotsOf d.ops d.tab (if targetPos ≤ i then i + 1 else i) d.tab.length :=
  slotsOf_relocated (f := fun k => if k = targetPos then ops'.owner (d.ops.storedId targetPos) else shiftDown targetPos k)
    (fun _ inside => bal.owner_shiftDown sameIds inverse target inside) fun k => by
      simp only [shiftDown]; split_ifs <;> omega

theorem remove_commits (bal : Balanced d) (everyAllocation : d.ctx.alloc = []) {occ : Nat}
    (foreign : d.ctx.numb - 1 ≤ ops'.owner (d.ops.storedId targetPos))
    (calibrated : calibrate32 (d.ctx.numb - 1) (2 ^ d.ctx.numsBits) ops'.capAt = .ok newWeights)
    (apportioned : newWeights.sum = 2 ^ d.ctx.numsBits)
    (noDrop : ∀ i < d.ctx.numb - 1, (slotsOf ops' d.tab i d.tab.length).length ≤ newWeights.getD i 0)
    (loaded : initvFsx32 d.ops (some d.tab) d.ctx.numb d.ctx.numsBits d.ctx = .ok (0, some d.tab, w₁))
    (committed : decFsx32 ops' occ d.tab targetPos (some ⟨d.ops.idx2id targetPos, w₁.fibers targetPos⟩)
      { w₁ with fibers := removeFiber targetPos w₁.fibers } = .ok (0, w₂)) :
    w₂ = commitTab { w₁ with fibers := removeFiber targetPos w₁.fibers, alloc := [] }
      (relabel d.tab (handedUpTo ops' d.tab (UInt32.ofNat (d.ops.idx2id targetPos))
        (shortageUpTo ops' d.tab newWeights (d.ctx.numb - 1) (d.ctx.numb - 1))
        (shortageUpTo ops' d.tab newWeights (d.ctx.numb - 1) (d.ctx.numb - 1)).sum)) (d.ctx.numb - 1) newWeights := by
  obtain ⟨nonempty, small, -⟩ := initvFsx32_guards loaded
  have small : d.ctx.numsBits < 32 := by simp only [maxShift] at small; omega
  obtain rfl := bal.initv everyAllocation loaded
  have fiber : d.loaded.fibers targetPos =
      some (slotsHolding d.tab (UInt32.ofNat (d.ops.idx2id targetPos)) d.tab.length) :=
    (if_pos target).trans (congrArg some (bal.slotsOf_eq_slotsHolding target))
  rw [fiber] at committed
  obtain ⟨shares, checked, room⟩ := decFsx32_checked rfl committed
  have counted : ∀ i < d.ctx.numb - 1, (countsUpTo d.ops d.tab d.ctx.numb d.tab.length)[if targetPos ≤ i then i + 1
      else i]? = some (slotsOf ops' d.tab i d.tab.length).length := fun i below => by
    rw [bal.slotsOf_shiftDown sameIds inverse target foreign below]
    exact getElem?_countsUpTo (by split <;> omega)
  rw [@decFsx32_commits ops' d.tab targetPos occ (d.ops.idx2id targetPos)
      { d.loaded with fibers := removeFiber targetPos d.loaded.fibers } (d.ctx.numb - 1) shares newWeights [] [] [] []
      (by show d.ctx.numb = _; omega) small bal.sized (by omega)
      (fun _ inside other => bal.owner_survivor sameIds inverse target inside other) foreign counted checked room
      calibrated apportioned noDrop allocNext_nil allocNext_nil allocNext_nil allocNext_nil] at committed
  simp only [Except.ok.injEq, Prod.mk.injEq] at committed
  exact committed.2.symm

theorem remove (bal : Balanced d) (foreign : d.ctx.numb - 1 ≤ ops'.owner (d.ops.storedId targetPos))
    (calibrated : calibrate32 (d.ctx.numb - 1) (2 ^ d.ctx.numsBits) ops'.capAt = .ok newWeights)
    (apportioned : newWeights.sum = 2 ^ d.ctx.numsBits)
    (noDrop : ∀ i < d.ctx.numb - 1, (slotsOf ops' d.tab i d.tab.length).length ≤ newWeights.getD i 0)
    {ctx : World} (numbered : ctx.numb = d.ctx.numb - 1) (bits : ctx.numsBits = d.ctx.numsBits) :
    Balanced ⟨ops', ctx, relabel d.tab (handedUpTo ops' d.tab (UInt32.ofNat (d.ops.idx2id targetPos))
      (shortageUpTo ops' d.tab newWeights (d.ctx.numb - 1) (d.ctx.numb - 1))
      (shortageUpTo ops' d.tab newWeights (d.ctx.numb - 1) (d.ctx.numb - 1)).sum)⟩ := by
  have length : (shortageUpTo ops' d.tab newWeights (d.ctx.numb - 1) (d.ctx.numb - 1)).length = d.ctx.numb - 1 := by
    simp [shortageUpTo]
  have all := sum_shortageUpTo (bal.sized ▸ apportioned) (length_calibrate calibrated)
    (fun _ inside other => bal.owner_survivor sameIds inverse target inside other) foreign noDrop
  refine ⟨by simp only [length_relabel, bits, bal.sized], fun s inside => ?_, numbered ▸ inverse, ?_⟩
  · dsimp only at inside ⊢
    rw [length_relabel] at inside
    rcases handed_entry_cases inside with kept | ⟨r, handedR, entry⟩
    · obtain ⟨k, below, old⟩ := bal.live s inside
      have survivor : k ≠ targetPos := fun same => handed_entry_victim inside (by rw [length]; exact foreign)
        (fun k below => inverse k (by omega)) all (by
          rw [List.getElem?_eq_getElem (by simpa using inside), ← List.getD_eq_getElem _ 0, kept, old, same]
          rfl)
      exact ⟨shiftDown targetPos k, numbered ▸ shiftDown_lt target below survivor,
        by rw [kept, old, sameIds k below survivor]⟩
    · exact ⟨_, numbered ▸ (recipientOf_lt handedR).trans_eq length, entry⟩
  · dsimp only
    rw [numbered, bits, length_relabel, ← countsUpTo_handed (length_calibrate calibrated) foreign inverse noDrop all.le]
    exact calibrated

end Remove

section Split

variable {factBits : Nat}

theorem split_commits (bal : Balanced d) (everyAllocation : d.ctx.alloc = [])
    (small : d.ctx.numsBits + factBits ≤ maxShift) (whole : 2 ^ d.ctx.numsBits % d.ctx.numb = 0)
    (scaled : calibrate32 d.ctx.numb (2 ^ (d.ctx.numsBits + factBits)) d.ops.capAt =
      (calibrate32 d.ctx.numb (2 ^ d.ctx.numsBits) d.ops.capAt).map (List.map (· * 2 ^ factBits)))
    (loaded : initvFsx32 d.ops (some d.tab) d.ctx.numb d.ctx.numsBits d.ctx = .ok (0, some d.tab, w₁))
    (resolved : splFsx32 d.ops factBits { w₁ with tab := some d.tab } = .ok (0, w₂)) :
    w₂ = { w₁ with
      tab := some (stretched d.tab (2 ^ factBits))
      weights := (countsUpTo d.ops d.tab d.ctx.numb d.tab.length).map (· * 2 ^ factBits)
      numsBits := d.ctx.numsBits + factBits
      fibers := releaseFibers d.ctx.numb w₁.fibers
      alloc := [] } := by
  obtain ⟨nonempty, -, -⟩ := initvFsx32_guards loaded
  obtain rfl := bal.initv everyAllocation loaded
  rw [@splFsx32_stretch_only d.ops factBits { d.loaded with tab := some d.tab } d.tab
    ((countsUpTo d.ops d.tab d.ctx.numb d.tab.length).map (· * 2 ^ factBits)) [] [] small rfl bal.sized whole nonempty
    (show calibrate32 d.ctx.numb (2 ^ (d.ctx.numsBits + factBits)) d.ops.capAt = _ by rw [scaled, bal.calibrated]; rfl)
    allocNext_nil allocNext_nil] at resolved
  simp only [Except.ok.injEq, Prod.mk.injEq] at resolved
  exact resolved.2.symm

theorem split (bal : Balanced d)
    (scaled : calibrate32 d.ctx.numb (2 ^ (d.ctx.numsBits + factBits)) d.ops.capAt =
      (calibrate32 d.ctx.numb (2 ^ d.ctx.numsBits) d.ops.capAt).map (List.map (· * 2 ^ factBits)))
    {ctx : World} (numbered : ctx.numb = d.ctx.numb) (bits : ctx.numsBits = d.ctx.numsBits + factBits) :
    Balanced ⟨d.ops, ctx, stretched d.tab (2 ^ factBits)⟩ where
  sized := by simp only [length_stretched, bits, bal.sized, Nat.pow_add]
  live s inside := by
    dsimp only at inside ⊢
    rw [length_stretched] at inside
    rw [getD_stretched (Nat.two_pow_pos factBits), numbered]
    exact bal.live _ (Nat.div_lt_of_lt_mul (by rwa [Nat.mul_comm]))
  inverse := numbered ▸ bal.inverse
  calibrated := by
    dsimp only
    rw [numbered, bits, scaled, bal.calibrated, length_stretched, countsUpTo_stretched (Nat.two_pow_pos factBits)]
    rfl

end Split

/-- Every cycle that returns 0 keeps a table balanced. -/
theorem cycle (bal : Balanced d) {d' : Dist} (step : Cycle d d') : Balanced d' := by
  cases step with
  | grow everyAllocation target sameIds inverse calibrated apportioned noRise loaded committed handed =>
    obtain rfl := bal.initv everyAllocation loaded
    obtain rfl := bal.grow_commits sameIds inverse everyAllocation target calibrated noRise loaded committed
    simp only [replaceFsx32, commitTab, Prod.mk.injEq, Option.some.injEq] at handed
    obtain ⟨rfl, rfl⟩ := handed
    exact bal.grow sameIds inverse target calibrated apportioned noRise rfl rfl
  | remove everyAllocation target sameIds inverse foreign calibrated apportioned noDrop loaded committed handed =>
    obtain rfl := bal.initv everyAllocation loaded
    obtain rfl := bal.remove_commits sameIds inverse target everyAllocation foreign calibrated apportioned noDrop loaded
      committed
    simp only [replaceFsx32, commitTab, Prod.mk.injEq, Option.some.injEq] at handed
    obtain ⟨rfl, rfl⟩ := handed
    exact bal.remove sameIds inverse target foreign calibrated apportioned noDrop rfl rfl
  | split everyAllocation small whole scaled loaded resolved handed =>
    obtain rfl := bal.initv everyAllocation loaded
    obtain rfl := bal.split_commits everyAllocation small whole scaled loaded resolved
    simp only [replaceFsx32, commitTab, Prod.mk.injEq, Option.some.injEq] at handed
    obtain ⟨rfl, rfl⟩ := handed
    exact bal.split scaled rfl rfl

/-- A run of cycles keeps a table balanced. -/
theorem cycles (bal : Balanced d) {d' : Dist} (run : Relation.ReflTransGen Cycle d d') : Balanced d' := by
  induction run with
  | refl => exact bal
  | tail _ step balanced => exact balanced.cycle step

end Balanced

/-- The table `init_tab_from_scratch` lays out with the calibrated weights is
balanced. -/
theorem balanced_scratchRuns {ops : BucketOps} {ctx : World} {weights : List Nat}
    (calibrated : calibrate32 ctx.numb (2 ^ ctx.numsBits) ops.capAt = .ok weights)
    (apportioned : weights.sum = 2 ^ ctx.numsBits) (inverse : ∀ b < ctx.numb, ops.owner (ops.storedId b) = b) :
    Balanced ⟨ops, ctx, scratchRuns ops weights ctx.numb⟩ := by
  have weighed := length_calibrate calibrated
  have long : (scratchRuns ops weights ctx.numb).length = weights.sum := by
    rw [length_scratchRuns, ← weighed, List.take_length]
  refine ⟨long.trans apportioned, fun s inside => ?_, inverse, ?_⟩
  · have covered : s < (weights.take weights.length).sum := by rw [List.take_length]; exact long ▸ inside
    dsimp only
    rw [← weighed]
    refine ⟨recipientOf weights s, recipientOf_lt (by rwa [List.take_length] at covered), ?_⟩
    rw [List.getD_eq_getElem?_getD, getElem?_scratchRuns le_rfl covered, Option.getD_some]
  · dsimp only
    rw [long, ← weighed, countsUpTo_scratchRuns (weighed ▸ inverse), weighed]
    exact calibrated

/-- Every table that a run of reconfigurations returning 0 reaches from the
table `init_tab_from_scratch` lays out with the weights `calibrate32` gives
the buckets is balanced: it has `2 ^ nums_bits` slots, each holding the id of
a live bucket, and each bucket holds as many slots as its calibrated weight. -/
theorem initTabFromScratch_cycles_balanced {ops : BucketOps} {ctx : World} {weights : List Nat}
    {alloc alloc' : List Bool} {tab : List UInt32} {d : Dist} (small : ctx.numsBits < 32)
    (calibrated : calibrate32 ctx.numb (2 ^ ctx.numsBits) ops.capAt = .ok weights)
    (apportioned : weights.sum = 2 ^ ctx.numsBits) (inverse : ∀ b < ctx.numb, ops.owner (ops.storedId b) = b)
    (built : initTabFromScratch ops weights ctx.numb ctx.numsBits alloc = .ok (some tab, alloc'))
    (run : Relation.ReflTransGen Cycle ⟨ops, ctx, tab⟩ d) : Balanced d := by
  rcases fresh : allocNext alloc with ⟨_ | _, rest⟩
  · simp [initTabFromScratch, shl1_of_lt small, fresh] at built
  · rw [initTabFromScratch_eq small (length_calibrate calibrated) apportioned fresh] at built
    simp only [Except.ok.injEq, Prod.mk.injEq, Option.some.injEq] at built
    obtain ⟨rfl, -⟩ := built
    exact (balanced_scratchRuns calibrated apportioned inverse).cycles run

/-- A one-brick volume of four slots made from scratch; a second brick of the
same capacity is added and takes the last two slots, the first brick is
removed and its slots go to the second, then the table is split to eight
slots. -/
theorem initTabFromScratch_grow_remove_split :
    ∃ d, Relation.ReflTransGen Cycle ⟨⟨fun _ => 1, id, id⟩, ⟨1, 2, [], none, fun _ => none, []⟩, [0, 0, 0, 0]⟩ d ∧
      d.tab = [1, 1, 1, 1, 1, 1, 1, 1] ∧ Balanced d :=
  have grown := Relation.ReflTransGen.single (@Cycle.grow
    ⟨⟨fun _ => 1, id, id⟩, ⟨1, 2, [], none, fun _ => none, []⟩, [0, 0, 0, 0]⟩ ⟨fun _ => 1, id, id⟩ 1 [2, 2] _ _ _ _
    rfl (by decide) (by decide) (by decide) (by decide) rfl (by decide) rfl rfl rfl)
  have removed := grown.tail (@Cycle.remove _ ⟨fun _ => 1, (· + 1), fun v => if v = 0 then 1 else v - 1⟩ 0 0 [4]
    _ _ _ _ rfl (by decide) (by decide) (by decide) (by decide) (by decide) rfl (by decide) (by rfl) (by rfl) (by rfl))
  have split := removed.tail (@Cycle.split _ 1 _ _ _ _ rfl (by decide) (by decide) (by decide) (by rfl) (by rfl) (by rfl))
  ⟨_, split, rfl, @initTabFromScratch_cycles_balanced ⟨fun _ => 1, id, id⟩ ⟨1, 2, [], none, fun _ => none, []⟩ [4] [] []
    [0, 0, 0, 0] _ (by decide) (by decide) rfl (by decide) rfl split⟩

end Reiser4Volume.Fsx32
