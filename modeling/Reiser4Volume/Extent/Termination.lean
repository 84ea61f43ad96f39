import Reiser4Volume.Extent.Decision

/-! The loop `while (!mctx.stop)` of `reiser4_migrate_extent` ends. In a run
where no primitive fails, an iteration that does not set `stop` (a SPLIT, or a
tail MIGRATE and the lookup at `done_off - 1`) leaves the coord on an item of
the same key that ends strictly earlier: at a stripe boundary in split mode,
`MIGRATION_GRANULARITY` pages earlier in no-split mode. The stripe boundaries
inside the current item (in no-split mode, its granules) count down and bound
the number of iterations. -/

namespace Reiser4Volume.Extent

/-- The state of a failure-free run as an iteration starts, for any stripe map
and any `dst_id`: the current item is at `coord` under `mctx->key`, and the
file's items are in order. -/
structure Current (g : Geometry) (m : Mctx) (pre : Items) (cur : Item) (post : Items) : Prop where
  quiet : m.outcomes = []
  atCur : m.items = pre ++ cur :: post
  pos : m.pos = pre.length
  sorted : Sorted g (pre ++ cur :: post)
  key : cur.off = m.keyOff ∧ cur.ord = m.keyOrd
  aligned : 2 ^ g.pageShift ∣ cur.off
  nonempty : 0 < cur.units.sum

section Step

variable {g : Geometry} {sb : Nat} {m m' : Mctx} {pre post : Items} {cur : Item}

theorem iteration_current (current : Current g m pre cur post) (nosplit : Bool) (dstId : Option Nat) :
    iteration g nosplit dstId m = switchAct g m cur (whatToDo g nosplit dstId cur.off cur.ord (cur.size g)) := by
  simp only [iteration, current.atCur, current.pos, readAt, getElem?_cur, ok_bind, current.key.1, current.key.2]

theorem iteration_next (pow : g.stripeSize = 2 ^ sb) (pageDvd : 2 ^ g.pageShift ∣ g.stripeSize)
    (current : Current g m pre cur post) {nosplit : Bool} {dstId : Option Nat}
    (run : iteration g nosplit dstId m = .ok (.next m')) :
    ∃ cur' post', Current g m' pre cur' post' ∧ cur'.off = cur.off ∧ cur'.ord = cur.ord ∧
      Cut g nosplit cur.off (cur.size g) (cur'.stop g) := by
  have positive := Nat.two_pow_pos g.pageShift
  have size : cur.size g = cur.units.sum * 2 ^ g.pageShift := Item.size_eq g cur
  have stop : cur.stop g = cur.off + cur.size g := rfl
  have sizePos : 0 < cur.size g := by rw [size]; exact Nat.mul_pos current.nonempty positive
  rw [iteration_current current] at run
  rcases whatToDo_cases pow nosplit dstId cur.off cur.ord sizePos with
    ⟨loc, plan⟩ | ⟨loc, plan⟩ | ⟨act, loc, s, notSkip, plan, cut⟩
  · rw [plan, switchAct_skip current.quiet] at run
    cases run
  · have pages : (m.keyOff + cur.size g - cur.off) >>> g.pageShift = cur.units.sum := by
      rw [← current.key.1, Nat.add_sub_cancel_left, size, Nat.shiftRight_eq_div_pow, Nat.mul_div_cancel _ positive]
    rw [plan, switchAct_migrate pages (doMigrateExtent_whole current.quiet current.atCur current.pos rfl _)
      (Nat.pos_iff_ne_zero.mp current.nonempty)] at run
    cases run
  · have sizeAligned : 2 ^ g.pageShift ∣ cur.size g := size ▸ Dvd.intro_left _ rfl
    have sAligned := cut.aligned pageDvd current.aligned sizeAligned
    have inside : cur.off ≤ s ∧ s ≤ cur.stop g := ⟨cut.after.le, by rw [stop]; exact cut.before.le⟩
    have strictly : cur.off < s ∧ s < cur.stop g := ⟨cut.after, by rw [stop]; exact cut.before⟩
    cases act with
    | skip => exact absurd rfl notSkip
    | split =>
      obtain ⟨left, right, step, leftOff, leftOrd, cutStop, rightOff, -, restStop⟩ :=
        switchAct_split_inside current.quiet current.atCur current.pos current.aligned sAligned strictly loc
      rw [plan, step] at run
      cases run
      refine ⟨left, right :: post, ⟨current.quiet, by simp, current.pos,
        (window_pair current.sorted leftOff cutStop rightOff restStop inside).1,
        ⟨leftOff.trans current.key.1, leftOrd.trans current.key.2⟩, leftOff ▸ current.aligned,
        Item.units_pos (by rw [leftOff, cutStop]; exact cut.after)⟩, leftOff, leftOrd, cutStop ▸ cut⟩
    | migrate =>
      obtain ⟨left, new, step, leftOff, leftOrd, cutStop, newOff, -, newStop⟩ :=
        switchAct_tail current.quiet current.atCur current.pos current.sorted current.key.1.symm current.aligned
          sAligned strictly loc
      rw [plan, step] at run
      cases run
      refine ⟨left, mergeRight g (new :: post) 0, ⟨current.quiet, rfl, rfl, mergeRight_after pre post left new ▸
        sorted_mergeRight (window_pair current.sorted leftOff cutStop newOff newStop inside).1 _, ⟨leftOff, leftOrd⟩,
        leftOff ▸ current.aligned, Item.units_pos (by rw [leftOff, cutStop]; exact cut.after)⟩,
        leftOff, leftOrd, cutStop ▸ cut⟩

end Step

section Bound

variable {g : Geometry} {nosplit : Bool} {dstId : Option Nat}

/-- A loop whose continuing iterations lower a measure of the current item
ends within one iteration more than the measure. -/
theorem migrateLoop_ends (μ : Item → Nat)
    (step : ∀ {m m' pre cur post}, Current g m pre cur post → iteration g nosplit dstId m = .ok (.next m') →
      ∃ cur' post', Current g m' pre cur' post' ∧ μ cur' < μ cur) :
    ∀ {fuel m pre cur post}, Current g m pre cur post → μ cur < fuel →
      ∃ r, migrateLoop g nosplit dstId fuel m = some r := by
  intro fuel
  induction fuel with
  | zero => intro _ _ _ _ _ short; omega
  | succ fuel ih =>
    intro m pre cur post current short
    rw [migrateLoop]
    cases next : iteration g nosplit dstId m with
    | error e => exact ⟨_, rfl⟩
    | ok result =>
      cases result with
      | done ret m' => exact ⟨_, rfl⟩
      | next m' =>
        obtain ⟨cur', post', current', lower⟩ := step current next
        exact ih current' (by omega)

/-- The stripe boundaries strictly inside the item `[o, stop)`. -/
def innerBoundaries (g : Geometry) (it : Item) : Nat := (it.stop g - 1) / g.stripeSize - it.off / g.stripeSize

/-- `⌈size / MIGRATION_GRANULARITY pages⌉`: the granules of the item. -/
def granules (g : Geometry) (it : Item) : Nat :=
  (it.size g + (migrationGranularity <<< g.pageShift) - 1) / (migrationGranularity <<< g.pageShift)

theorem innerBoundaries_lt {sb : Nat} (pow : g.stripeSize = 2 ^ sb) {cur cur' : Item} (sameOff : cur'.off = cur.off)
    (cut : Cut g false cur.off (cur.size g) (cur'.stop g)) : innerBoundaries g cur' < innerBoundaries g cur := by
  have positive : 0 < g.stripeSize := pow ▸ Nat.two_pow_pos sb
  obtain ⟨q, boundary⟩ := cut.stripe rfl
  have stop : cur.stop g = cur.off + cur.size g := rfl
  have after := cut.after
  have before := cut.before
  rw [boundary] at after before
  have qPos : 0 < q := Nat.pos_of_ne_zero fun zero => by rw [zero, Nat.mul_zero] at after; omega
  have swap := Nat.mul_comm q g.stripeSize
  have last : (g.stripeSize * q - 1) / g.stripeSize = q - 1 := by
    apply Nat.div_eq_of_lt_le
    · rw [Nat.sub_mul, Nat.one_mul]; omega
    · rw [Nat.sub_add_cancel qPos]; omega
  have reach : q ≤ (cur.stop g - 1) / g.stripeSize := (Nat.le_div_iff_mul_le positive).mpr (by omega)
  have start : cur.off / g.stripeSize < q := (Nat.div_lt_iff_lt_mul positive).mpr (by omega)
  unfold innerBoundaries
  rw [sameOff, boundary, last]
  omega

theorem granules_pos {it : Item} (nonempty : 0 < it.units.sum) : 0 < granules g it := by
  have positive := Nat.two_pow_pos g.pageShift
  have size : 0 < it.size g := by rw [Item.size_eq]; exact Nat.mul_pos nonempty positive
  exact Nat.div_pos (by omega) (by rw [Nat.shiftLeft_eq]; exact Nat.mul_pos (by decide) positive)

theorem granules_lt {cur cur' : Item} (sameOff : cur'.off = cur.off)
    (cut : Cut g true cur.off (cur.size g) (cur'.stop g)) : granules g cur' < granules g cur := by
  have chunk := cut.chunk rfl
  have after := cut.after
  have positive : 0 < migrationGranularity <<< g.pageShift := by
    rw [Nat.shiftLeft_eq]; exact Nat.mul_pos (by decide) (Nat.two_pow_pos _)
  have size' : cur'.size g = cur.size g - (migrationGranularity <<< g.pageShift) := by
    have : cur'.stop g = cur'.off + cur'.size g := rfl
    omega
  unfold granules
  rw [size', show cur.size g - (migrationGranularity <<< g.pageShift) + (migrationGranularity <<< g.pageShift) - 1 =
    cur.size g - 1 by omega, show cur.size g + (migrationGranularity <<< g.pageShift) - 1 =
    cur.size g - 1 + (migrationGranularity <<< g.pageShift) by omega, Nat.add_div_right _ positive]
  omega

end Bound

/-- In a run of `reiser4_migrate_extent` where no primitive fails, for any
stripe map and any `dst_id`, an iteration either sets `stop` or leaves the
coord on an item with the same key whose end is strictly smaller and still
past the key offset: a stripe boundary in split mode, `MIGRATION_GRANULARITY`
pages lower in no-split mode. So the loop runs at most one iteration more than
the stripe boundaries strictly inside the item, and in no-split mode at most
`⌈size / MIGRATION_GRANULARITY pages⌉` iterations. -/
theorem migrateExtent_terminates {g : Geometry} {sb : Nat} (pow : g.stripeSize = 2 ^ sb)
    (pageDvd : 2 ^ g.pageShift ∣ g.stripeSize) :
    (∀ {nosplit : Bool} {dstId : Option Nat} {m m' : Mctx} {pre cur post}, Current g m pre cur post →
      iteration g nosplit dstId m = .ok (.next m') →
      ∃ cur' post', Current g m' pre cur' post' ∧ cur'.off = cur.off ∧ cur'.ord = cur.ord ∧
        cur.off < cur'.stop g ∧ cur'.stop g < cur.stop g ∧
        (nosplit = false → g.stripeSize ∣ cur'.stop g) ∧
        (nosplit = true → cur'.stop g + (migrationGranularity <<< g.pageShift) = cur.stop g)) ∧
    ∀ {pre it post}, Sorted g (pre ++ it :: post) → 2 ^ g.pageShift ∣ it.off → 0 < it.units.sum →
      ∀ dstId : Option Nat,
        (∃ r, migrateExtent g false dstId (innerBoundaries g it + 1) (pre ++ it :: post) pre.length it [] = some r) ∧
        ∃ r, migrateExtent g true dstId (granules g it) (pre ++ it :: post) pre.length it [] = some r := by
  refine ⟨fun current run => ?_, fun {pre it post} sorted aligned nonempty dstId => ?_⟩
  · obtain ⟨cur', post', current', off, ord, cut⟩ := iteration_next pow pageDvd current run
    exact ⟨cur', post', current', off, ord, cut.after, cut.before, cut.stripe, cut.chunk⟩
  have start : Current g ⟨pre ++ it :: post, pre.length, it.off, it.ord, none, []⟩ pre it post :=
    ⟨rfl, rfl, rfl, sorted, ⟨rfl, rfl⟩, aligned, nonempty⟩
  constructor
  · exact migrateLoop_ends (innerBoundaries g) (fun current run => by
      obtain ⟨cur', post', current', off, -, cut⟩ := iteration_next pow pageDvd current run
      exact ⟨cur', post', current', innerBoundaries_lt pow off cut⟩) start (Nat.lt_succ_self _)
  · exact migrateLoop_ends (fun c => granules g c - 1) (fun current run => by
      obtain ⟨cur', post', current', off, -, cut⟩ := iteration_next pow pageDvd current run
      have lower := granules_lt off cut
      have left := granules_pos (g := g) current'.nonempty
      exact ⟨cur', post', current', by dsimp only; omega⟩) start
        (by dsimp only; have := granules_pos (g := g) nonempty; omega)

/-- A concrete instance: the 16-page item of four 16 KiB stripes ends within
4 iterations in split mode (3 inner stripe boundaries) and within 1 in no-split mode. -/
theorem migrateExtent_terminates_four_stripes :
    (∃ r, migrateExtent ⟨12, 16384, fun j => [2, 1, 1, 2].getD j 0⟩ false none
        (innerBoundaries ⟨12, 16384, fun j => [2, 1, 1, 2].getD j 0⟩ ⟨0, 1, [16]⟩ + 1) [⟨0, 1, [16]⟩] 0 ⟨0, 1, [16]⟩ [] =
        some r) ∧
      ∃ r, migrateExtent ⟨12, 16384, fun j => [2, 1, 1, 2].getD j 0⟩ true none
        (granules ⟨12, 16384, fun j => [2, 1, 1, 2].getD j 0⟩ ⟨0, 1, [16]⟩) [⟨0, 1, [16]⟩] 0 ⟨0, 1, [16]⟩ [] = some r :=
  (migrateExtent_terminates (g := ⟨12, 16384, fun j => [2, 1, 1, 2].getD j 0⟩) (show 16384 = 2 ^ 14 from rfl)
    (by decide)).2
    (show Sorted ⟨12, 16384, fun j => [2, 1, 1, 2].getD j 0⟩ ([] ++ ⟨0, 1, [16]⟩ :: []) by decide) (by decide)
    (by decide) none

end Reiser4Volume.Extent
