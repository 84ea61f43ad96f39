import Reiser4Volume.Extent.Placement

/-! What `what_to_do` and `what_to_do_nosplit` decide for any stripe map and
any `dst_id`: where `stop_off` lies in the item, and where the coord and
`unit_split_pos` are left for the primitive that follows. -/

namespace Reiser4Volume.Extent

/-- `lookup_extent(key, FIND_EXACT, coord)` of byte `b` inside the item of key
offset `off` and units `units`: the position of the unit holding `b` and the
offset of that unit's key. Items do not overlap, so the lookup of a byte of the
current item lands in it. -/
def lookupUnit (g : Geometry) : Nat → List Nat → Nat → Option (Nat × Nat)
  | _, [], _ => none
  | off, w :: ws, b =>
    if off ≤ b ∧ b < off + (w <<< g.pageShift) then some (0, off)
    else (lookupUnit g (off + (w <<< g.pageShift)) ws b).map fun found => (found.1 + 1, found.2)

/-- Where `what_to_do` leaves `coord->unit_pos` and `mctx->unit_split_pos`:
the first unit and 0 for SKIP and for a whole-item MIGRATE, otherwise the unit
holding `stop_off` and the page of `stop_off` in it. A lookup that finds no
unit trips edward-2113 (edward-2442 in no-split mode), a unit starting past
`stop_off` edward-2115 (edward-2444). -/
def whatToDoCoord (g : Geometry) (it : Item) (plan : Plan) : Except Fault (Nat × Nat) :=
  if plan.act = .skip ∨ plan.migrateWholeItem = true then .ok (0, 0) else
  match lookupUnit g it.off it.units plan.stopOff with
  | none => .error .assertion
  | some (unitPos, unitOff) =>
    if unitOff ≤ plan.stopOff then .ok (unitPos, (plan.stopOff - unitOff) >>> g.pageShift)
    else .error .assertion

/-- `stop_off` strictly inside the item `[o, o + size)`: on a stripe boundary
in split mode, `MIGRATION_GRANULARITY` pages before the item's end in no-split
mode. -/
structure Cut (g : Geometry) (nosplit : Bool) (o size s : Nat) : Prop where
  after : o < s
  before : s < o + size
  stripe : nosplit = false → g.stripeSize ∣ s
  chunk : nosplit = true → s + (migrationGranularity <<< g.pageShift) = o + size

section CutAligned

variable {g : Geometry} {nosplit : Bool} {o size s : Nat}

theorem Cut.aligned (cut : Cut g nosplit o size s) (pageDvd : 2 ^ g.pageShift ∣ g.stripeSize)
    (offAligned : 2 ^ g.pageShift ∣ o) (sizeAligned : 2 ^ g.pageShift ∣ size) : 2 ^ g.pageShift ∣ s := by
  cases nosplit with
  | false => exact Nat.dvd_trans pageDvd (cut.stripe rfl)
  | true =>
    have whole : 2 ^ g.pageShift ∣ s + (migrationGranularity <<< g.pageShift) := by
      rw [cut.chunk rfl]; exact Nat.dvd_add offAligned sizeAligned
    rw [Nat.shiftLeft_eq] at whole
    exact (Nat.dvd_add_left (Dvd.intro_left _ rfl)).mp whole

end CutAligned

section Decision

variable {g : Geometry} {sb : Nat}

theorem splitOff_inside (pow : g.stripeSize = 2 ^ sb) {o size loc s : Nat} (nonempty : 0 < size)
    (found : findSplitOff g loc ((o + size - 1) / g.stripeSize - o / g.stripeSize)
      (g.stripeSize * ((o + size - 1) / g.stripeSize)) = some s) :
    o < s ∧ s < o + size ∧ g.stripeSize ∣ s := by
  have positive : 0 < g.stripeSize := pow ▸ Nat.two_pow_pos sb
  have ordered : o / g.stripeSize ≤ (o + size - 1) / g.stripeSize := Nat.div_le_div_right (by omega)
  obtain ⟨j, lo, hi, rfl, -, -⟩ := findSplitOff_some positive (Nat.sub_le _ _) found
  refine ⟨?_, ?_, Dvd.intro _ rfl⟩
  · calc o < g.stripeSize * (o / g.stripeSize + 1) := Nat.lt_mul_div_succ o positive
      _ ≤ g.stripeSize * (j + 1) := Nat.mul_le_mul_left _ (by omega)
  · calc g.stripeSize * (j + 1) ≤ g.stripeSize * ((o + size - 1) / g.stripeSize) := Nat.mul_le_mul_left _ (by omega)
      _ ≤ o + size - 1 := Nat.mul_div_le _ _
      _ < o + size := by omega

theorem whatToDo_cases (pow : g.stripeSize = 2 ^ sb) (nosplit : Bool) (dstId : Option Nat) (o ord : Nat) {size : Nat}
    (nonempty : 0 < size) :
    (∃ loc, whatToDo g nosplit dstId o ord size = ⟨.skip, loc, o, false⟩) ∨
      (∃ loc, whatToDo g nosplit dstId o ord size = ⟨.migrate, loc, o, true⟩) ∨
      ∃ act loc s, act ≠ .skip ∧ whatToDo g nosplit dstId o ord size = ⟨act, loc, s, false⟩ ∧
        Cut g nosplit o size s := by
  cases nosplit with
  | true =>
    have chunk : 0 < migrationGranularity <<< g.pageShift := by
      rw [Nat.shiftLeft_eq]; exact Nat.mul_pos (by decide) (Nat.two_pow_pos _)
    simp only [whatToDo, if_true, whatToDoNosplit]
    split_ifs with same small
    · exact .inl ⟨_, rfl⟩
    · exact .inr (.inl ⟨_, rfl⟩)
    · exact .inr (.inr ⟨_, _, _, by decide, rfl,
        ⟨by omega, by omega, (fun wrong => by cases wrong), fun _ => by omega⟩⟩)
  | false =>
    have positive : 0 < g.stripeSize := pow ▸ Nat.two_pow_pos sb
    have steps : (g.stripeSize * ((o + size - 1) / g.stripeSize) - g.stripeSize * (o / g.stripeSize)) / g.stripeSize
        = (o + size - 1) / g.stripeSize - o / g.stripeSize := by
      rw [← Nat.mul_sub, Nat.mul_div_cancel_left _ positive]
    simp only [whatToDo, Bool.false_eq_true, if_false, stripe_start pow, steps]
    generalize found : findSplitOff g _ _ _ = r
    cases r with
    | none =>
      dsimp only
      split_ifs
      · exact .inr (.inl ⟨_, rfl⟩)
      · exact .inl ⟨_, rfl⟩
    | some s =>
      obtain ⟨after, before, stripe⟩ := splitOff_inside pow nonempty found
      dsimp only
      split_ifs
      · exact .inr (.inr ⟨_, _, _, by decide, rfl, ⟨after, before, fun _ => stripe, (fun wrong => by cases wrong)⟩⟩)
      · exact .inr (.inr ⟨_, _, _, by decide, rfl, ⟨after, before, fun _ => stripe, (fun wrong => by cases wrong)⟩⟩)

theorem lookupUnit_spec {units : List Nat} {off b : Nat} (inside : off ≤ b ∧ b < off + units.sum * 2 ^ g.pageShift) :
    ∃ u w, units[u]? = some w ∧
      lookupUnit g off units b = some (u, off + (units.take u).sum * 2 ^ g.pageShift) ∧
      off + (units.take u).sum * 2 ^ g.pageShift ≤ b ∧
      b < off + (units.take u).sum * 2 ^ g.pageShift + w * 2 ^ g.pageShift := by
  induction units generalizing off with
  | nil => simp at inside; omega
  | cons w ws ih =>
    simp only [List.sum_cons, Nat.add_mul] at inside
    by_cases here : off ≤ b ∧ b < off + (w <<< g.pageShift)
    · rw [Nat.shiftLeft_eq] at here
      exact ⟨0, w, by simp, by simp [lookupUnit, Nat.shiftLeft_eq, here], by simpa using here.1, by simpa using here.2⟩
    · rw [Nat.shiftLeft_eq] at here
      obtain ⟨u, w', found, look, lo, hi⟩ := @ih (off + w * 2 ^ g.pageShift) (by omega)
      refine ⟨u + 1, w', by simpa using found, ?_, ?_, ?_⟩
      · simp only [lookupUnit, Nat.shiftLeft_eq, here, if_false, look, Option.map_some', List.take_succ_cons,
          List.sum_cons, Nat.add_mul, Nat.add_assoc]
      · simp only [List.take_succ_cons, List.sum_cons, Nat.add_mul]; omega
      · simp only [List.take_succ_cons, List.sum_cons, Nat.add_mul]; omega

/-- What `what_to_do` hands to the primitive that follows it. -/
structure Decided (g : Geometry) (nosplit : Bool) (it : Item) (plan : Plan) : Prop where
  start : it.off ≤ plan.stopOff
  inside : plan.stopOff < it.stop g
  /-- `stop_off` is the item's start exactly for SKIP and a whole-item MIGRATE. -/
  atStart : plan.stopOff = it.off ↔ plan.act = .skip ∨ plan.migrateWholeItem = true
  cut : plan.stopOff ≠ it.off → plan.act ≠ .skip ∧ Cut g nosplit it.off (it.size g) plan.stopOff
  firstUnit : plan.stopOff = it.off → whatToDoCoord g it plan = .ok (0, 0)
  /-- Otherwise the coord is on the unit holding `stop_off`, `unit_split_pos`
  pages into it and below its width, and not on the first unit when
  `unit_split_pos` is 0 (edward-2113..2115, 2143, 2404, 2442..2444). -/
  coord : plan.stopOff ≠ it.off → ∃ unitPos width unitSplitPos,
    it.units[unitPos]? = some width ∧ whatToDoCoord g it plan = .ok (unitPos, unitSplitPos) ∧
    it.off + (it.units.take unitPos).sum * 2 ^ g.pageShift + unitSplitPos * 2 ^ g.pageShift = plan.stopOff ∧
    unitSplitPos < width ∧ (unitSplitPos = 0 → 0 < unitPos)
  /-- `nr_pages` of a MIGRATE is at least 1 (edward-2351). -/
  pages : plan.act = .migrate → 0 < (it.off + it.size g - plan.stopOff) >>> g.pageShift

theorem whatToDoCoord_inside (aligned : 2 ^ g.pageShift ∣ it.off) {act : Act} {loc s : Nat} (notSkip : act ≠ .skip)
    (sAligned : 2 ^ g.pageShift ∣ s) (after : it.off < s) (before : s < it.stop g) :
    ∃ unitPos width unitSplitPos,
      it.units[unitPos]? = some width ∧ whatToDoCoord g it ⟨act, loc, s, false⟩ = .ok (unitPos, unitSplitPos) ∧
      it.off + (it.units.take unitPos).sum * 2 ^ g.pageShift + unitSplitPos * 2 ^ g.pageShift = s ∧
      unitSplitPos < width ∧ (unitSplitPos = 0 → 0 < unitPos) := by
  have positive := Nat.two_pow_pos g.pageShift
  obtain ⟨u, w, found, look, lo, hi⟩ :=
    @lookupUnit_spec g it.units it.off s ⟨after.le, by simpa [Item.stop] using before⟩
  have exact : 2 ^ g.pageShift ∣ s - (it.off + (it.units.take u).sum * 2 ^ g.pageShift) :=
    Nat.dvd_sub' sAligned (Nat.dvd_add aligned (Dvd.intro_left _ rfl))
  have pages := Nat.div_mul_cancel exact
  refine ⟨u, w, (s - (it.off + (it.units.take u).sum * 2 ^ g.pageShift)) >>> g.pageShift, found, ?_, ?_, ?_,
    fun zero => ?_⟩
  · simp only [whatToDoCoord, notSkip, Bool.false_eq_true, or_self, if_false, look, lo, if_true]
  · rw [Nat.shiftRight_eq_div_pow, pages]; omega
  · rw [Nat.shiftRight_eq_div_pow]
    exact (Nat.div_lt_iff_lt_mul positive).mpr (by omega)
  · rw [Nat.shiftRight_eq_div_pow] at zero
    rw [zero, Nat.zero_mul] at pages
    rcases Nat.eq_zero_or_pos u with rfl | later
    · simp at pages; omega
    · exact later

/-- `what_to_do` and `what_to_do_nosplit` keep `stop_off` inside the item,
at its start exactly for SKIP and a whole-item MIGRATE and otherwise on a
stripe boundary (in no-split mode `MIGRATION_GRANULARITY` pages before the
end), and leave the coord on the unit holding it: every assertion on their
outputs holds, `nr_pages` is at least 1 and `done_off` is not 0. -/
theorem whatToDo_decides_in_range (pow : g.stripeSize = 2 ^ sb) (pageDvd : 2 ^ g.pageShift ∣ g.stripeSize)
    {it : Item} (aligned : 2 ^ g.pageShift ∣ it.off) (nonempty : 0 < it.units.sum) (nosplit : Bool)
    (dstId : Option Nat) :
    Decided g nosplit it (whatToDo g nosplit dstId it.off it.ord (it.size g)) := by
  have positive := Nat.two_pow_pos g.pageShift
  have size : it.size g = it.units.sum * 2 ^ g.pageShift := Item.size_eq g it
  have sizePos : 0 < it.size g := by rw [size]; exact Nat.mul_pos nonempty positive
  have stop : it.stop g = it.off + it.size g := rfl
  rcases whatToDo_cases pow nosplit dstId it.off it.ord sizePos with
    ⟨loc, plan⟩ | ⟨loc, plan⟩ | ⟨act, loc, s, notSkip, plan, cut⟩
  · rw [plan]
    exact ⟨le_rfl, show it.off < it.stop g by omega, by simp, fun same => absurd rfl same, fun _ => rfl,
      fun same => absurd rfl same, fun wrong => by cases wrong⟩
  · rw [plan]
    refine ⟨le_rfl, show it.off < it.stop g by omega, by simp, fun same => absurd rfl same, fun _ => rfl,
      fun same => absurd rfl same, fun _ => ?_⟩
    rw [Nat.add_sub_cancel_left, size, Nat.shiftRight_eq_div_pow, Nat.mul_div_cancel _ positive]
    exact nonempty
  · have sizeAligned : 2 ^ g.pageShift ∣ it.size g := size ▸ Dvd.intro_left _ rfl
    have sAligned := cut.aligned pageDvd aligned sizeAligned
    rw [plan]
    refine ⟨cut.after.le, by rw [stop]; exact cut.before, ⟨fun same => absurd same (Nat.ne_of_gt cut.after),
      fun start => ?_⟩, fun _ => ⟨notSkip, cut⟩, fun same => absurd same (Nat.ne_of_gt cut.after),
      fun _ => whatToDoCoord_inside aligned notSkip sAligned cut.after (by rw [stop]; exact cut.before),
      fun _ => pages_pos cut.before (Nat.dvd_sub' (Nat.dvd_add aligned sizeAligned) sAligned)⟩
    simp only [notSkip, Bool.false_eq_true, or_self] at start

/-- A concrete instance: the item of four stripes of the placement example
(stripes 0 and 3 on brick 2, the middle two on brick 1), as what_to_do sees it
in split mode. -/
theorem whatToDo_decides_four_stripes :
    Decided ⟨12, 16384, fun j => [2, 1, 1, 2].getD j 0⟩ false ⟨0, 1, [16]⟩
      (whatToDo ⟨12, 16384, fun j => [2, 1, 1, 2].getD j 0⟩ false none 0 1
        (Item.size ⟨12, 16384, fun j => [2, 1, 1, 2].getD j 0⟩ ⟨0, 1, [16]⟩)) :=
  @whatToDo_decides_in_range _ 14 rfl (by decide) ⟨0, 1, [16]⟩ (by decide) (by decide) false none

end Decision

end Reiser4Volume.Extent
