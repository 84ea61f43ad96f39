import Reiser4Volume.Extent.Migrate

/-! Runs of the migration primitives in which a tree primitive fails after an
earlier one has already changed the item: `cut_off_tail` and the tail cut of
`split_extent_item` have no undo, so the bytes they cut off are in no item
when the insert that should take them fails. -/

namespace Reiser4Volume.Extent

section Failures

variable {g : Geometry} {m : Mctx} {pre post : Items} {cur : Item} {s : Nat} {r : Int} {rest : List Int}

/-- `migrate_blocks` moving the tail `[s, end)` of the current item: when
`insert_by_coord` fails after `cut_off_tail`, the error is returned, but the
tail is in no item any more. -/
theorem migrateBlocks_insert_failure_loses_tail (sorted : Sorted g (pre ++ cur :: post))
    (atCur : m.items = pre ++ cur :: post) (pos : m.pos = pre.length)
    (inside : cur.off < s ∧ s < cur.stop g) (aligned : 2 ^ g.pageShift ∣ s - cur.off)
    (failed : r ≠ 0) (outcomes : m.outcomes = [0, 0, 0, 0, r] ++ rest) (loc n : Nat) :
    ∃ m', migrateBlocks g m cur ⟨.migrate, loc, s, false⟩ n = (r, m') ∧
      ∀ b, ordAt g m'.items b = if s ≤ b ∧ b < cur.stop g then none else ordAt g m.items b := by
  refine ⟨{ m with items := cutTail g m.items m.pos s, outcomes := rest }, ?_, fun b => ?_⟩
  · simp [migrateBlocks, migrateTailPart, call, outcomes, failed]
  · rw [atCur, pos, cutTail_cur, ordAt_cut sorted ⟨inside.1.le, inside.2.le⟩ aligned]

/-- A concrete instance: a 2-page item whose second page moves to brick 2,
with `insert_by_coord` failing with `-ENOSPC`. -/
theorem migrateBlocks_insert_failure_two_pages :
    ∃ m', migrateBlocks ⟨12, 4096, fun _ => 2⟩ ⟨[⟨0, 1, [2]⟩], 0, 0, 1, none, [0, 0, 0, 0, -ENOSPC]⟩ ⟨0, 1, [2]⟩
        ⟨.migrate, 2, 4096, false⟩ 1 = (-ENOSPC, m') ∧
      ∀ b, ordAt ⟨12, 4096, fun _ => 2⟩ m'.items b =
        if 4096 ≤ b ∧ b < Item.stop ⟨12, 4096, fun _ => 2⟩ ⟨0, 1, [2]⟩ then none else ordAt ⟨12, 4096, fun _ => 2⟩ [⟨0, 1, [2]⟩] b :=
  @migrateBlocks_insert_failure_loses_tail _ _ [] [] _ _ _ [] (by decide) rfl rfl ⟨by decide, by decide⟩
    (by decide) (by decide) rfl 2 1

/-- `split_extent_item` at `s` inside the current item: when `insert_by_coord`
fails after the tail units have been cut, its result is dropped and 0 is
returned, with the tail in no item. -/
theorem doSplitExtent_insert_failure_loses_tail (sorted : Sorted g (pre ++ cur :: post))
    (atCur : m.items = pre ++ cur :: post) (pos : m.pos = pre.length)
    (inside : cur.off < s ∧ s < cur.stop g) (aligned : 2 ^ g.pageShift ∣ s - cur.off) (failed : r ≠ 0)
    (outcomes : m.outcomes =
      0 :: (if isUnitBoundary ((s - cur.off) >>> g.pageShift) cur.units then [] else [0]) ++ [0, 0, r] ++ rest) :
    ∃ m', doSplitExtent g m cur s = .ok (0, m') ∧
      ∀ b, ordAt g m'.items b = if s ≤ b ∧ b < cur.stop g then none else ordAt g m.items b := by
  let k := (s - cur.off) >>> g.pageShift
  let split : Item := { cur with units := takePages k cur.units ++ dropPages k cur.units }
  have same : split.off = cur.off ∧ split.stop g = cur.stop g := by
    simp only [split, Item.stop, Item.size_eq, List.sum_append, sum_takePages, sum_dropPages, true_and]
    rw [show min k cur.units.sum + (cur.units.sum - k) = cur.units.sum by omega]
  refine ⟨{ m with
      items := cutTail g (rewriteItem m.items m.pos fun it =>
        { it with units := takePages k it.units ++ dropPages k it.units }) m.pos s
      outcomes := rest }, ?_, fun b => ?_⟩
  · by_cases boundary : isUnitBoundary k cur.units <;>
      simp [doSplitExtent, call, outcomes, boundary, failed, k] <;> rfl
  · rw [atCur, pos, rewriteItem_cur, cutTail_cur,
      ordAt_cut (sorted_replace sorted same) (same.1 ▸ same.2 ▸ ⟨inside.1.le, inside.2.le⟩) (same.1 ▸ aligned),
      same.2, ordAt_replace sorted same]
    by_cases inCur : cur.off ≤ b ∧ b < cur.stop g
    · rw [if_pos inCur, ordAt_cur sorted inCur]
    · rw [if_neg inCur]

/-- A concrete instance: splitting a 2-page item at its second page, with
`insert_by_coord` failing with `-ENOSPC`. -/
theorem doSplitExtent_insert_failure_two_pages :
    ∃ m', doSplitExtent ⟨12, 4096, fun _ => 2⟩ ⟨[⟨0, 1, [2]⟩], 0, 0, 1, none, [0, 0, 0, 0, -ENOSPC]⟩ ⟨0, 1, [2]⟩ 4096 =
        .ok (0, m') ∧
      ∀ b, ordAt ⟨12, 4096, fun _ => 2⟩ m'.items b =
        if 4096 ≤ b ∧ b < Item.stop ⟨12, 4096, fun _ => 2⟩ ⟨0, 1, [2]⟩ then none else ordAt ⟨12, 4096, fun _ => 2⟩ [⟨0, 1, [2]⟩] b :=
  @doSplitExtent_insert_failure_loses_tail _ _ [] [] _ _ _ [] (by decide) rfl rfl ⟨by decide, by decide⟩
    (by decide) (by decide) rfl

end Failures

end Reiser4Volume.Extent
