import Reiser4Volume.Extent.Migrate

/-! The placement law of `reiser4_migrate_extent`: in a run where no primitive
fails, every byte of the item ends on the brick its plan names, and every
other byte of the file keeps its brick. `what_to_do` is summed up by
`Planned`, each migration step by a lemma on the list cut at the current item,
and the loop by the invariant `Progress`. With no failing primitive every
`call` returns 0, and each migration function is given its effect on the file
cut as `pre ++ cur :: post` at the current item. -/

namespace Reiser4Volume.Extent

/-- The plans `what_to_do` makes for the item `[o, o + size)` of ordering
`ord`, when byte `b` is bound for brick `dest b`. -/
inductive Planned (g : Geometry) (dest : Nat → Nat) (o ord size : Nat) : Plan → Prop
  | skip (placed : ∀ b, o ≤ b → b < o + size → dest b = ord) : Planned g dest o ord size ⟨.skip, ord, o, false⟩
  | whole (loc : Nat) (moved : loc ≠ ord) (placed : ∀ b, o ≤ b → b < o + size → dest b = loc) :
      Planned g dest o ord size ⟨.migrate, loc, o, true⟩
  | tail (loc s : Nat) (moved : loc ≠ ord) (inside : o < s ∧ s < o + size) (aligned : 2 ^ g.pageShift ∣ s)
      (placed : ∀ b, s ≤ b → b < o + size → dest b = loc) : Planned g dest o ord size ⟨.migrate, loc, s, false⟩
  | split (s : Nat) (inside : o < s ∧ s < o + size) (aligned : 2 ^ g.pageShift ∣ s)
      (placed : ∀ b, s ≤ b → b < o + size → dest b = ord) (differs : ∃ b, o ≤ b ∧ b < s ∧ dest b ≠ ord) :
      Planned g dest o ord size ⟨.split, ord, s, false⟩

section Stripes

variable {g : Geometry}

theorem stripe_start {sb : Nat} (pow : g.stripeSize = 2 ^ sb) (x : Nat) :
    x - (x &&& (g.stripeSize - 1)) = g.stripeSize * (x / g.stripeSize) := by
  rw [pow, Nat.and_pow_two_sub_one_eq_mod]
  have := Nat.mod_add_div x (2 ^ sb)
  omega

theorem calc_stripe (positive : 0 < g.stripeSize) (j : Nat) : g.calc (g.stripeSize * j) = g.stripeMap j := by
  rw [Geometry.calc, Nat.mul_div_cancel_left j positive]

private theorem stripe_before (q : Nat) : g.stripeSize * q - g.stripeSize = g.stripeSize * (q - 1) := by
  rw [Nat.mul_sub_one]

theorem findSplitOff_none (positive : 0 < g.stripeSize) {loc n q : Nat} (fits : n ≤ q)
    (none : findSplitOff g loc n (g.stripeSize * q) = none) : ∀ j, q - n ≤ j → j < q → g.stripeMap j = loc := by
  induction n generalizing q with
  | zero => intro j lo hi; omega
  | succ n ih =>
    simp only [findSplitOff, stripe_before, calc_stripe positive] at none
    split at none
    · cases none
    · rename_i same
      intro j lo hi
      by_cases last : j = q - 1
      · rw [last]
        exact not_not.mp same
      · exact ih (by omega) none j (by omega) (by omega)

theorem findSplitOff_some (positive : 0 < g.stripeSize) {loc n q s : Nat} (fits : n ≤ q)
    (found : findSplitOff g loc n (g.stripeSize * q) = some s) :
    ∃ j, q - n ≤ j ∧ j < q ∧ s = g.stripeSize * (j + 1) ∧ g.stripeMap j ≠ loc ∧
      ∀ j', j < j' → j' < q → g.stripeMap j' = loc := by
  induction n generalizing q with
  | zero => simp [findSplitOff] at found
  | succ n ih =>
    simp only [findSplitOff, stripe_before, calc_stripe positive] at found
    split at found
    · cases found
      exact ⟨q - 1, by omega, by omega, by rw [Nat.mul_add_one], ‹_›, fun j' lo hi => by omega⟩
    · rename_i same
      obtain ⟨j, lo, hi, split, other, rest⟩ := ih (by omega) found
      refine ⟨j, by omega, by omega, split, other, fun j' lo' hi' => ?_⟩
      by_cases last : j' = q - 1
      · rw [last]
        exact not_not.mp same
      · exact rest j' lo' (by omega)

theorem whatToDo_planned {sb : Nat} (pow : g.stripeSize = 2 ^ sb) (pageDvd : 2 ^ g.pageShift ∣ g.stripeSize)
    {o ord size : Nat} (nonempty : 0 < size) : Planned g g.calc o ord size (whatToDo g false none o ord size) := by
  have positive : 0 < g.stripeSize := pow ▸ Nat.two_pow_pos sb
  have last : g.calc (g.stripeSize * ((o + size - 1) / g.stripeSize)) = g.calc (o + size - 1) :=
    calc_stripe positive _
  have steps : (g.stripeSize * ((o + size - 1) / g.stripeSize) - g.stripeSize * (o / g.stripeSize)) / g.stripeSize
      = (o + size - 1) / g.stripeSize - o / g.stripeSize := by
    rw [← Nat.mul_sub, Nat.mul_div_cancel_left _ positive]
  have ordered : o / g.stripeSize ≤ (o + size - 1) / g.stripeSize := Nat.div_le_div_right (by omega)
  have toLast : ∀ b, b / g.stripeSize = (o + size - 1) / g.stripeSize → g.calc b = g.calc (o + size - 1) :=
    fun b top => congrArg g.stripeMap top
  simp only [whatToDo, Bool.false_eq_true, if_false, Option.map_none', Option.getD_none, stripe_start pow, steps, last]
  generalize found : findSplitOff g (g.calc (o + size - 1)) _ _ = r
  cases r with
  | none =>
    have same := findSplitOff_none positive (Nat.sub_le _ _) found
    have placed : ∀ b, o ≤ b → b < o + size → g.calc b = g.calc (o + size - 1) := by
      intro b lo hi
      have first : o / g.stripeSize ≤ b / g.stripeSize := Nat.div_le_div_right lo
      rcases Nat.lt_or_eq_of_le (Nat.div_le_div_right (c := g.stripeSize) (Nat.le_sub_one_of_lt hi)) with below | top
      · exact same _ (by rwa [Nat.sub_sub_self ordered]) below
      · exact toLast b top
    by_cases moved : g.calc (o + size - 1) = ord
    · simp only [moved, ne_eq, not_true_eq_false, if_false]
      exact .skip (moved ▸ placed)
    · simp only [moved, ne_eq, not_false_eq_true, if_true]
      exact .whole _ moved placed
  | some s =>
    obtain ⟨j, lo, hi, rfl, other, rest⟩ := findSplitOff_some positive (Nat.sub_le _ _) found
    have start : o < g.stripeSize * (j + 1) := calc
      o < g.stripeSize * (o / g.stripeSize + 1) := Nat.lt_mul_div_succ o positive
      _ ≤ g.stripeSize * (j + 1) := Nat.mul_le_mul_left _ (by omega)
    have finish : g.stripeSize * (j + 1) < o + size := calc
      g.stripeSize * (j + 1) ≤ g.stripeSize * ((o + size - 1) / g.stripeSize) := Nat.mul_le_mul_left _ (by omega)
      _ ≤ o + size - 1 := Nat.mul_div_le _ _
      _ < o + size := by omega
    have placed : ∀ b, g.stripeSize * (j + 1) ≤ b → b < o + size → g.calc b = g.calc (o + size - 1) := by
      intro b lo' hi'
      have above : j + 1 ≤ b / g.stripeSize := (Nat.le_div_iff_mul_le positive).mpr (by rwa [Nat.mul_comm])
      rcases Nat.lt_or_eq_of_le (Nat.div_le_div_right (c := g.stripeSize) (Nat.le_sub_one_of_lt hi')) with below | top
      · exact rest _ (by omega) below
      · exact toLast b top
    have aligned : 2 ^ g.pageShift ∣ g.stripeSize * (j + 1) := Dvd.dvd.mul_right pageDvd _
    by_cases moved : g.calc (o + size - 1) = ord
    · simp only [moved, ne_eq, not_true_eq_false, if_false]
      have atJ : max o (g.stripeSize * j) / g.stripeSize = j :=
        Nat.div_eq_of_lt_le (by rw [Nat.mul_comm j]; exact le_max_right _ _)
          (by rw [Nat.mul_comm (j + 1)]; exact max_lt start (Nat.mul_lt_mul_of_pos_left (Nat.lt_succ_self j) positive))
      refine .split _ ⟨start, finish⟩ aligned (moved ▸ placed) ⟨max o (g.stripeSize * j), le_max_left _ _,
        max_lt start (Nat.mul_lt_mul_of_pos_left (Nat.lt_succ_self j) positive), ?_⟩
      rw [← moved]
      exact fun same => other (by rw [← same, Geometry.calc, atJ])
    · simp only [moved, ne_eq, not_false_eq_true, if_true]
      exact .tail _ _ moved ⟨start, finish⟩ aligned placed

theorem whatToDo_skips {sb : Nat} (pow : g.stripeSize = 2 ^ sb) (pageDvd : 2 ^ g.pageShift ∣ g.stripeSize)
    {o ord size : Nat} (nonempty : 0 < size) (home : ∀ b, o ≤ b → b < o + size → g.calc b = ord) :
    whatToDo g false none o ord size = ⟨.skip, ord, o, false⟩ := by
  have planned : Planned g g.calc o ord size (whatToDo g false none o ord size) := whatToDo_planned pow pageDvd nonempty
  generalize whatToDo g false none o ord size = plan at planned ⊢
  cases planned with
  | skip => rfl
  | whole loc moved toLoc => exact absurd ((toLoc o le_rfl (by omega)).symm.trans (home o le_rfl (by omega))) moved
  | tail loc s moved inside _ toLoc => exact absurd ((toLoc s le_rfl inside.2).symm.trans (home s (by omega) inside.2)) moved
  | split s inside _ _ differs =>
    obtain ⟨b, lo, hi, other⟩ := differs
    exact absurd (home b lo (by omega)) other

end Stripes

theorem whatToDoNosplit_planned {g : Geometry} {dstId : Option Nat} {o ord size : Nat}
    (aligned : 2 ^ g.pageShift ∣ o) (sizeAligned : 2 ^ g.pageShift ∣ size) :
    Planned g (fun _ => (dstId.map (wrap 32)).getD (g.calc o)) o ord size (whatToDo g true dstId o ord size) := by
  simp only [whatToDo, if_true, whatToDoNosplit, migrationGranularity, Nat.shiftLeft_eq]
  have chunk : 0 < 8192 * 2 ^ g.pageShift := Nat.mul_pos (by norm_num) (Nat.two_pow_pos _)
  by_cases same : ord = (dstId.map (wrap 32)).getD (g.calc o)
  · rw [if_pos same, ← same]
    exact .skip fun _ _ _ => rfl
  · rw [if_neg same]
    by_cases small : size ≤ 8192 * 2 ^ g.pageShift
    · rw [if_pos small]
      exact .whole _ (Ne.symm same) fun _ _ _ => rfl
    · rw [if_neg small]
      have cut : 2 ^ g.pageShift ∣ o + size - 8192 * 2 ^ g.pageShift :=
        Nat.dvd_sub' (Nat.dvd_add aligned sizeAligned) (Dvd.intro_left _ rfl)
      exact .tail _ _ (Ne.symm same) ⟨by omega, by omega⟩ cut fun _ _ _ => rfl

section Quiet

variable {g : Geometry} {m : Mctx} {pre post : Items} {cur : Item}

theorem doSplitExtent_quiet (quiet : m.outcomes = []) (atCur : m.items = pre ++ cur :: post)
    (pos : m.pos = pre.length) (s : Nat) :
    ∃ left right, doSplitExtent g m cur s = .ok (0, { m with items := pre ++ [left, right] ++ post }) ∧
      left.off = cur.off ∧ left.ord = cur.ord ∧ right.off = s ∧ right.ord = cur.ord ∧
      left.units.sum = min ((s - cur.off) >>> g.pageShift) cur.units.sum ∧
      right.units.sum = cur.units.sum - (s - cur.off) >>> g.pageShift := by
  let k := (s - cur.off) >>> g.pageShift
  refine ⟨{ cur with units := takePages k (takePages k cur.units ++ dropPages k cur.units) },
    { cur with off := s, units := dropPages k (takePages k cur.units ++ dropPages k cur.units) },
    ?_, rfl, rfl, rfl, rfl, ?_, ?_⟩
  · simp only [doSplitExtent, call, quiet, atCur, pos, rewriteItem_cur, splitItem_cur, ite_self]
    rfl
  all_goals simp only [sum_takePages, sum_dropPages, List.sum_append]; omega

theorem migrateWholeItem_quiet (quiet : m.outcomes = []) (atCur : m.items = pre ++ cur :: post)
    (pos : m.pos = pre.length) (plan : Plan) (n : Nat) :
    migrateWholeItem g m cur plan n =
      (0, { m with items := mergeLeft g (mergeRight g (pre ++ ⟨cur.off, plan.newLoc, [n]⟩ :: post) pre.length) pre.length }) := by
  by_cases many : 1 < cur.units.length <;>
    simp [migrateWholeItem, call, quiet, atCur, pos, many, cutTail_cur, rewriteItem_cur]

theorem migrateTailPart_quiet (quiet : m.outcomes = []) (atCur : m.items = pre ++ cur :: post)
    (pos : m.pos = pre.length) (plan : Plan) (n : Nat) :
    migrateTailPart g m plan n =
      (0, { m with items := (pre ++ { cur with units := takePages ((plan.stopOff - cur.off) >>> g.pageShift) cur.units } ::
        mergeRight g (⟨plan.stopOff, plan.newLoc, [n]⟩ :: post) 0) }) := by
  simp only [migrateTailPart, call, quiet, atCur, pos, cutTail_cur, insertAfter_cur, if_neg (not_not.mpr rfl)]
  rw [mergeRight_append pre _ 1, mergeRight.eq_2]

theorem doMigrateExtent_whole (quiet : m.outcomes = []) (atCur : m.items = pre ++ cur :: post)
    (pos : m.pos = pre.length) {plan : Plan} (whole : plan.migrateWholeItem = true) (n : Nat) :
    doMigrateExtent g m cur plan n =
      (0, true, { m with items := mergeLeft g (mergeRight g (pre ++ ⟨cur.off, plan.newLoc, [n]⟩ :: post) pre.length) pre.length }) := by
  simp [doMigrateExtent, migrateBlocks, call, quiet, whole, migrateWholeItem_quiet quiet atCur pos]

theorem doMigrateExtent_tail (quiet : m.outcomes = []) (atCur : m.items = pre ++ cur :: post)
    (pos : m.pos = pre.length) {plan : Plan} (tail : plan.migrateWholeItem = false) (n : Nat)
    (found : findItem g (pre ++ { cur with units := takePages ((plan.stopOff - cur.off) >>> g.pageShift) cur.units } ::
      mergeRight g (⟨plan.stopOff, plan.newLoc, [n]⟩ :: post) 0) (plan.stopOff - 1) = some pre.length) :
    doMigrateExtent g m cur plan n =
      (0, false, { m with items := (pre ++ { cur with units := takePages ((plan.stopOff - cur.off) >>> g.pageShift) cur.units } ::
        mergeRight g (⟨plan.stopOff, plan.newLoc, [n]⟩ :: post) 0), pos := pre.length, keyOff := cur.off, keyOrd := cur.ord }) := by
  simp [doMigrateExtent, migrateBlocks, call, quiet, tail, migrateTailPart_quiet quiet atCur pos, found]

theorem switchAct_split_inside (quiet : m.outcomes = []) (atCur : m.items = pre ++ cur :: post)
    (pos : m.pos = pre.length) (aligned : 2 ^ g.pageShift ∣ cur.off) {s : Nat} (sAligned : 2 ^ g.pageShift ∣ s)
    (inside : cur.off < s ∧ s < cur.stop g) (loc : Nat) :
    ∃ left right : Item, switchAct g m cur ⟨.split, loc, s, false⟩ =
        .ok (.next { m with items := pre ++ [left, right] ++ post }) ∧
      left.off = cur.off ∧ left.ord = cur.ord ∧ left.stop g = s ∧ right.off = s ∧ right.ord = cur.ord ∧
      right.stop g = cur.stop g := by
  have within : cur.off ≤ s ∧ s ≤ cur.stop g := ⟨inside.1.le, inside.2.le⟩
  have cutAligned := Nat.dvd_sub' sAligned aligned
  obtain ⟨left, right, run, leftOff, leftOrd, rightOff, rightOrd, leftSum, rightSum⟩ :=
    doSplitExtent_quiet (g := g) quiet atCur pos s
  refine ⟨left, right, switchAct_split run, leftOff, leftOrd, ?_, rightOff, rightOrd, ?_⟩
  · rw [← stop_cut within cutAligned]; simp only [Item.stop, Item.size_eq, leftOff, leftSum, sum_takePages]
  · rw [← stop_rest within cutAligned]; simp only [Item.stop, Item.size_eq, rightOff, rightSum, sum_dropPages]

theorem switchAct_tail (quiet : m.outcomes = []) (atCur : m.items = pre ++ cur :: post) (pos : m.pos = pre.length)
    (sorted : Sorted g (pre ++ cur :: post)) (keyOff : m.keyOff = cur.off) (aligned : 2 ^ g.pageShift ∣ cur.off)
    {s : Nat} (sAligned : 2 ^ g.pageShift ∣ s) (inside : cur.off < s ∧ s < cur.stop g) (loc : Nat) :
    ∃ left new : Item, switchAct g m cur ⟨.migrate, loc, s, false⟩ = .ok (.next { m with
        items := pre ++ left :: mergeRight g (new :: post) 0, pos := pre.length, keyOff := cur.off,
        keyOrd := cur.ord, doneOff := some s }) ∧
      left.off = cur.off ∧ left.ord = cur.ord ∧ left.stop g = s ∧ new.off = s ∧ new.ord = loc ∧
      new.stop g = cur.stop g := by
  have moved : 2 ^ g.pageShift ∣ cur.stop g - s :=
    Nat.dvd_sub' (Nat.dvd_add aligned (Item.size_eq g cur ▸ Dvd.intro_left _ rfl)) sAligned
  let left : Item := { cur with units := takePages ((s - cur.off) >>> g.pageShift) cur.units }
  let new : Item := ⟨s, loc, [(cur.stop g - s) >>> g.pageShift]⟩
  have leftStop : left.stop g = s := stop_cut ⟨inside.1.le, inside.2.le⟩ (Nat.dvd_sub' sAligned aligned)
  have newStop : new.stop g = cur.stop g := by
    show s + [(cur.stop g - s) >>> g.pageShift].sum <<< g.pageShift = cur.stop g
    rw [List.sum_singleton, Nat.shiftLeft_eq, Nat.shiftRight_eq_div_pow, Nat.div_mul_cancel moved]
    omega
  have found : findItem g (pre ++ left :: mergeRight g (new :: post) 0) (s - 1) = some pre.length :=
    findItem_cur (mergeRight_after pre post left new ▸ sorted_mergeRight
        (window_pair sorted (show left.off = cur.off from rfl) leftStop (show new.off = s from rfl) newStop
          ⟨inside.1.le, inside.2.le⟩).1 _)
      ⟨show cur.off ≤ s - 1 by omega, by rw [leftStop]; omega⟩
  refine ⟨left, new, ?_, rfl, rfl, leftStop, rfl, rfl, newStop⟩
  rw [switchAct_migrate (by rw [keyOff]; rfl) (doMigrateExtent_tail quiet atCur pos rfl _ found)
    (pages_pos inside.2 moved).ne']
  rfl

end Quiet

/-- The state of a failure-free run on the item `[o, e)` of ordering `ord`,
taken from the file `items₀`, as an iteration starts: the current item is
`[o, cur.stop)`, the bytes from there to `e` are on their bricks, and the rest
of the file is as it was. -/
structure Progress (g : Geometry) (dest : Nat → Nat) (items₀ : Items) (o e ord : Nat) (m : Mctx)
    (pre : Items) (cur : Item) (post : Items) : Prop where
  quiet : m.outcomes = []
  key : m.keyOff = o ∧ m.keyOrd = ord
  atCur : m.items = pre ++ cur :: post
  pos : m.pos = pre.length
  sorted : Sorted g (pre ++ cur :: post)
  curKey : cur.off = o ∧ cur.ord = ord
  started : o < cur.stop g
  bounded : cur.stop g ≤ e
  placed : ∀ b, cur.stop g ≤ b → b < e → ordAt g (pre ++ cur :: post) b = some (dest b)
  kept : ∀ b, b < o ∨ e ≤ b → ordAt g (pre ++ cur :: post) b = ordAt g items₀ b

/-- What a failure-free run leaves: `*done_off` at the item's start, the items
in order, the bytes of `[o, e)` on their bricks and every other byte on the
brick it was on. -/
structure Placed (g : Geometry) (dest : Nat → Nat) (items₀ : Items) (o e : Nat) (m : Mctx) : Prop where
  doneOff : m.doneOff = some o
  sorted : Sorted g m.items
  placed : ∀ b, o ≤ b → b < e → ordAt g m.items b = some (dest b)
  kept : ∀ b, b < o ∨ e ≤ b → ordAt g m.items b = ordAt g items₀ b

section Step

variable {g : Geometry} {dest : Nat → Nat} {items₀ : Items} {o e ord : Nat} {m : Mctx} {pre post : Items}
  {cur : Item}

private theorem progress_of_cut (progress : Progress g dest items₀ o e ord m pre cur post) {left right : Item}
    (leftKey : left.off = o ∧ left.ord = ord) (leftStop : left.stop g = s) (rightOff : right.off = s)
    (rightStop : right.stop g = cur.stop g) (inside : o < s ∧ s < cur.stop g)
    (toRight : ∀ b, s ≤ b → b < cur.stop g → dest b = right.ord) {m' : Mctx} {rest : Items}
    (quiet : m'.outcomes = []) (key : m'.keyOff = o ∧ m'.keyOrd = ord) (atCur : m'.items = pre ++ left :: rest)
    (pos : m'.pos = pre.length) (sameBytes : ∀ b, ordAt g (pre ++ left :: rest) b = ordAt g (pre ++ left :: right :: post) b)
    (sortedRest : Sorted g (pre ++ left :: right :: post) → Sorted g (pre ++ left :: rest)) :
    Progress g dest items₀ o e ord m' pre left rest := by
  have curOff := progress.curKey.1
  obtain ⟨sorted, window⟩ :=
    window_pair progress.sorted (leftKey.1.trans curOff.symm) leftStop rightOff rightStop ⟨by omega, by omega⟩
  refine ⟨quiet, key, atCur, pos, sortedRest sorted, leftKey, by omega, by have := progress.bounded; omega,
    fun b lo hi => ?_, fun b out => ?_⟩
  · rw [sameBytes, window]
    by_cases inCur : b < cur.stop g
    · have past : s ≤ b := by omega
      rw [if_pos ⟨by omega, inCur⟩, toRight b past inCur]
      simp [ordAt, show ¬b < left.stop g by omega, rightOff, rightStop, past, inCur]
    · rw [if_neg (by omega)]
      exact progress.placed b (by omega) hi
  · rw [sameBytes, window, if_neg (by have := progress.bounded; omega)]
    exact progress.kept b out

private theorem placed_of_rewrite (progress : Progress g dest items₀ o e ord m pre cur post) {x : Item}
    (same : x.off = cur.off ∧ x.stop g = cur.stop g) (toX : ∀ b, o ≤ b → b < cur.stop g → dest b = x.ord)
    {m' : Mctx} (doneOff : m'.doneOff = some o) (sameBytes : ∀ b, ordAt g m'.items b = ordAt g (pre ++ x :: post) b)
    (sorted : Sorted g (pre ++ x :: post) → Sorted g m'.items) : Placed g dest items₀ o e m' := by
  have curOff := progress.curKey.1
  refine ⟨doneOff, sorted (sorted_replace progress.sorted same), fun b lo hi => ?_, fun b out => ?_⟩
  · rw [sameBytes, ordAt_replace progress.sorted same]
    by_cases inCur : b < cur.stop g
    · rw [if_pos ⟨by omega, inCur⟩, toX b lo inCur]
    · rw [if_neg (by omega)]
      exact progress.placed b (by omega) hi
  · rw [sameBytes, ordAt_replace progress.sorted same, if_neg (by have := progress.bounded; omega)]
    exact progress.kept b out

private theorem step_skip (progress : Progress g dest items₀ o e ord m pre cur post)
    (toOrd : ∀ b, o ≤ b → b < o + cur.size g → dest b = ord) :
    ∃ m', switchAct g m cur ⟨.skip, ord, o, false⟩ = .ok (.done 0 m') ∧ Placed g dest items₀ o e m' := by
  have size : o + cur.size g = cur.stop g := by rw [Item.stop, progress.curKey.1]
  refine ⟨_, switchAct_skip progress.quiet, placed_of_rewrite progress ⟨rfl, rfl⟩ (fun b lo hi => ?_) rfl
    (fun b => ?_) fun sorted => ?_⟩
  · rw [progress.curKey.2]
    exact toOrd b lo (by omega)
  · simp only [progress.atCur, progress.pos, ordAt_mergeRight]
  · simpa only [progress.atCur, progress.pos] using sorted_mergeRight sorted _

private theorem step_whole (progress : Progress g dest items₀ o e ord m pre cur post) {loc : Nat}
    (toLoc : ∀ b, o ≤ b → b < o + cur.size g → dest b = loc) :
    ∃ m', switchAct g m cur ⟨.migrate, loc, o, true⟩ = .ok (.done 0 m') ∧ Placed g dest items₀ o e m' := by
  have curOff := progress.curKey.1
  have size : o + cur.size g = cur.stop g := by rw [Item.stop, curOff]
  have pages : (m.keyOff + cur.size g - o) >>> g.pageShift = cur.units.sum := by
    rw [progress.key.1, Nat.add_sub_cancel_left, Item.size_eq, Nat.shiftRight_eq_div_pow,
      Nat.mul_div_cancel _ (Nat.two_pow_pos _)]
  have nonzero : cur.units.sum ≠ 0 := (Item.units_pos (by rw [curOff]; exact progress.started)).ne'
  have same : (⟨cur.off, loc, [cur.units.sum]⟩ : Item).off = cur.off ∧
      (⟨cur.off, loc, [cur.units.sum]⟩ : Item).stop g = cur.stop g := ⟨rfl, by simp [Item.stop]⟩
  exact ⟨_, switchAct_migrate pages (doMigrateExtent_whole progress.quiet progress.atCur progress.pos rfl _) nonzero,
    placed_of_rewrite progress same (fun b lo hi => toLoc b lo (by omega)) rfl
      (fun b => by simp only [ordAt_mergeLeft, ordAt_mergeRight]) fun sorted => sorted_mergeLeft (sorted_mergeRight sorted _) _⟩

private theorem step_tail (aligned : 2 ^ g.pageShift ∣ o) (progress : Progress g dest items₀ o e ord m pre cur post)
    {loc s : Nat} (inside : o < s ∧ s < o + cur.size g) (sAligned : 2 ^ g.pageShift ∣ s)
    (toLoc : ∀ b, s ≤ b → b < o + cur.size g → dest b = loc) :
    ∃ m' cur' post', switchAct g m cur ⟨.migrate, loc, s, false⟩ = .ok (.next m') ∧
      Progress g dest items₀ o e ord m' pre cur' post' ∧ cur'.stop g < cur.stop g := by
  have ⟨curOff, curOrd⟩ := progress.curKey
  have size : o + cur.size g = cur.stop g := by rw [Item.stop, curOff]
  have within : o < s ∧ s < cur.stop g := ⟨inside.1, size ▸ inside.2⟩
  obtain ⟨left, new, run, leftOff, leftOrd, leftStop, newOff, newOrd, newStop⟩ :=
    switchAct_tail progress.quiet progress.atCur progress.pos progress.sorted (progress.key.1.trans curOff.symm)
      (curOff ▸ aligned) sAligned (curOff ▸ within) loc
  refine ⟨_, left, mergeRight g (new :: post) 0, run, ?_, by omega⟩
  exact progress_of_cut progress ⟨leftOff.trans curOff, leftOrd.trans curOrd⟩ leftStop newOff newStop within
    (fun b lo hi => (toLoc b lo (size ▸ hi)).trans newOrd.symm) progress.quiet ⟨curOff, curOrd⟩ rfl rfl
    (fun b => by rw [mergeRight_after, ordAt_mergeRight]) fun sorted => mergeRight_after pre post left new ▸ sorted_mergeRight sorted _

private theorem step_split (aligned : 2 ^ g.pageShift ∣ o) (progress : Progress g dest items₀ o e ord m pre cur post)
    {s : Nat} (inside : o < s ∧ s < o + cur.size g) (sAligned : 2 ^ g.pageShift ∣ s)
    (toOrd : ∀ b, s ≤ b → b < o + cur.size g → dest b = ord) :
    ∃ m' cur' post', switchAct g m cur ⟨.split, ord, s, false⟩ = .ok (.next m') ∧
      Progress g dest items₀ o e ord m' pre cur' post' ∧ cur'.stop g < cur.stop g := by
  have ⟨curOff, curOrd⟩ := progress.curKey
  have size : o + cur.size g = cur.stop g := by rw [Item.stop, curOff]
  have within : o < s ∧ s < cur.stop g := ⟨inside.1, size ▸ inside.2⟩
  obtain ⟨left, right, run, leftOff, leftOrd, leftStop, rightOff, rightOrd, rightStop⟩ :=
    switchAct_split_inside progress.quiet progress.atCur progress.pos (curOff ▸ aligned) sAligned (curOff ▸ within) ord
  refine ⟨_, left, right :: post, run, ?_, by omega⟩
  refine progress_of_cut progress ⟨leftOff.trans curOff, leftOrd.trans curOrd⟩ leftStop rightOff rightStop
    within (fun b lo hi => by rw [rightOrd, curOrd]; exact toOrd b lo (size ▸ hi)) ?_ ?_ ?_
    progress.pos (fun b => rfl) id
  exacts [progress.quiet, progress.key, by simp [progress.atCur]]

/-- One iteration of a failure-free run either ends the loop with the item's
bytes placed, or leaves a shorter current item, still in `Progress`. -/
theorem switchAct_progress (aligned : 2 ^ g.pageShift ∣ o) (progress : Progress g dest items₀ o e ord m pre cur post)
    {plan : Plan} (planned : Planned g dest o ord (cur.size g) plan) :
    (∃ m', switchAct g m cur plan = .ok (.done 0 m') ∧ Placed g dest items₀ o e m') ∨
      ∃ m' pre' cur' post', switchAct g m cur plan = .ok (.next m') ∧
        Progress g dest items₀ o e ord m' pre' cur' post' ∧ cur'.stop g < cur.stop g := by
  cases planned with
  | skip toOrd => exact .inl (step_skip progress toOrd)
  | whole loc _ toLoc => exact .inl (step_whole progress toLoc)
  | tail loc s _ inside sAligned toLoc =>
    obtain ⟨m', cur', post', run, next, shorter⟩ := step_tail aligned progress inside sAligned toLoc
    exact .inr ⟨m', pre, cur', post', run, next, shorter⟩
  | split s inside sAligned toOrd _ =>
    obtain ⟨m', cur', post', run, next, shorter⟩ := step_split aligned progress inside sAligned toOrd
    exact .inr ⟨m', pre, cur', post', run, next, shorter⟩

end Step

section Run

variable {g : Geometry} {dest : Nat → Nat} {items₀ : Items} {o e ord : Nat} {nosplit : Bool} {dstId : Option Nat}

/-- A failure-free run from `Progress` ends, within `cur.stop - o` iterations,
with the item's bytes placed. -/
theorem migrateLoop_placed (aligned : 2 ^ g.pageShift ∣ o)
    (decides : ∀ size, 0 < size → 2 ^ g.pageShift ∣ size → Planned g dest o ord size (whatToDo g nosplit dstId o ord size)) :
    ∀ fuel m pre cur post, Progress g dest items₀ o e ord m pre cur post → cur.stop g - o ≤ fuel →
      ∃ m', migrateLoop g nosplit dstId fuel m = some (.ok (0, m')) ∧ Placed g dest items₀ o e m'
  | 0, _, _, _, _, progress, enough => absurd enough (by have := progress.started; omega)
  | fuel + 1, m, pre, cur, post, progress, enough => by
    have ⟨_, ⟨keyOff, keyOrd⟩, atCur, pos, _, ⟨curOff, _⟩, started, _, _, _⟩ := progress
    have iter : iteration g nosplit dstId m = switchAct g m cur (whatToDo g nosplit dstId o ord (cur.size g)) := by
      simp only [iteration, atCur, pos, readAt, getElem?_cur, keyOff, keyOrd]
      rfl
    have size : 0 < cur.size g := by rw [Item.stop, curOff] at started; omega
    rcases switchAct_progress aligned progress (decides _ size ⟨_, by rw [Item.size_eq, Nat.mul_comm]⟩) with
      ⟨m', done, placed⟩ | ⟨m', pre', cur', post', next, progress', shorter⟩
    · exact ⟨m', by rw [migrateLoop, iter, done], placed⟩
    · obtain ⟨m'', run, placed⟩ :=
        migrateLoop_placed aligned decides fuel m' pre' cur' post' progress' (by have := progress'.started; omega)
      exact ⟨m'', by rw [migrateLoop, iter, next]; exact run, placed⟩

theorem progress_start {pre post : Items} {it : Item} (sorted : Sorted g (pre ++ it :: post)) (nonempty : 0 < it.units.sum) :
    Progress g dest (pre ++ it :: post) it.off (it.stop g) it.ord ⟨pre ++ it :: post, pre.length, it.off, it.ord, none, []⟩
      pre it post := by
  have started : it.off < it.stop g := by
    simp only [Item.stop, Item.size_eq]
    have := Nat.mul_pos nonempty (Nat.two_pow_pos g.pageShift)
    omega
  exact ⟨rfl, ⟨rfl, rfl⟩, rfl, rfl, sorted, ⟨rfl, rfl⟩, started, le_refl _, fun b lo hi => absurd hi (by omega),
    fun _ _ => rfl⟩

end Run

variable {g : Geometry} {pre post : Items} {it : Item}

theorem migrateExtent_skips_home {sb : Nat} (pow : g.stripeSize = 2 ^ sb) (pageDvd : 2 ^ g.pageShift ∣ g.stripeSize)
    (nonempty : 0 < it.units.sum) (home : ∀ b, it.off ≤ b → b < it.stop g → g.calc b = it.ord) :
    ∃ m', migrateExtent g false none 1 (pre ++ it :: post) pre.length it [] = some (.ok (0, m')) ∧
      m'.doneOff = some it.off ∧ ∀ b, ordAt g m'.items b = ordAt g (pre ++ it :: post) b := by
  have size : 0 < it.size g := by rw [Item.size_eq]; exact Nat.mul_pos nonempty (Nat.two_pow_pos g.pageShift)
  have skip := whatToDo_skips pow pageDvd size home
  refine ⟨⟨mergeRight g (pre ++ it :: post) pre.length, pre.length, it.off, it.ord, some it.off, []⟩, ?_, rfl,
    ordAt_mergeRight _ _⟩
  simp only [migrateExtent, migrateLoop, iteration, readAt, getElem?_cur, ok_bind, skip]
  rfl

theorem Placed.home {items₀ : Items} {o e : Nat} {m : Mctx} (placed : Placed g g.calc items₀ o e m)
    (atIt : m.items = pre ++ it :: post) (inside : o ≤ it.off ∧ it.stop g ≤ e) :
    ∀ b, it.off ≤ b → b < it.stop g → g.calc b = it.ord := by
  intro b lo hi
  have here := placed.placed b (by omega) (by omega)
  rw [atIt, ordAt_cur (atIt ▸ placed.sorted) ⟨lo, hi⟩] at here
  exact (Option.some.inj here).symm

/-- The placement law in split mode: a run of `reiser4_migrate_extent` with no
`dst_id` in which no primitive fails returns 0 with `*done_off` at the item's
start, every byte of the item on the brick of its stripe, the items in order
and every other byte of the file on the brick it was on. -/
theorem migrateExtent_places_bytes {sb : Nat} (pow : g.stripeSize = 2 ^ sb) (pageDvd : 2 ^ g.pageShift ∣ g.stripeSize)
    (sorted : Sorted g (pre ++ it :: post)) (aligned : 2 ^ g.pageShift ∣ it.off) (nonempty : 0 < it.units.sum)
    {fuel : Nat} (enough : it.size g ≤ fuel) :
    ∃ m, migrateExtent g false none fuel (pre ++ it :: post) pre.length it [] = some (.ok (0, m)) ∧
      Placed g g.calc (pre ++ it :: post) it.off (it.stop g) m ∧
      ∀ pre' x post', m.items = pre' ++ x :: post' → it.off ≤ x.off → x.stop g ≤ it.stop g → 0 < x.units.sum →
        ∃ m', migrateExtent g false none 1 m.items pre'.length x [] = some (.ok (0, m')) ∧
          m'.doneOff = some x.off ∧ ∀ b, ordAt g m'.items b = ordAt g m.items b := by
  obtain ⟨m, run, placed⟩ := migrateLoop_placed aligned (fun _ size _ => whatToDo_planned pow pageDvd size) fuel _ pre
    it post (progress_start sorted nonempty) (by rw [Item.stop, Nat.add_sub_cancel_left]; exact enough)
  refine ⟨m, run, placed, fun pre' x post' atX lo hi nonempty' => ?_⟩
  rw [atX]
  exact migrateExtent_skips_home pow pageDvd nonempty' (placed.home atX ⟨lo, hi⟩)

/-- A 16-page item of ordering 1 on stripes of 4 pages mapped to bricks
2, 1, 1, 2: the run moves the last stripe, splits at the first, and moves the first. -/
theorem migrateExtent_places_bytes_four_stripes :
    (⟨12, 16384, fun j => [2, 1, 1, 2].getD j 0⟩ : Geometry).stripeSize = 2 ^ 14 ∧
      2 ^ (⟨12, 16384, fun j => [2, 1, 1, 2].getD j 0⟩ : Geometry).pageShift ∣ 16384 ∧
      Sorted ⟨12, 16384, fun j => [2, 1, 1, 2].getD j 0⟩ ([] ++ [⟨0, 1, [16]⟩]) ∧ 2 ^ 12 ∣ 0 ∧ 0 < [16].sum ∧
      (⟨0, 1, [16]⟩ : Item).size ⟨12, 16384, fun j => [2, 1, 1, 2].getD j 0⟩ ≤ 65536 ∧
      ∃ m, migrateExtent ⟨12, 16384, fun j => [2, 1, 1, 2].getD j 0⟩ false none 65536 ([] ++ [⟨0, 1, [16]⟩]) 0
          ⟨0, 1, [16]⟩ [] = some (.ok (0, m)) ∧
        Placed ⟨12, 16384, fun j => [2, 1, 1, 2].getD j 0⟩ (Geometry.calc ⟨12, 16384, fun j => [2, 1, 1, 2].getD j 0⟩)
          ([] ++ [⟨0, 1, [16]⟩]) 0 65536 m ∧
        ∀ pre' x post', m.items = pre' ++ x :: post' → 0 ≤ x.off →
          x.stop ⟨12, 16384, fun j => [2, 1, 1, 2].getD j 0⟩ ≤ 65536 → 0 < x.units.sum →
          ∃ m', migrateExtent ⟨12, 16384, fun j => [2, 1, 1, 2].getD j 0⟩ false none 1 m.items pre'.length x [] =
              some (.ok (0, m')) ∧
            m'.doneOff = some x.off ∧
            ∀ b, ordAt ⟨12, 16384, fun j => [2, 1, 1, 2].getD j 0⟩ m'.items b =
              ordAt ⟨12, 16384, fun j => [2, 1, 1, 2].getD j 0⟩ m.items b :=
  ⟨rfl, by decide, by decide, by decide, by decide, by decide,
    @migrateExtent_places_bytes _ [] [] _ 14 rfl (by decide) (by decide) (by decide) (by decide) _ (by decide)⟩

/-- The placement law fails in two ways. A split whose `insert_by_coord`
fails drops the tail `[4096, 8192)` of the item `[0, 8192)`, yet the call
returns 0 with `*done_off = 0`, the bytes from there on claimed placed. And an
item moved whole onto the brick of its left neighbour merges with it although
the neighbour's stripe belongs to another brick, so a second run on the merged
item splits and migrates it instead of skipping. -/
theorem migrateExtent_drops_tail_or_merges_unplaced :
    (∃ m, migrateExtent ⟨12, 4096, fun j => [2, 1].getD j 0⟩ false none 2 [⟨0, 1, [2]⟩] 0 ⟨0, 1, [2]⟩
        [0, 0, 0, 0, -ENOSPC] = some (.ok (0, m)) ∧
      m.doneOff = some 0 ∧ ordAt ⟨12, 4096, fun j => [2, 1].getD j 0⟩ m.items 4096 = none) ∧
    (∃ m, migrateExtent ⟨12, 4096, fun j => [3, 1].getD j 0⟩ false none 1 [⟨0, 1, [1]⟩, ⟨4096, 2, [1]⟩] 1
        ⟨4096, 2, [1]⟩ [] = some (.ok (0, m)) ∧
      m.items = [⟨0, 1, [1, 1]⟩] ∧
      migrateExtent ⟨12, 4096, fun j => [3, 1].getD j 0⟩ false none 2 m.items 0 ⟨0, 1, [1, 1]⟩ [] =
        some (.ok (0, ⟨[⟨0, 3, [1]⟩, ⟨4096, 1, [1]⟩], 0, 0, 1, some 0, []⟩))) :=
  ⟨⟨⟨[⟨0, 2, [1]⟩], 0, 0, 1, some 0, []⟩, by decide, rfl, by decide⟩,
    ⟨⟨[⟨0, 1, [1, 1]⟩], 1, 4096, 2, some 4096, []⟩, by decide, rfl, by decide⟩⟩

/-- The placement law in no-split mode: every byte of the item ends on
`new_loc`, the brick `dst_id` names (modulo `2 ^ 32`) or else the brick of the
item's first byte. -/
theorem migrateExtent_nosplit_places_bytes {dstId : Option Nat} (sorted : Sorted g (pre ++ it :: post))
    (aligned : 2 ^ g.pageShift ∣ it.off) (nonempty : 0 < it.units.sum) {fuel : Nat} (enough : it.size g ≤ fuel) :
    ∃ m, migrateExtent g true dstId fuel (pre ++ it :: post) pre.length it [] = some (.ok (0, m)) ∧
      Placed g (fun _ => (dstId.map (wrap 32)).getD (g.calc it.off)) (pre ++ it :: post) it.off (it.stop g) m :=
  migrateLoop_placed aligned (fun _ _ sizeAligned => whatToDoNosplit_planned aligned sizeAligned) fuel _ pre it post
    (progress_start sorted nonempty) (by rw [Item.stop, Nat.add_sub_cancel_left]; exact enough)

/-- A 16-page item on brick 1 migrated to brick 2 in no-split mode ends on brick 2. -/
theorem migrateExtent_nosplit_sixteen_pages :
    Sorted ⟨12, 16384, fun _ => 1⟩ ([] ++ [⟨0, 1, [16]⟩]) ∧ 2 ^ 12 ∣ 0 ∧ 0 < [16].sum ∧
      (⟨0, 1, [16]⟩ : Item).size ⟨12, 16384, fun _ => 1⟩ ≤ 65536 ∧
      ∃ m, migrateExtent ⟨12, 16384, fun _ => 1⟩ true (some 2) 65536 ([] ++ [⟨0, 1, [16]⟩]) 0 ⟨0, 1, [16]⟩ [] =
          some (.ok (0, m)) ∧
        Placed ⟨12, 16384, fun _ => 1⟩ (fun _ => ((some 2).map (wrap 32)).getD (Geometry.calc ⟨12, 16384, fun _ => 1⟩ 0))
          ([] ++ [⟨0, 1, [16]⟩]) 0 65536 m :=
  ⟨by decide, by decide, by decide, by decide,
    migrateExtent_nosplit_places_bytes (by decide) (by decide) (by decide) (by decide)⟩

end Reiser4Volume.Extent
