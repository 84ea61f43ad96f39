import Reiser4Volume.Extent.Tree

/-! `readpages_extent_item` and `readpages_extent_unit` (extent_volume_ops.c):
`migrate_blocks` pins the pages of the bytes it moves, from `stop_off` to the
item's end, in the array `mctx->pages`. Each `read_cache_page` takes a
reference to a page or fails; on a failure both functions put back the pages
they read. -/

namespace Reiser4Volume.Extent

/-- The pages `migrate_blocks` works on: the array `mctx->pages`, the references
this call holds on the pages of the file's mapping, and the outcomes of
`read_cache_page` still to come. -/
structure PageCtx where
  /-- The index of the page each slot of `mctx->pages` holds; `none` for a slot
  never written (`reiser4_vmalloc` does not zero it). -/
  slots : Nat → Option Nat
  /-- `mctx->nr_pages`: the slots the array was allocated with. -/
  size : Nat
  /-- The references this call holds on the page of each index. -/
  refs : Nat → Int
  /-- The outcomes of the `read_cache_page` calls to come, 0 for a page
  returned; past them every call returns its page. -/
  reads : List Int

/-- `pages[k] = page` for the page of index `index`. -/
def PageCtx.store (c : PageCtx) (k index : Nat) : Except Fault PageCtx :=
  if k < c.size then .ok { c with slots := Function.update c.slots k (some index) } else .error .outOfBounds

/-- `read_cache_page` of the page of index `index`: a new reference to it, or
an error. -/
def readCachePage (c : PageCtx) (index : Nat) : Int × PageCtx :=
  match c.reads with
  | [] => (0, { c with refs := Function.update c.refs index (c.refs index + 1) })
  | r :: rest =>
    if r = 0 then (0, { c with refs := Function.update c.refs index (c.refs index + 1), reads := rest })
    else (r, { c with reads := rest })

/-- `put_page(pages[k])`. A slot never written holds no page: putting what it
holds is undefined, and the model stops there as at a null pointer. -/
def putPage (c : PageCtx) (k : Nat) : Except Fault PageCtx :=
  if k < c.size then
    match c.slots k with
    | some index => .ok { c with refs := Function.update c.refs index (c.refs index - 1) }
    | none => .error .nullDeref
  else .error .outOfBounds

/-- The read loop of `readpages_extent_unit` from its `i`-th page on, with `n`
pages left: page `first + i` goes to slot `slot + i`. The first failing read
ends it with its error and the number of pages read (`nr_pages = i`). -/
def readUnitPages (first slot : Nat) : Nat → Nat → PageCtx → Except Fault (Int × Nat × PageCtx)
  | i, 0, c => .ok (0, i, c)
  | i, n + 1, c =>
    let (ret, c) := readCachePage c (first + i)
    if ret ≠ 0 then .ok (ret, i, c) else do
    let c ← c.store (slot + i) (first + i)
    readUnitPages first slot (i + 1) n c

/-- `readpages_extent_unit`: the pages of a unit of `width` pages, from page
`offInUnit` of it on (`idx` the index of its first page), into the slots from
`offInPages` on. After a failed read the pages it read are put back. -/
def readpagesExtentUnit (width offInUnit idx offInPages : Nat) (c : PageCtx) : Except Fault (Int × PageCtx) := do
  let (ret, read, c) ← readUnitPages (idx + offInUnit) offInPages 0 (width - offInUnit) c
  if ret = 0 then return (0, c)
  let c ← forLoop (fun i c => putPage c (i + offInPages)) 0 read c
  return (ret, c)

/-- The unit loop of `readpages_extent_item` over the units from the coord's
on: `idx` is the index of the current unit's first page, `nr` the pages read
so far, `posInUnit` the first page to read in the current unit; edward-2404
asserts that it lies inside the unit. -/
def readItemUnits (idx nr posInUnit : Nat) : List Nat → PageCtx → Except Fault (Int × Nat × PageCtx)
  | [], c => .ok (0, nr, c)
  | w :: ws, c => do
    if w ≤ posInUnit then throw .assertion
    let (ret, c) ← readpagesExtentUnit w posInUnit idx nr c
    if ret ≠ 0 then return (ret, nr, c)
    readItemUnits (idx + w) (nr + (w - posInUnit)) 0 ws c

/-- `readpages_extent_item` from offset `off` on, for the coord on unit
`unitPos` of `it` and `mctx->unit_split_pos = unitSplitPos`. After a failed
read the pages of the units read whole are put back. edward-2403 checks the
split position against the unit's key (`unit_key_by_coord`), edward-2405 the
pages read against `nr_pages`. -/
def readpagesExtentItem (g : Geometry) (it : Item) (unitPos unitSplitPos off : Nat) (c : PageCtx) :
    Except Fault (Int × PageCtx) := do
  let unitOff := it.off + ((it.units.take unitPos).sum <<< g.pageShift)
  let posInUnit := if unitOff < off then unitSplitPos else 0
  if unitOff < off ∧ posInUnit ≠ (off - unitOff) >>> g.pageShift then throw .assertion
  let (ret, nr, c) ← readItemUnits (unitOff >>> g.pageShift) 0 posInUnit (it.units.drop unitPos) c
  if ret ≠ 0 then
    let c ← forLoop (fun i c => putPage c i) 0 nr c
    return (ret, c)
  if nr ≠ c.size then throw .assertion
  return (0, c)

/-- The code of the first of `reads` that fails, 0 when none does. -/
def firstFailure : List Int → Int
  | [] => 0
  | r :: rest => if r = 0 then firstFailure rest else r

theorem firstFailure_append (a b : List Int) :
    firstFailure (a ++ b) = if firstFailure a = 0 then firstFailure b else firstFailure a := by
  induction a with
  | nil => rfl
  | cons r a ih => by_cases ok : r = 0 <;> simp [firstFailure, ok, ih]

theorem firstFailure_take_add (l : List Int) (m n : Nat) :
    firstFailure (l.take (m + n)) =
      if firstFailure (l.take m) = 0 then firstFailure ((l.drop m).take n) else firstFailure (l.take m) := by
  rw [List.take_add, firstFailure_append]

/-- `slots` with the `k` slots from `s` on holding the pages from `f` on. -/
def fillSlots (slots : Nat → Option Nat) (s f k : Nat) : Nat → Option Nat :=
  fun j => if s ≤ j ∧ j < s + k then some (f + (j - s)) else slots j

/-- `refs` with one reference more on each of the `k` pages from `f` on. -/
def pinRange (refs : Nat → Int) (f k : Nat) : Nat → Int :=
  fun p => refs p + if f ≤ p ∧ p < f + k then 1 else 0

section Closed

theorem fillSlots_zero (slots : Nat → Option Nat) (s f : Nat) : fillSlots slots s f 0 = slots := by
  funext j; simp [fillSlots]

theorem fillSlots_cons (slots : Nat → Option Nat) (s f k : Nat) :
    fillSlots (Function.update slots s (some f)) (s + 1) (f + 1) k = fillSlots slots s f (k + 1) := by
  funext j
  by_cases here : j = s
  · subst here; simp [fillSlots]
  · simp only [fillSlots, Function.update_noteq here]
    split_ifs <;> first | rfl | (congr 1; omega)

theorem pinRange_zero (refs : Nat → Int) (f : Nat) : pinRange refs f 0 = refs := by
  funext p; simp [pinRange]

theorem pinRange_cons (refs : Nat → Int) (f k : Nat) :
    pinRange (Function.update refs f (refs f + 1)) (f + 1) k = pinRange refs f (k + 1) := by
  funext p
  by_cases here : p = f
  · subst here; simp [pinRange]
  · simp only [pinRange, Function.update_noteq here]
    split_ifs <;> first | rfl | omega

theorem pinRange_put (refs : Nat → Int) (f k : Nat) :
    Function.update (pinRange refs f (k + 1)) f (pinRange refs f (k + 1) f - 1) = pinRange refs (f + 1) k := by
  rw [← pinRange_cons]
  funext p
  by_cases here : p = f
  · subst here; simp [pinRange]
  · simp [Function.update_noteq here, pinRange]

theorem pinRange_append (refs : Nat → Int) (f a b : Nat) :
    pinRange (pinRange refs f a) (f + a) b = pinRange refs f (a + b) := by
  funext p
  simp only [pinRange]
  split_ifs <;> omega

end Closed

section Reads

theorem readCachePage_cases (c : PageCtx) (index : Nat) :
    (readCachePage c index =
        (0, { c with refs := Function.update c.refs index (c.refs index + 1), reads := c.reads.tail }) ∧
      ∀ n, firstFailure (c.reads.take (n + 1)) = firstFailure (c.reads.tail.take n)) ∨
      ∃ r, r ≠ 0 ∧ readCachePage c index = (r, { c with reads := c.reads.tail }) ∧
        ∀ n, firstFailure (c.reads.take (n + 1)) = r := by
  rcases c with ⟨slots, size, refs, _ | ⟨r, rest⟩⟩
  · exact .inl ⟨rfl, fun _ => by simp⟩
  · by_cases ok : r = 0
    · exact .inl ⟨by simp [readCachePage, ok], fun n => by simp [firstFailure, ok]⟩
    · exact .inr ⟨r, ok, by simp [readCachePage, ok], fun n => by simp [firstFailure, ok]⟩

theorem readUnitPages_spec (first slot : Nat) :
    ∀ (n i : Nat) (c : PageCtx), slot + i + n ≤ c.size →
      ∃ k ret c', k ≤ n ∧ readUnitPages first slot i n c = .ok (ret, i + k, c') ∧ (ret = 0 → k = n) ∧
        c'.size = c.size ∧ c'.slots = fillSlots c.slots (slot + i) (first + i) k ∧
        c'.refs = pinRange c.refs (first + i) k ∧ ret = firstFailure (c.reads.take n) ∧
        (ret = 0 → c'.reads = c.reads.drop n) := by
  intro n
  induction n with
  | zero =>
    intro i c _
    exact ⟨0, 0, c, le_rfl, rfl, fun _ => rfl, rfl, (fillSlots_zero ..).symm, (pinRange_zero ..).symm, rfl,
      fun _ => rfl⟩
  | succ n ih =>
    intro i c room
    rcases readCachePage_cases c (first + i) with ⟨read, later⟩ | ⟨r, failed, read, first⟩
    · obtain ⟨k, ret, c', le, run, full, size, slots, refs, code, rest⟩ := ih (i + 1) { c with
          slots := Function.update c.slots (slot + i) (some (first + i))
          refs := Function.update c.refs (first + i) (c.refs (first + i) + 1)
          reads := c.reads.tail } (by dsimp only; omega)
      refine ⟨k + 1, ret, c', by omega, ?_, fun ok => by rw [full ok], size, ?_, ?_, code.trans (later n).symm,
        fun ok => (rest ok).trans (List.drop_tail _ _)⟩
      · rw [show i + (k + 1) = i + 1 + k by omega, ← run]
        simp [readUnitPages, read, PageCtx.store, show slot + i < c.size by omega]
      · rw [slots, ← fillSlots_cons, Nat.add_assoc, Nat.add_assoc]
      · rw [refs, ← pinRange_cons, Nat.add_assoc]
    · exact ⟨0, r, { c with reads := c.reads.tail }, Nat.zero_le _, by simp [readUnitPages, read, failed],
        fun ok => absurd ok failed, rfl, (fillSlots_zero ..).symm, (pinRange_zero ..).symm, (first n).symm,
        fun ok => absurd ok failed⟩

theorem putPages_spec {c : PageCtx} {refs : Nat → Int} {s f k : Nat} (room : s + k ≤ c.size)
    (held : ∀ j < k, c.slots (s + j) = some (f + j)) (pinned : c.refs = pinRange refs f k) :
    forLoop (fun i c => putPage c (i + s)) 0 k c = .ok { c with refs := refs } := by
  have run := @forLoop_closed _ (fun i c => putPage c (i + s))
    (fun j => { c with refs := pinRange refs (f + j) (k - j) }) 0 k fun j _ below => by
      obtain ⟨m, left⟩ : ∃ m, k - j = m + 1 := ⟨k - j - 1, by omega⟩
      simp only [putPage, show s + j < c.size by omega, if_true, Nat.add_comm j s, held j (by omega), left,
        pinRange_put, show k - (j + 1) = m by omega, Nat.add_assoc]
  simp only [Nat.add_zero, Nat.sub_zero, Nat.zero_add, Nat.sub_self, pinRange_zero, ← pinned] at run
  exact run

theorem readpagesExtentUnit_spec {width offInUnit idx offInPages : Nat} {c : PageCtx}
    (room : offInPages + (width - offInUnit) ≤ c.size) :
    ∃ ret c', readpagesExtentUnit width offInUnit idx offInPages c = .ok (ret, c') ∧ c'.size = c.size ∧
      (∀ j < offInPages, c'.slots j = c.slots j) ∧
      (ret = 0 → c'.slots = fillSlots c.slots offInPages (idx + offInUnit) (width - offInUnit) ∧
        c'.refs = pinRange c.refs (idx + offInUnit) (width - offInUnit)) ∧
      (ret ≠ 0 → c'.refs = c.refs) ∧ ret = firstFailure (c.reads.take (width - offInUnit)) ∧
      (ret = 0 → c'.reads = c.reads.drop (width - offInUnit)) := by
  obtain ⟨k, ret, c', le, run, full, size, slots, refs, code, rest⟩ :=
    readUnitPages_spec (idx + offInUnit) offInPages (width - offInUnit) 0 c (by simpa using room)
  simp only [Nat.add_zero, Nat.zero_add] at run slots refs
  have frame : ∀ j < offInPages, c'.slots j = c.slots j := fun j below => by
    rw [slots, fillSlots, if_neg (by omega)]
  by_cases ok : ret = 0
  · subst ok
    refine ⟨0, c', by simp [readpagesExtentUnit, run, pure, Except.pure], size, frame, fun _ => ?_,
      fun no => absurd rfl no, code, rest⟩
    rw [← full rfl]
    exact ⟨slots, refs⟩
  · have put := @putPages_spec c' c.refs offInPages (idx + offInUnit) k (by omega)
      (fun j below => by rw [slots, fillSlots, if_pos (by omega)]; simp) refs
    exact ⟨ret, { c' with refs := c.refs }, by simp [readpagesExtentUnit, run, ok, put], size, frame,
      fun no => absurd no ok, fun _ => rfl, code, fun no => absurd no ok⟩

end Reads

section Item

variable {refs : Nat → Int} {base : Nat}

theorem readItemUnits_spec : ∀ (ws : List Nat) {idx nr pos : Nat} {c : PageCtx},
    idx + pos = base + nr → (∀ w, ws.head? = some w → pos < w) → (∀ w ∈ ws, 0 < w) →
    nr + (ws.sum - pos) = c.size → (∀ j < nr, c.slots j = some (base + j)) → c.refs = pinRange refs base nr →
    ∃ ret nr' c', readItemUnits idx nr pos ws c = .ok (ret, nr', c') ∧ c'.size = c.size ∧
      (∀ j < nr', c'.slots j = some (base + j)) ∧ c'.refs = pinRange refs base nr' ∧ nr' ≤ c.size ∧
      (ret = 0 → nr' = c.size) ∧ ret = firstFailure (c.reads.take (ws.sum - pos))
  | [], _, nr, _, c, _, _, _, room, held, pinned =>
    ⟨0, nr, c, rfl, rfl, held, pinned, by simp at room; omega, fun _ => by simpa using room, by simp [firstFailure]⟩
  | w :: ws, idx, nr, pos, c, start, fits, widths, room, held, pinned => by
    have inside : pos < w := fits w rfl
    rw [List.sum_cons] at room
    obtain ⟨ret, c₁, run, size, frame, full, failed, code, rest⟩ :=
      @readpagesExtentUnit_spec w pos idx nr c (by omega)
    have reads := firstFailure_take_add c.reads (w - pos) ws.sum
    rw [← code, show w - pos + ws.sum = w + ws.sum - pos by omega] at reads
    by_cases ok : ret = 0
    · obtain ⟨slots, pinned₁⟩ := full ok
      obtain ⟨ret', nr', c', run', size', held', pinned', le', full', code'⟩ := readItemUnits_spec ws
        (show idx + w + 0 = base + (nr + (w - pos)) by omega)
        (fun w' head => widths w' (List.mem_cons_of_mem _ (List.mem_of_mem_head? head)))
        (fun w' mem => widths w' (List.mem_cons_of_mem _ mem))
        (show nr + (w - pos) + (ws.sum - 0) = c₁.size by omega)
        (fun j below => by
          rw [slots, fillSlots]
          split_ifs with fresh
          · congr 1; omega
          · exact held j (by omega))
        (by rw [pinned₁, pinned, start, pinRange_append])
      refine ⟨ret', nr', c', by simp [readItemUnits, not_le.mpr inside, run, ok, run'], size'.trans size, held',
        pinned', size ▸ le', size ▸ full', ?_⟩
      rw [List.sum_cons, reads, if_pos ok, code', rest ok, Nat.sub_zero]
    · exact ⟨ret, nr, c₁, by simp [readItemUnits, not_le.mpr inside, run, ok, pure, Except.pure], size,
        fun j below => (frame j below).trans (held j below), (failed ok).trans pinned, by omega, fun no => absurd no ok,
        by rw [List.sum_cons, reads, if_neg ok]⟩

end Item

section Result

variable {g : Geometry} {it : Item} {unitPos unitSplitPos width off : Nat}

/-- `readpages_extent_item` from a page-aligned offset `off` of an extent item,
with the coord on the unit holding `off` and `unit_split_pos` the page of `off`
in it (as `what_to_do` sets them), over an array of
`nr_pages = (end - off) >> PAGE_SHIFT` slots and for any outcomes of
`read_cache_page`: it returns 0 with slot `i` holding the page of index
`(off >> PAGE_SHIFT) + i` for every `i < nr_pages`, each pinned once, or it
returns a failed read's error with every reference it took dropped. Which of
the two is decided by the outcomes of the `nr_pages` reads: the call returns
the code of the first that fails, and 0 when none does. -/
theorem readpagesExtentItem_pins_or_releases (aligned : 2 ^ g.pageShift ∣ it.off) (widths : ∀ w ∈ it.units, 0 < w)
    (unit : it.units[unitPos]? = some width) (split : unitSplitPos < width)
    (located : it.off + (it.units.take unitPos).sum * 2 ^ g.pageShift + unitSplitPos * 2 ^ g.pageShift = off)
    (slots : Nat → Option Nat) (refs : Nat → Int) (reads : List Int) :
    ∃ ret c, readpagesExtentItem g it unitPos unitSplitPos off
        ⟨slots, (it.stop g - off) >>> g.pageShift, refs, reads⟩ = .ok (ret, c) ∧
      c.size = (it.stop g - off) >>> g.pageShift ∧ ret = firstFailure (reads.take c.size) ∧
      ((ret = 0 ∧ (∀ i < c.size, c.slots i = some (off >>> g.pageShift + i)) ∧
          c.refs = pinRange refs (off >>> g.pageShift) c.size) ∨
        (ret ≠ 0 ∧ c.refs = refs)) := by
  obtain ⟨a, offA⟩ := aligned
  have positive : 0 < 2 ^ g.pageShift := Nat.two_pow_pos _
  have shr : ∀ x, (2 ^ g.pageShift * x) >>> g.pageShift = x := fun x => by
    rw [Nat.shiftRight_eq_div_pow, Nat.mul_div_cancel_left _ positive]
  obtain ⟨lt, get⟩ := List.getElem?_eq_some_iff.mp unit
  have dropped : it.units.drop unitPos = width :: it.units.drop (unitPos + 1) := by
    rw [List.drop_eq_getElem_cons lt, get]
  obtain ⟨e, rest⟩ : ∃ e, (it.units.drop unitPos).sum = unitSplitPos + e := ⟨_, (Nat.add_sub_of_le
    (by rw [dropped, List.sum_cons]; omega)).symm⟩
  obtain ⟨t, took⟩ : ∃ t, (it.units.take unitPos).sum = t := ⟨_, rfl⟩
  have unitOff : it.off + (t <<< g.pageShift) = 2 ^ g.pageShift * (a + t) := by
    rw [Nat.shiftLeft_eq, offA]; ring
  have offEq : off = 2 ^ g.pageShift * (a + t + unitSplitPos) := by rw [← located, offA, took]; ring
  have size : (it.stop g - off) >>> g.pageShift = e := by
    have total : it.stop g = 2 ^ g.pageShift * (a + t + unitSplitPos) + 2 ^ g.pageShift * e := by
      rw [Item.stop, Item.size_eq, ← List.sum_take_add_sum_drop it.units unitPos, rest, offA, took]; ring
    rw [total, offEq, Nat.add_sub_cancel_left, shr]
  have pos : (if 2 ^ g.pageShift * (a + t) < off then unitSplitPos else 0) = unitSplitPos := by
    split_ifs with before
    · rfl
    · have : ¬ a + t < a + t + unitSplitPos := fun lt => before (offEq ▸ Nat.mul_lt_mul_of_pos_left lt positive)
      omega
  have gap : (off - 2 ^ g.pageShift * (a + t)) >>> g.pageShift = unitSplitPos := by
    rw [offEq, Nat.mul_add, Nat.add_sub_cancel_left, shr]
  obtain ⟨ret, nr, c, run, sameSize, held, pinned, room, full, code⟩ :=
    @readItemUnits_spec refs (off >>> g.pageShift) (it.units.drop unitPos) (a + t) 0 unitSplitPos
      ⟨slots, (it.stop g - off) >>> g.pageShift, refs, reads⟩ (by rw [offEq, shr]; rfl)
      (fun w head => by rw [dropped] at head; cases head; exact split)
      (fun w mem => widths w (List.mem_of_mem_drop mem)) (by rw [rest, size]; simp)
      (fun _ none => absurd none (Nat.not_lt_zero _)) (pinRange_zero ..).symm
  have first : ret = firstFailure (reads.take c.size) := by rw [code, rest, sameSize, size, Nat.add_sub_cancel_left]
  by_cases ok : ret = 0
  · have whole : nr = c.size := by rw [full ok, sameSize]
    refine ⟨0, c, ?_, sameSize, ok ▸ first, .inl ⟨rfl, fun i below => held i (whole ▸ below), whole ▸ pinned⟩⟩
    simp [readpagesExtentItem, took, unitOff, pos, gap, shr, run, ok, whole, pure, Except.pure]
  · have put := @putPages_spec c refs 0 (off >>> g.pageShift) nr (by omega) (fun j below => by
      rw [Nat.zero_add]; exact held j below) pinned
    simp only [Nat.add_zero] at put
    refine ⟨ret, { c with refs := refs }, ?_, sameSize, first, .inr ⟨ok, rfl⟩⟩
    simp [readpagesExtentItem, took, unitOff, pos, gap, shr, run, ok, put]

/-- An item of units of 2 and 3 pages read from its fourth page on, the coord
on its second unit one page in: with every read succeeding, and with the
second read failing with `-ENOMEM`. -/
theorem readpagesExtentItem_second_unit :
    (∃ ret c, readpagesExtentItem ⟨12, 4096, fun _ => 2⟩ ⟨0, 1, [2, 3]⟩ 1 1 12288
        ⟨fun _ => none, (Item.stop ⟨12, 4096, fun _ => 2⟩ ⟨0, 1, [2, 3]⟩ - 12288) >>> 12, fun _ => 0, []⟩ =
          .ok (ret, c) ∧
      c.size = (Item.stop ⟨12, 4096, fun _ => 2⟩ ⟨0, 1, [2, 3]⟩ - 12288) >>> 12 ∧
      ret = firstFailure (([] : List Int).take c.size) ∧
      ((ret = 0 ∧ (∀ i < c.size, c.slots i = some (12288 >>> 12 + i)) ∧
          c.refs = pinRange (fun _ => 0) (12288 >>> 12) c.size) ∨
        (ret ≠ 0 ∧ c.refs = fun _ => 0))) ∧
    (∃ ret c, readpagesExtentItem ⟨12, 4096, fun _ => 2⟩ ⟨0, 1, [2, 3]⟩ 1 1 12288
        ⟨fun _ => none, (Item.stop ⟨12, 4096, fun _ => 2⟩ ⟨0, 1, [2, 3]⟩ - 12288) >>> 12, fun _ => 0, [0, -ENOMEM]⟩ =
          .ok (ret, c) ∧
      c.size = (Item.stop ⟨12, 4096, fun _ => 2⟩ ⟨0, 1, [2, 3]⟩ - 12288) >>> 12 ∧
      ret = firstFailure ([0, -ENOMEM].take c.size) ∧
      ((ret = 0 ∧ (∀ i < c.size, c.slots i = some (12288 >>> 12 + i)) ∧
          c.refs = pinRange (fun _ => 0) (12288 >>> 12) c.size) ∨
        (ret ≠ 0 ∧ c.refs = fun _ => 0))) :=
  ⟨readpagesExtentItem_pins_or_releases (by decide) (by decide) rfl (by decide) rfl _ _ _,
    readpagesExtentItem_pins_or_releases (by decide) (by decide) rfl (by decide) rfl _ _ _⟩

end Result

end Reiser4Volume.Extent
