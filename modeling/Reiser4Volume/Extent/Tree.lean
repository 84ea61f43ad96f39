import Mathlib.Algebra.BigOperators.Group.List
import Reiser4Volume.Machine

/-! A file's extent items as extent_volume_ops.c sees them: a key-ordered list
of items, each with its key offset, its key ordering (the brick its data is on)
and the widths of its units in pages. The tree primitives migration calls
(`cut_off_tail`, `insert_by_coord`, `update_item_key`, `split_extent_unit`, the
merges, the lookups) are outside the sources: each is modelled by its effect on
this list, as the spec describes it, and succeeds or fails as a whole. A
merge joins two neighbours of one ordering whose bytes are adjacent. `ordAt`
is what the items say about the file, the brick of each byte, and each
primitive is stated by its effect on `ordAt` and on `Sorted`. -/

namespace Reiser4Volume.Extent

/-- An extent item of the file. -/
structure Item where
  off : Nat
  ord : Nat
  /-- The widths of the item's units, in pages. -/
  units : List Nat
  deriving DecidableEq, Repr

/-- The page size, as a shift, and the stripes of the file. -/
structure Geometry where
  pageShift : Nat
  /-- `current_stripe_size`, in bytes. -/
  stripeSize : Nat
  /-- The brick each stripe of the file belongs to in the new configuration. -/
  stripeMap : Nat → Nat

/-- `calc_data_subvol(inode, off)->id`: the brick of the stripe holding byte `off`. -/
def Geometry.calc (g : Geometry) (off : Nat) : Nat := g.stripeMap (off / g.stripeSize)

/-- `reiser4_extent_size`: the bytes an item covers. -/
def Item.size (g : Geometry) (it : Item) : Nat := it.units.sum <<< g.pageShift

/-- The offset just past the item. -/
def Item.stop (g : Geometry) (it : Item) : Nat := it.off + it.size g

/-- The extent items of a file, in key order. -/
abbrev Items := List Item

/-- The ordering of the item that holds byte `b`, if one does. -/
def ordAt (g : Geometry) : Items → Nat → Option Nat
  | [], _ => none
  | it :: rest, b => if it.off ≤ b ∧ b < it.stop g then some it.ord else ordAt g rest b

/-- Items in key order, none overlapping the next. -/
def Sorted (g : Geometry) (items : Items) : Prop := items.Pairwise fun a b => a.stop g ≤ b.off

instance (g : Geometry) (items : Items) : Decidable (Sorted g items) :=
  inferInstanceAs (Decidable (items.Pairwise _))

/-- The units of the first `k` pages. -/
def takePages : Nat → List Nat → List Nat
  | _, [] => []
  | k, w :: ws => if k ≤ w then (if k = 0 then [] else [k]) else w :: takePages (k - w) ws

/-- The units past the first `k` pages. -/
def dropPages : Nat → List Nat → List Nat
  | _, [] => []
  | k, w :: ws => if k < w then (w - k) :: ws else dropPages (k - w) ws

@[simp] theorem sum_takePages (k : Nat) (units : List Nat) : (takePages k units).sum = min k units.sum := by
  induction units generalizing k with
  | nil => simp [takePages]
  | cons w ws ih =>
    simp only [takePages, List.sum_cons]
    split
    · split <;> simp <;> omega
    · simp only [List.sum_cons, ih]; omega

@[simp] theorem sum_dropPages (k : Nat) (units : List Nat) : (dropPages k units).sum = units.sum - k := by
  induction units generalizing k with
  | nil => simp [dropPages]
  | cons w ws ih =>
    simp only [dropPages, List.sum_cons]
    split
    · simp; omega
    · rw [ih]; omega

/-- `items` with the item at `i` replaced by the list `new`. -/
def replaceAt (items : Items) (i : Nat) (new : List Item) : Items :=
  items.take i ++ new ++ items.drop (i + 1)

/-- `cut_off_tail`: the item at `i` keeps its bytes below `fromOff`. -/
def cutTail (g : Geometry) (items : Items) (i fromOff : Nat) : Items :=
  match items[i]? with
  | some it => replaceAt items i [{ it with units := takePages ((fromOff - it.off) >>> g.pageShift) it.units }]
  | none => items

/-- `insert_by_coord` of a new item right after the item at `i`. -/
def insertAfter (items : Items) (i : Nat) (new : Item) : Items :=
  items.take (i + 1) ++ new :: items.drop (i + 1)

/-- The item at `i` with its units and key ordering replaced. -/
def rewriteItem (items : Items) (i : Nat) (f : Item → Item) : Items :=
  match items[i]? with
  | some it => replaceAt items i [f it]
  | none => items

/-- Two neighbours merge when they are of one ordering and their bytes adjacent. -/
def mergeable (g : Geometry) (a b : Item) : Bool := a.ord = b.ord ∧ a.stop g = b.off

/-- `try_merge_with_right_item` for the item at `i`. -/
def mergeRight (g : Geometry) : Items → Nat → Items
  | a :: b :: rest, 0 => if mergeable g a b then { a with units := a.units ++ b.units } :: rest else a :: b :: rest
  | a :: rest, i + 1 => a :: mergeRight g rest i
  | items, _ => items

/-- `try_merge_with_left_item` for the item at `i`. -/
def mergeLeft (g : Geometry) (items : Items) (i : Nat) : Items :=
  match i with
  | 0 => items
  | i + 1 => mergeRight g items i

/-- `split_extent_item` at byte `splitOff` of the item at `i`, when the new
item holding the tail is inserted. -/
def splitItem (g : Geometry) (items : Items) (i splitOff : Nat) : Items :=
  match items[i]? with
  | some it =>
    let k := (splitOff - it.off) >>> g.pageShift
    replaceAt items i
      [{ it with units := takePages k it.units }, { it with off := splitOff, units := dropPages k it.units }]
  | none => items

/-- The lookup of byte `b` (`find_file_item_nohint`, `lookup_extent`): the
position of the item holding it. -/
def findItem (g : Geometry) : Items → Nat → Option Nat
  | [], _ => none
  | it :: rest, b => if it.off ≤ b ∧ b < it.stop g then some 0 else (findItem g rest b).map (· + 1)

@[simp] theorem Item.size_eq (g : Geometry) (it : Item) : it.size g = it.units.sum * 2 ^ g.pageShift :=
  Nat.shiftLeft_eq _ _

theorem Item.off_le_stop (g : Geometry) (it : Item) : it.off ≤ it.stop g := Nat.le_add_right _ _

theorem pages_pos {g : Geometry} {a b : Nat} (lt : a < b) (dvd : 2 ^ g.pageShift ∣ b - a) :
    0 < (b - a) >>> g.pageShift := by
  rw [Nat.shiftRight_eq_div_pow]
  exact Nat.div_pos (Nat.le_of_dvd (by omega) dvd) (Nat.two_pow_pos _)

theorem Item.units_pos {g : Geometry} {it : Item} (covers : it.off < it.stop g) : 0 < it.units.sum :=
  Nat.pos_of_ne_zero fun zero => by simp [Item.stop, Item.size_eq, zero] at covers

section Bytes

variable {g : Geometry}

theorem ordAt_append (l₁ l₂ : Items) (b : Nat) : ordAt g (l₁ ++ l₂) b = (ordAt g l₁ b).or (ordAt g l₂ b) := by
  induction l₁ with
  | nil => rfl
  | cons it rest ih => by_cases holds : it.off ≤ b ∧ b < it.stop g <;> simp [ordAt, holds, ih]

theorem ordAt_eq_none {l : Items} {b : Nat} (missing : ∀ it ∈ l, ¬(it.off ≤ b ∧ b < it.stop g)) :
    ordAt g l b = none := by
  induction l with
  | nil => rfl
  | cons it rest ih =>
    rw [ordAt, if_neg (missing it (List.mem_cons_self _ _))]
    exact ih fun x mem => missing x (List.mem_cons_of_mem _ mem)

variable {pre post : Items} {cur : Item}

theorem sorted_around (sorted : Sorted g (pre ++ cur :: post)) :
    (∀ a ∈ pre, a.stop g ≤ cur.off) ∧ (∀ c ∈ post, cur.stop g ≤ c.off) := by
  obtain ⟨-, tail, across⟩ := List.pairwise_append.mp sorted
  exact ⟨fun a mem => across a mem cur (List.mem_cons_self _ _), (List.pairwise_cons.mp tail).1⟩

theorem ordAt_window (sorted : Sorted g (pre ++ cur :: post)) {X : Items}
    (within : ∀ x ∈ X, cur.off ≤ x.off ∧ x.stop g ≤ cur.stop g) (b : Nat) :
    ordAt g (pre ++ X ++ post) b =
      if cur.off ≤ b ∧ b < cur.stop g then ordAt g X b else ordAt g (pre ++ cur :: post) b := by
  obtain ⟨below, above⟩ := sorted_around sorted
  rw [ordAt_append, ordAt_append, ordAt_append, ordAt]
  by_cases holds : cur.off ≤ b ∧ b < cur.stop g
  · have before : ordAt g pre b = none := ordAt_eq_none fun a mem => by have := below a mem; omega
    have after : ordAt g post b = none := ordAt_eq_none fun c mem => by have := above c mem; omega
    simp [holds, before, after]
  · have inside : ordAt g X b = none := ordAt_eq_none fun x mem => by have := within x mem; omega
    simp [holds, inside]

theorem sorted_window (sorted : Sorted g (pre ++ cur :: post)) {X : Items} (sortedX : Sorted g X)
    (within : ∀ x ∈ X, cur.off ≤ x.off ∧ x.stop g ≤ cur.stop g) : Sorted g (pre ++ X ++ post) := by
  obtain ⟨below, above⟩ := sorted_around sorted
  obtain ⟨sortedPre, sortedTail, -⟩ := List.pairwise_append.mp sorted
  refine List.pairwise_append.mpr
    ⟨List.pairwise_append.mpr ⟨sortedPre, sortedX, ?_⟩, (List.pairwise_cons.mp sortedTail).2, ?_⟩
  · intro a memA x memX
    have := below a memA
    have := within x memX
    omega
  · intro y memY c memC
    have := above c memC
    rcases List.mem_append.mp memY with memY | memY
    · have := below y memY
      have := cur.off_le_stop g
      omega
    · have := within y memY
      omega

theorem ordAt_replace (sorted : Sorted g (pre ++ cur :: post)) {x : Item}
    (same : x.off = cur.off ∧ x.stop g = cur.stop g) (b : Nat) :
    ordAt g (pre ++ x :: post) b =
      if cur.off ≤ b ∧ b < cur.stop g then some x.ord else ordAt g (pre ++ cur :: post) b := by
  have window := ordAt_window sorted (X := [x]) (by simp [same.1, same.2]) b
  simp only [List.append_assoc, List.singleton_append] at window
  rw [window]
  split_ifs with holds
  · simp [ordAt, same.1, same.2, holds]
  · rfl

theorem sorted_replace (sorted : Sorted g (pre ++ cur :: post)) {x : Item}
    (same : x.off = cur.off ∧ x.stop g = cur.stop g) : Sorted g (pre ++ x :: post) := by
  simpa using sorted_window sorted (X := [x]) (List.pairwise_singleton _ _) (by simp [same.1, same.2])

theorem window_pair (sorted : Sorted g (pre ++ cur :: post)) {left right : Item} {s : Nat}
    (leftOff : left.off = cur.off) (leftStop : left.stop g = s) (rightOff : right.off = s)
    (rightStop : right.stop g = cur.stop g) (inside : cur.off ≤ s ∧ s ≤ cur.stop g) :
    Sorted g (pre ++ left :: right :: post) ∧
      ∀ b, ordAt g (pre ++ left :: right :: post) b =
        if cur.off ≤ b ∧ b < cur.stop g then ordAt g [left, right] b else ordAt g (pre ++ cur :: post) b := by
  have within : ∀ x ∈ [left, right], cur.off ≤ x.off ∧ x.stop g ≤ cur.stop g := by
    simp only [List.mem_cons, List.mem_singleton, List.not_mem_nil, or_false, forall_eq_or_imp, forall_eq]
    exact ⟨⟨by omega, by omega⟩, by omega, by omega⟩
  have ordered : Sorted g [left, right] := by simp [Sorted, rightOff, leftStop]
  exact ⟨by simpa using sorted_window sorted ordered within, by simpa using ordAt_window sorted within⟩

theorem ordAt_cur (sorted : Sorted g (pre ++ cur :: post)) {b : Nat} (holds : cur.off ≤ b ∧ b < cur.stop g) :
    ordAt g (pre ++ cur :: post) b = some cur.ord := by
  rw [ordAt_replace sorted ⟨rfl, rfl⟩, if_pos holds]

theorem findItem_cur (sorted : Sorted g (pre ++ cur :: post)) {b : Nat} (holds : cur.off ≤ b ∧ b < cur.stop g) :
    findItem g (pre ++ cur :: post) b = some pre.length := by
  have below := (sorted_around sorted).1
  clear sorted
  induction pre with
  | nil => simp [findItem, holds]
  | cons a pre ih =>
    have miss : ¬(a.off ≤ b ∧ b < a.stop g) := by
      have := below a (List.mem_cons_self _ _)
      omega
    simp [findItem, miss, ih fun x mem => below x (List.mem_cons_of_mem _ mem)]

@[simp] theorem getElem?_cur : (pre ++ cur :: post)[pre.length]? = some cur := by
  rw [List.getElem?_append_right (Nat.le_refl _), Nat.sub_self, List.getElem?_cons_zero]

@[simp] theorem getElem_cur (inside : pre.length < (pre ++ cur :: post).length) :
    (pre ++ cur :: post)[pre.length] = cur := by
  simp [List.getElem_append_right]

theorem replaceAt_cur (X : Items) : replaceAt (pre ++ cur :: post) pre.length X = pre ++ X ++ post := by
  simp [replaceAt]

theorem cutTail_cur (fromOff : Nat) :
    cutTail g (pre ++ cur :: post) pre.length fromOff =
      pre ++ { cur with units := takePages ((fromOff - cur.off) >>> g.pageShift) cur.units } :: post := by
  simp only [cutTail, getElem?_cur, replaceAt_cur, List.append_assoc, List.singleton_append]

theorem stop_cut {s : Nat} (inside : cur.off ≤ s ∧ s ≤ cur.stop g) (aligned : 2 ^ g.pageShift ∣ s - cur.off) :
    ({ cur with units := takePages ((s - cur.off) >>> g.pageShift) cur.units } : Item).stop g = s := by
  have pages := Nat.div_mul_cancel aligned
  have fits : (s - cur.off) / 2 ^ g.pageShift ≤ cur.units.sum :=
    Nat.div_le_of_le_mul (by simp only [Item.stop, Item.size_eq] at inside; rw [Nat.mul_comm]; omega)
  simp only [Item.stop, Item.size_eq, sum_takePages, Nat.shiftRight_eq_div_pow, Nat.min_eq_left fits, pages]
  omega

theorem stop_rest {s : Nat} (inside : cur.off ≤ s ∧ s ≤ cur.stop g) (aligned : 2 ^ g.pageShift ∣ s - cur.off) :
    ({ cur with off := s, units := dropPages ((s - cur.off) >>> g.pageShift) cur.units } : Item).stop g = cur.stop g := by
  have pages := Nat.div_mul_cancel aligned
  simp only [Item.stop, Item.size_eq, sum_dropPages, Nat.shiftRight_eq_div_pow, Nat.sub_mul, pages] at inside ⊢
  omega

theorem ordAt_cut (sorted : Sorted g (pre ++ cur :: post)) {s : Nat} (inside : cur.off ≤ s ∧ s ≤ cur.stop g)
    (aligned : 2 ^ g.pageShift ∣ s - cur.off) (b : Nat) :
    ordAt g (pre ++ { cur with units := takePages ((s - cur.off) >>> g.pageShift) cur.units } :: post) b =
      if s ≤ b ∧ b < cur.stop g then none else ordAt g (pre ++ cur :: post) b := by
  have leftStop := stop_cut inside aligned
  have window := ordAt_window sorted (X := [{ cur with units := takePages ((s - cur.off) >>> g.pageShift) cur.units }])
    (by simp only [List.mem_singleton, forall_eq, leftStop]; omega) b
  simp only [List.append_assoc, List.singleton_append] at window
  rw [window]
  by_cases inCur : cur.off ≤ b ∧ b < cur.stop g
  · rw [if_pos inCur, ordAt_cur sorted inCur]
    by_cases past : s ≤ b
    · simp [ordAt, leftStop, past, inCur.2]
    · simp [ordAt, leftStop, Nat.lt_of_not_le past, inCur.1, past]
  · rw [if_neg inCur, if_neg (by omega)]

theorem rewriteItem_cur (f : Item → Item) : rewriteItem (pre ++ cur :: post) pre.length f = pre ++ f cur :: post := by
  simp only [rewriteItem, getElem?_cur, replaceAt_cur, List.append_assoc, List.singleton_append]

theorem splitItem_cur (splitOff : Nat) :
    splitItem g (pre ++ cur :: post) pre.length splitOff =
      pre ++ [{ cur with units := takePages ((splitOff - cur.off) >>> g.pageShift) cur.units },
        { cur with off := splitOff, units := dropPages ((splitOff - cur.off) >>> g.pageShift) cur.units }] ++ post := by
  rw [splitItem, getElem?_cur]
  exact replaceAt_cur _

theorem insertAfter_cur (new : Item) : insertAfter (pre ++ cur :: post) pre.length new = pre ++ cur :: new :: post := by
  simp [insertAfter, List.take_append_eq_append_take]

theorem mergeRight_append (pre rest : Items) (i : Nat) :
    mergeRight g (pre ++ rest) (pre.length + i) = pre ++ mergeRight g rest i := by
  induction pre with
  | nil => simp
  | cons a pre ih => rw [List.cons_append, List.length_cons, Nat.add_right_comm, mergeRight.eq_2, ih]; rfl

theorem mergeRight_after (pre post : Items) (left new : Item) :
    pre ++ left :: mergeRight g (new :: post) 0 = mergeRight g (pre ++ left :: new :: post) (pre.length + 1) := by
  rw [mergeRight_append pre _ 1, mergeRight.eq_2]

private theorem stop_merged {a b : Item} (adjacent : a.stop g = b.off) :
    ({ a with units := a.units ++ b.units } : Item).stop g = b.stop g := by
  simp only [Item.stop, Item.size_eq, List.sum_append, Nat.add_mul] at adjacent ⊢
  omega

theorem ordAt_mergeRight (items : Items) (i b : Nat) : ordAt g (mergeRight g items i) b = ordAt g items b := by
  induction items, i using mergeRight.induct g with
  | case1 x y rest joined =>
    obtain ⟨sameOrd, adjacent⟩ : x.ord = y.ord ∧ x.stop g = y.off := by simpa [mergeable] using joined
    have := x.off_le_stop g
    have := y.off_le_stop g
    simp only [mergeRight, joined, if_true, ordAt, stop_merged adjacent]
    by_cases inX : x.off ≤ b ∧ b < x.stop g
    · rw [if_pos ⟨inX.1, by omega⟩, if_pos inX]
    · by_cases inY : y.off ≤ b ∧ b < y.stop g
      · rw [if_pos (by omega), if_neg inX, if_pos inY, sameOrd]
      · rw [if_neg (by omega), if_neg inX, if_neg inY]
  | case2 x y rest apart => simp only [mergeRight, apart]; rfl
  | case3 x rest i ih => simp only [mergeRight.eq_2, ordAt, ih]
  | case4 items i notFirst notNext => rw [mergeRight.eq_3 g items i notFirst notNext]

private theorem off_of_mem_mergeRight {items : Items} {i : Nat} {x : Item} (mem : x ∈ mergeRight g items i) :
    ∃ y ∈ items, y.off = x.off := by
  induction items, i using mergeRight.induct g with
  | case1 a b rest joined =>
    simp only [mergeRight, joined, if_true, List.mem_cons] at mem
    rcases mem with rfl | mem
    · exact ⟨a, List.mem_cons_self _ _, rfl⟩
    · exact ⟨x, by simp [mem], rfl⟩
  | case2 a b rest apart => simp only [mergeRight, apart] at mem; exact ⟨x, mem, rfl⟩
  | case3 a rest i ih =>
    rw [mergeRight.eq_2, List.mem_cons] at mem
    rcases mem with rfl | mem
    · exact ⟨x, List.mem_cons_self _ _, rfl⟩
    · obtain ⟨y, memY, off⟩ := ih mem
      exact ⟨y, List.mem_cons_of_mem _ memY, off⟩
  | case4 items i notFirst notNext => rw [mergeRight.eq_3 g items i notFirst notNext] at mem; exact ⟨x, mem, rfl⟩

theorem sorted_mergeRight {items : Items} (sorted : Sorted g items) (i : Nat) : Sorted g (mergeRight g items i) := by
  induction items, i using mergeRight.induct g with
  | case1 x y rest joined =>
    have adjacent : x.stop g = y.off := by simp_all [mergeable]
    obtain ⟨-, tail⟩ := List.pairwise_cons.mp sorted
    obtain ⟨afterY, sortedRest⟩ := List.pairwise_cons.mp tail
    simp only [mergeRight, joined, if_true]
    exact List.pairwise_cons.mpr ⟨fun c mem => (stop_merged adjacent).symm ▸ afterY c mem, sortedRest⟩
  | case2 x y rest apart => simpa only [mergeRight, apart] using sorted
  | case3 x rest i ih =>
    obtain ⟨afterX, sortedRest⟩ := List.pairwise_cons.mp sorted
    rw [mergeRight.eq_2]
    refine List.pairwise_cons.mpr ⟨fun c mem => ?_, ih sortedRest⟩
    obtain ⟨y, memY, off⟩ := off_of_mem_mergeRight mem
    exact off ▸ afterX y memY
  | case4 items i notFirst notNext => rwa [mergeRight.eq_3 g items i notFirst notNext]

theorem ordAt_mergeLeft (items : Items) (i b : Nat) : ordAt g (mergeLeft g items i) b = ordAt g items b := by
  cases i <;> simp [mergeLeft, ordAt_mergeRight]

theorem sorted_mergeLeft {items : Items} (sorted : Sorted g items) (i : Nat) : Sorted g (mergeLeft g items i) := by
  cases i with
  | zero => exact sorted
  | succ i => exact sorted_mergeRight sorted i

end Bytes

end Reiser4Volume.Extent
