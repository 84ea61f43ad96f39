import Reiser4Volume.Extent.Tree

/-! `reiser4_migrate_extent` (extent_volume_ops.c): the loop that moves the
bytes of one extent item to the bricks the stripe map assigns them, deciding
at each iteration between SKIP, SPLIT and MIGRATE with `what_to_do`. Every
call into a tree, page or space primitive may fail: its outcome is the next of
the environment's, 0 for success. -/

namespace Reiser4Volume.Extent

/-- `MIGRATION_GRANULARITY`, in pages. -/
def migrationGranularity : Nat := 8192

/-- `struct extent_migrate_context`, as far as the loop reads it, with the
file's items and the caller's `*done_off`. -/
structure Mctx where
  items : Items
  /-- `mctx->coord`: the position of the current item. -/
  pos : Nat
  /-- The offset and the ordering of `mctx->key`. -/
  keyOff : Nat
  keyOrd : Nat
  /-- `*done_off`, once this call has stored it. -/
  doneOff : Option Nat
  /-- The outcomes of the primitives still to be called. -/
  outcomes : List Int
  deriving DecidableEq, Repr

/-- One call of a primitive that may fail. Past the recorded outcomes every
call succeeds. -/
def call (m : Mctx) : Int × Mctx :=
  match m.outcomes with
  | [] => (0, m)
  | r :: rest => (r, { m with outcomes := rest })

/-- `enum migration_primitive_id`. -/
inductive Act where
  | skip
  | split
  | migrate
  deriving DecidableEq, Repr

/-- What `what_to_do` leaves in `mctx`. -/
structure Plan where
  act : Act
  newLoc : Nat
  stopOff : Nat
  migrateWholeItem : Bool
  deriving DecidableEq, Repr

/-- The walk of `what_to_do`: `off2` steps one stripe left at a time, `steps`
times, until the stripe at `off2` belongs to a brick other than `newLoc`; the
split offset is the start of the stripe after it. -/
def findSplitOff (g : Geometry) (newLoc : Nat) : Nat → Nat → Option Nat
  | 0, _ => none
  | steps + 1, off2 =>
    let off2 := off2 - g.stripeSize
    if g.calc off2 ≠ newLoc then some (off2 + g.stripeSize) else findSplitOff g newLoc steps off2

/-- `what_to_do_nosplit`: the whole item is skipped or migrated, a large one
`MIGRATION_GRANULARITY` pages at a time from its end. `mctx->new_loc` is a
`u32`: the u64 `*dst_id` is stored modulo `2 ^ 32`. -/
def whatToDoNosplit (g : Geometry) (dstId : Option Nat) (keyOff keyOrd size : Nat) : Plan :=
  let newLoc := (dstId.map (wrap 32)).getD (g.calc keyOff)
  if keyOrd = newLoc then ⟨.skip, newLoc, keyOff, false⟩
  else if size ≤ migrationGranularity <<< g.pageShift then ⟨.migrate, newLoc, keyOff, true⟩
  else ⟨.migrate, newLoc, keyOff + size - (migrationGranularity <<< g.pageShift), false⟩

/-- `what_to_do` for the item of key `(keyOff, keyOrd)` and `size` bytes. The
`while (off1 < off2)` loop runs `(off2 - off1) / current_stripe_size` times,
both ends being stripe starts. -/
def whatToDo (g : Geometry) (nosplit : Bool) (dstId : Option Nat) (keyOff keyOrd size : Nat) : Plan :=
  if nosplit then whatToDoNosplit g dstId keyOff keyOrd size else
  let off1 := keyOff
  let off2 := off1 + size - 1
  let off1 := off1 - (off1 &&& (g.stripeSize - 1))
  let off2 := off2 - (off2 &&& (g.stripeSize - 1))
  let newLoc := (dstId.map (wrap 32)).getD (g.calc off2)
  match findSplitOff g newLoc ((off2 - off1) / g.stripeSize) off2 with
  | none => if newLoc ≠ keyOrd then ⟨.migrate, newLoc, keyOff, true⟩ else ⟨.skip, newLoc, keyOff, false⟩
  | some splitOff =>
    if newLoc ≠ keyOrd then ⟨.migrate, newLoc, splitOff, false⟩ else ⟨.split, newLoc, splitOff, false⟩

/-- Whether page `k` of an item starts one of its units. -/
def isUnitBoundary : Nat → List Nat → Bool
  | 0, _ => true
  | _, [] => true
  | k, w :: ws => if k < w then false else isUnitBoundary (k - w) ws

/-- `do_split_extent` of the current item `it` at byte `splitOff`. Neither
`cut_node_content` nor `insert_by_coord` has its result checked: an uncut item
trips edward-2428, and a failed insert leaves the tail cut and returns 0.
The outcomes it draws are those of `zload`, of `split_extent_unit` when the
split falls inside a unit, of the `kmalloc` of the tail units, of
`cut_node_content` and of `insert_by_coord`. -/
def doSplitExtent (g : Geometry) (m : Mctx) (it : Item) (splitOff : Nat) : Except Fault (Int × Mctx) := do
  let (ret, m) := call m
  if ret ≠ 0 then return (ret, m)
  let k := (splitOff - it.off) >>> g.pageShift
  let (ret, m) := if isUnitBoundary k it.units then (0, m) else call m
  if ret ≠ 0 then return (ret, m)
  let m := { m with items := rewriteItem m.items m.pos fun it => { it with units := takePages k it.units ++ dropPages k it.units } }
  let (ret, m) := call m
  if ret ≠ 0 then return (-ENOMEM, m)
  let (ret, m) := call m
  if ret ≠ 0 then throw .assertion
  let (ret, m) := call m
  if ret ≠ 0 then return (0, { m with items := cutTail g m.items m.pos splitOff })
  return (0, { m with items := splitItem g m.items m.pos splitOff })

/-- The whole-item branch of `migrate_blocks`: the item keeps one unit of
`nr_pages` pages and takes the new ordering, then merges with its neighbours.
The outcomes are those of `cut_off_tail` past the first unit, of `zload` with
`reiser4_set_extent` and of `update_item_key`. -/
def migrateWholeItem (g : Geometry) (m : Mctx) (it : Item) (plan : Plan) (nrPages : Nat) : Int × Mctx :=
  let (ret, m) := if 1 < it.units.length then call m else (0, m)
  if ret ≠ 0 then (ret, m) else
  let m := if 1 < it.units.length then
      { m with items := cutTail g m.items m.pos (plan.stopOff + (it.units.headD 0 <<< g.pageShift)) }
    else m
  let (ret, m) := call m
  if ret ≠ 0 then (ret, m) else
  let m := { m with items := rewriteItem m.items m.pos fun it => { it with units := [nrPages] } }
  let (ret, m) := call m
  if ret ≠ 0 then (ret, m) else
  let m := { m with items := rewriteItem m.items m.pos fun it => { it with ord := plan.newLoc } }
  (0, { m with items := mergeLeft g (mergeRight g m.items m.pos) m.pos })

/-- The tail branch of `migrate_blocks`: the bytes from `stop_off` on move to a
new item after the current one, which then merges with its right neighbour.
The outcomes are those of `cut_off_tail`, `insert_by_coord` and `zload` with
`try_merge_with_right_item`. -/
def migrateTailPart (g : Geometry) (m : Mctx) (plan : Plan) (nrPages : Nat) : Int × Mctx :=
  let (ret, m) := call m
  if ret ≠ 0 then (ret, m) else
  let m := { m with items := cutTail g m.items m.pos plan.stopOff }
  let (ret, m) := call m
  if ret ≠ 0 then (ret, m) else
  let m := { m with items := insertAfter m.items m.pos ⟨plan.stopOff, plan.newLoc, [nrPages]⟩ }
  let (ret, m) := call m
  if ret ≠ 0 then (ret, m) else
  (0, { m with items := mergeRight g m.items (m.pos + 1) })

/-- `migrate_blocks`: the outcomes of `reiser4_grab_space`,
`readpages_extent_item` and `do_jget`, then those of its branch, then that of
`check_insert_atom_brick_info`. -/
def migrateBlocks (g : Geometry) (m : Mctx) (it : Item) (plan : Plan) (nrPages : Nat) : Int × Mctx :=
  let (ret, m) := call m
  if ret ≠ 0 then (ret, m) else
  let (ret, m) := call m
  if ret ≠ 0 then (ret, m) else
  let (ret, m) := call m
  if ret ≠ 0 then (ret, m) else
  let (ret, m) := if plan.migrateWholeItem then migrateWholeItem g m it plan nrPages
    else migrateTailPart g m plan nrPages
  if ret ≠ 0 then (ret, m) else
  call m

/-- `do_migrate_extent`: its return code and `mctx->stop`. After a tail has
moved, the item holding `done_off - 1` becomes the current one. The outcomes
are those of `zload`, `reiser4_vmalloc` of the page array, `migrate_blocks`,
`reserve_migration_iter`, then after a tail `find_file_item_nohint` (whose
error is returned, and an item not found ends the loop) and `zload`. -/
def doMigrateExtent (g : Geometry) (m : Mctx) (it : Item) (plan : Plan) (nrPages : Nat) : Int × Bool × Mctx :=
  let (ret, m) := call m
  if ret ≠ 0 then (ret, false, m) else
  let (ret, m) := call m
  if ret ≠ 0 then (-ENOMEM, false, m) else
  let (ret, m) := migrateBlocks g m it plan nrPages
  if ret ≠ 0 then (ret, false, m) else
  let (ret, m) := call m
  if ret ≠ 0 then (ret, false, m) else
  if plan.migrateWholeItem then (0, true, m) else
  let (ret, m) := call m
  if ret ≠ 0 then (ret, false, m) else
  match findItem g m.items (plan.stopOff - 1) with
  | none => (0, true, m)
  | some pos =>
    let m := { m with pos }
    let (ret, m) := call m
    if ret ≠ 0 then (ret, false, m) else
    match m.items[pos]? with
    | some found => (0, false, { m with keyOff := found.off, keyOrd := found.ord })
    | none => (0, false, m)

/-- What one iteration of the loop of `reiser4_migrate_extent` leads to. -/
inductive Step where
  | next (m : Mctx)
  | done (ret : Int) (m : Mctx)

/-- The `switch (mctx.act)` of the loop of `reiser4_migrate_extent`, on the
current item `it` and the plan `what_to_do` made for it. `SKIP_EXTENT` draws
the outcome of `zload` with `try_merge_with_right_item`; edward-2351 asserts
that some blocks were migrated. -/
def switchAct (g : Geometry) (m : Mctx) (it : Item) (plan : Plan) : Except Fault Step :=
  match plan.act with
  | .skip =>
    let (ret, m) := call m
    if ret ≠ 0 then .ok (.done ret m)
    else .ok (.done 0 { m with items := mergeRight g m.items m.pos, doneOff := some plan.stopOff })
  | .split => do
    let (ret, m) ← doSplitExtent g m it plan.stopOff
    if ret ≠ 0 then return .done ret m
    return .next m
  | .migrate => do
    let nrPages := (m.keyOff + it.size g - plan.stopOff) >>> g.pageShift
    let (ret, stop, m) := doMigrateExtent g m it plan nrPages
    if ret ≠ 0 then return .done ret m
    if nrPages = 0 then throw .assertion
    let m := { m with doneOff := some plan.stopOff }
    if stop then return .done 0 m
    return .next m

section Switch

variable {g : Geometry} {m m' : Mctx} {it : Item} {loc s : Nat} {whole : Bool}

theorem call_quiet (quiet : m.outcomes = []) : call m = (0, m) := by
  simp [call, quiet]

theorem switchAct_skip (quiet : m.outcomes = []) :
    switchAct g m it ⟨.skip, loc, s, whole⟩ =
      .ok (.done 0 { m with items := mergeRight g m.items m.pos, doneOff := some s }) := by
  simp [switchAct, call_quiet quiet]

theorem switchAct_split (run : doSplitExtent g m it s = .ok (0, m')) :
    switchAct g m it ⟨.split, loc, s, whole⟩ = .ok (.next m') := by
  simp only [switchAct, run, ok_bind, ne_eq, not_true_eq_false, if_false]
  rfl

theorem switchAct_migrate {stop : Bool} {n : Nat} (pages : (m.keyOff + it.size g - s) >>> g.pageShift = n)
    (run : doMigrateExtent g m it ⟨.migrate, loc, s, whole⟩ n = (0, stop, m')) (nonzero : n ≠ 0) :
    switchAct g m it ⟨.migrate, loc, s, whole⟩ =
      .ok (if stop then .done 0 { m' with doneOff := some s } else .next { m' with doneOff := some s }) := by
  simp only [switchAct, pages, run, nonzero, ne_eq, not_true_eq_false, if_false]
  cases stop <;> rfl

end Switch

/-- One iteration of the loop of `reiser4_migrate_extent`. -/
def iteration (g : Geometry) (nosplit : Bool) (dstId : Option Nat) (m : Mctx) : Except Fault Step := do
  let it ← readAt m.items m.pos
  switchAct g m it (whatToDo g nosplit dstId m.keyOff m.keyOrd (it.size g))

/-- The loop `while (!mctx.stop)` of `reiser4_migrate_extent`, for at most
`fuel` iterations; `none` when they do not suffice. -/
def migrateLoop (g : Geometry) (nosplit : Bool) (dstId : Option Nat) : Nat → Mctx → Option (Except Fault (Int × Mctx))
  | 0, _ => none
  | fuel + 1, m =>
    match iteration g nosplit dstId m with
    | .error e => some (.error e)
    | .ok (.done ret m) => some (.ok (ret, m))
    | .ok (.next m) => migrateLoop g nosplit dstId fuel m

/-- `reiser4_migrate_extent` on the item at `pos`, whose key is `key`. -/
def migrateExtent (g : Geometry) (nosplit : Bool) (dstId : Option Nat) (fuel : Nat) (items : Items) (pos : Nat)
    (key : Item) (outcomes : List Int) : Option (Except Fault (Int × Mctx)) :=
  migrateLoop g nosplit dstId fuel ⟨items, pos, key.off, key.ord, none, outcomes⟩

end Reiser4Volume.Extent
