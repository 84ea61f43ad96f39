import Reiser4Volume.Machine

/-! The volume-operation layer (volume_ops.c): the ioctl entry point, the
busy-flag bracket of the on-line operations, and the operations themselves.
Every call into other parts of reiser4 (the volume plugin, the transaction
manager, super-block capture, device scanning, the user-copy helpers) returns
an outcome the environment chooses, 0 or a negative error code, taken in
program order. What those calls do besides returning is not modelled. -/

namespace Reiser4Volume.VolumeOps

/-- A brick of the volume, as volume_ops.c reads it. -/
structure Brick where
  name : String
  dataCapacity : Nat
  deriving DecidableEq, Repr

/-- What `reiser4_scan_device` finds under a device name: the brick, whether
its host is this volume, and its `SUBVOL_ACTIVATED` and `SUBVOL_IS_PROXY` bits. -/
structure Scanned where
  brick : Brick
  ofThisVolume : Bool
  activated : Bool
  isProxy : Bool

/-- The volume-wide state volume_ops.c reads and writes. -/
structure Volume where
  unbalanced : Bool
  incompleteRemoval : Bool
  /-- `REISER4_PROXY_ENABLED`. -/
  proxyEnabled : Bool
  proxyIo : Bool
  /-- `vol->victim`: the brick whose removal is to be completed. -/
  victim : Option Brick
  /-- `vol->proxy`. -/
  proxy : Option Brick
  /-- The mslots of the current configuration. -/
  conf : List (Option Brick)
  scan : String → Scanned
  /-- The outcomes of the calls into other code still to come. -/
  outcomes : List Int

/-- The inode of the file the ioctl was issued on. -/
structure File where
  /-- `REISER4_FILE_IMMOBILE`. -/
  immobile : Bool
  /-- `O_SYNC` or `IS_SYNC(inode)`. -/
  sync : Bool

/-- The state one ioctl works on. -/
structure World where
  /-- Reiser4 contexts entered and not exited. -/
  contexts : Nat
  busy : Bool
  vol : Volume
  file : File

/-- One call into code outside volume_ops.c. Past the recorded outcomes every
call succeeds. -/
def ext (v : Volume) : Int × Volume :=
  match v.outcomes with
  | [] => (0, v)
  | r :: rest => (r, { v with outcomes := rest })

/-- `find_active_brick`: the first brick of the configuration named `name`. -/
def findActiveBrick (conf : List (Option Brick)) (name : String) : Option Brick :=
  (conf.filterMap id).find? fun b => b.name = name

/-- `reiser4_print_volume`. -/
def printVolume (v : Volume) : Int × Volume := ext v

/-- `reiser4_print_brick`. -/
def printBrick (v : Volume) : Int × Volume :=
  if v.unbalanced then (-EBUSY, v) else ext v

/-- `reiser4_resize_brick`: the outcomes of the volume plugin's `resize_brick`
and of `capture_brick_super` of the meta-data brick. -/
def resizeBrick (name : String) (newCapacity : Nat) (v : Volume) : Int × Volume :=
  if v.unbalanced then (-EBUSY, v) else
  if newCapacity = 0 then (-EINVAL, v) else
  match findActiveBrick v.conf name with
  | none => (-EINVAL, v)
  | some this =>
    if newCapacity = this.dataCapacity then (0, v) else
    let (ret, v) := ext v
    if ret ≠ 0 then (ret, v) else
    ext { v with unbalanced := false }

/-- `reiser4_add_brick`: the outcomes of `reiser4_scan_device`, of
`reiser4_activate_subvol` unless the brick is activated, of the volume
plugin's `add_brick`, of `capture_brick_super` of the meta-data brick and of
the new one, then, for a brick that is not a proxy, of `force_commit_atom`,
the plugin's `balance_volume` and `capture_brick_super`. -/
def addBrick (name : String) (isProxy : Bool) (v : Volume) : Int × Volume :=
  if v.unbalanced then (-EBUSY, v) else
  let (ret, v) := ext v
  if ret ≠ 0 then (ret, v) else
  let new := v.scan name
  if !new.ofThisVolume then (-EINVAL, v) else
  let (ret, v) := if new.activated then (0, v) else ext v
  if ret ≠ 0 then (ret, v) else
  let (ret, v) := ext v
  if ret ≠ 0 then (ret, v) else
  let (ret, v) := ext v
  if ret ≠ 0 then (ret, v) else
  let (ret, v) := ext v
  if ret ≠ 0 then (ret, v) else
  if new.isProxy || isProxy then
    (0, { v with proxy := some new.brick, proxyEnabled := true, proxyIo := true })
  else
  let (ret, v) := ext v
  if ret ≠ 0 then (ret, v) else
  let (ret, v) := ext v
  if ret ≠ 0 then (ret, v) else
  ext { v with unbalanced := false }

/-- `reiser4_remove_brick`: the outcomes of the volume plugin's `remove_brick`
and of `capture_brick_super`. -/
def removeBrick (name : String) (v : Volume) : Int × Volume :=
  if v.unbalanced then (-EBUSY, v) else
  match findActiveBrick v.conf name with
  | none => (-EINVAL, v)
  | some _ =>
    let (ret, v) := ext v
    if ret ≠ 0 then (ret, v) else
    ext { v with unbalanced := false }

/-- `reiser4_scale_volume`: the outcomes of the plugin's `scale_volume`, of
`capture_brick_super`, `force_commit_atom`, the plugin's `balance_volume` and
`capture_brick_super`. -/
def scaleVolume (val : Nat) (v : Volume) : Int × Volume :=
  if v.unbalanced then (-EBUSY, v) else
  if val = 0 then (0, v) else
  let (ret, v) := ext v
  if ret ≠ 0 then (ret, v) else
  let (ret, v) := ext v
  if ret ≠ 0 then (ret, v) else
  let (ret, v) := ext v
  if ret ≠ 0 then (ret, v) else
  let (ret, v) := ext v
  if ret ≠ 0 then (ret, v) else
  ext { v with unbalanced := false }

/-- `reiser4_balance_volume`: balance, then complete a brick removal that was
found unfinished when the volume was set up. The assertions edward-2259 and
edward-2374 check `vol->victim` against the incomplete-removal flag. The
outcomes are those of the plugin's `balance_volume`, its `remove_brick_tail`
and `capture_brick_super`. -/
def balanceVolume (v : Volume) : Except Fault (Int × Volume) :=
  if !v.unbalanced && !v.proxyEnabled then .ok (0, v) else
  let (ret, v) := ext v
  if ret ≠ 0 then .ok (ret, v) else
  if v.incompleteRemoval then
    match v.victim with
    | none => .error .assertion
    | some _ =>
      let (ret, v) := ext v
      if ret ≠ 0 then .ok (ret, v) else
      let (ret, v) := ext { v with incompleteRemoval := false, unbalanced := false }
      if ret ≠ 0 then .ok (ret, v) else
      .ok (0, { v with victim := none })
  else if v.victim.isSome then .error .assertion
  else .ok (ext { v with unbalanced := false })

/-- `reiser4_migrate_file`: the outcomes of the plugin's `migrate_file` and,
for a file opened for synchronous writes, `reiser4_sync_file_common`. -/
def migrateFile (file : File) (v : Volume) : Int × Volume :=
  if v.unbalanced then (-EBUSY, v) else
  let (ret, v) := ext v
  if ret = 0 ∧ file.sync then ext v else (ret, v)

/-- `reiser4_set_file_immobile` (`immobile = true`) and
`reiser4_clr_file_immobile` (`immobile = false`): the outcomes of
`reserve_update_sd_common` and `reiser4_update_sd`. -/
def setFileImmobility (immobile : Bool) (file : File) (v : Volume) : Int × File × Volume :=
  if file.immobile = immobile then (0, file, v) else
  let (ret, v) := ext v
  if ret ≠ 0 then (-ENOSPC, file, v) else
  let (ret, v) := ext v
  (ret, { file with immobile }, v)

/-- `reiser4_set_file_immobile`. -/
def setFileImmobile (file : File) (v : Volume) : Int × File × Volume := setFileImmobility true file v

/-- `reiser4_clr_file_immobile`. -/
def clrFileImmobile (file : File) (v : Volume) : Int × File × Volume := setFileImmobility false file v

/-- `args->opcode`. -/
inductive Opcode where
  | registerBrick
  | unregisterBrick
  | volumeHeader
  | brickHeader
  | printVolume
  | printBrick
  | resizeBrick
  | addBrick
  | addProxy
  | removeBrick
  | scaleVolume
  | balanceVolume
  | migrateFile
  | setFileImmobile
  | clrFileImmobile
  | other (code : Nat)
  deriving DecidableEq, Repr

/-- The fields of `struct reiser4_vol_op_args` the operations read. -/
structure VolOpArgs where
  opcode : Opcode
  /-- `d.name`. -/
  name : String
  newCapacity : Nat
  /-- `s.val`. -/
  val : Nat

/-- `reiser4_offline_op`: the off-line operations are calls into other code. -/
def offlineOp (args : VolOpArgs) (v : Volume) : Int × Volume :=
  match args.opcode with
  | .registerBrick | .unregisterBrick | .volumeHeader | .brickHeader => ext v
  | _ => (-ENOTTY, v)

/-- The switch of `reiser4_volume_op_dir`. -/
def dirOperation (args : VolOpArgs) (v : Volume) : Except Fault (Int × Volume) :=
  match args.opcode with
  | .printVolume => .ok (printVolume v)
  | .printBrick => .ok (printBrick v)
  | .resizeBrick => .ok (resizeBrick args.name args.newCapacity v)
  | .addBrick => .ok (addBrick args.name false v)
  | .addProxy => .ok (addBrick args.name true v)
  | .removeBrick => .ok (removeBrick args.name v)
  | .scaleVolume => .ok (scaleVolume args.val v)
  | .balanceVolume => balanceVolume v
  | _ => .ok (-ENOTTY, v)

/-- `reiser4_volume_op_dir`: the operation runs between
`reiser4_volume_test_set_busy` and `reiser4_volume_clear_busy`. -/
def volumeOpDir (args : VolOpArgs) (w : World) : Except Fault (Int × World) := do
  if w.busy then return (-EBUSY, w)
  let (ret, vol) ← dirOperation args w.vol
  return (ret, { w with vol, busy := false })

/-- The switch of `reiser4_volume_op_file`. -/
def fileOperation (args : VolOpArgs) (file : File) (v : Volume) : Int × File × Volume :=
  match args.opcode with
  | .migrateFile => let (ret, v) := migrateFile file v; (ret, file, v)
  | .setFileImmobile => setFileImmobile file v
  | .clrFileImmobile => clrFileImmobile file v
  | _ => (-ENOTTY, file, v)

/-- `reiser4_volume_op_file`. -/
def volumeOpFile (args : VolOpArgs) (w : World) : Except Fault (Int × World) := do
  if w.busy then return (-EBUSY, w)
  let (ret, file, vol) := fileOperation args w.file w.vol
  return (ret, { w with file, vol, busy := false })

/-- `cmd` of the ioctl. -/
inductive Cmd where
  | iocVolume
  | other (code : Nat)
  deriving DecidableEq, Repr

/-- `reiser4_ioctl_volume` with `volume_op` one of the two above;
`privileged` is `capable(CAP_SYS_ADMIN)`. The outcomes are those of
`reiser4_init_context`, `memdup_user` and, after a successful operation,
`copy_to_user`. -/
def ioctlVolume (volumeOp : VolOpArgs → World → Except Fault (Int × World)) (cmd : Cmd)
    (privileged : Bool) (args : VolOpArgs) (w : World) : Except Fault (Int × World) := do
  let (ret, vol) := ext w.vol
  if ret ≠ 0 then return (ret, { w with vol })
  let w := { w with vol, contexts := w.contexts + 1 }
  match cmd with
  | .iocVolume =>
    if !privileged then return (-EPERM, w)
    let (ret, vol) := ext w.vol
    if ret ≠ 0 then return (ret, { w with vol })
    let (ret, w) ← volumeOp args { w with vol }
    let (ret, vol) := if ret ≠ 0 then (ret, w.vol) else
      let (copy, vol) := ext w.vol
      (if copy ≠ 0 then -EFAULT else 0, vol)
    return (ret, { w with vol, contexts := w.contexts - 1 })
  | .other _ => return (-ENOTTY, { w with contexts := w.contexts - 1 })

/-- Two paths break the bookkeeping. Without `CAP_SYS_ADMIN` the ioctl
returns `-EPERM` from inside its switch and never exits the context it
entered. And when `capture_brick_super` fails after a resumed brick removal has
cleared the incomplete-removal flag, `vol->victim` stays set: on a volume with
a proxy the next `REISER4_BALANCE_VOLUME` trips edward-2374. -/
theorem ioctlVolume_bookkeeping_breaks (volumeOp : VolOpArgs → World → Except Fault (Int × World))
    (args : VolOpArgs) (w : World) (name : String) (newCapacity val : Nat) (b : Brick) (v : Volume)
    (contexts : Nat) (file : File) :
    ioctlVolume volumeOp .iocVolume false args { w with vol := { w.vol with outcomes := [] } } =
        .ok (-EPERM, { w with vol := { w.vol with outcomes := [] }, contexts := w.contexts + 1 }) ∧
      ∃ w', volumeOpDir ⟨.balanceVolume, name, newCapacity, val⟩
          ⟨contexts, false,
            { v with
              unbalanced := true, incompleteRemoval := true, proxyEnabled := true
              victim := some b, outcomes := [0, 0, -ENOMEM] }, file⟩ = .ok (-ENOMEM, w') ∧
        w'.busy = false ∧ w'.vol.victim = some b ∧ w'.vol.incompleteRemoval = false ∧
        volumeOpDir ⟨.balanceVolume, name, newCapacity, val⟩ w' = .error .assertion :=
  ⟨rfl, _, rfl, rfl, rfl, rfl, rfl⟩

end Reiser4Volume.VolumeOps
