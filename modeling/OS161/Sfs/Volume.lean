import OS161.Sfs.BlockIo
import OS161.Sfs.Layout
import OS161.Lib.Bitmap

/-! # The file system code

The model of `kern/fs/sfs/sfs_vnode.c`, of the reference counts of `kern/vfs/vnode.c` as they
are used on its vnodes, and of `sfs_sync` in `kern/fs/sfs/sfs_fs.c`. All of it runs under the
big lock, so that each vnode operation is one step.

Vnode structures have addresses, and `kmalloc` hands out a new one each time. The static buffers
`idbuf` and `iobuf` are local here: whatever is in them is overwritten before they are used.
-/

namespace OS161

open Framework Function Kern

/-! ## State -/

/-- The two function tables. -/
inductive SfsOps where
  | sfs_fileops
  | sfs_dirops
  deriving DecidableEq, Repr

/-- `struct sfs_vnode`. -/
structure SfsVnode where
  vn_ops : SfsOps
  vn_refcount : Nat
  vn_opencount : Nat
  sv_i : Block
  sv_ino : Nat
  sv_dirty : Bool

/-- `struct sfs_fs`, its device and the vnode structures. -/
structure Sfs where
  sfs_super : Block
  sfs_superdirty : Bool
  sfs_device : Lhd
  /-- The addresses of the loaded vnodes. -/
  sfs_vnodes : List Nat
  sfs_freemap : Bitmap
  sfs_freemapdirty : Bool
  /-- The vnode structures by address. -/
  sv : Nat → SfsVnode
  /-- The address that the next `kmalloc` returns. -/
  fresh : Nat
  /-- History variable, which no code reads: the inode that was in memory when a number was last
      reclaimed. -/
  reclaimed : Nat → Option Block

abbrev SfsCode (α : Type) : Type := Kern Sfs Errno Panic α

/-- Code that has a `uio` as well. -/
abbrev SfsIoCode (α : Type) : Type := Kern (Sfs × Uio) Errno Panic α

namespace Sfs

def nblocks (s : Sfs) : Nat := s.sfs_super.sp_nblocks

/-- A vnode structure is changed. -/
def setVnode (s : Sfs) (v : Nat) (f : SfsVnode → SfsVnode) : Sfs :=
  { s with sv := update s.sv v (f (s.sv v)) }

/-- Assignment to a field of the inode of a vnode, which is marked dirty. -/
def setField (s : Sfs) (v : Nat) (f : Block.Field) (n : Nat) : Sfs :=
  s.setVnode v fun sv => { sv with sv_i := sv.sv_i.setField f n, sv_dirty := true }

/-- A field of the inode of a vnode. -/
def field (s : Sfs) (v : Nat) (f : Block.Field) : Nat := (s.sv v).sv_i.field f

end Sfs

/-- Code of the device. -/
def onDevice {α : Type} (m : Kern Lhd Errno Panic α) : SfsCode α :=
  .zoom Sfs.sfs_device (fun s d => { s with sfs_device := d }) m

/-- Code of the free block map. -/
def onFreemap {α : Type} (m : Kern Bitmap Errno Panic α) : SfsCode α :=
  .zoom Sfs.sfs_freemap (fun s b => { s with sfs_freemap := b }) m

/-- Code of the volume, in code that has a `uio`. -/
def onVolume {α : Type} (m : SfsCode α) : SfsIoCode α :=
  .zoom Prod.fst (fun t s => (s, t.2)) m

/-- Code of the `uio`. -/
def onUio {α : Type} (m : Kern Uio Errno Panic α) : SfsIoCode α :=
  .zoom Prod.snd (fun t u => (t.1, u)) m

/-! ## Blocks -/

/-- `sfs_rblock` into a buffer of the file system. -/
def sfs_readblock (block : Nat) : SfsCode Block := onDevice (sfs_rblock .zeros block)

/-- `sfs_wblock`. -/
def sfs_writeblock (data : Block) (block : Nat) : SfsCode Unit := onDevice (sfs_wblock data block)

def sfs_clearblock (block : Nat) : SfsCode Unit := sfs_writeblock .zeros block

def sfs_sync_inode (v : Nat) : SfsCode Unit := do
  let s ← .read
  if (s.sv v).sv_dirty then do
    sfs_writeblock (s.sv v).sv_i (s.sv v).sv_ino
    .modify fun s => s.setVnode v fun sv => { sv with sv_dirty := false }
  else pure ()

def sfs_balloc : SfsCode Nat := do
  let diskblock ← onFreemap bitmap_alloc
  .modify fun s => { s with sfs_freemapdirty := true }
  let s ← .read
  .kassert (diskblock < s.nblocks) .sfs_balloc_invalid_block
  sfs_clearblock diskblock
  pure diskblock

def sfs_bfree (diskblock : Nat) : SfsCode Unit := do
  onFreemap (bitmap_unmark diskblock)
  .modify fun s => { s with sfs_freemapdirty := true }

def sfs_bused (diskblock : Nat) : SfsCode Bool := do
  let s ← .read
  .kassert (diskblock < s.nblocks) .sfs_bused_out_of_range
  pure (bitmap_isset s.sfs_freemap diskblock)

/-! ## Block mapping -/

/-- The end of `sfs_bmap`: a block that is handed back must be in use. -/
def sfs_bmap_check (block : Nat) : SfsCode Nat :=
  if block = 0 then pure 0
  else do
    let used ← sfs_bused block
    .kassert (used = true) .sfs_bmap_marked_free
    pure block

/-- The direct blocks in `sfs_bmap`. -/
def sfs_bmap_direct (v : Nat) (k : Fin NDIRECT) (doalloc : Bool) : SfsCode Nat := do
  let s ← .read
  if s.field v (.sfi_direct k) = 0 ∧ doalloc = true then do
    let block ← sfs_balloc
    .modify fun s => s.setField v (.sfi_direct k) block
    sfs_bmap_check block
  else sfs_bmap_check (s.field v (.sfi_direct k))

/-- The entry `idoff` of the indirect block `idblock`, whose contents are `idbuf`. -/
def sfs_bmap_entry (idblock : Nat) (idbuf : Block) (idoff : Nat) (doalloc : Bool) : SfsCode Nat :=
  if idbuf.entry idoff = 0 ∧ doalloc = true then do
    let block ← sfs_balloc
    sfs_writeblock (idbuf.setEntry idoff block) idblock
    sfs_bmap_check block
  else sfs_bmap_check (idbuf.entry idoff)

/-- The blocks in the indirect block in `sfs_bmap`. -/
def sfs_bmap_indirect (v idoff : Nat) (doalloc : Bool) : SfsCode Nat := do
  let s ← .read
  if s.field v .sfi_indirect = 0 then
    if doalloc = true then do
      let idblock ← sfs_balloc
      .modify fun s => s.setField v .sfi_indirect idblock
      sfs_bmap_entry idblock .zeros idoff doalloc
    else pure 0
  else do
    let idbuf ← sfs_readblock (s.field v .sfi_indirect)
    sfs_bmap_entry (s.field v .sfi_indirect) idbuf idoff doalloc

def sfs_bmap (v fileblock : Nat) (doalloc : Bool) : SfsCode Nat :=
  if h : fileblock < NDIRECT then sfs_bmap_direct v ⟨fileblock, h⟩ doalloc
  else if (fileblock - NDIRECT) / DBPERIDB > 0 then .fail .efbig
  else sfs_bmap_indirect v ((fileblock - NDIRECT) % DBPERIDB) doalloc

theorem sfs_bmap_big {s : Sfs} {v k : Nat} (hk : MAXBLOCKS ≤ k) (doalloc : Bool) :
    sfs_bmap v k doalloc s = .err .efbig s := by
  have hN : NDIRECT = 15 := rfl
  have hM : MAXBLOCKS = 143 := rfl
  have hbig : (k - NDIRECT) / DBPERIDB > 0 := by
    rw [show DBPERIDB = 128 from rfl]
    omega
  unfold sfs_bmap
  rw [dif_neg (by omega), if_pos hbig]
  rfl

/-- A block of a file is past the largest file, one of the direct blocks, or in the indirect block. -/
theorem wp_bmap_split {s : Sfs} {v k : Nat} {doalloc : Bool} {Q : Nat → Sfs → Prop} {E : Errno → Sfs → Prop}
    {F : Panic → Prop} (hbig : MAXBLOCKS ≤ k → E .efbig s)
    (hdirect : ∀ i : Fin NDIRECT, k = i → wp (sfs_bmap_direct v i doalloc) Q E F s)
    (hindirect : ∀ j, k = NDIRECT + j → j < DBPERIDB → wp (sfs_bmap_indirect v j doalloc) Q E F s) :
    wp (sfs_bmap v k doalloc) Q E F s := by
  by_cases hmax : MAXBLOCKS ≤ k
  · exact wp_of_run_err (sfs_bmap_big hmax doalloc) (hbig hmax)
  · have hM : MAXBLOCKS = NDIRECT + DBPERIDB := rfl
    unfold sfs_bmap
    by_cases hk : k < NDIRECT
    · rw [dif_pos hk]
      exact hdirect ⟨k, hk⟩ rfl
    · have hlt : k - NDIRECT < DBPERIDB := by omega
      rw [dif_neg hk, if_neg (by rw [Nat.div_eq_of_lt hlt]; exact Nat.lt_irrefl 0), Nat.mod_eq_of_lt hlt]
      exact hindirect _ (by omega) hlt

/-! ## File I/O -/

/-- The buffer of `sfs_partialio` before the transfer. -/
def sfs_partialio_fill (rw : UioRw) (diskblock : Nat) : SfsCode Block :=
  if diskblock = 0 then do
    .kassert (rw = .UIO_READ) .sfs_partialio_hole
    pure .zeros
  else sfs_readblock diskblock

/-- The block of the file that `uio_offset` is in, as a `uint32_t`. -/
def Uio.fileblock (u : Uio) : Nat := (u.uio_offset / BLOCKSIZE % 2 ^ 32).toNat

def sfs_partialio (v skipstart len : Nat) : SfsIoCode Unit := do
  let t ← .read
  .kassert (skipstart + len ≤ BLOCKSIZE) .sfs_partialio_length
  let diskblock ← onVolume (sfs_bmap v t.2.fileblock (t.2.uio_rw = .UIO_WRITE))
  let iobuf ← onVolume (sfs_partialio_fill t.2.uio_rw diskblock)
  let bytes ← onUio (uiomove (iobuf.toList.drop skipstart) len)
  match t.2.uio_rw with
  | .UIO_READ => pure ()
  | .UIO_WRITE => onVolume (sfs_writeblock (iobuf.overwrite skipstart bytes) diskblock)

/-- The transfer of a whole block between the device and the caller's buffers in `sfs_blockio`, with
the offset and the residue of the device. -/
def sfs_blockio_transfer (diskblock : Nat) (saveoff : Int) (saveres : Nat) : SfsIoCode Unit := do
  let diskoff : Int := (diskblock * BLOCKSIZE) % 2 ^ 32
  .kassert (BLOCKSIZE ≤ saveres) .sfs_blockio_resid
  .modify fun t => (t.1, { t.2 with uio_offset := diskoff, uio_resid := BLOCKSIZE })
  let result ← .attempt
    (.zoom (fun t => (t.1.sfs_device, t.2)) (fun t r => ({ t.1 with sfs_device := r.1 }, r.2)) sfs_rwblock)
  .modify fun t => (t.1, { t.2 with
    uio_offset := t.2.uio_offset - diskoff + saveoff
    uio_resid := t.2.uio_resid + saveres - BLOCKSIZE })
  .ofExcept result

def sfs_blockio (v : Nat) : SfsIoCode Unit := do
  let t ← .read
  let diskblock ← onVolume (sfs_bmap v t.2.fileblock (t.2.uio_rw = .UIO_WRITE))
  if diskblock = 0 then do
    .kassert (t.2.uio_rw = .UIO_READ) .sfs_blockio_hole
    onUio (uiomovezeros BLOCKSIZE)
  else sfs_blockio_transfer diskblock t.2.uio_offset t.2.uio_resid

/-- The whole blocks in `sfs_io`. -/
def sfs_io_blocks (v : Nat) : Nat → SfsIoCode Unit
  | 0 => pure ()
  | n + 1 => do
    sfs_blockio v
    sfs_io_blocks v n

/-- The leading partial block in `sfs_io`. -/
def sfs_io_leading (v : Nat) : SfsIoCode Unit := do
  let t ← .read
  let blkoff := (t.2.uio_offset % BLOCKSIZE).toNat
  if blkoff = 0 then pure ()
  else sfs_partialio v blkoff (min (BLOCKSIZE - blkoff) t.2.uio_resid)

/-- The partial block at the end in `sfs_io`. -/
def sfs_io_trailing (v : Nat) : SfsIoCode Unit := do
  let t ← .read
  .kassert (t.2.uio_resid < BLOCKSIZE) .sfs_io_resid
  if t.2.uio_resid = 0 then pure ()
  else sfs_partialio v 0 t.2.uio_resid

/-- `sfs_io` after the leading partial block. -/
def sfs_io_aligned (v : Nat) : SfsIoCode Unit := do
  let t ← .read
  if t.2.uio_resid = 0 then pure ()
  else do
    .kassert (t.2.uio_offset % BLOCKSIZE = 0) .sfs_io_unaligned
    sfs_io_blocks v (t.2.uio_resid / BLOCKSIZE)
    sfs_io_trailing v

/-- The transfers of `sfs_io`. -/
def sfs_io_transfer (v : Nat) : SfsIoCode Unit := do
  sfs_io_leading v
  sfs_io_aligned v

/-- The file length is adjusted after a write. -/
def sfs_io_size (v : Nat) (u : Uio) (s : Sfs) : Sfs :=
  if u.uio_rw = .UIO_WRITE ∧ (s.field v .sfi_size : Int) < u.uio_offset then
    s.setField v .sfi_size (u.uio_offset % 2 ^ 32).toNat
  else s

/-- The end of `sfs_io`. -/
def sfs_io_out (v extraresid : Nat) : SfsIoCode Unit :=
  .modify fun t => (sfs_io_size v t.2 t.1, { t.2 with uio_resid := t.2.uio_resid + extraresid })

/-- `sfs_io` once it is known how much lies past the end of the file. -/
def sfs_io_limited (v extraresid : Nat) : SfsIoCode Unit := do
  .modify fun t => (t.1, { t.2 with uio_resid := t.2.uio_resid - extraresid })
  let result ← .attempt (sfs_io_transfer v)
  sfs_io_out v extraresid
  .ofExcept result

def sfs_io (v : Nat) : SfsIoCode Unit := do
  let t ← .read
  match t.2.uio_rw with
  | .UIO_WRITE => sfs_io_limited v 0
  | .UIO_READ =>
    let size : Int := t.1.field v .sfi_size
    let endpos : Int := t.2.uio_offset + t.2.uio_resid
    if size ≤ t.2.uio_offset then pure ()
    else if size < endpos then do
      let extraresid := (endpos - size).toNat
      .kassert (extraresid < t.2.uio_resid) .sfs_io_extraresid
      sfs_io_limited v extraresid
    else sfs_io_limited v 0

/-! ## Directories -/

def sfs_readdir (v slot : Nat) : SfsCode (List UInt8) := do
  let (_, ku) ← .withLocal (uio_kinit (List.replicate DIRSIZE 0) (slot * DIRSIZE : Nat) .UIO_READ) (sfs_io v)
  .kassert (ku.uio_resid = 0) .sfs_readdir_short
  pure (ku.moved ++ ku.rest)

def sfs_writedir (v : Nat) (sd : List UInt8) (slot : Nat) : SfsCode Unit := do
  let (_, ku) ← .withLocal (uio_kinit sd (slot * DIRSIZE : Nat) .UIO_WRITE) (sfs_io v)
  .kassert (ku.uio_resid = 0) .sfs_writedir_short
  pure ()

def sfs_dir_nentries (v : Nat) : SfsCode Nat := do
  let s ← .read
  .kassert (s.field v .sfi_type = TYPE_DIR) .sfs_dir_nentries_type
  .kassert (s.field v .sfi_size % DIRSIZE = 0) .sfs_dir_nentries_size
  pure (s.field v .sfi_size / DIRSIZE)

/-- What `sfs_dir_findname` hands back: inode number and slot of the name, and the last empty
slot. -/
structure Found where
  name : Option (Nat × Nat)
  emptyslot : Option Nat
  deriving DecidableEq, Repr

/-- The loop of `sfs_dir_findname` over `n` slots from `i` on. -/
def sfs_dir_findname_loop (v : Nat) (name : List UInt8) : Nat → Nat → Found → SfsCode Found
  | _, 0, r => pure r
  | i, n + 1, r => do
    let tsd ← sfs_readdir v i
    if sfd_ino tsd = NOINO then sfs_dir_findname_loop v name (i + 1) n { r with emptyslot := some i }
    else if sfd_name tsd = name then do
      .kassert (r.name = none) .sfs_dir_findname_twice
      sfs_dir_findname_loop v name (i + 1) n { r with name := some (sfd_ino tsd, i) }
    else sfs_dir_findname_loop v name (i + 1) n r

/-- `sfs_dir_findname`; without the name its result is `ENOENT`. -/
def sfs_dir_findname (v : Nat) (name : List UInt8) : SfsCode Found := do
  let nentries ← sfs_dir_nentries v
  sfs_dir_findname_loop v name 0 nentries ⟨none, none⟩

/-- The slot for a new entry. -/
def sfs_dir_slot (v : Nat) (emptyslot : Option Nat) : SfsCode Nat :=
  match emptyslot with
  | some slot => pure slot
  | none => sfs_dir_nentries v

/-- `sfs_dir_link`: the slot of the new entry. -/
def sfs_dir_link (v : Nat) (name : List UInt8) (ino : Nat) : SfsCode Nat := do
  let r ← sfs_dir_findname v name
  match r.name with
  | some _ => .fail .eexist
  | none =>
    if name.length + 1 > NAMELEN then .fail .enametoolong
    else do
      let slot ← sfs_dir_slot v r.emptyslot
      sfs_writedir v (sfs_dir ino name) slot
      pure slot

def sfs_dir_unlink (v slot : Nat) : SfsCode Unit := sfs_writedir v (sfs_dir NOINO []) slot

/-! ## Loading vnodes -/

/-- The search of `sfs_loadvnode` among the loaded vnodes. -/
def sfs_loadvnode_search (ino : Nat) : List Nat → SfsCode (Option Nat)
  | [] => pure none
  | v :: rest => do
    let s ← .read
    let used ← sfs_bused (s.sv v).sv_ino
    .kassert (used = true) .sfs_loadvnode_found_unallocated
    if (s.sv v).sv_ino = ino then pure (some v) else sfs_loadvnode_search ino rest

/-- The function table for a type. -/
def sfs_ops (type : Nat) : Option SfsOps :=
  if type = TYPE_FILE then some .sfs_fileops
  else if type = TYPE_DIR then some .sfs_dirops
  else none

/-- The inode with the type that is forced on it, and whether that makes it dirty. -/
def sfs_forcetype (i : Block) (forcetype : Nat) : Block × Bool :=
  if forcetype = TYPE_INVAL then (i, false) else (i.setField .sfi_type forcetype, true)

/-- `sfs_loadvnode` for an inode that is not loaded. -/
def sfs_loadvnode_new (ino forcetype : Nat) : SfsCode Nat := do
  let used ← sfs_bused ino
  .kassert (used = true) .sfs_loadvnode_unallocated
  let i ← sfs_readblock ino
  .kassert (forcetype = TYPE_INVAL ∨ i.field .sfi_type = TYPE_INVAL) .sfs_loadvnode_new_type
  let (sv_i, sv_dirty) := sfs_forcetype i forcetype
  match sfs_ops (sv_i.field .sfi_type) with
  | none => .halt .sfs_loadvnode_type
  | some ops => do
    let s ← .read
    .modify fun s => { s with
      fresh := s.fresh + 1
      sfs_vnodes := s.sfs_vnodes ++ [s.fresh]
      sv := update s.sv s.fresh {
        vn_ops := ops, vn_refcount := 1, vn_opencount := 0
        sv_i := sv_i, sv_ino := ino, sv_dirty := sv_dirty } }
    pure s.fresh

def Sfs.vnode_incref (v : Nat) : SfsCode Unit :=
  .modify fun s => s.setVnode v fun sv => { sv with vn_refcount := sv.vn_refcount + 1 }

def sfs_loadvnode (ino forcetype : Nat) : SfsCode Nat := do
  let s ← .read
  let loaded ← sfs_loadvnode_search ino s.sfs_vnodes
  match loaded with
  | some v => do
    .kassert (forcetype = TYPE_INVAL) .sfs_loadvnode_forcetype
    Sfs.vnode_incref v
    pure v
  | none => sfs_loadvnode_new ino forcetype

def sfs_getroot : SfsCode Nat := do
  let result ← .attempt (sfs_loadvnode ROOT_LOCATION TYPE_INVAL)
  match result with
  | .error _ => .halt .sfs_getroot
  | .ok v => pure v

/-- `sfs_lookonce`: the vnode and the slot of a name. -/
def sfs_lookonce (v : Nat) (name : List UInt8) : SfsCode (Nat × Nat) := do
  let r ← sfs_dir_findname v name
  match r.name with
  | none => .fail .enoent
  | some (ino, slot) => do
    let w ← sfs_loadvnode ino TYPE_INVAL
    let s ← .read
    .kassert (s.field w .sfi_linkcount ≠ 0) .sfs_lookonce_linkcount
    pure (w, slot)

def sfs_makeobj (type : Nat) : SfsCode Nat := do
  let ino ← sfs_balloc
  sfs_loadvnode ino type

/-! ## Truncation -/

/-- The loop of `sfs_truncate` over the direct blocks. -/
def sfs_truncate_direct (v blocklen : Nat) : List (Fin NDIRECT) → SfsCode Unit
  | [] => pure ()
  | i :: rest => do
    let s ← .read
    if blocklen ≤ i ∧ s.field v (.sfi_direct i) ≠ 0 then do
      sfs_bfree (s.field v (.sfi_direct i))
      .modify fun s => s.setField v (.sfi_direct i) 0
      sfs_truncate_direct v blocklen rest
    else sfs_truncate_direct v blocklen rest

/-- The buffer of the indirect block in `sfs_truncate`, with `hasnonzero` and `iddirty`. -/
structure IdLoop where
  idbuf : Block
  hasnonzero : Bool
  iddirty : Bool

/-- The loop of `sfs_truncate` over `n` entries of the indirect block from `j` on. -/
def sfs_truncate_entries (blocklen : Nat) : Nat → Nat → IdLoop → SfsCode IdLoop
  | _, 0, r => pure r
  | j, n + 1, r =>
    if blocklen < NDIRECT + j ∧ r.idbuf.entry j ≠ 0 then do
      sfs_bfree (r.idbuf.entry j)
      sfs_truncate_entries blocklen (j + 1) n { r with idbuf := r.idbuf.setEntry j 0, iddirty := true }
    else
      sfs_truncate_entries blocklen (j + 1) n
        { r with hasnonzero := r.hasnonzero || decide (r.idbuf.entry j ≠ 0) }

/-- The indirect block in `sfs_truncate`. -/
def sfs_truncate_indirect (v blocklen : Nat) : SfsCode Unit := do
  let s ← .read
  let idblock := s.field v .sfi_indirect
  let highblock := NDIRECT + DBPERIDB - 1
  if blocklen < highblock ∧ idblock ≠ 0 then do
    let idbuf ← sfs_readblock idblock
    let r ← sfs_truncate_entries blocklen 0 DBPERIDB ⟨idbuf, false, false⟩
    if r.hasnonzero = false then do
      sfs_bfree idblock
      .modify fun s => s.setField v .sfi_indirect 0
    else if r.iddirty = true then sfs_writeblock r.idbuf idblock
    else pure ()
  else pure ()

def sfs_truncate (v len : Nat) : SfsCode Unit := do
  let blocklen := (len + BLOCKSIZE - 1) / BLOCKSIZE % 2 ^ 32
  sfs_truncate_direct v blocklen (List.finRange NDIRECT)
  sfs_truncate_indirect v blocklen
  .modify fun s => s.setField v .sfi_size (len % 2 ^ 32)

/-- `VOP_TRUNCATE`. -/
def vop_truncate (v len : Nat) : SfsCode Unit := do
  let s ← .read
  match (s.sv v).vn_ops with
  | .sfs_dirops => .fail .eisdir
  | .sfs_fileops => sfs_truncate v len

/-! ## Reference counts -/

/-- In `sfs_reclaim`: code for a file that nothing on the disk refers to. -/
def whenUnlinked (v : Nat) (m : SfsCode Unit) : SfsCode Unit := do
  let s ← .read
  if s.field v .sfi_linkcount = 0 then m else pure ()

/-- The end of `sfs_reclaim`: the vnode leaves the table and its structure is freed. -/
def sfs_reclaim_remove (v : Nat) : SfsCode Unit := do
  let s ← .read
  .kassert (v ∈ s.sfs_vnodes) .sfs_reclaim_not_in_pool
  .modify fun s => { s with
    sfs_vnodes := s.sfs_vnodes.erase v
    reclaimed := update s.reclaimed (s.sv v).sv_ino (some (s.sv v).sv_i) }
  .kassert ((s.sv v).vn_refcount = 1) .vnode_cleanup_refcount
  .kassert ((s.sv v).vn_opencount = 0) .vnode_cleanup_opencount
  .modify fun s => s.setVnode v fun sv => { sv with vn_refcount := 0 }

def sfs_reclaim (v : Nat) : SfsCode Unit := do
  let s ← .read
  if (s.sv v).vn_refcount ≠ 1 then do
    .kassert (1 < (s.sv v).vn_refcount) .sfs_reclaim_refcount
    .modify fun s => s.setVnode v fun sv => { sv with vn_refcount := sv.vn_refcount - 1 }
    .fail .ebusy
  else do
    whenUnlinked v (vop_truncate v 0)
    sfs_sync_inode v
    whenUnlinked v (sfs_bfree (s.sv v).sv_ino)
    sfs_reclaim_remove v

/-- `vnode_decref`; an error of `VOP_RECLAIM` is only printed. -/
def Sfs.vnode_decref (v : Nat) : SfsCode Unit := do
  let s ← .read
  .kassert (0 < (s.sv v).vn_refcount) .vnode_decref_refcount
  if 1 < (s.sv v).vn_refcount then
    .modify fun s => s.setVnode v fun sv => { sv with vn_refcount := sv.vn_refcount - 1 }
  else do
    let _ ← .attempt (sfs_reclaim v)
    pure ()

def Sfs.vnode_incopen (v : Nat) : SfsCode Unit :=
  .modify fun s => s.setVnode v fun sv => { sv with vn_opencount := sv.vn_opencount + 1 }

def sfs_fsync (v : Nat) : SfsCode Unit := sfs_sync_inode v

def sfs_close (v : Nat) : SfsCode Unit := sfs_fsync v

/-- `vnode_decopen`; an error of `VOP_CLOSE` is only printed. -/
def Sfs.vnode_decopen (v : Nat) : SfsCode Unit := do
  let s ← .read
  .kassert (0 < (s.sv v).vn_opencount) .vnode_decopen_opencount
  .modify fun s => s.setVnode v fun sv => { sv with vn_opencount := sv.vn_opencount - 1 }
  if 1 < (s.sv v).vn_opencount then pure ()
  else do
    let _ ← .attempt (sfs_close v)
    pure ()

/-! ## Vnode operations -/

def sfs_write (v : Nat) : SfsIoCode Unit := sfs_io v

def sfs_read (v : Nat) : SfsIoCode Unit := sfs_io v

def sfs_creat (v : Nat) (name : List UInt8) (excl : Bool) : SfsCode Nat := do
  let r ← sfs_dir_findname v name
  match r.name with
  | some (ino, _) =>
    if excl = true then .fail .eexist else sfs_loadvnode ino TYPE_INVAL
  | none => do
    let newguy ← sfs_makeobj TYPE_FILE
    let s ← .read
    let result ← .attempt (sfs_dir_link v name (s.sv newguy).sv_ino)
    match result with
    | .error e => do
      Sfs.vnode_decref newguy
      .fail e
    | .ok _ => do
      .modify fun s => s.setField newguy .sfi_linkcount (s.field newguy .sfi_linkcount + 1)
      pure newguy

def sfs_link (dir : Nat) (name : List UInt8) (file : Nat) : SfsCode Unit := do
  let s ← .read
  let _ ← sfs_dir_link dir name (s.sv file).sv_ino
  .modify fun s => s.setField file .sfi_linkcount (s.field file .sfi_linkcount + 1)

/-- The link count of the victim in `sfs_remove`, when the entry has been erased. -/
def sfs_remove_count (victim : Nat) : Except Errno Unit → SfsCode Unit
  | .error _ => pure ()
  | .ok _ => do
    let s ← .read
    .kassert (0 < s.field victim .sfi_linkcount) .sfs_remove_linkcount
    .modify fun s => s.setField victim .sfi_linkcount (s.field victim .sfi_linkcount - 1)

def sfs_remove (dir : Nat) (name : List UInt8) : SfsCode Unit := do
  let (victim, slot) ← sfs_lookonce dir name
  let result ← .attempt (sfs_dir_unlink dir slot)
  sfs_remove_count victim result
  Sfs.vnode_decref victim
  .ofExcept result

/-- `sfs_rename` when the new name has been linked in `slot2`. -/
def sfs_rename_unlink (d1 g1 slot1 slot2 : Nat) : SfsCode Unit := do
  let result ← .attempt (sfs_dir_unlink d1 slot1)
  match result with
  | .ok _ => do
    let s ← .read
    .kassert (0 < s.field g1 .sfi_linkcount) .sfs_rename_linkcount
    .modify fun s => s.setField g1 .sfi_linkcount (s.field g1 .sfi_linkcount - 1)
    Sfs.vnode_decref g1
  | .error e => do
    let result2 ← .attempt (sfs_dir_unlink d1 slot2)
    match result2 with
    | .error _ => .halt .sfs_rename_recover
    | .ok _ => do
      -- here the inode is not marked dirty
      .modify fun s => s.setVnode g1 fun sv =>
        { sv with sv_i := sv.sv_i.setField .sfi_linkcount (sv.sv_i.field .sfi_linkcount + 2 ^ 16 - 1) }
      Sfs.vnode_decref g1
      .fail e

def sfs_rename (d1 : Nat) (n1 : List UInt8) (d2 : Nat) (n2 : List UInt8) : SfsCode Unit := do
  let s ← .read
  .kassert (d1 = d2) .sfs_rename_dirs
  .kassert ((s.sv d1).sv_ino = ROOT_LOCATION) .sfs_rename_root
  let (g1, slot1) ← sfs_lookonce d1 n1
  let s ← .read
  .kassert (s.field g1 .sfi_type = TYPE_FILE) .sfs_rename_type
  let result ← .attempt (sfs_dir_link d1 n2 (s.sv g1).sv_ino)
  match result with
  | .error e => do
    Sfs.vnode_decref g1
    .fail e
  | .ok slot2 => do
    .modify fun s => s.setField g1 .sfi_linkcount (s.field g1 .sfi_linkcount + 1)
    sfs_rename_unlink d1 g1 slot1 slot2

/-- `sfs_lookparent`: the directory; the last component is the path itself. -/
def sfs_lookparent (v : Nat) (path : List UInt8) (buflen : Nat) : SfsCode Nat := do
  let s ← .read
  if s.field v .sfi_type ≠ TYPE_DIR then .fail .enotdir
  else if path.length + 1 > buflen then .fail .enametoolong
  else do
    Sfs.vnode_incref v
    pure v

def sfs_lookup (v : Nat) (path : List UInt8) : SfsCode Nat := do
  let s ← .read
  if s.field v .sfi_type ≠ TYPE_DIR then .fail .enotdir
  else do
    let (w, _) ← sfs_lookonce v path
    pure w

/-! ## The whole volume -/

/-- The block of the free block map in which its bytes from `512 j` on are. -/
def mapBlock (b : Bitmap) (j : Nat) : Block := fun k => b.v (j * BLOCKSIZE + k)

/-- `sfs_mapio` with `UIO_WRITE`: `n` blocks of the free block map from the `j`th on. -/
def sfs_mapio_write : Nat → Nat → SfsCode Unit
  | _, 0 => pure ()
  | j, n + 1 => do
    let s ← .read
    sfs_writeblock (mapBlock s.sfs_freemap j) (MAP_LOCATION + j)
    sfs_mapio_write (j + 1) n

/-- The loop of `sfs_sync` over the vnodes, which ignores what `VOP_FSYNC` returns. -/
def sfs_sync_vnodes : List Nat → SfsCode Unit
  | [] => pure ()
  | v :: rest => do
    let _ ← .attempt (sfs_fsync v)
    sfs_sync_vnodes rest

/-- The free block map in `sfs_sync`. -/
def sfs_sync_freemap : SfsCode Unit := do
  let s ← .read
  if s.sfs_freemapdirty = true then do
    sfs_mapio_write 0 (bitblocks s.nblocks)
    .modify fun s => { s with sfs_freemapdirty := false }
  else pure ()

/-- The superblock in `sfs_sync`. -/
def sfs_sync_super : SfsCode Unit := do
  let s ← .read
  if s.sfs_superdirty = true then do
    sfs_writeblock s.sfs_super SB_LOCATION
    .modify fun s => { s with sfs_superdirty := false }
  else pure ()

def sfs_sync : SfsCode Unit := do
  let s ← .read
  sfs_sync_vnodes s.sfs_vnodes
  sfs_sync_freemap
  sfs_sync_super

/-- The superblock in memory: the last byte of the volume name is set to zero. -/
def sfs_loadsuper (b : Block) : Block := b.overwrite 39 [0]

/-- Block `j` of a free block map is replaced. -/
def Bitmap.setBlock (b : Bitmap) (j : Nat) (blk : Block) : Bitmap :=
  { b with v := fun k => if k / BLOCKSIZE = j then blk.byte (k % BLOCKSIZE) else b.v k }

end OS161
