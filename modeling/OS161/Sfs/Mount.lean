import OS161.Sfs.BmapFailure

/-! # Mounting

The model of `sfs_domount` and of `sfs_mapio` with `UIO_READ` (`kern/fs/sfs/sfs_fs.c`), on a
disk with any contents. The number of blocks comes from the superblock; a number that is too
large for the disk is only reported on the console. The size of the bitmap is computed from it
in 32 bits (`kern/include/kern/sfs.h`).

Each call of `kmalloc` can succeed, return NULL, or find that there is no physical memory left,
in which case `getppages` panics.
-/

namespace OS161.Mount

open Framework Kern

/-! ## Model -/

/-- How a call of `kmalloc` ends. -/
inductive KmallocResult where
  | block
  | null
  | exhausted
  deriving DecidableEq, Repr

structure MountState where
  sfs_device : Lhd
  d_blocksize : Nat
  /-- How the next calls of `kmalloc` end; those after the end of the list succeed. -/
  kmem : List KmallocResult
  /-- The blocks that have been asked for. -/
  requested : List Nat

abbrev MountCode (α : Type) : Type := Kern MountState Errno Panic α

/-- `kmalloc`, for callers that return `ENOMEM` when there is no block. -/
def kmalloc : MountCode Unit := do
  let s ← .read
  .modify fun s => { s with kmem := s.kmem.tail }
  match s.kmem.headD .block with
  | .block => pure ()
  | .null => .fail .enomem
  | .exhausted => .halt .getppages_no_memory

/-- `SFS_FS_BITMAPSIZE`. -/
def fs_bitmapsize (nblocks : Nat) : Nat := (nblocks + BLOCKBITS - 1) % 2 ^ 32 / BLOCKBITS * BLOCKBITS

/-- `SFS_FS_BITBLOCKS`. -/
def fs_bitblocks (nblocks : Nat) : Nat := fs_bitmapsize nblocks / BLOCKBITS

/-- `sfs_rblock`. The unifier is not to run the transfer of a block. -/
@[irreducible] def rblock (data : Block) (block : Nat) : MountCode Block := do
  .modify fun s => { s with requested := s.requested ++ [block] }
  .zoom MountState.sfs_device (fun s d => { s with sfs_device := d }) (sfs_rblock data block)

/-- `sfs_mapio` with `UIO_READ`: `n` blocks of the free block map from the `j`th on. -/
def sfs_mapio_read : Nat → Nat → Bitmap → MountCode Bitmap
  | _, 0, b => pure b
  | j, n + 1, b => do
    let blk ← rblock (mapBlock b j) (MAP_LOCATION + j)
    sfs_mapio_read (j + 1) n (b.setBlock j blk)

/-- `sfs_domount` from the superblock on; too many blocks are not an error. -/
def sfs_domount_super (super : Block) : MountCode Sfs :=
  if super.sp_magic ≠ SFS_MAGIC then .fail .einval
  else do
    -- `bitmap_create`: the structure and its words
    kmalloc
    kmalloc
    let freemap ← sfs_mapio_read 0 (fs_bitblocks (sfs_loadsuper super).sp_nblocks)
      (bitmap_create (fs_bitmapsize (sfs_loadsuper super).sp_nblocks))
    let s ← .read
    pure {
      sfs_super := sfs_loadsuper super
      sfs_superdirty := false
      sfs_device := s.sfs_device
      sfs_vnodes := []
      sfs_freemap := freemap
      sfs_freemapdirty := false
      sv := fun _ => ⟨.sfs_fileops, 0, 0, .zeros, NOINO, false⟩
      fresh := 0
      reclaimed := fun _ => none }

def sfs_domount : MountCode Sfs := do
  let s ← .read
  if s.d_blocksize ≠ BLOCKSIZE then .fail .enxio
  else do
    -- `struct sfs_fs` and its array of vnodes
    kmalloc
    kmalloc
    let super ← rblock .zeros SB_LOCATION
    sfs_domount_super super

/-! ## What is to hold -/

section Steps

variable {s : MountState} {n : Nat} {sector : Nat → Block}

/-- The disk is as it was, all requests were for its blocks, and there is memory. -/
structure OnDisk (n : Nat) (sector : Nat → Block) (s : MountState) : Prop where
  d_blocks : s.sfs_device.d_blocks = n
  sector : s.sfs_device.sector = sector
  requested : ∀ b ∈ s.requested, b < n
  kmem : .exhausted ∉ s.kmem

theorem OnDisk.kmalloc (h : OnDisk n sector s) :
    wp kmalloc (fun _ s' => OnDisk n sector s') (fun _ s' => OnDisk n sector s') (fun _ => False) s := by
  unfold Mount.kmalloc
  rw [wp_read_bind, wp_modify_bind]
  have hnext : OnDisk n sector { s with kmem := s.kmem.tail } :=
    { h with kmem := fun hmem => h.kmem (List.mem_of_mem_tail hmem) }
  cases hhead : s.kmem.headD .block with
  | block => exact hnext
  | null => exact hnext
  | exhausted =>
    cases hk : s.kmem with
    | nil => rw [hk] at hhead; exact nomatch hhead
    | cons k rest =>
      rw [hk] at hhead
      exact h.kmem (by rw [hk]; exact hhead ▸ List.mem_cons_self)

/-- A request for a block of the disk. -/
theorem OnDisk.rblock (h : OnDisk n sector s) (hn : n < 2 ^ 32) {block : Nat} (hb : block < n) (data : Block) :
    wp (rblock data block) (fun blk s' => blk = sector block ∧ OnDisk n sector s') (fun _ s' => OnDisk n sector s')
      (fun _ => False) s := by
  unfold Mount.rblock
  rw [wp_modify_bind, wp_zoom]
  have hd : s.sfs_device.d_blocks < 2 ^ 32 := h.d_blocks ▸ hn
  have hin : block < s.sfs_device.d_blocks := h.d_blocks ▸ hb
  have hreq : ∀ b ∈ s.requested ++ [block], b < n := by
    intro b hmem
    rcases List.mem_append.mp hmem with hmem | hmem
    · exact h.requested b hmem
    · rw [List.mem_singleton.mp hmem]
      exact hb
  refine wp_post (wp_sfs_rblock_blocks data hd hin) ?_ ?_
  · rintro blk d ⟨rfl, hsector, hblocks⟩
    exact ⟨by rw [h.sector], hblocks.trans h.d_blocks, hsector.trans h.sector, hreq, h.kmem⟩
  · rintro e d ⟨hsector, hblocks⟩
    exact ⟨hblocks.trans h.d_blocks, hsector.trans h.sector, hreq, h.kmem⟩

/-- The disk has no media errors, and there is memory. -/
structure NoFailures (n : Nat) (sector : Nat → Block) (s : MountState) : Prop where
  disk : s.sfs_device = ⟨n, sector, []⟩
  kmem : s.kmem = []

theorem NoFailures.kmalloc (h : NoFailures n sector s) :
    wp kmalloc (fun _ s' => NoFailures n sector s') (fun _ _ => False) (fun _ => False) s := by
  unfold Mount.kmalloc
  rw [wp_read_bind, wp_modify_bind, h.kmem]
  exact ⟨h.disk, rfl⟩

theorem NoFailures.rblock (h : NoFailures n sector s) (hn : n < 2 ^ 32) {block : Nat} (hb : block < n) (data : Block) :
    wp (rblock data block) (fun blk s' => blk = sector block ∧ NoFailures n sector s') (fun _ _ => False)
      (fun _ => False) s := by
  have hread := @sfs_rblock_reliable ⟨n, sector, []⟩ block rfl hn hb data
  unfold Mount.rblock
  rw [wp_modify_bind, wp_zoom]
  show wp (sfs_rblock data block) _ _ _ s.sfs_device
  rw [h.disk]
  exact wp_of_run_ok hread ⟨rfl, rfl, h.kmem⟩

section Mounting

variable {Q : Sfs → MountState → Prop} {E : Errno → MountState → Prop}

end Mounting

end Steps

/-! ## Disks of eight sectors -/

end OS161.Mount
