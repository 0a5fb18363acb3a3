import OS161.Framework.Kernel

/-! # Error numbers, panics and buffers

32-bit arithmetic, the error numbers of `kern/include/kern/errno.h` that the modelled functions
return, the ways in which they stop the machine, and the 512-byte blocks in which disks are read
and written.
-/

namespace OS161

open Framework

/-! ## Words -/

/-- Addition of addresses and sizes; irreducible, so that no proof computes with addresses. -/
@[irreducible] def add32 (a b : Nat) : Nat := (a + b) % 2 ^ 32

/-- Subtraction of addresses and sizes. -/
@[irreducible] def sub32 (a b : Nat) : Nat := (a + 2 ^ 32 - b % 2 ^ 32) % 2 ^ 32

theorem add32_eq {a b : Nat} (h : a + b < 2 ^ 32) : add32 a b = a + b := by
  unfold add32
  exact Nat.mod_eq_of_lt h

theorem sub32_eq {a b : Nat} (ha : a < 2 ^ 32) (hb : b ≤ a) : sub32 a b = a - b := by
  unfold sub32
  rw [Nat.mod_eq_of_lt (by omega : b < 2 ^ 32)]
  omega

/-! ## Errors -/

/-- Error numbers, under the names of `kern/errno.h` in lower case. -/
inductive Errno where
  | enosys | eunimp | enomem | eagain | efault | enametoolong | einval
  | enoexec | esrch | echild | enotdir | eisdir | enoent | eexist | exdev
  | enxio | enodev | ebusy | emfile | ebadf | eio | enospc | efbig
  deriving DecidableEq, Repr

/-- The panics and failed assertions of the modelled functions. -/
inductive Panic where
  /-- "uiomove: ran out of buffers". -/
  | uiomove_ran_out_of_buffers
  /-- `KASSERT(*index < b->nbits)` in `bitmap_alloc`. -/
  | bitmap_alloc_index
  /-- `KASSERT(0)` in `bitmap_alloc`: no clear bit in a word that has one. -/
  | bitmap_alloc_word
  /-- `KASSERT(index < b->nbits)` in `bitmap_mark`. -/
  | bitmap_mark_index
  /-- `KASSERT((b->v[ix] & mask)==0)` in `bitmap_mark`. -/
  | bitmap_mark_set
  /-- `KASSERT(index < b->nbits)` in `bitmap_unmark`. -/
  | bitmap_unmark_index
  /-- `KASSERT((b->v[ix] & mask)!=0)` in `bitmap_unmark`. -/
  | bitmap_unmark_clear
  /-- "sfs: d_io returned EINVAL". -/
  | sfs_rwblock_EINVAL
  /-- "sfs: balloc: invalid block". -/
  | sfs_balloc_invalid_block
  /-- "sfs: sfs_bused called on out of range block". -/
  | sfs_bused_out_of_range
  /-- "sfs: Data block marked free". -/
  | sfs_bmap_marked_free
  /-- `KASSERT(skipstart + len <= SFS_BLOCKSIZE)` in `sfs_partialio`. -/
  | sfs_partialio_length
  /-- `KASSERT(uio->uio_rw == UIO_READ)` in `sfs_partialio`. -/
  | sfs_partialio_hole
  /-- `KASSERT(uio->uio_rw == UIO_READ)` in `sfs_blockio`. -/
  | sfs_blockio_hole
  /-- `KASSERT(uio->uio_resid >= SFS_BLOCKSIZE)` in `sfs_blockio`. -/
  | sfs_blockio_resid
  /-- `KASSERT(uio->uio_resid > extraresid)` in `sfs_io`. -/
  | sfs_io_extraresid
  /-- `KASSERT(uio->uio_offset % SFS_BLOCKSIZE == 0)` in `sfs_io`. -/
  | sfs_io_unaligned
  /-- `KASSERT(uio->uio_resid < SFS_BLOCKSIZE)` in `sfs_io`. -/
  | sfs_io_resid
  /-- "sfs: readdir: Short entry". -/
  | sfs_readdir_short
  /-- "sfs: writedir: Short write". -/
  | sfs_writedir_short
  /-- `KASSERT(sv->sv_i.sfi_type == SFS_TYPE_DIR)` in `sfs_dir_nentries`. -/
  | sfs_dir_nentries_type
  /-- "sfs: directory: Invalid size". -/
  | sfs_dir_nentries_size
  /-- `KASSERT(found==0)` in `sfs_dir_findname`. -/
  | sfs_dir_findname_twice
  /-- "sfs: Link count of file found in dir is 0". -/
  | sfs_lookonce_linkcount
  /-- "sfs: Found inode in unallocated block". -/
  | sfs_loadvnode_found_unallocated
  /-- "sfs: Tried to load inode from unallocated block". -/
  | sfs_loadvnode_unallocated
  /-- `KASSERT(forcetype==SFS_TYPE_INVAL)` in `sfs_loadvnode`. -/
  | sfs_loadvnode_forcetype
  /-- `KASSERT(sv->sv_i.sfi_type == SFS_TYPE_INVAL)` in `sfs_loadvnode`. -/
  | sfs_loadvnode_new_type
  /-- "sfs: loadvnode: Invalid inode type". -/
  | sfs_loadvnode_type
  /-- "sfs: reclaim vnode not in vnode pool". -/
  | sfs_reclaim_not_in_pool
  /-- "sfs: gettype: Invalid inode type". -/
  | sfs_gettype_type
  /-- `KASSERT(victim->sv_i.sfi_linkcount > 0)` in `sfs_remove`. -/
  | sfs_remove_linkcount
  /-- `KASSERT(d1==d2)` in `sfs_rename`. -/
  | sfs_rename_dirs
  /-- `KASSERT(sv->sv_ino == SFS_ROOT_LOCATION)` in `sfs_rename`. -/
  | sfs_rename_root
  /-- `KASSERT(g1->sv_i.sfi_type == SFS_TYPE_FILE)` in `sfs_rename`. -/
  | sfs_rename_type
  /-- `KASSERT(g1->sv_i.sfi_linkcount>0)` in `sfs_rename`. -/
  | sfs_rename_linkcount
  /-- "sfs: rename: Cannot recover". -/
  | sfs_rename_recover
  /-- "sfs: getroot: Cannot load root vnode". -/
  | sfs_getroot
  /-- `KASSERT(vn->vn_refcount>0)` in `vnode_decref`. -/
  | vnode_decref_refcount
  /-- `KASSERT(v->vn_refcount>1)` in `sfs_reclaim`. -/
  | sfs_reclaim_refcount
  /-- `KASSERT(vn->vn_refcount==1)` in `vnode_cleanup`. -/
  | vnode_cleanup_refcount
  /-- `KASSERT(vn->vn_opencount==0)` in `vnode_cleanup`. -/
  | vnode_cleanup_opencount
  /-- `KASSERT(vn != NULL)` in `vnode_decopen`. -/
  | vnode_decopen_null
  /-- `KASSERT(vn->vn_opencount>0)` in `vnode_decopen`. -/
  | vnode_decopen_opencount
  /-- `fd_vfile->vn_refcount++` in `sys_fork` through a NULL `fd_vfile`. -/
  | sys_fork_null_vnode
  /-- "getppages failed no memory". -/
  | getppages_no_memory
  /-- `KASSERT(seg->npages != 0)` in `segment_prepare`. -/
  | segment_prepare_npages
  /-- A page table used past its end in `segment_lookup`. -/
  | segment_lookup_index
  /-- One of the assertions of `vm_fault` that the address space is set up. -/
  | vm_fault_addrspace
  /-- `KASSERT((paddr & PAGE_FRAME) == paddr)` in `vm_fault`. -/
  | vm_fault_paddr
  /-- `sys__exit(0)` in `vm_fault`: the kernel has stored to a read-only page. -/
  | vm_fault_exit
  /-- The kernel has used a bad user address outside of `copyin` and `copyout`. -/
  | kernel_fault
  /-- `pte_create` on a page table for which `kmalloc` has returned NULL. -/
  | segment_prepare_null
  /-- `KASSERT(new->as_pbase1 != 0)` in `as_copy`. -/
  | as_copy_pbase1
  /-- `KASSERT(new->as_pbase2 != 0)` in `as_copy`. -/
  | as_copy_pbase2
  /-- `KASSERT(new->as_stackpbase != 0)` in `as_copy`. -/
  | as_copy_stackpbase
  /-- `pid->pd_pid` in `proc_create` through a NULL `pid`. -/
  | proc_create_null_pd
  /-- `new_proc->pid` or `new_proc->p_fdlist` in `sys_fork` through a NULL `new_proc`. -/
  | sys_fork_null_proc
  /-- `p_array[child]` in `set_parent` outside of the array. -/
  | set_parent_index
  /-- `p_array[child]->pd_parent_pid` in `set_parent` through a NULL entry. -/
  | set_parent_null
  /-- `kfree` of memory that `kmalloc` has not handed out. -/
  | kfree_not_allocated
  /-- `KASSERT(kd->kd_device != NULL)` in `vfs_getroot`. -/
  | vfs_getroot_device
  /-- `KASSERT(kd->kd_device != NULL)` in `vfs_mount`. -/
  | vfs_mount_device
  /-- `KASSERT(kd->kd_device != NULL)` in `vfs_unmount`. -/
  | vfs_unmount_device
  /-- `KASSERT(proc != kproc)` in `proc_destroy`. -/
  | proc_destroy_kproc
  /-- `ARRAYASSERT(a->num == 0)` in `array_cleanup`. -/
  | array_cleanup_num
  /-- One of the assertions of `kill_curthread` about the trap code. -/
  | kill_curthread_code
  deriving DecidableEq, Repr

/-! ## Blocks -/

/-- `SFS_BLOCKSIZE` and `LHD_SECTSIZE`. -/
abbrev BLOCKSIZE : Nat := 512

/-- The contents of one disk block. -/
def Block : Type := Fin BLOCKSIZE → UInt8

namespace Block

/-- Byte `i` of a block; offsets past its end read as zero. -/
def byte (b : Block) (i : Nat) : UInt8 := if h : i < BLOCKSIZE then b ⟨i, h⟩ else 0

/-- A block filled with zeros. -/
def zeros : Block := fun _ => 0

/-- The block as a string of bytes. -/
def toList (b : Block) : List UInt8 := List.ofFn b

/-- The block that a string of bytes fills. -/
def ofList (l : List UInt8) : Block := fun i => l.getD i 0

/-- Overwrite the bytes from `start` on with `l`. -/
def overwrite (b : Block) (start : Nat) (l : List UInt8) : Block := fun i =>
  if start ≤ i ∧ i < start + l.length then l.getD (i - start) 0 else b i

@[ext] theorem ext {b c : Block} (h : ∀ i, i < BLOCKSIZE → b.byte i = c.byte i) : b = c := by
  funext i
  have hi := h i.val i.isLt
  simpa [byte, i.isLt] using hi

@[simp] theorem length_toList (b : Block) : b.toList.length = BLOCKSIZE :=
  List.length_ofFn

theorem getElem_toList (b : Block) {i : Nat} (h : i < b.toList.length) :
    b.toList[i] = b.byte i := by
  have hi : i < BLOCKSIZE := by simpa using h
  rw [byte, dif_pos hi]
  exact List.getElem_ofFn h

@[simp] theorem ofList_toList (b : Block) : ofList b.toList = b := by
  funext i
  have hi : (i : Nat) < b.toList.length := by simp
  rw [ofList, List.getD_eq_getElem _ _ hi, getElem_toList, byte, dif_pos i.isLt]

@[simp] theorem byte_zeros (i : Nat) : zeros.byte i = 0 := by
  simp [byte, zeros]

theorem byte_overwrite (b : Block) (start : Nat) (l : List UInt8) {i : Nat} (h : i < BLOCKSIZE) :
    (b.overwrite start l).byte i =
      if start ≤ i ∧ i < start + l.length then l.getD (i - start) 0 else b.byte i := by
  simp only [byte, h, dif_pos, overwrite]

/-- A stretch of a block, read byte by byte. -/
theorem take_drop_toList (b : Block) {start len : Nat} (h : start + len ≤ BLOCKSIZE) :
    (b.toList.drop start).take len = (List.range' start len).map b.byte := by
  apply List.ext_getElem
  · simp
    omega
  · intro i h1 h2
    simp [getElem_toList]

/-- Overwriting a whole block leaves nothing of it. -/
@[simp] theorem overwrite_nil (b : Block) (o : Nat) : b.overwrite o [] = b := by
  funext i
  unfold overwrite
  rw [List.length_nil, Nat.add_zero, if_neg (by omega)]

theorem overwrite_all (b : Block) {l : List UInt8} (h : l.length = BLOCKSIZE) :
    b.overwrite 0 l = ofList l := by
  funext i
  have hi : (i : Nat) < l.length := by
    omega
  simp [overwrite, ofList, hi]

end Block

end OS161
