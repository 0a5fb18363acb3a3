import OS161.Framework.LockBalance

/-! # The big lock is given back

The functions of `kern/vfs/{vnode,vfslist,vfslookup,vfspath,vfscwd}.c`, `kern/fs/sfs/*.c` and
`kern/dev/lamebus/emu.c`, as far as they take and release `vfs_biglock` and the lock `e_lock` of
the emu device: their calls, their loops and each of their returns, in the order of the source.
Tests on data may go either way, so that every device error and every contents of the disk is
among the paths; an allocation fails where it is allowed to. Functions that take no lock and
call none that does are left out, and so are the operations of device vnodes.

Each function gives back what it has taken, but for one return of `emufs_loadvnode`: when there
is no memory for the vnode it releases `e_lock` and keeps `vfs_biglock`.
-/

namespace OS161.Balance

open Framework

/-! ## Functions -/

inductive VfsLock where
  | vfs_biglock
  | e_lock
  deriving DecidableEq

instance fintypeVfsLock : Fintype VfsLock where
  elems := {.vfs_biglock, .e_lock}
  complete := by
    intro l
    cases l <;> decide

inductive Fn where
  -- kern/vfs/vnode.c
  | vnode_init | vnode_cleanup | vnode_incref | vnode_decref | vnode_incopen | vnode_decopen | vnode_check
  -- kern/include/vnode.h and kern/include/fs.h
  | VOP_OPEN | VOP_CLOSE | VOP_RECLAIM | VOP_READ | VOP_READLINK | VOP_GETDIRENTRY | VOP_WRITE | VOP_IOCTL | VOP_STAT
  | VOP_GETTYPE | VOP_TRYSEEK | VOP_FSYNC | VOP_MMAP | VOP_TRUNCATE | VOP_NAMEFILE | VOP_CREAT | VOP_SYMLINK
  | VOP_MKDIR | VOP_LINK | VOP_REMOVE | VOP_RMDIR | VOP_RENAME | VOP_LOOKUP | VOP_LOOKPARENT
  | FSOP_SYNC | FSOP_GETVOLNAME | FSOP_GETROOT | FSOP_UNMOUNT
  -- kern/vfs/vfslist.c
  | vfs_bootstrap | vfs_sync | vfs_getroot | vfs_getdevname | badnames | vfs_doadd | vfs_adddev | vfs_addfs | findmount
  | vfs_mount | vfs_unmount | vfs_unmountall
  -- kern/vfs/vfscwd.c
  | vfs_getcurdir | vfs_setcurdir | vfs_clearcurdir | vfs_chdir | vfs_getcwd
  -- kern/vfs/vfslookup.c
  | change_bootfs | vfs_setbootfs | vfs_clearbootfs | getdevice | vfs_lookparent | vfs_lookup
  -- kern/vfs/vfspath.c
  | vfs_open | vfs_close | vfs_remove | vfs_rename | vfs_link | vfs_symlink | vfs_readlink | vfs_mkdir | vfs_rmdir
  -- kern/fs/sfs/sfs_io.c and kern/fs/sfs/sfs_fs.c
  | sfs_rwblock | sfs_rblock | sfs_wblock | sfs_mapio | sfs_sync | sfs_getvolname | sfs_unmount | sfs_domount | sfs_mount
  -- kern/fs/sfs/sfs_vnode.c
  | sfs_clearblock | sfs_sync_inode | sfs_balloc | sfs_bused | sfs_bmap | sfs_partialio | sfs_blockio | sfs_io
  | sfs_readdir | sfs_writedir | sfs_dir_nentries | sfs_dir_findname | sfs_dir_link | sfs_dir_unlink | sfs_lookonce
  | sfs_makeobj | sfs_close | sfs_reclaim | sfs_read | sfs_write | sfs_stat | sfs_gettype | sfs_fsync | sfs_truncate
  | sfs_namefile | sfs_creat | sfs_link | sfs_remove | sfs_rename | sfs_lookparent | sfs_lookup | sfs_loadvnode
  | sfs_getroot
  -- kern/dev/lamebus/emu.c
  | emu_waitdone | emu_open | emu_close | emu_doread | emu_read | emu_readdir | emu_write | emu_getsize | emu_trunc
  | emufs_reclaim | emufs_read | emufs_getdirentry | emufs_write | emufs_stat | emufs_truncate | emufs_creat
  | emufs_lookup | emufs_lookparent | emufs_loadvnode | emufs_getroot | emufs_addtovfs | config_emu
  deriving DecidableEq

abbrev Code : Type := LockStmt VfsLock Fn

abbrev skip : Code := .skip
abbrev ret : Code := .ret
/-- A `panic`. -/
abbrev halt : Code := .halt
abbrev call (f : Fn) : Code := .call f
abbrev either (a b : Code) : Code := .either a b
abbrev loop (a : Code) : Code := .loop a
abbrev ifFails (f : Fn) (a : Code) : Code := .ifFails f a
abbrev vfs_biglock_acquire : Code := .acquire .vfs_biglock
abbrev vfs_biglock_release : Code := .release .vfs_biglock
/-- `lock_acquire` on `e_lock`. -/
abbrev e_acquire : Code := .acquire .e_lock
abbrev e_release : Code := .release .e_lock

/-- `if (…) { a }`. -/
def when (a : Code) : Code := either a skip

/-- `KASSERT`, and tests that end in a `panic`. -/
def kassert : Code := either halt skip

/-- `if (result) { return result; }`. -/
def orReturn : Code := when ret

/-- `if (result) { vfs_biglock_release(); return result; }`. -/
def orRelease : Code := when (vfs_biglock_release ++ ret)

/-- The call of one of several implementations, or of one that takes no lock. -/
def oneOf (impls : List Fn) : Code := impls.foldr (fun f rest => either (call f) rest) skip ++ ret

/-- `__VOP`. -/
def vop (impls : List Fn) : Code := call .vnode_check ++ oneOf impls

/-- The bodies of the functions. -/
def body : Fn → Code
  | .vnode_init | .vnode_cleanup => kassert ++ ret
  | .vnode_incref | .vnode_incopen => kassert ++ vfs_biglock_acquire ++ vfs_biglock_release ++ ret
  | .vnode_decref =>
    kassert ++ vfs_biglock_acquire ++ kassert ++ when (call .VOP_RECLAIM) ++ vfs_biglock_release ++ ret
  | .vnode_decopen =>
    kassert ++ vfs_biglock_acquire ++ kassert ++ orRelease ++ call .VOP_CLOSE ++ vfs_biglock_release ++ ret
  | .vnode_check => vfs_biglock_acquire ++ kassert ++ vfs_biglock_release ++ ret
  | .VOP_OPEN | .VOP_READLINK | .VOP_IOCTL | .VOP_TRYSEEK | .VOP_MMAP | .VOP_SYMLINK | .VOP_MKDIR | .VOP_RMDIR => vop []
  | .VOP_CLOSE => vop [.sfs_close]
  | .VOP_RECLAIM => vop [.sfs_reclaim, .emufs_reclaim]
  | .VOP_READ => vop [.sfs_read, .emufs_read]
  | .VOP_GETDIRENTRY => vop [.emufs_getdirentry]
  | .VOP_WRITE => vop [.sfs_write, .emufs_write]
  | .VOP_STAT => vop [.sfs_stat, .emufs_stat]
  | .VOP_GETTYPE => vop [.sfs_gettype]
  | .VOP_FSYNC => vop [.sfs_fsync]
  | .VOP_TRUNCATE => vop [.sfs_truncate, .emufs_truncate]
  | .VOP_NAMEFILE => vop [.sfs_namefile]
  | .VOP_CREAT => vop [.sfs_creat, .emufs_creat]
  | .VOP_LINK => vop [.sfs_link]
  | .VOP_REMOVE => vop [.sfs_remove]
  | .VOP_RENAME => vop [.sfs_rename]
  | .VOP_LOOKUP => vop [.sfs_lookup, .emufs_lookup]
  | .VOP_LOOKPARENT => vop [.sfs_lookparent, .emufs_lookparent]
  | .FSOP_SYNC => oneOf [.sfs_sync]
  | .FSOP_GETVOLNAME => oneOf [.sfs_getvolname]
  | .FSOP_GETROOT => oneOf [.sfs_getroot, .emufs_getroot]
  | .FSOP_UNMOUNT => oneOf [.sfs_unmount]
  -- kern/vfs/vfslist.c
  | .vfs_bootstrap => kassert ++ kassert ++ kassert ++ call .vfs_adddev ++ kassert ++ ret
  | .vfs_sync => vfs_biglock_acquire ++ loop (when (call .FSOP_SYNC)) ++ vfs_biglock_release ++ ret
  | .vfs_getroot =>
    kassert ++
    loop (either (call .FSOP_GETVOLNAME ++ when (call .FSOP_GETROOT ++ ret)) orReturn ++
      when (kassert ++ call .vnode_incref ++ ret) ++ when (kassert ++ call .vnode_incref ++ ret)) ++
    ret
  | .vfs_getdevname => kassert ++ loop orReturn ++ ret
  | .badnames => kassert ++ loop (when (call .FSOP_GETVOLNAME ++ orReturn) ++ orReturn) ++ ret
  | .vfs_doadd =>
    -- the four allocations go to `nomem`
    vfs_biglock_acquire ++ ifFails .vfs_doadd (vfs_biglock_release ++ ret) ++
    when (ifFails .vfs_doadd (vfs_biglock_release ++ ret)) ++ ifFails .vfs_doadd (vfs_biglock_release ++ ret) ++
    ifFails .vfs_doadd (vfs_biglock_release ++ ret) ++ when (call .FSOP_GETVOLNAME) ++ call .badnames ++ orRelease ++
    vfs_biglock_release ++ ret
  | .vfs_adddev | .vfs_addfs => call .vfs_doadd ++ ret
  | .findmount => kassert ++ loop skip ++ ret
  | .vfs_mount =>
    vfs_biglock_acquire ++ call .findmount ++ orRelease ++ orRelease ++ kassert ++ call .sfs_domount ++ orRelease ++
    kassert ++ call .FSOP_GETVOLNAME ++ vfs_biglock_release ++ ret
  | .vfs_unmount =>
    vfs_biglock_acquire ++ call .findmount ++ orRelease ++ orRelease ++ kassert ++ call .FSOP_SYNC ++ orRelease ++
    call .FSOP_UNMOUNT ++ orRelease ++ kassert ++ vfs_biglock_release ++ ret
  | .vfs_unmountall =>
    -- each way out of a turn is a `continue`
    vfs_biglock_acquire ++
    loop (when (call .FSOP_SYNC ++ either (call .FSOP_SYNC ++ when (call .FSOP_UNMOUNT)) (call .FSOP_UNMOUNT))) ++
    vfs_biglock_release ++ ret
  -- kern/vfs/vfscwd.c
  | .vfs_getcurdir => when (call .vnode_incref) ++ ret
  | .vfs_setcurdir =>
    call .VOP_GETTYPE ++ orReturn ++ orReturn ++ call .vnode_incref ++ when (call .vnode_decref) ++ ret
  | .vfs_clearcurdir => when (call .vnode_decref) ++ ret
  | .vfs_chdir => call .vfs_lookup ++ orReturn ++ call .vfs_setcurdir ++ call .vnode_decref ++ ret
  | .vfs_getcwd =>
    kassert ++ call .vfs_getcurdir ++ orReturn ++ kassert ++ call .FSOP_GETVOLNAME ++
    when (vfs_biglock_acquire ++ call .vfs_getdevname ++ vfs_biglock_release) ++ kassert ++
    when (call .vnode_decref ++ ret) ++ when (call .vnode_decref ++ ret) ++ call .VOP_NAMEFILE ++ call .vnode_decref ++ ret
  -- kern/vfs/vfslookup.c
  | .change_bootfs => when (call .vnode_decref) ++ ret
  | .vfs_setbootfs =>
    vfs_biglock_acquire ++ orRelease ++ call .vfs_chdir ++ orRelease ++ call .vfs_getcurdir ++ orRelease ++
    call .change_bootfs ++ vfs_biglock_release ++ ret
  | .vfs_clearbootfs => vfs_biglock_acquire ++ call .change_bootfs ++ vfs_biglock_release ++ ret
  | .getdevice =>
    kassert ++ loop skip ++ when (call .vfs_getcurdir ++ ret) ++ when (call .vfs_getroot ++ orReturn ++ ret) ++ kassert ++
    either (orReturn ++ call .vnode_incref)
      (kassert ++ call .vfs_getcurdir ++ orReturn ++ kassert ++ call .FSOP_GETROOT ++ call .vnode_decref) ++
    loop skip ++ ret
  | .vfs_lookparent =>
    vfs_biglock_acquire ++ call .getdevice ++ orRelease ++ when (call .VOP_LOOKPARENT) ++ call .vnode_decref ++
    vfs_biglock_release ++ ret
  | .vfs_lookup =>
    vfs_biglock_acquire ++ call .getdevice ++ orRelease ++ orRelease ++ call .VOP_LOOKUP ++ call .vnode_decref ++
    vfs_biglock_release ++ ret
  -- kern/vfs/vfspath.c
  | .vfs_open =>
    orReturn ++
    either (call .vfs_lookparent ++ orReturn ++ call .VOP_CREAT ++ call .vnode_decref) (call .vfs_lookup) ++ orReturn ++
    kassert ++ call .VOP_OPEN ++ when (call .vnode_decref ++ ret) ++ call .vnode_incopen ++
    when (when (call .VOP_TRUNCATE) ++ when (call .vnode_decopen ++ call .vnode_decref ++ ret)) ++ ret
  | .vfs_close => call .vnode_decopen ++ call .vnode_decref ++ ret
  | .vfs_remove => call .vfs_lookparent ++ orReturn ++ call .VOP_REMOVE ++ call .vnode_decref ++ ret
  | .vfs_rename =>
    call .vfs_lookparent ++ orReturn ++ call .vfs_lookparent ++ when (call .vnode_decref ++ ret) ++
    when (call .vnode_decref ++ call .vnode_decref ++ ret) ++ call .VOP_RENAME ++ call .vnode_decref ++
    call .vnode_decref ++ ret
  | .vfs_link =>
    call .vfs_lookup ++ orReturn ++ call .vfs_lookparent ++ when (call .vnode_decref ++ ret) ++
    when (call .vnode_decref ++ call .vnode_decref ++ ret) ++ call .VOP_LINK ++ call .vnode_decref ++
    call .vnode_decref ++ ret
  | .vfs_symlink => call .vfs_lookparent ++ orReturn ++ call .VOP_SYMLINK ++ call .vnode_decref ++ ret
  | .vfs_readlink => call .vfs_lookup ++ orReturn ++ call .VOP_READLINK ++ call .vnode_decref ++ ret
  | .vfs_mkdir => call .vfs_lookparent ++ orReturn ++ call .VOP_MKDIR ++ call .vnode_decref ++ ret
  | .vfs_rmdir => call .vfs_lookparent ++ orReturn ++ call .VOP_RMDIR ++ call .vnode_decref ++ ret
  -- kern/fs/sfs/sfs_io.c and kern/fs/sfs/sfs_fs.c
  | .sfs_rwblock => .ifHeld .vfs_biglock skip halt ++ loop kassert ++ ret
  | .sfs_rblock | .sfs_wblock => call .sfs_rwblock ++ ret
  | .sfs_mapio => loop (either (call .sfs_rblock) (call .sfs_wblock) ++ orReturn) ++ ret
  | .sfs_sync =>
    vfs_biglock_acquire ++ loop (call .VOP_FSYNC) ++ when (call .sfs_mapio ++ orRelease) ++
    when (call .sfs_wblock ++ orRelease) ++ vfs_biglock_release ++ ret
  | .sfs_getvolname => vfs_biglock_acquire ++ vfs_biglock_release ++ ret
  | .sfs_unmount => vfs_biglock_acquire ++ orRelease ++ kassert ++ vfs_biglock_release ++ ret
  | .sfs_domount =>
    vfs_biglock_acquire ++ kassert ++ orRelease ++ ifFails .sfs_domount (vfs_biglock_release ++ ret) ++
    ifFails .sfs_domount (vfs_biglock_release ++ ret) ++ call .sfs_rblock ++ orRelease ++ orRelease ++
    ifFails .sfs_domount (vfs_biglock_release ++ ret) ++ call .sfs_mapio ++ orRelease ++ vfs_biglock_release ++ ret
  | .sfs_mount => call .vfs_mount ++ ret
  -- kern/fs/sfs/sfs_vnode.c
  | .sfs_clearblock => call .sfs_wblock ++ ret
  | .sfs_sync_inode => when (call .sfs_wblock ++ orReturn) ++ ret
  | .sfs_balloc => orReturn ++ kassert ++ call .sfs_clearblock ++ ret
  | .sfs_bused => kassert ++ ret
  | .sfs_bmap =>
    kassert ++ when (when (call .sfs_balloc ++ orReturn) ++ when (call .sfs_bused) ++ kassert ++ ret) ++ orReturn ++
    either ret (either (call .sfs_balloc ++ orReturn) (call .sfs_rblock ++ orReturn)) ++
    when (call .sfs_balloc ++ orReturn ++ call .sfs_wblock ++ orReturn) ++ when (call .sfs_bused) ++ kassert ++ ret
  | .sfs_partialio =>
    kassert ++ call .sfs_bmap ++ orReturn ++ either kassert (call .sfs_rblock ++ orReturn) ++ orReturn ++
    when (call .sfs_wblock ++ orReturn) ++ ret
  | .sfs_blockio => call .sfs_bmap ++ orReturn ++ when (kassert ++ ret) ++ kassert ++ call .sfs_rwblock ++ ret
  | .sfs_io =>
    when (orReturn ++ kassert) ++ when (call .sfs_partialio ++ orReturn) ++ orReturn ++ kassert ++
    loop (call .sfs_blockio ++ orReturn) ++ kassert ++ when (call .sfs_partialio ++ orReturn) ++ ret
  | .sfs_readdir | .sfs_writedir => call .sfs_io ++ orReturn ++ kassert ++ ret
  | .sfs_dir_nentries => kassert ++ kassert ++ ret
  | .sfs_dir_findname =>
    call .sfs_dir_nentries ++ loop (call .sfs_readdir ++ orReturn ++ when kassert) ++ ret
  | .sfs_dir_link =>
    call .sfs_dir_findname ++ orReturn ++ orReturn ++ orReturn ++ when (call .sfs_dir_nentries) ++
    call .sfs_writedir ++ ret
  | .sfs_dir_unlink => call .sfs_writedir ++ ret
  | .sfs_lookonce =>
    call .sfs_dir_findname ++ orReturn ++ call .sfs_loadvnode ++ orReturn ++ kassert ++ ret
  | .sfs_makeobj => call .sfs_balloc ++ orReturn ++ call .sfs_loadvnode ++ ret
  | .sfs_close => call .VOP_FSYNC ++ ret
  | .sfs_reclaim =>
    vfs_biglock_acquire ++ when (kassert ++ vfs_biglock_release ++ ret) ++ when (call .VOP_TRUNCATE ++ orRelease) ++
    call .sfs_sync_inode ++ orRelease ++ loop skip ++ kassert ++ call .vnode_cleanup ++ vfs_biglock_release ++ ret
  | .sfs_read | .sfs_write => kassert ++ vfs_biglock_acquire ++ call .sfs_io ++ vfs_biglock_release ++ ret
  | .sfs_stat => call .VOP_GETTYPE ++ orReturn ++ ret
  | .sfs_gettype =>
    vfs_biglock_acquire ++ when (vfs_biglock_release ++ ret) ++ when (vfs_biglock_release ++ ret) ++ halt
  | .sfs_fsync => vfs_biglock_acquire ++ call .sfs_sync_inode ++ vfs_biglock_release ++ ret
  | .sfs_truncate =>
    kassert ++ vfs_biglock_acquire ++ loop skip ++
    when (call .sfs_rblock ++ orRelease ++ loop skip ++ when (call .sfs_wblock ++ orRelease)) ++
    vfs_biglock_release ++ ret
  | .sfs_namefile => kassert ++ ret
  | .sfs_creat =>
    vfs_biglock_acquire ++ call .sfs_dir_findname ++ orRelease ++ orRelease ++
    when (call .sfs_loadvnode ++ orRelease ++ vfs_biglock_release ++ ret) ++ call .sfs_makeobj ++ orRelease ++
    call .sfs_dir_link ++ when (call .vnode_decref ++ vfs_biglock_release ++ ret) ++ vfs_biglock_release ++ ret
  | .sfs_link => kassert ++ vfs_biglock_acquire ++ call .sfs_dir_link ++ orRelease ++ vfs_biglock_release ++ ret
  | .sfs_remove =>
    vfs_biglock_acquire ++ call .sfs_lookonce ++ orRelease ++ call .sfs_dir_unlink ++ when kassert ++
    call .vnode_decref ++ vfs_biglock_release ++ ret
  | .sfs_rename =>
    vfs_biglock_acquire ++ kassert ++ kassert ++ call .sfs_lookonce ++ orRelease ++ kassert ++ call .sfs_dir_link ++
    -- `puke`
    when (call .vnode_decref ++ vfs_biglock_release ++ ret) ++ call .sfs_dir_unlink ++
    -- `puke_harder`
    when (call .sfs_dir_unlink ++ kassert ++ call .vnode_decref ++ vfs_biglock_release ++ ret) ++ kassert ++
    call .vnode_decref ++ vfs_biglock_release ++ ret
  | .sfs_lookparent => vfs_biglock_acquire ++ orRelease ++ orRelease ++ call .vnode_incref ++ vfs_biglock_release ++ ret
  | .sfs_lookup => vfs_biglock_acquire ++ orRelease ++ call .sfs_lookonce ++ orRelease ++ vfs_biglock_release ++ ret
  | .sfs_loadvnode =>
    loop (call .sfs_bused ++ kassert ++ when (kassert ++ call .vnode_incref ++ ret)) ++ ifFails .sfs_loadvnode ret ++
    call .sfs_bused ++ kassert ++ call .sfs_rblock ++ orReturn ++ when kassert ++ kassert ++ call .vnode_init ++
    orReturn ++ ifFails .sfs_loadvnode (call .vnode_cleanup ++ ret) ++ ret
  | .sfs_getroot => vfs_biglock_acquire ++ call .sfs_loadvnode ++ kassert ++ vfs_biglock_release ++ ret
  -- kern/dev/lamebus/emu.c
  | .emu_waitdone => kassert ++ ret
  | .emu_open => orReturn ++ e_acquire ++ call .emu_waitdone ++ e_release ++ ret
  | .emu_close =>
    -- `mine` is the answer of `lock_do_i_hold`
    .ifHeld .e_lock (loop (call .emu_waitdone)) (e_acquire ++ loop (call .emu_waitdone) ++ e_release) ++ ret
  | .emu_doread => kassert ++ e_acquire ++ call .emu_waitdone ++ when (e_release ++ ret) ++ e_release ++ ret
  | .emu_read | .emu_readdir => call .emu_doread ++ ret
  | .emu_write => kassert ++ e_acquire ++ when (e_release ++ ret) ++ call .emu_waitdone ++ e_release ++ ret
  | .emu_getsize | .emu_trunc => e_acquire ++ call .emu_waitdone ++ e_release ++ ret
  | .emufs_reclaim =>
    vfs_biglock_acquire ++ e_acquire ++ when (e_release ++ vfs_biglock_release ++ ret) ++ call .emu_close ++
    when (e_release ++ vfs_biglock_release ++ ret) ++ loop skip ++ kassert ++ call .vnode_cleanup ++ e_release ++
    vfs_biglock_release ++ ret
  | .emufs_read => kassert ++ loop (call .emu_read ++ orReturn) ++ ret
  | .emufs_getdirentry => kassert ++ call .emu_readdir ++ ret
  | .emufs_write => kassert ++ loop (call .emu_write ++ orReturn) ++ ret
  | .emufs_stat => call .emu_getsize ++ orReturn ++ call .VOP_GETTYPE ++ orReturn ++ ret
  | .emufs_truncate => call .emu_trunc ++ ret
  | .emufs_creat | .emufs_lookup =>
    call .emu_open ++ orReturn ++ call .emufs_loadvnode ++ when (call .emu_close ++ ret) ++ ret
  | .emufs_lookparent => when (orReturn ++ call .vnode_incref ++ ret) ++ orReturn ++ call .emufs_lookup ++ ret
  | .emufs_loadvnode =>
    vfs_biglock_acquire ++ e_acquire ++
    loop (when (call .vnode_incref ++ e_release ++ vfs_biglock_release ++ ret)) ++
    ifFails .emufs_loadvnode (e_release ++ ret) ++
    call .vnode_init ++ when (e_release ++ vfs_biglock_release ++ ret) ++
    when (call .vnode_cleanup ++ e_release ++ vfs_biglock_release ++ ret) ++ e_release ++ vfs_biglock_release ++ ret
  | .emufs_getroot => kassert ++ call .vnode_incref ++ ret
  | .emufs_addtovfs =>
    ifFails .emufs_addtovfs ret ++ ifFails .emufs_addtovfs ret ++ call .emufs_loadvnode ++ orReturn ++ kassert ++
    call .vfs_addfs ++ when (call .vnode_decref) ++ ret
  | .config_emu => ifFails .config_emu ret ++ ifFails .config_emu ret ++ call .emufs_addtovfs ++ ret

/-! ## Balance -/

/-- But for the allocation in `emufs_loadvnode`, every path of every function gives back what it takes. -/
theorem body_clean (f : Fn) : (body f).Clean (fun g => g ≠ .emufs_loadvnode) := by
  cases f <;> decide

/-- The return of `emufs_loadvnode` without memory. -/
theorem emufs_loadvnode_keeps (fails : Fn → Prop) (h : fails .emufs_loadvnode) (d : VfsLock → Nat) :
    ∃ d', LockStmt.Exec body fails (call .emufs_loadvnode) d false d' ∧ d' .vfs_biglock = d .vfs_biglock + 1 := by
  have htaken : LockStmt.Exec body fails (vfs_biglock_acquire ++ e_acquire) d false _ :=
    .seq (.acquire _) (.acquire _)
  -- the vnode is not in the table, and there is no memory for a new one
  have hnomem : ∀ t : VfsLock → Nat, 0 < t .e_lock →
      LockStmt.Exec body fails (ifFails .emufs_loadvnode (e_release ++ ret)) t true _ :=
    fun t ht => .fails _ h (.seq (.release _ ht) .ret)
  have hpath : LockStmt.Exec body fails (body .emufs_loadvnode) d true _ :=
    .seqRet (.seqRet (.seqRet (.seqRet (.seqRet (.seqRet (.seq (.seq htaken .done) (hnomem _ (by simp))))))))
  exact ⟨_, .call _ hpath, by simp⟩

/-- **Every operation gives back the locks** on every path, at any depth, exactly when `kmalloc`
does not fail in `emufs_loadvnode`. -/
theorem locks_balanced_iff (fails : Fn → Prop) :
    (∀ f, LockStmt.Balanced body fails f) ↔ ¬ fails .emufs_loadvnode := by
  constructor
  · intro hall hf
    obtain ⟨d', hexec, hd'⟩ := emufs_loadvnode_keeps fails hf 0
    rw [hall .emufs_loadvnode _ _ hexec] at hd'
    exact absurd hd' (by decide)
  · intro hf f
    apply LockStmt.balanced_of_clean body_clean
    intro g hg
    have hne : g ≠ .emufs_loadvnode := by
      rintro rfl
      exact hf hg
    exact decide_eq_true hne

/-- Without memory, a call of `emufs_loadvnode` by a thread that has no lock leaves it with the big lock. -/
theorem biglock_not_released :
    ∃ d', LockStmt.Exec body (fun f => f = .emufs_loadvnode) (call .emufs_loadvnode) 0 false d' ∧ d' ≠ 0 := by
  obtain ⟨d', hexec, hd'⟩ := emufs_loadvnode_keeps (fun f => f = .emufs_loadvnode) rfl 0
  refine ⟨d', hexec, ?_⟩
  rintro rfl
  exact absurd hd' (by decide)

end OS161.Balance
