import OS161.Proc.Descriptors

/-! # What a process holds

The descriptors, the current directory and the address space of each process, from the fork that
makes it to `sys__exit`, `sys_waitpid` and `proc_destroy` (`kern/proc/proc.c`,
`kern/vfs/vfscwd.c`, `kern/syscall/{fork,exit,waitpid}_syscalls.c`,
`kern/arch/mips/locore/trap.c`, `kern/fs/sfs/sfs_fs.c`).

Neither `sys__exit` nor `sys_waitpid` gives back what the process has; `proc_destroy` frees the
`struct fd` objects whoever else has them, and takes the address space of the current process
for that of its argument. The locks of the entry of `p_array` are left out: a `sys_waitpid` that
finds no exit code has no step here.
-/

namespace OS161

open Framework Kern Function

/-! ## State -/

/-- All processes, by the number of their `struct proc`. -/
structure Procs (V : Type) where
  fds : FdState V
  p_cwd : Nat → Option V
  /-- The `struct addrspace`, by address. -/
  p_addrspace : Nat → Option Nat
  p_threads : Nat → Nat
  /-- The exit code in the entry of `p_array`, once `pd_exiting` is set. -/
  pd_exitcode : Nat → Option UInt32
  /-- Whether the entry of `p_array` is not NULL. -/
  p_array : Nat → Bool
  /-- The address of the next `struct addrspace`. -/
  as_next : Nat
  /-- What `as_destroy` has freed. -/
  as_freed : List Nat
  /-- The `struct fd` objects that `kfree` has freed. -/
  fd_freed : List Nat

abbrev ProcCode (V α : Type) : Type := Kern (Procs V) Errno Panic α

namespace Procs

variable {V : Type} [DecidableEq V]

def onFds {α : Type} (m : FdCode V α) : ProcCode V α := .zoom Procs.fds (fun s t => { s with fds := t }) m

/-! ## The current directory -/

def vnode_incref (v : V) : FdCode V Unit :=
  .modify fun s => { s with vn_refcount := update s.vn_refcount v (s.vn_refcount v + 1) }

/-- `vfs_setcurdir` in process `p`; `isdir` is the answer of `VOP_GETTYPE`. -/
def vfs_setcurdir (vop_reclaim : V → Bool) (isdir : V → Except Errno Bool) (p : Nat) (dir : V) : ProcCode V Unit := do
  let isdir ← .ofExcept (isdir dir)
  if ¬ isdir then .fail .enotdir
  else do
    onFds (vnode_incref dir)
    let s ← .read
    .modify fun s => { s with p_cwd := update s.p_cwd p (some dir) }
    match s.p_cwd p with
    | none => pure ()
    | some old => onFds (vnode_decref vop_reclaim old)

/-- `vfs_chdir` in process `p`. -/
def vfs_chdir (vop_reclaim : V → Bool) (isdir : V → Except Errno Bool) (p : Nat) (lookup : Except Errno V) :
    ProcCode V Unit := do
  let vn ← .ofExcept lookup
  onFds (vnode_get vn)
  let result ← .attempt (vfs_setcurdir vop_reclaim isdir p vn)
  onFds (vnode_decref vop_reclaim vn)
  .ofExcept result

/-! ## Address spaces -/

/-- `curproc_setas` when process `cur` runs. -/
def curproc_setas (cur : Nat) (newas : Option Nat) : ProcCode V (Option Nat) := do
  let s ← .read
  .modify fun s => { s with p_addrspace := update s.p_addrspace cur newas }
  pure (s.p_addrspace cur)

/-- `as_destroy`, which is a `kfree`. -/
def as_destroy : Option Nat → ProcCode V Unit
  | none => pure ()
  | some as => .modify fun s => { s with as_freed := s.as_freed ++ [as] }

/-- `as_create` and `as_copy`. -/
def as_create : ProcCode V Nat := do
  let s ← .read
  .modify fun s => { s with as_next := s.as_next + 1 }
  pure s.as_next

/-! ## Making processes -/

/-- `proc_create`, and the thread that `thread_fork` starts in the process. -/
def proc_create (child : Nat) : ProcCode V Unit :=
  .modify fun s =>
    { s with
      fds := { s.fds with procs := update s.fds.procs child (some fun _ => none) }
      p_cwd := update s.p_cwd child none
      p_addrspace := update s.p_addrspace child none
      p_threads := update s.p_threads child 1
      pd_exitcode := update s.pd_exitcode child none
      p_array := update s.p_array child true }

/-- `sys_fork` in process `p`, and `enter_forked_process` in the child. -/
def sys_fork (p child : Nat) : ProcCode V Unit := do
  let new_as ← as_create
  proc_create child
  onFds (copy_fdlist p child (List.finRange OPEN_MAX))
  let _ ← curproc_setas child (some new_as)
  pure ()

/-- `proc_create_runprogram` in process `p`, and the address space that `runprogram` gives to the
new process. -/
def runprogram (p child : Nat) : ProcCode V Unit := do
  proc_create child
  let s ← .read
  match s.p_cwd p with
  | none => pure ()
  | some v => do
    onFds (vnode_incref v)
    .modify fun s => { s with p_cwd := update s.p_cwd child (some v) }
  let as ← as_create
  let _ ← curproc_setas child (some as)
  pure ()

/-! ## The end of a process -/

set_option linter.style.nameCheck false in
/-- `sys__exit` in process `p`: `set_exit_code` and `thread_exit`. -/
def sys__exit (p : Nat) (code : UInt32) : ProcCode V Unit := do
  .modify fun s => { s with pd_exitcode := update s.pd_exitcode p (some code) }
  .modify fun s => { s with p_threads := update s.p_threads p (s.p_threads p - 1) }

/-- How a process ends. -/
inductive ExitCause where
  /-- The system call. -/
  | exit (code : UInt32)
  /-- A fatal trap: `kill_curthread`. -/
  | trap (code : UInt32)
  /-- A store to a read-only page: `vm_fault`. -/
  | readonly

/-- The code of `kill_curthread` that is left: interrupts, bus errors and system calls "should not
be seen". -/
def kill_curthread (p : Nat) (code : UInt32) : ProcCode V Unit := do
  .kassert (code < 13 ∧ code ∉ ([0, 6, 7, 8] : List UInt32)) .kill_curthread_code
  sys__exit p code

def ExitCause.code (p : Nat) : ExitCause → ProcCode V Unit
  | .exit code => sys__exit p code
  | .trap code => kill_curthread p code
  | .readonly => sys__exit p 0

/-- `sys_waitpid` on process `pid` once it has an exit code: `release_pid`. -/
def sys_waitpid (pid : Nat) : ProcCode V Unit :=
  .modify fun s => { s with p_array := update s.p_array pid false }

/-- The loop of `proc_destroy` over the descriptor table. -/
def kfree_fdlist (p : Nat) : List (Fin OPEN_MAX) → ProcCode V Unit
  | [] => pure ()
  | i :: rest => do
    .modify fun s => { s with fd_freed := s.fd_freed ++ (s.fds.slot p i).toList }
    kfree_fdlist p rest

/-- The "VFS fields" of `proc_destroy`. -/
def proc_destroy_cwd (vop_reclaim : V → Bool) (p : Nat) : ProcCode V Unit := do
  let s ← .read
  match s.p_cwd p with
  | none => pure ()
  | some v => do
    onFds (vnode_decref vop_reclaim v)
    .modify fun s => { s with p_cwd := update s.p_cwd p none }

/-- The "VM fields" of `proc_destroy`: `p` is asked whether it has an address space, `cur` gives up
its own. -/
def proc_destroy_as (cur p : Nat) : ProcCode V Unit := do
  let s ← .read
  if (s.p_addrspace p).isSome then do
    let as ← curproc_setas cur none
    as_destroy as
  else pure ()

/-- `proc_destroy` of `p`, called by a thread of `cur`. -/
def proc_destroy (kproc : Nat) (vop_reclaim : V → Bool) (cur p : Nat) : ProcCode V Unit := do
  .kassert (p ≠ kproc) .proc_destroy_kproc
  proc_destroy_cwd vop_reclaim p
  kfree_fdlist p (List.finRange OPEN_MAX)
  proc_destroy_as cur p
  .modify fun s => { s with p_array := update s.p_array p false }
  let s ← .read
  .kassert (s.p_threads p = 0) .array_cleanup_num
  .modify fun s => { s with fds := { s.fds with procs := update s.fds.procs p none } }

/-- `sfs_unmount` of the volume with the given vnodes: vnodes in memory make it busy. -/
def sfs_unmount (vnodes : List V) : ProcCode V Unit := do
  let s ← .read
  if vnodes.any fun v => 0 < s.fds.vn_refcount v then .fail .ebusy else pure ()

/-! ## Histories -/

inductive Act (V : Type) where
  | open (p : Nat) (call : OpenCall V)
  | close (p : Nat) (fd : Int) (vop_reclaim : V → Bool) (pastEnd : FdCode V Unit)
  | chdir (p : Nat) (vop_reclaim : V → Bool) (isdir : V → Except Errno Bool) (lookup : Except Errno V)
  | fork (p child : Nat)
  | runprogram (p child : Nat)
  | exit (p : Nat) (cause : ExitCause)
  | waitpid (p pid : Nat)
  | destroy (p victim : Nat) (vop_reclaim : V → Bool)

/-- The process whose thread acts. -/
def Act.proc : Act V → Nat
  | .open p _ | .close p _ _ _ | .chdir p _ _ _ | .fork p _ | .runprogram p _ | .exit p _ | .waitpid p _
  | .destroy p _ _ => p

def Act.code (con : V) (kproc : Nat) : Act V → ProcCode V Unit
  | .open p call => onFds (do
      let _ ← sys_open con p call
      pure ())
  | .close p fd vop_reclaim pastEnd => onFds (sys_close vop_reclaim p fd pastEnd)
  | .chdir p vop_reclaim isdir lookup => vfs_chdir vop_reclaim isdir p lookup
  | .fork p child => sys_fork p child
  | .runprogram p child => Procs.runprogram p child
  | .exit p cause => cause.code p
  | .waitpid _ pid => sys_waitpid pid
  | .destroy p victim vop_reclaim => proc_destroy kproc vop_reclaim p victim

/-- What must be there for the action: a new process needs a new `struct proc`, and `sys_waitpid`
waits for the exit code. -/
def Act.Enabled (s : Procs V) : Act V → Prop
  | .fork _ child | .runprogram _ child => s.fds.procs child = none
  | .waitpid _ pid => s.p_array pid ∧ s.pd_exitcode pid ≠ none
  | .destroy _ victim _ => (s.fds.procs victim).isSome
  | .open _ _ | .close _ _ _ _ | .chdir _ _ _ _ | .exit _ _ => True

instance decidableEnabled (s : Procs V) (a : Act V) : Decidable (a.Enabled s) :=
  match a with
  | .fork _ child | .runprogram _ child => inferInstanceAs (Decidable (s.fds.procs child = none))
  | .waitpid _ pid => inferInstanceAs (Decidable (s.p_array pid ∧ s.pd_exitcode pid ≠ none))
  | .destroy _ victim _ => inferInstanceAs (Decidable ((s.fds.procs victim).isSome))
  | .open _ _ | .close _ _ _ _ | .chdir _ _ _ _ | .exit _ _ => inferInstanceAs (Decidable True)

def next (con : V) (kproc : Nat) (s : Procs V) (a : Act V) : Option (Procs V) :=
  if 0 < s.p_threads a.proc ∧ a.Enabled s then finalState (a.code con kproc) s else none

/-- Nobody has descriptors or a current directory yet, and no two processes have the same address
space. -/
structure Boot (s : Procs V) : Prop where
  heap : s.fds.heap = []
  slots : ∀ p i, s.fds.slot p i = none
  cwd : ∀ p, s.p_cwd p = none
  as_lt : ∀ p a, s.p_addrspace p = some a → a < s.as_next
  as_unshared : ∀ p q a, s.p_addrspace p = some a → s.p_addrspace q = some a → p = q

def system (con : V) (kproc : Nat) : System (Procs V) (Act V) := .ofNext Boot (next con kproc)

/-! ## Exit -/

/-- The references that `p` has to `v`: one for each slot and one for the current directory. -/
noncomputable def heldRefs (s : Procs V) (p : Nat) (v : V) : Nat :=
  Set.ncard { i | s.fds.slotVnode p i = some v } + if s.p_cwd p = some v then 1 else 0

/-- No slot of `p` is open on a vnode, and it has no current directory. -/
structure HoldsNothing (s : Procs V) (p : Nat) : Prop where
  slots : ∀ i, s.fds.slotVnode p i = none
  cwd : s.p_cwd p = none

section Exit

variable {con : V} {kproc p : Nat} {s s₁ s₂ s₃ : Procs V}

theorem heldRefs_eq_zero (v : V) :
    s.heldRefs p v = 0 ↔ (∀ i, s.fds.slotVnode p i ≠ some v) ∧ s.p_cwd p ≠ some v := by
  unfold heldRefs
  rw [Nat.add_eq_zero_iff, Set.ncard_eq_zero (Set.toFinite _), Set.eq_empty_iff_forall_notMem]
  by_cases hcwd : s.p_cwd p = some v
  · simp [hcwd]
  · simp [hcwd]

theorem HoldsNothing.heldRefs (h : s.HoldsNothing p) (v : V) : s.heldRefs p v = 0 := by
  rw [heldRefs_eq_zero]
  constructor
  · intro i
    rw [h.slots i]
    exact (Option.some_ne_none v).symm
  · rw [h.cwd]
    exact (Option.some_ne_none v).symm

end Exit

/-! ## `proc_destroy` -/

/-- A call of `proc_destroy` that meets the assertions on its way: `p` is not the kernel and has no
thread, and its current directory is a vnode that can be given back. -/
structure Destroyable (kproc : Nat) (vop_reclaim : V → Bool) (q p : Nat) (s : Procs V) : Prop where
  distinct : p ≠ q
  kproc : p ≠ kproc
  threads : s.p_threads p = 0
  cwd : ∀ v, s.p_cwd p = some v → 0 < s.fds.vn_refcount v ∧
    (s.fds.vn_refcount v = 1 → vop_reclaim v = true → s.fds.vn_opencount v = 0)

/-- What `proc_destroy` of `p` by a thread of `q` is to leave alone, and what it is to destroy. -/
structure DestroyOk (q p : Nat) (s s' : Procs V) : Prop where
  attached : s'.p_addrspace q = s.p_addrspace q
  intact : ∀ a, s.p_addrspace q = some a → s'.as_freed.count a = s.as_freed.count a
  own : ∀ a, s.p_addrspace p = some a → s'.as_freed.count a = s.as_freed.count a + 1
  shared : ∀ r, r ≠ p → ∀ i a, s'.fds.slot r i = some a → s'.fd_freed.count a = s.fd_freed.count a

/-- `p` has no address space and shares no `struct fd`. -/
structure Alone (s : Procs V) (p : Nat) : Prop where
  addrspace : s.p_addrspace p = none
  unshared : ∀ i a, s.fds.slot p i = some a → ∀ r, r ≠ p → ∀ j, s.fds.slot r j ≠ some a

section Destroy

variable {kproc : Nat} {vop_reclaim : V → Bool} {q p : Nat} {s : Procs V}

/-- What `proc_destroy` does, as far as others are concerned. -/
structure Destroyed (q p : Nat) (s s' : Procs V) : Prop where
  addrspace : s'.p_addrspace = if (s.p_addrspace p).isSome then update s.p_addrspace q none else s.p_addrspace
  as_freed : s'.as_freed = s.as_freed ++ if (s.p_addrspace p).isSome then (s.p_addrspace q).toList else []
  fd_freed : s'.fd_freed = s.fd_freed ++ (List.finRange OPEN_MAX).flatMap fun i => (s.fds.slot p i).toList
  slot : ∀ r, r ≠ p → ∀ i, s'.fds.slot r i = s.fds.slot r i

omit [DecidableEq V] in
theorem kfree_fdlist_run (slots : List (Fin OPEN_MAX)) (s : Procs V) :
    kfree_fdlist p slots s =
      .ok () { s with fd_freed := s.fd_freed ++ slots.flatMap fun i => (s.fds.slot p i).toList } := by
  induction slots generalizing s with
  | nil => simp [kfree_fdlist]
  | cons i rest ih =>
    rw [kfree_fdlist, modify_bind_run, ih]
    simp

/-- The assertions of `vnode_decref` hold, and only the count changes. -/
theorem wp_decref_cwd {v : V} {t : FdState V} (hpos : 0 < t.vn_refcount v)
    (hlast : t.vn_refcount v = 1 → vop_reclaim v = true → t.vn_opencount v = 0) :
    wp (vnode_decref vop_reclaim v) (fun _ t' => t'.procs = t.procs) (fun _ _ => False) (fun _ => False) t := by
  unfold vnode_decref
  rw [wp_read_bind, wp_kassert_bind hpos, wp_ite]
  split
  · rfl
  · rename_i hone
    rw [wp_ite]
    split
    · rename_i hreclaim
      rw [wp_kassert_bind (hlast (by omega) hreclaim)]
      rfl
    · rfl

theorem wp_proc_destroy_cwd (h : Destroyable kproc vop_reclaim q p s) :
    wp (proc_destroy_cwd vop_reclaim p)
      (fun _ t => t.fds.procs = s.fds.procs ∧ t = { s with fds := t.fds, p_cwd := t.p_cwd })
      (fun _ _ => False) (fun _ => False) s := by
  unfold proc_destroy_cwd
  rw [wp_read_bind]
  cases hcwd : s.p_cwd p with
  | none => exact ⟨rfl, rfl⟩
  | some v =>
    obtain ⟨hpos, hlast⟩ := h.cwd v hcwd
    unfold onFds
    rw [wp_bind, wp_zoom]
    apply wp_mono (wp_decref_cwd hpos hlast)
    · exact fun _ t ht => ⟨ht, rfl⟩
    · exact fun _ _ hf => hf
    · exact fun _ hf => hf

omit [DecidableEq V] in
theorem proc_destroy_as_run (s : Procs V) :
    proc_destroy_as q p s = .ok () { s with
      p_addrspace := if (s.p_addrspace p).isSome then update s.p_addrspace q none else s.p_addrspace
      as_freed := s.as_freed ++ if (s.p_addrspace p).isSome then (s.p_addrspace q).toList else [] } := by
  unfold proc_destroy_as
  rw [read_bind_run]
  by_cases has : (s.p_addrspace p).isSome
  · rw [if_pos has, if_pos has, if_pos has]
    show as_destroy (s.p_addrspace q) { s with p_addrspace := update s.p_addrspace q none } = _
    cases s.p_addrspace q with
    | none => simp [as_destroy]
    | some a => rfl
  · rw [if_neg has, if_neg has, if_neg has]
    simp

/-- **`proc_destroy`** returns, and what it has done. -/
theorem wp_proc_destroy (h : Destroyable kproc vop_reclaim q p s) :
    wp (proc_destroy kproc vop_reclaim q p) (fun _ s' => Destroyed q p s s') (fun _ _ => False)
      (fun _ => False) s := by
  unfold proc_destroy
  rw [wp_kassert_bind h.kproc]
  apply wp_seq (wp_proc_destroy_cwd h)
  · rintro _ t ⟨hprocs, ht⟩
    have hslot : ∀ r i, t.fds.slot r i = s.fds.slot r i := by
      intro r i
      unfold FdState.slot
      rw [hprocs]
    generalize t.fds = fds, t.p_cwd = cwd at ht hprocs hslot
    subst ht
    rw [wp_bind]
    apply wp_of_run_ok (kfree_fdlist_run _ _)
    rw [wp_bind]
    apply wp_of_run_ok (proc_destroy_as_run _)
    rw [wp_modify_bind, wp_read_bind, wp_kassert_bind h.threads,
      wp_modify]
    constructor
    · rfl
    · rfl
    · simp only [hslot]
    · intro r hr i
      rw [← hslot]
      show (update fds.procs p none r).bind _ = _
      rw [update_of_ne hr]
      rfl
  · exact fun _ _ hf => hf
  · exact fun _ hf => hf

omit [DecidableEq V] in
/-- What is freed lies in the table of `p`. -/
theorem mem_freed {a : Nat} :
    a ∈ (List.finRange OPEN_MAX).flatMap (fun i => (s.fds.slot p i).toList) ↔ ∃ i, s.fds.slot p i = some a := by
  simp

theorem Alone.of_wp (h : Destroyable kproc vop_reclaim q p s)
    (hok : wp (proc_destroy kproc vop_reclaim q p) (fun _ s' => DestroyOk q p s s') (fun _ _ => False)
      (fun _ => False) s) : s.Alone p := by
  obtain ⟨_, s', hd, hok⟩ := exists_of_wp_of_returns hok (wp_proc_destroy h)
  constructor
  · by_contra hsome
    have has : (s.p_addrspace p).isSome := Option.isSome_iff_ne_none.mpr hsome
    -- `q` has lost its address space, so it had none, and nothing was destroyed
    have hq : s.p_addrspace q = none := by
      rw [← hok.attached, hd.addrspace, if_pos has]
      exact update_self ..
    obtain ⟨a, ha⟩ := Option.isSome_iff_exists.mp has
    have hown := hok.own a ha
    rw [hd.as_freed, if_pos has, hq] at hown
    simp at hown
  · intro i a ha r hr j hj
    have hcount := hok.shared r hr j a (by rw [hd.slot r hr]; exact hj)
    rw [hd.fd_freed, List.count_append, Nat.add_eq_left, List.count_eq_zero] at hcount
    exact hcount (mem_freed.mpr ⟨i, ha⟩)

end Destroy

end Procs

end OS161
