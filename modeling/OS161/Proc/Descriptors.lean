import OS161.Framework.TransitionSystem
import OS161.Lib.Types

/-! # File descriptors

The descriptor tables of all processes, the `struct fd` objects they point to and the two
counters of each vnode, under `sys_open`, `sys_close`, the table copy of `sys_fork`, and process
exit (`kern/syscall/{open,close,fork,exit}_syscalls.c`, `kern/vfs/vfspath.c`,
`kern/vfs/vnode.c`). System calls are taken one at a time, and name lookups and the file
system's own operations answer as they like.

`sys_fork` copies the pointers of the table, so that parent and child share each `struct fd`,
and it raises `vn_refcount` but not `vn_opencount`. `FdDiscipline` keeps to the runs in which
that branch is not taken.
-/

namespace OS161

open Framework Kern Function

/-! ## State -/

/-- `__OPEN_MAX`. -/
abbrev OPEN_MAX : Nat := 128

abbrev O_ACCMODE : UInt32 := 3
abbrev O_RDONLY : UInt32 := 0
abbrev O_WRONLY : UInt32 := 1
abbrev O_RDWR : UInt32 := 2
abbrev O_CREAT : UInt32 := 4
abbrev O_TRUNC : UInt32 := 16
abbrev O_APPEND : UInt32 := 32

/-- `__PATH_MAX`. -/
abbrev PATH_MAX : Nat := 1024

/-- `struct fd`. -/
structure Fd (V : Type) where
  fd_fid : Nat
  fd_name : List UInt8
  fd_flag : UInt32
  /-- `none` is NULL. -/
  fd_vfile : Option V

/-- The descriptor tables of the live processes, by pid, the `struct fd` objects by address, and the
vnodes' counters. A vnode with `vn_refcount` 0 is not in memory. -/
structure FdState (V : Type) where
  vn_refcount : V → Nat
  vn_opencount : V → Nat
  heap : List (Fd V)
  procs : Nat → Option (Fin OPEN_MAX → Option Nat)

/-- The answers of the code below the system calls. -/
structure VfsAnswers (V : Type) where
  lookparent : Except Errno V
  creat : Except Errno V
  lookup : Except Errno V
  vop_open : Option Errno
  vop_truncate : Option Errno
  /-- Whether `VOP_RECLAIM` destroys the vnode. -/
  vop_reclaim : V → Bool

/-- The arguments of `sys_open` as it finds them. -/
structure OpenCall (V : Type) where
  filename_is_null : Bool
  /-- The name that `copyinstr` brings in and its length, or an error. -/
  copyinstr : Except Errno (List UInt8 × Nat)
  flags : UInt32
  vfs : VfsAnswers V

variable {V : Type}

namespace FdState

/-- `p_fdlist[i]` of process `p`. -/
def slot (s : FdState V) (p : Nat) (i : Fin OPEN_MAX) : Option Nat := (s.procs p).bind (· i)

/-- `p_fdlist[i] = a` in process `p`. -/
def setSlot (s : FdState V) (p : Nat) (i : Fin OPEN_MAX) (a : Option Nat) : FdState V :=
  { s with procs := update s.procs p ((s.procs p).map fun t => update t i a) }

/-- `p_fdlist[i]` is a new `struct fd`. -/
def install (s : FdState V) (p : Nat) (i : Fin OPEN_MAX) (fid : Fd V) : FdState V :=
  { s with heap := s.heap ++ [fid] }.setSlot p i (some s.heap.length)

/-- The vnode that slot `i` of process `p` is open on. -/
def slotVnode (s : FdState V) (p : Nat) (i : Fin OPEN_MAX) : Option V :=
  (s.slot p i).bind fun a => (s.heap[a]?).bind Fd.fd_vfile

/-- The open slots, over all processes, that designate `v`. -/
def openSlots (s : FdState V) (v : V) : Set (Nat × Fin OPEN_MAX) :=
  { x | s.slotVnode x.1 x.2 = some v }

end FdState

/-! ## Vnode counters -/

abbrev FdCode (V α : Type) : Type := Kern (FdState V) Errno Panic α

variable [DecidableEq V]

/-- A name lookup hands out `v`: one more reference, or a vnode made new by `vnode_init`. -/
def vnode_get (v : V) : FdCode V Unit :=
  .modify fun s =>
    { s with
      vn_refcount := update s.vn_refcount v (s.vn_refcount v + 1)
      vn_opencount :=
        if s.vn_refcount v = 0 then update s.vn_opencount v 0 else s.vn_opencount }

def vnode_decref (vop_reclaim : V → Bool) (v : V) : FdCode V Unit := do
  let s ← .read
  .kassert (0 < s.vn_refcount v) .vnode_decref_refcount
  if 1 < s.vn_refcount v then
    .modify fun s =>
      { s with vn_refcount := update s.vn_refcount v (s.vn_refcount v - 1) }
  else if vop_reclaim v then do
    .kassert (s.vn_opencount v = 0) .vnode_cleanup_opencount
    .modify fun s => { s with vn_refcount := update s.vn_refcount v 0 }
  else pure ()

def vnode_incopen (v : V) : FdCode V Unit :=
  .modify fun s =>
    { s with vn_opencount := update s.vn_opencount v (s.vn_opencount v + 1) }

def vnode_decopen (v : V) : FdCode V Unit := do
  let s ← .read
  .kassert (0 < s.vn_opencount v) .vnode_decopen_opencount
  .modify fun s =>
    { s with vn_opencount := update s.vn_opencount v (s.vn_opencount v - 1) }

/-! ## `vfs_open` and `vfs_close` -/

/-- The mode bits of `openflags`: whether the file may be written. -/
def open_how (openflags : UInt32) : Except Errno Bool :=
  if openflags &&& O_ACCMODE = O_RDONLY then .ok false
  else if openflags &&& O_ACCMODE = O_WRONLY ∨ openflags &&& O_ACCMODE = O_RDWR then .ok true
  else .error .einval

/-- The first half of `vfs_open`: create the file or look it up. -/
def vfs_open_name (vop : VfsAnswers V) (openflags : UInt32) : FdCode V V :=
  if openflags &&& O_CREAT ≠ 0 then do
    let dir ← .ofExcept vop.lookparent
    vnode_get dir
    let result ← .attempt (do
      let vn ← .ofExcept vop.creat
      vnode_get vn
      pure vn)
    vnode_decref vop.vop_reclaim dir
    .ofExcept result
  else do
    let vn ← .ofExcept vop.lookup
    vnode_get vn
    pure vn

/-- The second half of `vfs_open`: open the vnode, and truncate it. -/
def vfs_open_vnode (vop : VfsAnswers V) (openflags : UInt32) (canwrite : Bool) (vn : V) :
    FdCode V V :=
  match vop.vop_open with
  | some e => do
    vnode_decref vop.vop_reclaim vn
    .fail e
  | none => do
    vnode_incopen vn
    if openflags &&& O_TRUNC ≠ 0 then
      match (if canwrite then vop.vop_truncate else some .einval) with
      | some e => do
        vnode_decopen vn
        vnode_decref vop.vop_reclaim vn
        .fail e
      | none => pure vn
    else pure vn

def vfs_open (vop : VfsAnswers V) (openflags : UInt32) : FdCode V V := do
  let canwrite ← .ofExcept (open_how openflags)
  let vn ← vfs_open_name vop openflags
  vfs_open_vnode vop openflags canwrite vn

def vfs_close (vop_reclaim : V → Bool) : Option V → FdCode V Unit
  | none => .halt .vnode_decopen_null
  | some vn => do
    vnode_decopen vn
    vnode_decref vop_reclaim vn

/-! ## System calls -/

/-- "con:". -/
def conName : List UInt8 := [99, 111, 110, 58]

/-- One turn of the loop of `init_STD`: `con_open` accepts every open. -/
def open_con (con : V) (p : Nat) (i : Fin OPEN_MAX) (flag : UInt32) : FdCode V Unit := do
  vnode_get con
  vnode_incopen con
  .modify fun s =>
    s.install p i { fd_fid := i, fd_name := conName, fd_flag := flag, fd_vfile := some con }

def init_STD (con : V) (p : Nat) : FdCode V Unit := do
  open_con con p 0 O_RDONLY
  open_con con p 1 O_WRONLY
  open_con con p 2 O_WRONLY

/-- "Inits STDIN, STDOUT and STDERR if not already done". -/
def check_STD (con : V) (p : Nat) : FdCode V Unit := do
  let s ← .read
  if s.slot p 0 = none then init_STD con p else pure ()

/-- `sys_open` in process `p`. -/
def sys_open (con : V) (p : Nat) (call : OpenCall V) : FdCode V Nat := do
  check_STD con p
  if call.filename_is_null then .fail .efault
  else
    match call.copyinstr with
    | .error _ => .fail .efault
    | .ok (fname, len) =>
      if len = 0 ∨ len > PATH_MAX + 1 then .fail .efault
      else if call.flags &&& O_APPEND ≠ 0 then .fail .einval
      else do
        let s ← .read
        match (List.finRange OPEN_MAX).find? (fun i => 3 ≤ i.val ∧ s.slot p i = none) with
        | none => .fail .emfile
        | some index => do
          let vn ← vfs_open call.vfs call.flags
          .modify fun s => s.install p index
            { fd_fid := index, fd_name := fname, fd_flag := call.flags, fd_vfile := some vn }
          pure index.val

/-- `sys_close` in process `p`. The check lets `fd == __OPEN_MAX` through; what the code does with
the pointer it then finds behind the table is `pastEnd`. -/
def sys_close (vop_reclaim : V → Bool) (p : Nat) (fd : Int) (pastEnd : FdCode V Unit) :
    FdCode V Unit := do
  if fd < 3 ∨ fd > OPEN_MAX then .fail .ebadf
  else if h : fd.toNat < OPEN_MAX then do
    let s ← .read
    match s.slot p ⟨fd.toNat, h⟩ with
    | none => pure ()
    | some a => do
      vfs_close vop_reclaim ((s.heap[a]?).bind Fd.fd_vfile)
      -- the `struct fd`, then the slot
      .modify fun s => { s with heap := s.heap.modify a fun f => { f with fd_vfile := none } }
      .modify fun s => s.setSlot p ⟨fd.toNat, h⟩ none
  else pastEnd

/-- One turn of the loop of `sys_fork` over the descriptor table. -/
def copy_fd (p child : Nat) (i : Fin OPEN_MAX) : FdCode V Unit := do
  let s ← .read
  match s.slot p i with
  | none => pure ()
  | some a => do
    .modify fun s => s.setSlot child i (some a)
    match (s.heap[a]?).bind Fd.fd_vfile with
    | none => .halt .sys_fork_null_vnode
    | some v => .modify fun s =>
        { s with vn_refcount := update s.vn_refcount v (s.vn_refcount v + 1) }

/-- The loop of `sys_fork` over the descriptor table. -/
def copy_fdlist (p child : Nat) : List (Fin OPEN_MAX) → FdCode V Unit
  | [] => pure ()
  | i :: rest => do
    copy_fd p child i
    copy_fdlist p child rest

/-- The descriptor part of `sys_fork`, which creates the process `child`. -/
def sys_fork (p child : Nat) : FdCode V Unit := do
  .modify fun s => { s with procs := update s.procs child (some fun _ => none) }
  copy_fdlist p child (List.finRange OPEN_MAX)

/-- What the processes do, and what the code below them answers. -/
inductive FdAct (V : Type) where
  | open (p : Nat) (call : OpenCall V)
  | close (p : Nat) (fd : Int) (vop_reclaim : V → Bool) (pastEnd : FdCode V Unit)
  | fork (p child : Nat)
  | exit (p : Nat)

/-- The code of an action; `sys__exit` closes nothing, the process is gone. -/
def FdAct.code (con : V) : FdAct V → FdCode V Unit
  | .open p call => do
    let _ ← sys_open con p call
    pure ()
  | .close p fd vop_reclaim pastEnd => sys_close vop_reclaim p fd pastEnd
  | .fork p child => sys_fork p child
  | .exit p => .modify fun s => { s with procs := update s.procs p none }

/-- Actions are those of live processes, and `proc_create` takes a free pid. -/
def FdAct.Enabled (s : FdState V) : FdAct V → Prop
  | .open p _ | .close p _ _ _ | .exit p => (s.procs p).isSome
  | .fork p child => (s.procs p).isSome ∧ s.procs child = none

instance (s : FdState V) (a : FdAct V) : Decidable (a.Enabled s) := by
  cases a <;> unfold FdAct.Enabled <;> infer_instance

def fdNext (con : V) (s : FdState V) (a : FdAct V) : Option (FdState V) :=
  if a.Enabled s then finalState (a.code con) s else none

/-- Every sequence of the calls by any set of processes, none of which has a descriptor yet. -/
def fdSystem (con : V) : System (FdState V) (FdAct V) :=
  .ofNext (fun s => s.heap = [] ∧ ∀ p i, s.slot p i = none) (fdNext con)

/-! ## The property -/

/-- What is to hold of the descriptors in a state of `sys`. -/
structure FdOk (sys : System (FdState V) (FdAct V)) (s : FdState V) : Prop where
  /-- A `sys_close` leaves the other processes' slots open on the same vnode. -/
  close_local : ∀ p fd vop_reclaim pastEnd s', sys.step s (.close p fd vop_reclaim pastEnd) s' →
    ∀ q, q ≠ p → ∀ i v, s.slotVnode q i = some v → s'.slotVnode q i = some v
  refcount : ∀ v, (s.openSlots v).encard ≤ s.vn_refcount v
  opencount : ∀ v, (s.openSlots v).encard ≤ s.vn_opencount v
  /-- Tables point to existing `struct fd` objects. -/
  fds : ∀ p i a, s.slot p i = some a → a < s.heap.length

/-- The condition on a step, in the state before it: a process that forks has an empty table, and
nobody closes descriptor `__OPEN_MAX`. -/
def FdDiscipline (s : FdState V) : FdAct V → Prop
  | .fork p _ => ∀ i, s.slot p i = none
  | .close _ fd _ _ => fd ≠ OPEN_MAX
  | .open _ _ | .exit _ => True

/-! ## Borrowed references -/

/-- One reference to `v`. -/
def one (v w : V) : Nat := if w = v then 1 else 0

/-- `s` is `s₀` with `er` more references and `eo` more opens, at least; opens of a vnode that was
not in memory do not count. -/
structure Acc (s₀ : FdState V) (er eo : V → Nat) (s : FdState V) : Prop where
  heap : s.heap = s₀.heap
  procs : s.procs = s₀.procs
  refs : ∀ w, s₀.vn_refcount w + er w ≤ s.vn_refcount w
  opens : ∀ w, (if s₀.vn_refcount w = 0 then 0 else s₀.vn_opencount w) + eo w ≤ s.vn_opencount w
  le : ∀ w, eo w ≤ er w

namespace Acc

variable {s₀ s : FdState V} {er eo : V → Nat} {E : Errno → FdState V → Prop} {F : Panic → Prop}

omit [DecidableEq V] in
theorem refl (s : FdState V) : Acc s 0 0 s where
  heap := rfl
  procs := rfl
  refs := fun w => by simp
  opens := fun w => by
    simp only [Pi.zero_apply, Nat.add_zero]
    split <;> omega
  le := fun w => by simp

theorem get (h : Acc s₀ er eo s) (v : V) :
    wp (vnode_get v) (fun _ => Acc s₀ (er + one v) eo) E F s := by
  unfold vnode_get
  rw [wp_modify]
  refine ⟨h.heap, h.procs, fun w => ?_, fun w => ?_, fun w => ?_⟩
  · have hw := h.refs w
    simp only [Pi.add_apply, one, update_apply]
    split
    · subst_vars
      omega
    · omega
  · have hw := h.refs w
    have ho := h.opens w
    have hle := h.le w
    dsimp only
    by_cases hzero : s.vn_refcount v = 0
    · rw [if_pos hzero, update_apply]
      by_cases hwv : w = v
      · -- a vnode made new: there was nothing to count
        subst hwv
        rw [if_pos (by omega), if_pos rfl]
        omega
      · rw [if_neg hwv]
        exact ho
    · rw [if_neg hzero]
      exact ho
  · have hle := h.le w
    simp only [Pi.add_apply]
    omega

theorem decref {v : V} (h : Acc s₀ (er + one v) eo s) (hle : ∀ w, eo w ≤ er w)
    (vop_reclaim : V → Bool) :
    wp (vnode_decref vop_reclaim v) (fun _ => Acc s₀ er eo) E (fun _ => True) s := by
  have hrefs : ∀ w, s₀.vn_refcount w + er w ≤
      update s.vn_refcount v (s.vn_refcount v - 1) w := by
    intro w
    have hw := h.refs w
    simp only [Pi.add_apply, one] at hw
    simp only [update_apply]
    split
    · subst_vars
      rw [if_pos rfl] at hw
      omega
    · rename_i hne
      rw [if_neg hne] at hw
      exact hw
  unfold vnode_decref
  simp only [wp_bind, wp_read, wp_kassert]
  split
  · rw [wp_ite]
    split
    · exact { h with refs := hrefs, le := hle }
    · rename_i hpos hone
      have hval : s.vn_refcount v = 1 := by omega
      rw [wp_ite]
      split
      · simp only [wp_bind, wp_kassert, wp_modify]
        split
        · rw [hval] at hrefs
          exact { h with refs := hrefs, le := hle }
        · trivial
      · refine { h with refs := fun w => ?_, le := hle }
        have hw := h.refs w
        simp only [Pi.add_apply] at hw
        omega
  · trivial

theorem incopen {v : V} (h : Acc s₀ er eo s) (hlt : eo v < er v) :
    wp (vnode_incopen v) (fun _ => Acc s₀ er (eo + one v)) E F s := by
  unfold vnode_incopen
  rw [wp_modify]
  refine { h with opens := fun w => ?_, le := fun w => ?_ }
  · have ho := h.opens w
    simp only [Pi.add_apply, one, update_apply]
    by_cases hw : w = v
    · subst hw
      rw [if_pos rfl, if_pos rfl]
      omega
    · rw [if_neg hw, if_neg hw]
      exact ho
  · have hle := h.le w
    simp only [Pi.add_apply, one]
    split
    · subst_vars
      omega
    · omega

theorem decopen {v : V} (h : Acc s₀ er (eo + one v) s) :
    wp (vnode_decopen v) (fun _ => Acc s₀ er eo) E (fun _ => True) s := by
  unfold vnode_decopen
  simp only [wp_bind, wp_read, wp_kassert, wp_modify]
  split
  · refine { h with opens := fun w => ?_, le := fun w => ?_ }
    · have ho := h.opens w
      simp only [Pi.add_apply, one] at ho
      simp only [update_apply]
      by_cases hw : w = v
      · subst hw
        rw [if_pos rfl] at ho
        rw [if_pos rfl]
        omega
      · rw [if_neg hw] at ho
        rw [if_neg hw]
        exact ho
    · have hle := h.le w
      simp only [Pi.add_apply] at hle
      omega
  · trivial

end Acc

section VfsOpen

variable (vop : VfsAnswers V) (openflags : UInt32) (s : FdState V)

theorem wp_vfs_open_name :
    wp (vfs_open_name vop openflags) (fun v => Acc s (one v) 0) (fun _ => Acc s 0 0)
      (fun _ => True) s := by
  have hstart := Acc.refl s
  unfold vfs_open_name
  rw [wp_ite]
  split
  · cases vop.lookparent with
    | error e => simpa using hstart
    | ok dir =>
      simp only [wp_bind, wp_ofExcept_ok]
      refine wp_imp (hstart.get dir) ?_
      intro _ s1 h1
      simp only [wp_attempt, wp_bind]
      cases vop.creat with
      | error e =>
        simp only [wp_ofExcept_error, wp_ofExcept_error]
        exact h1.decref (fun _ => Nat.le_refl _) _
      | ok vn =>
        simp only [wp_ofExcept_ok, wp_pure]
        refine wp_imp (h1.get vn) ?_
        intro _ s2 h2
        rw [add_right_comm, zero_add] at h2
        exact h2.decref (fun _ => Nat.zero_le _) _
  · cases vop.lookup with
    | error e => simpa using hstart
    | ok vn =>
      simp only [wp_bind, wp_ofExcept_ok, wp_pure]
      refine wp_imp (hstart.get vn) ?_
      intro _ s1 h1
      rwa [zero_add] at h1

variable {s}

theorem wp_vfs_open_vnode {s₀ : FdState V} (canwrite : Bool) {vn : V} (h : Acc s₀ (one vn) 0 s) :
    wp (vfs_open_vnode vop openflags canwrite vn) (fun v => Acc s₀ (one v) (one v))
      (fun _ => Acc s₀ 0 0) (fun _ => True) s := by
  have h' : Acc s₀ (0 + one vn) 0 s := by rwa [zero_add]
  unfold vfs_open_vnode
  cases vop.vop_open with
  | some e =>
    simp only [wp_bind, wp_fail]
    exact h'.decref (fun _ => Nat.le_refl _) _
  | none =>
    simp only [wp_bind]
    refine wp_imp (h.incopen (by simp [one])) ?_
    intro _ s1 h1
    rw [wp_ite]
    split
    · cases (if canwrite then vop.vop_truncate else some .einval) with
      | none =>
        rw [zero_add] at h1
        simpa using h1
      | some e =>
        simp only [wp_bind, wp_fail]
        refine wp_imp h1.decopen ?_
        intro _ s2 h2
        have h2' : Acc s₀ (0 + one vn) 0 s2 := by rwa [zero_add]
        exact h2'.decref (fun _ => Nat.le_refl _) _
    · rw [zero_add] at h1
      simpa using h1

variable (s)

/-- A successful `vfs_open` has one more reference and one more open of the vnode it returns; a
failed one has taken nothing. -/
theorem wp_vfs_open :
    wp (vfs_open vop openflags) (fun v => Acc s (one v) (one v)) (fun _ => Acc s 0 0)
      (fun _ => True) s := by
  unfold vfs_open
  simp only [wp_bind]
  cases open_how openflags with
  | error e => simpa using Acc.refl s
  | ok canwrite =>
    rw [wp_ofExcept_ok]
    refine wp_imp (wp_vfs_open_name vop openflags s) ?_
    intro vn s1 h1
    exact wp_vfs_open_vnode vop openflags canwrite h1

end VfsOpen

/-! ## The invariant of disciplined runs -/

/-- Every slot points to a `struct fd` of its own with a vnode in it, and the counters cover the
    open slots. -/
structure FdInv (s : FdState V) : Prop where
  fds : ∀ p i a, s.slot p i = some a → ∃ f v, s.heap[a]? = some f ∧ f.fd_vfile = some v
  unshared : ∀ p i q j a, s.slot p i = some a → s.slot q j = some a → p = q ∧ i = j
  refcount : ∀ v, (s.openSlots v).encard ≤ s.vn_refcount v
  opencount : ∀ v, (s.openSlots v).encard ≤ s.vn_opencount v

section Tables

omit [DecidableEq V]

variable {s s' : FdState V} {p : Nat} {i : Fin OPEN_MAX}

theorem FdState.slot_setSlot (a : Option Nat) (q : Nat) (j : Fin OPEN_MAX) :
    (s.setSlot p i a).slot q j =
      if q = p ∧ j = i then (s.procs p).bind fun _ => a else s.slot q j := by
  unfold FdState.slot FdState.setSlot
  dsimp only
  by_cases hq : q = p
  · subst hq
    rw [update_self]
    cases s.procs q with
    | none => simp
    | some t =>
      by_cases hj : j = i
      · subst hj
        simp
      · simp [hj]
  · rw [update_of_ne hq]
    simp [hq]

/-- Slots and heap determine what the slots are open on. -/
theorem FdState.openSlots_congr (hheap : s'.heap = s.heap) (hprocs : s'.procs = s.procs) :
    s'.openSlots = s.openSlots := by
  funext v
  simp only [FdState.openSlots, FdState.slotVnode, FdState.slot, hheap, hprocs]

theorem FdInv.lt_length (h : FdInv s) {a : Nat} (hslot : s.slot p i = some a) :
    a < s.heap.length := by
  obtain ⟨f, v, hf, -⟩ := h.fds p i a hslot
  exact (List.getElem?_eq_some_iff.mp hf).1

/-- Tables and heap as they were, with counters that still cover the slots. -/
theorem FdInv.of_counts (h : FdInv s) (hheap : s'.heap = s.heap) (hprocs : s'.procs = s.procs)
    (hrefs : ∀ v, (s.openSlots v).encard ≤ s'.vn_refcount v)
    (hopens : ∀ v, (s.openSlots v).encard ≤ s'.vn_opencount v) : FdInv s' := by
  have hslot : s'.slot = s.slot := by
    funext p i
    simp only [FdState.slot, hprocs]
  refine ⟨?_, ?_, ?_, ?_⟩
  · rw [hslot, hheap]
    exact h.fds
  · rw [hslot]
    exact h.unshared
  · rw [FdState.openSlots_congr hheap hprocs]
    exact hrefs
  · rw [FdState.openSlots_congr hheap hprocs]
    exact hopens

end Tables

section Invariant

variable {s₀ s : FdState V} {p : Nat} {i : Fin OPEN_MAX}

omit [DecidableEq V] in
/-- A vnode with an open slot is in memory, so all its opens count. -/
theorem FdInv.covers (h : FdInv s₀) {er eo : V → Nat} (hacc : Acc s₀ er eo s) (v : V) :
    (s₀.openSlots v).encard + er v ≤ s.vn_refcount v ∧
      (s₀.openSlots v).encard + eo v ≤ s.vn_opencount v := by
  have hr := h.refcount v
  have ho := h.opencount v
  have hr' := hacc.refs v
  have ho' := hacc.opens v
  constructor
  · calc (s₀.openSlots v).encard + er v ≤ (s₀.vn_refcount v : ℕ∞) + er v := by gcongr
      _ ≤ s.vn_refcount v := by exact_mod_cast hr'
  · by_cases hzero : s₀.vn_refcount v = 0
    · rw [hzero] at hr
      rw [if_pos hzero, Nat.zero_add] at ho'
      have hnone : (s₀.openSlots v).encard = 0 := by simpa using hr
      rw [hnone, zero_add]
      exact_mod_cast ho'
    · rw [if_neg hzero] at ho'
      calc (s₀.openSlots v).encard + eo v ≤ (s₀.vn_opencount v : ℕ∞) + eo v := by gcongr
        _ ≤ s.vn_opencount v := by exact_mod_cast ho'

omit [DecidableEq V] in
/-- A failed open has changed nothing that matters. -/
theorem FdInv.of_acc (h : FdInv s₀) (hacc : Acc s₀ 0 0 s) : FdInv s := by
  apply h.of_counts hacc.heap hacc.procs
  · intro v
    simpa using (h.covers hacc v).1
  · intro v
    simpa using (h.covers hacc v).2

omit [DecidableEq V] in
theorem FdState.slot_install (fid : Fd V) (q : Nat) (j : Fin OPEN_MAX) :
    (s.install p i fid).slot q j =
      if q = p ∧ j = i then (s.procs p).bind fun _ => some s.heap.length else s.slot q j :=
  FdState.slot_setSlot ..

omit [DecidableEq V] in
/-- What the slots are open on after a new `struct fd` was put in slot `i`. -/
theorem FdInv.slotVnode_install (h : FdInv s) (fid : Fd V) (q : Nat) (j : Fin OPEN_MAX) :
    (s.install p i fid).slotVnode q j =
      if q = p ∧ j = i then (s.procs p).bind fun _ => fid.fd_vfile else s.slotVnode q j := by
  have hheap : (s.install p i fid).heap = s.heap ++ [fid] := rfl
  unfold FdState.slotVnode
  rw [FdState.slot_install, hheap]
  by_cases hqj : q = p ∧ j = i
  · rw [if_pos hqj, if_pos hqj]
    cases s.procs p with
    | none => rfl
    | some t => simp
  · rw [if_neg hqj, if_neg hqj]
    cases hslot : s.slot q j with
    | none => rfl
    | some a =>
      have hlt := h.lt_length hslot
      simp [List.getElem?_append_left hlt]

/-- The slots open on `w` after slot `i` was opened on `v`. -/
theorem FdInv.openSlots_install (h : FdInv s) {fid : Fd V} {v : V} (hfid : fid.fd_vfile = some v)
    (w : V) : ((s.install p i fid).openSlots w).encard ≤ (s.openSlots w).encard + one v w := by
  by_cases hw : w = v
  · have hsub : (s.install p i fid).openSlots w ⊆ insert (p, i) (s.openSlots w) := by
      intro x hx
      simp only [FdState.openSlots, Set.mem_ofPred_eq, h.slotVnode_install] at hx
      by_cases hxi : x.1 = p ∧ x.2 = i
      · exact Set.mem_insert_iff.mpr (.inl (Prod.ext hxi.1 hxi.2))
      · rw [if_neg hxi] at hx
        exact Set.mem_insert_of_mem _ hx
    rw [one, if_pos hw]
    exact (Set.encard_le_encard hsub).trans (Set.encard_insert_le _ _)
  · have hsub : (s.install p i fid).openSlots w ⊆ s.openSlots w := by
      intro x hx
      simp only [FdState.openSlots, Set.mem_ofPred_eq, h.slotVnode_install] at hx
      by_cases hxi : x.1 = p ∧ x.2 = i
      · rw [if_pos hxi, Option.bind_eq_some_iff] at hx
        obtain ⟨t, -, ht⟩ := hx
        rw [hfid, Option.some.injEq] at ht
        exact absurd ht.symm hw
      · rw [if_neg hxi] at hx
        exact hx
    rw [one, if_neg hw]
    simpa using Set.encard_le_encard hsub

/-- **Installing a descriptor** that `vfs_open` has just opened. -/
theorem FdInv.install (h : FdInv s₀) {v : V} (hacc : Acc s₀ (one v) (one v) s) {fid : Fd V}
    (hfid : fid.fd_vfile = some v) : FdInv (s.install p i fid) := by
  have hinv : FdInv s := by
    apply h.of_counts hacc.heap hacc.procs
    · intro w
      exact le_trans le_self_add (h.covers hacc w).1
    · intro w
      exact le_trans le_self_add (h.covers hacc w).2
  have hopen := FdState.openSlots_congr hacc.heap hacc.procs
  have hnew : ∀ q j a, (s.install p i fid).slot q j = some a →
      (q = p ∧ j = i ∧ a = s.heap.length) ∨ (s.slot q j = some a ∧ a < s.heap.length) := by
    intro q j a ha
    rw [FdState.slot_install] at ha
    by_cases hqj : q = p ∧ j = i
    · rw [if_pos hqj, Option.bind_eq_some_iff] at ha
      obtain ⟨t, -, ht⟩ := ha
      exact .inl ⟨hqj.1, hqj.2, by simpa using ht.symm⟩
    · rw [if_neg hqj] at ha
      exact .inr ⟨ha, hinv.lt_length ha⟩
  refine ⟨?_, ?_, ?_, ?_⟩
  · intro q j a ha
    have hheap : (s.install p i fid).heap = s.heap ++ [fid] := rfl
    rw [hheap]
    rcases hnew q j a ha with ⟨-, -, rfl⟩ | ⟨hold, hlt⟩
    · exact ⟨fid, v, by simp, hfid⟩
    · obtain ⟨f, w, hf, hw⟩ := hinv.fds q j a hold
      exact ⟨f, w, by rw [List.getElem?_append_left hlt, hf], hw⟩
  · intro q j q' j' a ha ha'
    rcases hnew q j a ha with ⟨rfl, rfl, rfl⟩ | ⟨hold, hlt⟩
    · rcases hnew q' j' _ ha' with ⟨rfl, rfl, -⟩ | ⟨-, hlt'⟩
      · exact ⟨rfl, rfl⟩
      · omega
    · rcases hnew q' j' _ ha' with ⟨-, -, rfl⟩ | ⟨hold', -⟩
      · omega
      · exact hinv.unshared q j q' j' a hold hold'
  · intro w
    have hw := hinv.openSlots_install (p := p) (i := i) hfid w
    rw [hopen] at hw
    exact hw.trans (h.covers hacc w).1
  · intro w
    have hw := hinv.openSlots_install (p := p) (i := i) hfid w
    rw [hopen] at hw
    exact hw.trans (h.covers hacc w).2

/-! ## Steps -/

theorem FdInv.open_con (h : FdInv s) (con : V) (flag : UInt32) :
    wp (open_con con p i flag) (fun _ => FdInv) (fun _ => FdInv) (fun _ => True) s := by
  refine wp_then ((Acc.refl s).get con) ?_
  intro _ s1 h1
  refine wp_then (h1.incopen (by simp [one])) ?_
  intro _ s2 h2
  rw [zero_add] at h2
  exact h.install h2 rfl

theorem FdInv.init_STD (h : FdInv s) (con : V) :
    wp (init_STD con p) (fun _ => FdInv) (fun _ => FdInv) (fun _ => True) s := by
  refine wp_then (h.open_con con O_RDONLY) ?_
  intro _ s1 h1
  refine wp_then (h1.open_con con O_WRONLY) ?_
  intro _ s2 h2
  exact h2.open_con con O_WRONLY

/-- **`sys_open`** keeps the invariant, on each of its error returns too. -/
theorem FdInv.sys_open (h : FdInv s) (con : V) (call : OpenCall V) :
    wp (sys_open con p call) (fun _ => FdInv) (fun _ => FdInv) (fun _ => True) s := by
  have hstd : wp (check_STD con p) (fun _ => FdInv) (fun _ => FdInv) (fun _ => True) s := by
    unfold check_STD
    rw [wp_read_bind, wp_ite]
    split
    · exact h.init_STD con
    · exact h
  refine wp_then hstd ?_
  intro _ s1 h1
  rw [wp_ite]
  split
  · exact h1
  · cases call.copyinstr with
    | error e => exact h1
    | ok name =>
      obtain ⟨fname, len⟩ := name
      rw [wp_ite, wp_ite]
      split
      · exact h1
      · split
        · exact h1
        · rw [wp_read_bind]
          split
          · exact h1
          · rename_i index _
            refine wp_seq (wp_vfs_open call.vfs call.flags s1) ?_
              (fun _ _ hacc => h1.of_acc hacc) (fun _ h => h)
            intro vn s2 h2
            exact h1.install h2 rfl

/-- `vfs_close` gives back one reference and one open. -/
theorem wp_vfs_close (vop_reclaim : V → Bool) (v : V) (s : FdState V) :
    wp (vfs_close vop_reclaim (some v)) (fun _ s' => s'.heap = s.heap ∧ s'.procs = s.procs ∧
        ∀ w, s.vn_refcount w ≤ s'.vn_refcount w + one v w ∧
          s.vn_opencount w ≤ s'.vn_opencount w + one v w)
      (fun _ _ => False) (fun _ => True) s := by
  have hupdate : ∀ (f : V → Nat) w, f w ≤ update f v (f v - 1) w + one v w := by
    intro f w
    simp only [update_apply, one]
    split
    · subst_vars
      omega
    · omega
  unfold vfs_close vnode_decopen vnode_decref
  simp only [wp_bind, wp_read, wp_kassert, wp_modify, wp_ite]
  split
  · split
    · split
      · exact ⟨trivial, trivial, fun w => ⟨hupdate _ w, hupdate _ w⟩⟩
      · split
        · split
          · rename_i hone _ _
            have hval : s.vn_refcount v - 1 = 0 := by omega
            refine ⟨trivial, trivial, fun w => ⟨?_, hupdate _ w⟩⟩
            have hw := hupdate s.vn_refcount w
            rwa [hval] at hw
          · trivial
        · exact ⟨rfl, rfl, fun w => ⟨Nat.le_add_right _ _, hupdate _ w⟩⟩
    · trivial
  · trivial

/-- **Clearing a slot** after its vnode was closed: the slot is gone, all others are open on the
same vnodes. -/
theorem FdInv.clear (h : FdInv s₀) {a : Nat} {v : V} (hslot : s₀.slot p i = some a)
    (hv : s₀.slotVnode p i = some v) (hheap : s.heap = s₀.heap) (hprocs : s.procs = s₀.procs)
    (hcounts : ∀ w, s₀.vn_refcount w ≤ s.vn_refcount w + one v w ∧
      s₀.vn_opencount w ≤ s.vn_opencount w + one v w)
    {s' : FdState V}
    (hs' : s' = ({ s with heap := s.heap.modify a fun f => { f with fd_vfile := none } } :
      FdState V).setSlot p i none) :
    FdInv s' ∧ ∀ q j, ¬ (q = p ∧ j = i) → s'.slotVnode q j = s₀.slotVnode q j := by
  have hself : s'.slot p i = none := by
    rw [hs', FdState.slot_setSlot, if_pos ⟨rfl, rfl⟩]
    cases s.procs p <;> rfl
  have hother : ∀ q j, ¬ (q = p ∧ j = i) → s'.slot q j = s₀.slot q j := by
    intro q j hqj
    rw [hs', FdState.slot_setSlot, if_neg hqj]
    show (s.procs q).bind _ = (s₀.procs q).bind _
    rw [hprocs]
  have hheap' : s'.heap = s₀.heap.modify a fun f => { f with fd_vfile := none } := by
    rw [hs', ← hheap]
    rfl
  -- the others' `struct fd` objects are not the one that was closed
  have hkeep : ∀ q j b, ¬ (q = p ∧ j = i) → s₀.slot q j = some b → s'.heap[b]? = s₀.heap[b]? := by
    intro q j b hqj hb
    have hne : a ≠ b := by
      rintro rfl
      exact hqj (h.unshared q j p i a hb hslot)
    rw [hheap', List.getElem?_modify_ne _ _ hne]
  have hvnode : ∀ q j, ¬ (q = p ∧ j = i) → s'.slotVnode q j = s₀.slotVnode q j := by
    intro q j hqj
    unfold FdState.slotVnode
    rw [hother q j hqj]
    cases hb : s₀.slot q j with
    | none => rfl
    | some b => simp [hkeep q j b hqj hb]
  have hopen : ∀ w, s'.openSlots w ⊆ s₀.openSlots w \ {(p, i)} := by
    intro w x hx
    by_cases hxi : x.1 = p ∧ x.2 = i
    · obtain ⟨q, j⟩ := x
      obtain ⟨rfl, rfl⟩ := hxi
      simp [FdState.openSlots, FdState.slotVnode, hself] at hx
    · refine ⟨?_, fun heq => hxi (by rw [heq]; exact ⟨rfl, rfl⟩)⟩
      simpa [FdState.openSlots, hvnode x.1 x.2 hxi] using hx
  have hle : ∀ w, (s'.openSlots w).encard + one v w ≤ (s₀.openSlots w).encard := by
    intro w
    have hsub := Set.encard_le_encard (hopen w)
    by_cases hw : w = v
    · have hmem : (p, i) ∈ s₀.openSlots w := by
        rw [hw]
        exact hv
      rw [one, if_pos hw, Nat.cast_one, ← Set.encard_sdiff_singleton_add_one hmem]
      gcongr
    · rw [one, if_neg hw, Nat.cast_zero, add_zero]
      exact hsub.trans (Set.encard_le_encard Set.sdiff_subset)
  refine ⟨⟨?_, ?_, ?_, ?_⟩, hvnode⟩
  · intro q j b hb
    by_cases hqj : q = p ∧ j = i
    · rw [hqj.1, hqj.2, hself] at hb
      cases hb
    · rw [hother q j hqj] at hb
      rw [hkeep q j b hqj hb]
      exact h.fds q j b hb
  · intro q j q' j' b hb hb'
    by_cases hqj : q = p ∧ j = i
    · rw [hqj.1, hqj.2, hself] at hb
      cases hb
    · by_cases hqj' : q' = p ∧ j' = i
      · rw [hqj'.1, hqj'.2, hself] at hb'
        cases hb'
      · rw [hother q j hqj] at hb
        rw [hother q' j' hqj'] at hb'
        exact h.unshared q j q' j' b hb hb'
  · intro w
    have hcount : s'.vn_refcount = s.vn_refcount := by rw [hs']; rfl
    have h1 := (hle w).trans (h.refcount w)
    have h2 : (s₀.vn_refcount w : ℕ∞) ≤ s.vn_refcount w + one v w := by
      exact_mod_cast (hcounts w).1
    rw [hcount]
    exact (ENat.add_le_add_iff_right (by simp)).mp (h1.trans h2)
  · intro w
    have hcount : s'.vn_opencount = s.vn_opencount := by rw [hs']; rfl
    have h1 := (hle w).trans (h.opencount w)
    have h2 : (s₀.vn_opencount w : ℕ∞) ≤ s.vn_opencount w + one v w := by
      exact_mod_cast (hcounts w).2
    rw [hcount]
    exact (ENat.add_le_add_iff_right (by simp)).mp (h1.trans h2)

/-- **`sys_close`** of a descriptor below `__OPEN_MAX` keeps the invariant and touches no slot of
another process. -/
theorem FdInv.sys_close (h : FdInv s) (vop_reclaim : V → Bool) {fd : Int} (hfd : fd ≠ OPEN_MAX)
    (pastEnd : FdCode V Unit) :
    wp (sys_close vop_reclaim p fd pastEnd)
      (fun _ s' => FdInv s' ∧ ∀ q, q ≠ p → ∀ j, s'.slotVnode q j = s.slotVnode q j)
      (fun _ s' => FdInv s' ∧ ∀ q, q ≠ p → ∀ j, s'.slotVnode q j = s.slotVnode q j)
      (fun _ => True) s := by
  unfold OS161.sys_close
  rw [wp_ite]
  split
  · exact ⟨h, fun _ _ _ => rfl⟩
  · rename_i hrange
    have hlt : fd.toNat < OPEN_MAX := by omega
    rw [dif_pos hlt, wp_read_bind]
    cases hslot : s.slot p ⟨fd.toNat, hlt⟩ with
    | none => exact ⟨h, fun _ _ _ => rfl⟩
    | some a =>
      dsimp only
      obtain ⟨f, v, hf, hv⟩ := h.fds p _ a hslot
      have hvnode : s.slotVnode p ⟨fd.toNat, hlt⟩ = some v := by
        simp [FdState.slotVnode, hslot, hf, hv]
      have hfile : (s.heap[a]?).bind Fd.fd_vfile = some v := by simp [hf, hv]
      rw [hfile]
      refine wp_seq (wp_vfs_close vop_reclaim v s) ?_ (fun _ _ hf => hf.elim) (fun _ h => h)
      rintro _ s1 ⟨hheap, hprocs, hcounts⟩
      obtain ⟨hinv, hothers⟩ := h.clear hslot hvnode hheap hprocs hcounts rfl
      exact ⟨hinv, fun q hq j => hothers q j fun hqj => hq hqj.1⟩

omit [DecidableEq V] in
/-- A process that has no open slot, or is gone, in place of process `p`. -/
theorem FdInv.without (h : FdInv s) (p : Nat) {t : Option (Fin OPEN_MAX → Option Nat)}
    (ht : ∀ i, t.bind (· i) = none) : FdInv { s with procs := update s.procs p t } := by
  generalize hs' : ({ s with procs := update s.procs p t } : FdState V) = s'
  have hslot : ∀ q j a, s'.slot q j = some a → s.slot q j = some a := by
    intro q j a ha
    subst hs'
    by_cases hq : q = p
    · subst hq
      simp [FdState.slot, ht j] at ha
    · have hkeep : update s.procs p t q = s.procs q := update_of_ne hq ..
      simpa [FdState.slot, hkeep] using ha
  have hheap : s'.heap = s.heap := by rw [← hs']
  have hsub : ∀ v, (s'.openSlots v).encard ≤ (s.openSlots v).encard := by
    intro v
    apply Set.encard_le_encard
    intro x hx
    obtain ⟨a, ha, hv⟩ := Option.bind_eq_some_iff.mp hx
    rw [hheap] at hv
    exact Option.bind_eq_some_iff.mpr ⟨a, hslot _ _ _ ha, hv⟩
  refine ⟨?_, ?_, ?_, ?_⟩
  · intro q j a ha
    rw [hheap]
    exact h.fds q j a (hslot q j a ha)
  · intro q j q' j' a ha ha'
    exact h.unshared q j q' j' a (hslot q j a ha) (hslot q' j' a ha')
  · intro v
    rw [show s'.vn_refcount = s.vn_refcount by rw [← hs']]
    exact (hsub v).trans (h.refcount v)
  · intro v
    rw [show s'.vn_opencount = s.vn_opencount by rw [← hs']]
    exact (hsub v).trans (h.opencount v)

/-- With an empty table the loop of `sys_fork` does nothing. -/
theorem copy_fdlist_empty {child : Nat} (hempty : ∀ i, s.slot p i = none)
    (slots : List (Fin OPEN_MAX)) : copy_fdlist p child slots s = .ok () s := by
  induction slots with
  | nil => rfl
  | cons i rest ih =>
    have hone : copy_fd p child i s = .ok () s := by
      unfold copy_fd
      rw [read_bind_run, hempty i]
      rfl
    rw [copy_fdlist, bind_run_ok hone]
    exact ih

/-- **`sys_fork`** by a process without descriptors. -/
theorem FdInv.sys_fork (h : FdInv s) {child : Nat} (hempty : ∀ i, s.slot p i = none)
    (hfree : s.procs child = none) (hlive : (s.procs p).isSome) :
    wp (sys_fork p child) (fun _ => FdInv) (fun _ => FdInv) (fun _ => True) s := by
  have hne : p ≠ child := by
    rintro rfl
    rw [hfree] at hlive
    cases hlive
  unfold OS161.sys_fork
  rw [wp_modify_bind]
  refine wp_of_run_ok (copy_fdlist_empty (fun i => ?_) _) ?_
  · show (update s.procs child _ p).bind _ = none
    rw [update_of_ne hne]
    exact hempty i
  · exact h.without child fun _ => rfl

/-- **Step lemma**: a disciplined action keeps the invariant. -/
theorem FdInv.step (h : FdInv s) {con : V} {act : FdAct V} {s' : FdState V}
    (hd : FdDiscipline s act) (hs : fdNext con s act = some s') : FdInv s' := by
  unfold fdNext at hs
  split at hs
  · rename_i henabled
    apply wp_finalState _ hs
    cases act with
    | «open» p call =>
      refine wp_then (h.sys_open con call) ?_
      intro _ s1 h1
      exact h1
    | close p fd vop_reclaim pastEnd =>
      exact wp_post (h.sys_close vop_reclaim hd pastEnd) (fun _ _ h => h.1) (fun _ _ h => h.1)
    | fork p child => exact h.sys_fork hd henabled.2 henabled.1
    | exit p => exact h.without p fun _ => rfl
  · cases hs

/-- The invariant holds in every state of a disciplined run. -/
theorem FdInv.reachable {con : V}
    (h : System.Reachable ((fdSystem con).restrict FdDiscipline) s) : FdInv s := by
  refine System.invariant ?_ ?_ h
  · rintro s ⟨-, hempty⟩
    have hnone : ∀ v, s.openSlots v = ∅ := by
      intro v
      ext x
      simp [FdState.openSlots, FdState.slotVnode, hempty]
    refine ⟨?_, ?_, ?_, ?_⟩
    · intro p i a ha
      rw [hempty] at ha
      cases ha
    · intro p i q j a ha
      rw [hempty] at ha
      cases ha
    · intro v
      simp [hnone]
    · intro v
      simp [hnone]
  · intro s act s' hinv hstep
    exact hinv.step hstep.1 hstep.2

end Invariant

/-! ## Main result -/

/-- **Descriptors of disciplined runs**: in every run in which only processes without descriptors
fork and nobody closes descriptor `__OPEN_MAX`, a `sys_close` leaves the other processes' slots
alone, both counters of each vnode cover the slots open on it, and tables point to existing
`struct fd` objects. -/
theorem descriptors_disciplined (con : V) (s : FdState V)
    (h : System.Reachable ((fdSystem con).restrict FdDiscipline) s) :
    FdOk ((fdSystem con).restrict FdDiscipline) s := by
  have hinv := FdInv.reachable h
  refine ⟨?_, hinv.refcount, hinv.opencount, ?_⟩
  · intro p fd vop_reclaim pastEnd s' hstep q hq i v hv
    obtain ⟨hd, hnext⟩ := hstep
    change fdNext con s (.close p fd vop_reclaim pastEnd) = some s' at hnext
    unfold fdNext at hnext
    split at hnext
    · have hclose := hinv.sys_close (p := p) vop_reclaim hd pastEnd
      have hlocal : ∀ q, q ≠ p → ∀ j, s'.slotVnode q j = s.slotVnode q j :=
        wp_finalState (wp_post hclose (fun _ _ h => h.2) (fun _ _ h => h.2)) hnext
      rw [hlocal q hq i]
      exact hv
    · cases hnext
  · intro p i a ha
    exact hinv.lt_length ha

/-- Process 1, without descriptors; vnode 0 is the console. -/
def oneProcess : FdState Nat where
  vn_refcount := fun v => if v = 0 then 1 else 0
  vn_opencount := fun _ => 0
  heap := []
  procs := fun p => if p = 1 then some fun _ => none else none

/-- A call of `sys_open` that finds vnode 5 under the name "f". -/
def openFive : OpenCall Nat where
  filename_is_null := false
  copyinstr := .ok ([102], 2)
  flags := O_RDONLY
  vfs :=
    { lookparent := .error .enoent, creat := .error .enoent, lookup := .ok 5, vop_open := none,
      vop_truncate := none, vop_reclaim := fun _ => true }

theorem oneProcess_init : (fdSystem 0).init oneProcess := by
  refine ⟨rfl, fun p i => ?_⟩
  by_cases hp : p = 1
  · simp [FdState.slot, oneProcess, hp]
  · simp [FdState.slot, oneProcess, hp]

/-- After one `sys_open`, descriptor 3 of process 1 is open on vnode 5. -/
theorem descriptors_disciplined_open :
    ∃ s : FdState Nat, s.slotVnode 1 3 = some 5 ∧
      FdOk ((fdSystem 0).restrict FdDiscipline) s := by
  have hrun : ∃ s, fdNext 0 oneProcess (.open 1 openFive) = some s ∧
      s.slotVnode 1 3 = some 5 := ⟨_, rfl, rfl⟩
  obtain ⟨s, hs, hslot⟩ := hrun
  exact ⟨s, hslot, descriptors_disciplined 0 s
    (.step (.open 1 openFive) (.init oneProcess_init) ⟨trivial, hs⟩)⟩

/-- Process 1 opens a file and forks; when it closes the file, descriptor 3 of the child is no
longer open on anything. -/
theorem descriptors_lost_by_close :
    ∃ s, System.Reachable (fdSystem 0) s ∧ ¬ FdOk (fdSystem 0) s := by
  have hrun : ∃ s s', System.follow (fdNext 0) [.open 1 openFive, .fork 1 2] oneProcess = some s ∧
      fdNext 0 s (.close 1 3 (fun _ => true) (pure ())) = some s' ∧
      s.slotVnode 2 3 = some 5 ∧ s'.slotVnode 2 3 = none := ⟨_, _, rfl, rfl, rfl, rfl⟩
  obtain ⟨s, s', hs, hclose, hbefore, hafter⟩ := hrun
  refine ⟨s, System.Reachable.follow _ (.init oneProcess_init) hs, fun hok => ?_⟩
  have hkept := hok.close_local 1 3 _ _ s' hclose 2 (by decide) 3 5 hbefore
  rw [hafter] at hkept
  cases hkept

end OS161
