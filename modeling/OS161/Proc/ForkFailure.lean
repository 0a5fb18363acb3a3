import OS161.Proc.Descriptors
import OS161.Proc.Fork
import OS161.Proc.ProcTable
import OS161.Vm.AsCopy

/-! # `fork`: failures

The model of `sys_fork` in `kern/syscall/fork_syscalls.c` with all the allocations it makes: its
own, those of `as_copy`, `proc_create` and `thread_fork`, any of which can fail.

`child_tf` is overwritten with the parent's own trapframe, so that the `kfree(child_tf)` on the
last error path is not for memory from `kmalloc`. `proc_create` may return NULL, and `sys_fork`
does not look.
-/

namespace OS161.ForkCall

open Framework Kern Function

variable {V : Type} [DecidableEq V]

/-! ## The code -/

structure ForkState (V : Type) where
  /-- Physical memory and the answers of `kmalloc`. -/
  copy : CopyState
  p_array : Int → Option Pd
  fds : FdState V
  /-- The parent's trapframe. -/
  tf : Fork.Trapframe
  /-- The parent's address space. -/
  as : FullAddrSpace

/-- The circumstances of a call. -/
structure ForkEnv where
  /-- The calling process, and the one to be made. -/
  parent : Nat
  child : Nat
  /-- `curproc->pid`. -/
  curpid : Int
  /-- What is in the memory of `pid` and `pd_parent_pid` before they are set. -/
  stale_pid : Int
  stale_parent : Int

abbrev ForkCode (V α : Type) : Type := Kern (ForkState V) Errno Panic α

/-- Code that works on memory. -/
def onCopy {α : Type} (m : CopyCode α) : ForkCode V α :=
  .zoom ForkState.copy (fun s c => { s with copy := c }) m

/-- The index of the first free entry of `p_array` from `i` on. -/
def first_free_pid (p_array : Int → Option Pd) (i : Int) : Nat → Option Int
  | 0 => none
  | n + 1 => if p_array i = none then some i else first_free_pid p_array (i + 1) n

/-- An allocation that is made if the one before it succeeded. -/
def kmalloc_after (before : Bool) : ForkCode V Bool :=
  if before then onCopy kmalloc_next else pure false

/-- `lock_create` and `cv_create` allocate the object, its name and its wait channel; if one of them
fails they return NULL, which `proc_create` stores. -/
def create_three : ForkCode V Unit := do
  let object ← onCopy kmalloc_next
  let name ← kmalloc_after object
  let _ ← kmalloc_after name
  pure ()

/-- `proc_create`: the pid of the new process, or NULL. -/
def proc_create (env : ForkEnv) : ForkCode V (Option Int) := do
  let proc ← onCopy kmalloc_next
  let p_name ← kmalloc_after proc
  if p_name then do
    .modify fun s =>
      { s with fds := { s.fds with procs := update s.fds.procs env.child (some fun _ => none) } }
    let s ← .read
    match first_free_pid s.p_array PID_MIN (PID_MAX - PID_MIN).toNat with
    | none => pure (some env.stale_pid)
    | some i => do
      let pid ← onCopy kmalloc_next
      .kassert (pid = true) .proc_create_null_pd
      create_three
      create_three
      .modify fun s =>
        { s with p_array := update s.p_array i (some {
            pd_parent_pid := env.stale_parent
            pd_pid := i
            pd_exitcode := 0
            pd_exiting := false
            owner := env.child }) }
      pure (some i)
  else pure none

def set_parent (parent child : Int) : ForkCode V Unit :=
  if 0 ≤ child ∧ child ≤ PID_MAX then do
    let s ← .read
    match s.p_array child with
    | none => .halt .set_parent_null
    | some pd =>
      .modify fun s =>
        { s with p_array := update s.p_array child (some { pd with pd_parent_pid := parent }) }
  else .halt .set_parent_index

/-- `thread_fork`: the thread, its name, its stack and its place in the process. -/
def thread_fork : ForkCode V Unit := do
  let thread ← onCopy kmalloc_next
  let t_name ← kmalloc_after thread
  let t_stack ← kmalloc_after t_name
  let added ← kmalloc_after t_stack
  if added then pure () else .fail .enomem

/-- `sys_fork` from `proc_create` on. -/
def fork_child (env : ForkEnv) : ForkCode V Int := do
  let new_proc ← proc_create env
  match new_proc with
  | none =>
    -- the table copy or `new_proc->pid` goes through the NULL pointer
    .halt .sys_fork_null_proc
  | some pid => do
    .zoom ForkState.fds (fun s f => { s with fds := f })
      (copy_fdlist env.parent env.child (List.finRange OPEN_MAX))
    set_parent env.curpid pid
    let result ← .attempt thread_fork
    match result with
    | .error _ => .halt .kfree_not_allocated
    | .ok _ => pure pid

/-- `sys_fork`, with the code of `as_copy`: the pid of the child. -/
def sys_fork (as_copy : FullAddrSpace → CopyCode FullAddrSpace) (env : ForkEnv) : ForkCode V Int := do
  let child_tf ← onCopy kmalloc_next
  if child_tf then do
    let s ← .read
    let result ← .attempt (onCopy (as_copy s.as))
    match result with
    | .error _ => .fail .enomem
    | .ok _ => fork_child env
  else .fail .enomem

/-! ## The property -/

/-- What a failed call must leave alone. -/
structure Unchanged (env : ForkEnv) (s s' : ForkState V) : Prop where
  pids : ∀ i, (s'.p_array i).isSome = (s.p_array i).isSome
  vn_refcount : s'.fds.vn_refcount = s.fds.vn_refcount
  vn_opencount : s'.fds.vn_opencount = s.fds.vn_opencount
  fdlist : s'.fds.procs env.parent = s.fds.procs env.parent
  fds : s'.fds.heap = s.fds.heap
  tf : s'.tf = s.tf
  as : s'.as = s.as

/-- A call that returns an error has changed nothing, and no call stops the machine. -/
def ForkAtomic (as_copy : FullAddrSpace → CopyCode FullAddrSpace) (env : ForkEnv) (s : ForkState V) : Prop :=
  wp (sys_fork as_copy env) (fun _ _ => True) (fun _ s' => Unchanged env s s') (fun _ => False) s

/-! ## Errors -/

section Errors

variable {env : ForkEnv} {s : ForkState V}

omit [DecidableEq V] in
theorem kmalloc_no_error : Kern.NoError (onCopy kmalloc_next : ForkCode V Bool) :=
  fun _ => trivial

omit [DecidableEq V] in
theorem kmalloc_after_no_error (before : Bool) : Kern.NoError (kmalloc_after before : ForkCode V Bool) := by
  cases before with
  | false => exact Kern.NoError.pure false
  | true => exact kmalloc_no_error

omit [DecidableEq V] in
theorem create_three_no_error : Kern.NoError (create_three : ForkCode V Unit) := by
  refine kmalloc_no_error.bind fun object => (kmalloc_after_no_error object).bind fun name => ?_
  exact (kmalloc_after_no_error name).bind fun _ => Kern.NoError.pure ()

omit [DecidableEq V] in
theorem proc_create_no_error : Kern.NoError (proc_create env : ForkCode V (Option Int)) := by
  refine kmalloc_no_error.bind fun proc => (kmalloc_after_no_error proc).bind fun p_name => ?_
  split
  · refine (Kern.NoError.modify _).bind fun _ => Kern.NoError.read_bind fun s => ?_
    split
    · exact Kern.NoError.pure _
    · refine kmalloc_no_error.bind fun pid => (Kern.NoError.kassert _ _).bind fun _ => ?_
      refine create_three_no_error.bind fun _ => create_three_no_error.bind fun _ => ?_
      exact (Kern.NoError.modify _).bind fun _ => Kern.NoError.pure _
  · exact Kern.NoError.pure none

omit [DecidableEq V] in
theorem set_parent_no_error (parent child : Int) :
    Kern.NoError (set_parent parent child : ForkCode V Unit) := by
  unfold set_parent
  split
  · refine Kern.NoError.read_bind fun s => ?_
    cases s.p_array child with
    | none => exact Kern.NoError.halt _
    | some pd => exact Kern.NoError.modify _
  · exact Kern.NoError.halt _

theorem copy_fdlist_no_error (p child : Nat) (l : List (Fin OPEN_MAX)) :
    Kern.NoError (copy_fdlist p child l : FdCode V Unit) := by
  induction l with
  | nil => exact Kern.NoError.pure ()
  | cons i rest ih =>
    have hone : Kern.NoError (copy_fd p child i : FdCode V Unit) := by
      refine Kern.NoError.read_bind fun s => ?_
      cases s.slot p i with
      | none => exact Kern.NoError.pure ()
      | some a =>
        refine (Kern.NoError.modify _).bind fun _ => ?_
        cases (s.heap[a]?).bind Fd.fd_vfile with
        | none => exact Kern.NoError.halt _
        | some v => exact Kern.NoError.modify _
    exact hone.bind fun _ => ih

/-- After `as_copy`, no failure becomes an error number. -/
theorem fork_child_no_error : Kern.NoError (fork_child env : ForkCode V Int) := by
  refine proc_create_no_error.bind fun new_proc => ?_
  cases new_proc with
  | none => exact Kern.NoError.halt _
  | some pid =>
    refine ((copy_fdlist_no_error _ _ _).zoom _ _).bind fun _ => ?_
    refine (set_parent_no_error _ _).bind fun _ => (Kern.NoError.attempt _).bind fun result => ?_
    cases result with
    | error e => exact Kern.NoError.halt _
    | ok u => exact Kern.NoError.pure _

omit [DecidableEq V] in
theorem unchanged_copy (c : CopyState) : Unchanged env s { s with copy := c } :=
  ⟨fun _ => rfl, rfl, rfl, rfl, rfl, rfl, rfl⟩

end Errors

/-! ## When a call is atomic -/

section Atomic

variable {env : ForkEnv} {s : ForkState V} {copy : FullAddrSpace → CopyCode FullAddrSpace}

/-- The state after the first allocation. -/
def ForkState.afterFirst (s : ForkState V) : ForkState V :=
  { s with copy := { s.copy with calls := s.copy.calls + 1 } }

/-- Without memory for the trapframe, `ENOMEM`. -/
theorem sys_fork_first (h : s.copy.kmalloc s.copy.calls = false) :
    sys_fork copy env s = .err .enomem s.afterFirst := by
  have hk : (onCopy kmalloc_next : ForkCode V Bool) s = .ok false s.afterFirst := by
    rw [← h]
    rfl
  unfold sys_fork
  rw [bind_run_ok hk]
  rfl

section

variable (h : s.copy.kmalloc s.copy.calls = true)
include h

theorem sys_fork_rest :
    sys_fork copy env s =
      (Kern.attempt (onCopy (copy s.as)) >>= fun result => match result with
        | .error _ => .fail .enomem
        | .ok _ => fork_child env : ForkCode V Int) s.afterFirst := by
  have hk : (onCopy kmalloc_next : ForkCode V Bool) s = .ok true s.afterFirst := by
    rw [← h]
    rfl
  unfold sys_fork
  rw [bind_run_ok hk]
  rfl

/-- A failed copy of the address space is an error that changes nothing... -/
theorem sys_fork_copy_err {e : Errno} {c : CopyState}
    (hcopy : copy s.as s.afterFirst.copy = .err e c) :
    sys_fork copy env s = .err .enomem { s with copy := c } := by
  rw [sys_fork_rest h]
  simp only [bind, Kern.andThen, Kern.attempt, onCopy, Kern.zoom, hcopy]
  rfl

/-- ...a panic in it is a panic... -/
theorem sys_fork_copy_panic {p : Panic}
    (hcopy : copy s.as s.afterFirst.copy = .panic p) : sys_fork copy env s = .panic p := by
  rw [sys_fork_rest h]
  simp only [bind, Kern.andThen, Kern.attempt, onCopy, Kern.zoom, hcopy]

/-- ...and after a copy there is no error number any more. -/
theorem sys_fork_copy_ok {new : FullAddrSpace} {c : CopyState}
    (hcopy : copy s.as s.afterFirst.copy = .ok new c) :
    sys_fork copy env s = fork_child env { s with copy := c } := by
  rw [sys_fork_rest h]
  simp only [bind, Kern.andThen, Kern.attempt, onCopy, Kern.zoom, hcopy]
  rfl

end

theorem forkAtomic_of_err {e : Errno} {c : CopyState}
    (h : sys_fork copy env s = .err e { s with copy := c }) : ForkAtomic copy env s :=
  wp_of_run_err h (unchanged_copy c)

theorem not_forkAtomic_of_panic {p : Panic} (h : sys_fork copy env s = .panic p) :
    ¬ ForkAtomic copy env s :=
  fun hat => wp_panic h hat

/-- With `as_copy` as it is, the call must fail before its first assertion. -/
theorem forkAtomic_as_copy :
    ForkAtomic as_copy env s ↔
      s.copy.kmalloc s.copy.calls = false ∨ s.copy.kmalloc (s.copy.calls + 1) = false := by
  cases h0 : s.copy.kmalloc s.copy.calls with
  | false => exact ⟨fun _ => .inl rfl, fun _ => forkAtomic_of_err (sys_fork_first h0)⟩
  | true =>
    have hrun := as_copy_run s.afterFirst.copy s.as
    have hcalls : s.afterFirst.copy.kmalloc s.afterFirst.copy.calls = s.copy.kmalloc (s.copy.calls + 1) := rfl
    cases h1 : s.copy.kmalloc (s.copy.calls + 1) with
    | false =>
      rw [if_pos (hcalls.trans h1)] at hrun
      exact ⟨fun _ => .inr rfl, fun _ => forkAtomic_of_err (sys_fork_copy_err h0 hrun)⟩
    | true =>
      -- whether the page table of the stack is there or not, the machine stops
      rw [if_neg (by simp [hcalls, h1])] at hrun
      constructor
      · intro hat
        split at hrun
        · exact absurd hat (not_forkAtomic_of_panic (sys_fork_copy_panic h0 hrun))
        · exact absurd hat (not_forkAtomic_of_panic (sys_fork_copy_panic h0 hrun))
      · intro h
        rcases h with h | h
        · cases h
        · cases h

/-- With an `as_copy` that succeeds, the call must run to its end. -/
theorem forkAtomic_copying (hcopy : ∀ old c, ∃ new c', copy old c = .ok new c') :
    ForkAtomic copy env s ↔
      s.copy.kmalloc s.copy.calls = false ∨ ∃ pid s', sys_fork copy env s = .ok pid s' := by
  cases h0 : s.copy.kmalloc s.copy.calls with
  | false => exact ⟨fun _ => .inl rfl, fun _ => forkAtomic_of_err (sys_fork_first h0)⟩
  | true =>
    obtain ⟨new, c, hnew⟩ := hcopy s.as s.afterFirst.copy
    have hrest : sys_fork copy env s = _ := sys_fork_copy_ok h0 hnew
    constructor
    · intro hat
      cases hrun : sys_fork copy env s with
      | ok pid s' => exact .inr ⟨pid, s', rfl⟩
      | err e s' =>
        rw [hrest] at hrun
        exact (wp_err hrun (fork_child_no_error _)).elim
      | panic p => exact absurd hat (not_forkAtomic_of_panic hrun)
    · intro h
      rcases h with h | ⟨pid, s', hrun⟩
      · cases h
      · exact wp_of_run_ok hrun trivial

/-- **When a failing `fork` is atomic**: only if it fails before the address space is copied. With
`as_copy` as it is nothing is beyond that point; with any `as_copy` that works, each later
failure stops the machine instead of returning. -/
theorem fork_atomic_iff (env : ForkEnv) (s : ForkState V) :
    (ForkAtomic as_copy env s ↔
      s.copy.kmalloc s.copy.calls = false ∨ s.copy.kmalloc (s.copy.calls + 1) = false) ∧
    ∀ copy : FullAddrSpace → CopyCode FullAddrSpace, (∀ old c, ∃ new c', copy old c = .ok new c') →
      (ForkAtomic copy env s ↔
        s.copy.kmalloc s.copy.calls = false ∨ ∃ pid s', sys_fork copy env s = .ok pid s') :=
  ⟨forkAtomic_as_copy, fun _ hcopy => forkAtomic_copying hcopy⟩

end Atomic

/-! ## A call -/

/-- A process with nothing but a program, and plenty of memory. -/
def firstCall : ForkState Nat where
  copy := plenty
  p_array := fun _ => none
  fds := {
    vn_refcount := fun _ => 0
    vn_opencount := fun _ => 0
    heap := []
    procs := fun _ => some fun _ => none }
  tf := fun _ => 0
  as := smallProgram

def firstEnv : ForkEnv where
  parent := 0
  child := 1
  curpid := 2
  stale_pid := 0
  stale_parent := 0

/-- The machine stops in `as_copy`. -/
theorem fork_panics :
    sys_fork as_copy firstEnv firstCall = .panic .as_copy_pbase1 ∧
      ¬ ForkAtomic as_copy firstEnv firstCall := by
  have hrun : sys_fork as_copy firstEnv firstCall = .panic .as_copy_pbase1 := by
    apply sys_fork_copy_panic rfl
    rw [as_copy_run, if_neg (by simp [ForkState.afterFirst, firstCall, plenty]),
      if_neg (by simp [ForkState.afterFirst, firstCall, plenty])]
  exact ⟨hrun, not_forkAtomic_of_panic hrun⟩

end OS161.ForkCall
