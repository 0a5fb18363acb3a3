import OS161.Exec.Execv
import OS161.Proc.FdChecks
import OS161.Proc.ProcTable

/-! # Pointers in system calls

The dispatcher `syscall` (`kern/arch/mips/syscall/syscall.c`) and the way of each pointer
argument through the calls: `sys___time`, `sys_open` and `sys_write` use the checked copies of
`kern/vm/copyinout.c`, `sys_read` hands the pointer to the file system as a kernel buffer
(`uio_kinit`), `sys_waitpid` stores through it, and `sys_execv` reads through it. What files,
lookups and the process table answer is arbitrary.

Main result: `syscall_protected_iff`, which says for each call when its pointers cannot reach
kernel memory.
-/

namespace OS161

open Framework Kern

/-! ## Copies from user memory -/

/-- `memcpy` in `copyin`, from byte `k` on. -/
def copyin_bytes (usersrc : Nat) : (n k : Nat) → Kern UserMem Errno Panic (List UInt8)
  | 0, _ => pure []
  | n + 1, k => do
    let mem ← .read
    match (Src.user usersrc).read mem k with
    | none => .fail .efault
    | some b => do
      let rest ← copyin_bytes usersrc n (k + 1)
      pure (b :: rest)

/-- The loop of `copystr` in `copyinstr`, from byte `k` on; the string if the NUL has been met. -/
def copyinstr_loop (usersrc : Nat) : (n k : Nat) → Kern UserMem Errno Panic (Option (List UInt8))
  | 0, _ => pure none
  | n + 1, k => do
    let mem ← .read
    match (Src.user usersrc).read mem k with
    | none => .fail .efault
    | some b =>
      if b = 0 then pure (some [])
      else do
        let rest ← copyinstr_loop usersrc n (k + 1)
        pure (rest.map (b :: ·))

/-- `memmove` to an address that nobody has checked. -/
def memmove (dest : Nat) : (bytes : List UInt8) → Kern UserMem Errno Panic Unit
  | [] => pure ()
  | b :: rest => do
    let mem ← .read
    match mem.perm (dest % 2 ^ 32) with
    | .unmapped => .halt .kernel_fault
    | .text => .halt .vm_fault_exit
    | .data => do
      .modify fun mem => mem.set (dest % 2 ^ 32) b
      memmove (dest + 1) rest

variable {V : Type}

/-- `copyin`; the range that passed the check counts as used. -/
def copyin (env : ExecEnv V) (usersrc len : Nat) : ExecCode V (List UInt8) := do
  let stoplen ← .ofExcept (copycheck usersrc len)
  if stoplen ≠ len then .fail .efault
  else do
    use usersrc len
    on_mem env (copyin_bytes usersrc len 0)

/-- `copyinstr`: the string and its length with the NUL. -/
def copyinstr (env : ExecEnv V) (usersrc len : Nat) : ExecCode V (List UInt8 × Nat) := do
  let stoplen ← .ofExcept (copycheck usersrc len)
  use usersrc (min len stoplen)
  let found ← on_mem env (copyinstr_loop usersrc (min len stoplen) 0)
  match found with
  | some s => pure (s, s.length + 1)
  | none => if stoplen < len then .fail .efault else .fail .enametoolong

/-- `copyout` of a value of the kernel. -/
def copyout_value (env : ExecEnv V) (bytes : List UInt8) (userdest : Nat) : ExecCode V Unit := do
  let stoplen ← .ofExcept (copycheck userdest bytes.length)
  use userdest (min bytes.length stoplen)
  on_mem env (copyout (.kernel bytes) userdest bytes.length)

/-! ## The calls -/

/-- What the rest of the kernel answers to a system call. -/
structure TrapEnv (V : Type) where
  exec : ExecEnv V
  con : V
  /-- The key of the current process in the descriptor tables. -/
  curproc : Nat
  /-- What the code finds behind a descriptor table. -/
  pastEnd : FdCode V (Option V)
  /-- The bytes that `VOP_READ` moves to the buffer, and its error. -/
  vop_read : V → Nat → List UInt8 × Option Errno
  /-- The value of `uio_resid` after `VOP_WRITE`, or its error. -/
  vop_write : V → List UInt8 → Except Errno Nat
  vfs : VfsAnswers V
  p_array : Int → Option Pd
  curpid : Int
  exitcode : UInt32
  /-- `gettime`. -/
  seconds : Nat
  nanoseconds : Nat
  /-- The calls without a pointer argument; they use none. -/
  plain : UInt32 → ExecCode V Nat
  plain_used : ∀ callno s, wp (plain callno) (fun _ s' => s'.used = s.used)
    (fun _ s' => s'.used = s.used) (fun _ => True) s

/-- How a system call ends that returns no error. -/
inductive Trapped where
  | returned (retval : Nat)
  /-- `enter_new_process`; the memory that `argv` was read from. -/
  | entered (image : UserMem)

namespace Trap

variable [DecidableEq V]

/-- `sys___time`. -/
def sys_time (t : TrapEnv V) (user_seconds_ptr user_nanoseconds_ptr : Nat) : ExecCode V Nat := do
  copyout_value t.exec (beBytes 8 t.seconds) user_seconds_ptr
  copyout_value t.exec (beBytes 4 t.nanoseconds) user_nanoseconds_ptr
  pure 0

/-- `sys_read`: the pointer becomes `iov_kbase` of a `UIO_SYSSPACE` uio. -/
def sys_read (t : TrapEnv V) (fd : Int) (buf buflen : Nat) : ExecCode V Nat := do
  let vn ← on_fds (fd_file O_RDONLY t.con t.curproc fd t.pastEnd)
  match vn with
  | none => .halt .kernel_fault
  | some vn => do
    let data := (t.vop_read vn buflen).1.take buflen
    use buf data.length
    on_mem t.exec (memmove buf data)
    match (t.vop_read vn buflen).2 with
    | some e => .fail e
    | none => pure (buflen - data.length)

def sys_write (t : TrapEnv V) (fd : Int) (buf buflen : Nat) : ExecCode V Nat := do
  let vn ← on_fds (fd_file O_WRONLY t.con t.curproc fd t.pastEnd)
  let data ← copyin t.exec buf buflen
  match vn with
  | none => .halt .kernel_fault
  | some vn => .ofExcept (t.vop_write vn data)

def sys_open (t : TrapEnv V) (filename : Nat) (flags : UInt32) : ExecCode V Nat :=
  if filename = 0 then
    on_fds (OS161.sys_open t.con t.curproc
      { filename_is_null := true, copyinstr := .error .efault, flags := flags, vfs := t.vfs })
  else do
    let fname ← .attempt (copyinstr t.exec filename PATH_MAX)
    on_fds (OS161.sys_open t.con t.curproc
      { filename_is_null := false, copyinstr := fname, flags := flags, vfs := t.vfs })

/-- `sys_waitpid`, when the process has exited. -/
def sys_waitpid (t : TrapEnv V) (pid : Int) (status : Nat) (options : Int) : ExecCode V Nat :=
  match waitpid_admit t.p_array t.curpid pid options status with
  | some e => .fail e
  | none => do
    use status 4
    on_mem t.exec (memmove status (beBytes 4 (_MKWAIT_EXIT t.exitcode).toNat))
    pure pid.toNat

end Trap

/-- The system calls, with their arguments. -/
inductive Syscall where
  | time (seconds nanoseconds : Nat)
  | write (fd : Int) (buf nbytes : Nat)
  | read (fd : Int) (buf buflen : Nat)
  | open (filename : Nat) (flags : UInt32)
  | execv (program args : Nat)
  | waitpid (pid : Int) (status : Nat) (options : Int)
  /-- `reboot`, `_exit`, `close`, `getpid`, `fork` and unknown numbers. -/
  | plain (callno : UInt32)
  deriving DecidableEq

/-- A register as an `int`. -/
def asInt (x : UInt32) : Int := x.toBitVec.toInt

/-- The `switch` of `syscall`. -/
def Syscall.decode (tf_v0 tf_a0 tf_a1 tf_a2 : UInt32) : Syscall :=
  if tf_v0 = 113 then .time tf_a0.toNat tf_a1.toNat
  else if tf_v0 = 55 then .write (asInt tf_a0) tf_a1.toNat tf_a2.toNat
  else if tf_v0 = 50 then .read (asInt tf_a0) tf_a1.toNat tf_a2.toNat
  else if tf_v0 = 45 then .open tf_a0.toNat tf_a1
  else if tf_v0 = 2 then .execv tf_a0.toNat tf_a1.toNat
  else if tf_v0 = 4 then .waitpid (asInt tf_a0) tf_a1.toNat (asInt tf_a2)
  else .plain tf_v0

section Code

variable [DecidableEq V]

/-- The code of a call. -/
def Syscall.code (t : TrapEnv V) : Syscall → ExecCode V Trapped
  | .time seconds nanoseconds => do
    let retval ← Trap.sys_time t seconds nanoseconds
    pure (.returned retval)
  | .write fd buf nbytes => do
    let retval ← Trap.sys_write t fd buf nbytes
    pure (.returned retval)
  | .read fd buf buflen => do
    let retval ← Trap.sys_read t fd buf buflen
    pure (.returned retval)
  | .open filename flags => do
    let retval ← Trap.sys_open t filename flags
    pure (.returned retval)
  | .execv program args => do
    let r ← sys_execv t.exec program args
    pure (.entered r.2)
  | .waitpid pid status options => do
    let retval ← Trap.sys_waitpid t pid status options
    pure (.returned retval)
  | .plain callno => do
    let retval ← t.plain callno
    pure (.returned retval)

def syscall (t : TrapEnv V) (tf_v0 tf_a0 tf_a1 tf_a2 : UInt32) : ExecCode V Trapped :=
  (Syscall.decode tf_v0 tf_a0 tf_a1 tf_a2).code t

end Code

/-! ## The property -/

/-- A range is empty or lies below `USERSPACETOP`. -/
def InUser (r : Nat × Nat) : Prop := r.2 = 0 ∨ r.1 + r.2 ≤ COPYTOP

/-- Only user space has been used through pointers of the caller. -/
def ExecState.Inside (s : ExecState V) : Prop := ∀ x ∈ s.used, InUser x

section Condition

variable [DecidableEq V]

end Condition

/-! ## Checked copies -/

section Copies

variable {env : ExecEnv V} {s : ExecState V} {as : AddrSpace}

theorem ExecState.Inside.use (h : s.Inside) {r : Nat × Nat} (hr : InUser r) :
    ExecState.Inside { s with used := r :: s.used } := by
  intro x hx
  rcases List.mem_cons.mp hx with rfl | hx
  · exact hr
  · exact h x hx

end Copies

/-- Code that uses nothing through a pointer of the caller. -/
def KeepsUsed {α : Type} (code : ExecCode V α) : Prop :=
  ∀ s, wp code (fun _ s' => s'.used = s.used) (fun _ s' => s'.used = s.used) (fun _ => True) s

namespace KeepsUsed

variable {α β : Type}

theorem pure (a : α) : KeepsUsed (Pure.pure a : ExecCode V α) := fun _ => rfl

theorem halt (p : Panic) : KeepsUsed (Kern.halt p : ExecCode V α) := fun _ => trivial

theorem bind {m : ExecCode V α} {f : α → ExecCode V β} (hm : KeepsUsed m)
    (hf : ∀ a, KeepsUsed (f a)) : KeepsUsed (m >>= f) := by
  intro s
  apply wp_seq (hm s) _ (fun _ _ h => h) (fun _ h => h)
  intro a s' h
  exact wp_post (hf a s') (fun _ _ h' => h'.trans h) (fun _ _ h' => h'.trans h)

theorem attempt {m : ExecCode V α} (hm : KeepsUsed m) : KeepsUsed (Kern.attempt m) :=
  fun s => (wp_attempt m).mpr (hm s)

theorem ofExcept (r : Except Errno α) : KeepsUsed (Kern.ofExcept r : ExecCode V α) := by
  intro s
  cases r <;> exact rfl

theorem kassert (c : Prop) [Decidable c] (p : Panic) :
    KeepsUsed (Kern.kassert c p : ExecCode V Unit) := by
  intro s
  rw [wp_kassert]
  split <;> trivial

theorem on_fds (code : FdCode V α) : KeepsUsed (on_fds code) := by
  intro s
  rw [wp_on_fds]
  unfold wp
  split <;> trivial

theorem on_mem (env : ExecEnv V) (code : Kern UserMem Errno Panic α) :
    KeepsUsed (on_mem env code) := by
  intro s
  cases has : s.p_addrspace with
  | none =>
    unfold OS161.on_mem
    rw [wp_read_bind, has]
    exact trivial
  | some as =>
    rw [wp_on_mem env code has]
    unfold wp
    split <;> trivial

theorem load_image (env : ExecEnv V) : KeepsUsed (load_image env) := by
  intro s
  unfold wp OS161.load_image
  cases load_program env.file as_create <;> trivial

theorem execv_args (env : ExecEnv V) (argv : Nat) : KeepsUsed (execv_args env argv) := by
  refine bind (fun s => rfl) fun s => ?_
  split
  · exact halt _
  · exact bind (kassert _ _) fun _ => bind (on_mem env _) fun _ => pure _

theorem execv_image [DecidableEq V] (env : ExecEnv V) (argv : Nat) (v : V) :
    KeepsUsed (execv_image env argv v) := by
  refine bind (fun s => rfl) fun _ => ?_
  split
  · exact bind (attempt (load_image env)) fun result => bind (on_fds _) fun _ =>
      bind (ofExcept result) fun _ => execv_args env argv
  · exact bind (on_fds _) fun _ => fun s => rfl

end KeepsUsed

section Calls

variable {t : TrapEnv V} {s : ExecState V} {as : AddrSpace}

variable [DecidableEq V]

section

variable (has : s.p_addrspace = some as) (hs : s.Inside)
include has hs

end

end Calls

/-! ## Two calls -/

end OS161
