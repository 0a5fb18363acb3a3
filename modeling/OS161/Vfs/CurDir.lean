import OS161.Framework.TransitionSystem

/-! # The current directory and the spinlock of the process

`vfs_getcurdir` and `proc_create_runprogram` do a `VOP_INCREF` on the current directory with the
spinlock `p_lock` held; `vnode_incref` takes the big lock of the VFS layer, which is a sleep
lock (`kern/vfs/vfscwd.c`, `kern/proc/proc.c`, `kern/vfs/vnode.c`, `kern/vfs/vfslist.c`).

The calls are programs in a small language of lock operations. A static judgement says which
locks a program has at each point; the machine keeps it, so that what a thread has taken follows
from what it has still to do.
-/

namespace OS161

open Framework Function

/-! ## Programs -/

/-- What a thread has still to do, as far as the locks matter. -/
inductive LockProg where
  | done
  /-- `spinlock_acquire(&curproc->p_lock)`. -/
  | spinlock_acquire (k : LockProg)
  | spinlock_release (k : LockProg)
  | vfs_biglock_acquire (k : LockProg)
  | vfs_biglock_release (k : LockProg)
  /-- The test of `curproc->p_cwd`. -/
  | ifCwd (yes no : LockProg)
  /-- `curproc->p_cwd = dir`, or `NULL`. -/
  | setCwd (cwd : Bool) (k : LockProg)
  /-- Work that may wait for a disk, for memory, or for a sleep lock other than the big lock. -/
  | block (k : LockProg)
  /-- `thread_switch(S_ZOMBIE, NULL)`. -/
  | zombie

namespace LockProg

/-- `VOP_INCREF`, and `VOP_INCOPEN`, `VOP_GETTYPE`, which need the big lock and do not wait with it. -/
def vnode_incref (k : LockProg) : LockProg := vfs_biglock_acquire (vfs_biglock_release k)

/-- `VOP_DECREF` and the other operations on vnodes, which may do I/O with the big lock. -/
def vop (k : LockProg) : LockProg := vfs_biglock_acquire (block (vfs_biglock_release k))

/-- `vfs_getcurdir`, and what follows when there is a current directory or none. -/
def vfs_getcurdir (k : Bool → LockProg) : LockProg :=
  spinlock_acquire (ifCwd (vnode_incref (spinlock_release (k true))) (spinlock_release (k false)))

/-- `vfs_setcurdir` for a vnode that is a directory, or not. -/
def vfs_setcurdir (isdir : Bool) (k : LockProg) : LockProg :=
  vnode_incref <|
    if isdir then
      vnode_incref (spinlock_acquire (ifCwd
        (setCwd true (spinlock_release (vop k))) (setCwd true (spinlock_release k))))
    else k

/-- How a path starts. -/
inductive PathStart where
  /-- A relative path. -/
  | relative
  /-- `device:path`. -/
  | device
  /-- `/path`, from the boot file system. -/
  | boot
  /-- `:path`, from the root of the current file system. -/
  | volume
  deriving DecidableEq, Repr

/-- A path, with what the lookups find. -/
structure LookupPath where
  start : PathStart
  /-- The device, or the boot file system, exists. -/
  startOk : Bool
  /-- Nothing follows the device name. -/
  isEmpty : Bool
  lookupOk : Bool

def getdevice (path : LookupPath) (k : Bool → LockProg) : LockProg :=
  match path.start with
  | .relative => vfs_getcurdir k
  | .device => if path.startOk then vop (k true) else k false
  | .boot => if path.startOk then vnode_incref (k true) else k false
  | .volume => vfs_getcurdir fun cwd => if cwd then vop (vop (k true)) else k false

def vfs_lookup (path : LookupPath) (k : Bool → LockProg) : LockProg :=
  vfs_biglock_acquire <| getdevice path fun ok =>
    if ¬ ok then vfs_biglock_release (k false)
    else if path.isEmpty then vfs_biglock_release (k true)
    else vop (vop (vfs_biglock_release (k path.lookupOk)))

def vfs_lookparent (path : LookupPath) (k : Bool → LockProg) : LockProg :=
  vfs_biglock_acquire <| getdevice path fun ok =>
    if ¬ ok then vfs_biglock_release (k false)
    else if path.isEmpty then vop (vfs_biglock_release (k false))
    else vop (vop (vfs_biglock_release (k path.lookupOk)))

/-- What `vfs_open` does for `O_TRUNC`. -/
inductive TruncCase where
  /-- The flag is not set. -/
  | no
  /-- The file is open for reading only. -/
  | readonly
  | done
  | failed
  deriving DecidableEq, Repr

/-- How `vfs_open` is called, and what its calls return. -/
structure OpenCase where
  /-- The access mode is one of the three. -/
  howOk : Bool
  creat : Bool
  creatOk : Bool
  openOk : Bool
  trunc : TruncCase

/-- The truncation in `vfs_open`, with `VOP_DECOPEN` and `VOP_DECREF` after an error. -/
def openTrunc : TruncCase → LockProg
  | .no => done
  | .readonly => vop (vop done)
  | .done => vop done
  | .failed => vop (vop (vop done))

/-- `vfs_open` from `VOP_OPEN` on. -/
def openVnode (o : OpenCase) : LockProg :=
  block (if o.openOk then vnode_incref (openTrunc o.trunc) else vop done)

def vfs_open (path : LookupPath) (o : OpenCase) : LockProg :=
  if ¬ o.howOk then done
  else if o.creat then
    vfs_lookparent path fun ok =>
      if ok then vop (vop (if o.creatOk then openVnode o else done)) else done
  else vfs_lookup path fun ok => if ok then openVnode o else done

/-- The output of `vfs_getcwd`: two `uiomove`s that may fail, and `VOP_NAMEFILE`. -/
def getcwdOutput (name colon : Bool) : LockProg :=
  block (if name then block (if colon then block (vop done) else vop done) else vop done)

/-- `vfs_getcwd`; `named` when the volume has a name. -/
def vfs_getcwd (named name colon : Bool) : LockProg :=
  vfs_getcurdir fun cwd =>
    if cwd then (if named then getcwdOutput name colon else vnode_incref (getcwdOutput name colon))
    else done

def vfs_chdir (path : LookupPath) (isdir : Bool) : LockProg :=
  vfs_lookup path fun ok => if ok then vfs_setcurdir isdir (vop done) else done

/-- `proc_create_runprogram`, when `proc_create` has found memory or not. -/
def proc_create_runprogram (mem : Bool) : LockProg :=
  if mem then spinlock_acquire (ifCwd (vnode_incref (spinlock_release done)) (spinlock_release done))
  else done

/-- `thread_fork`: `proc_addthread` uses `p_lock`, and `kmalloc` under it spinlocks only. -/
def thread_fork (mem : Bool) : LockProg :=
  if mem then spinlock_acquire (spinlock_release done) else done

/-- `acquire_lock` in `sys__exit`, and `proc_remthread` in `thread_exit`. -/
def exitProg : LockProg := block (spinlock_acquire (spinlock_release zombie))

end LockProg

/-- The calls of a thread. -/
inductive DirCall where
  | vfs_getcwd (named name colon : Bool)
  | vfs_lookup (path : LockProg.LookupPath)
  | vfs_open (path : LockProg.LookupPath) (o : LockProg.OpenCase)
  | vfs_chdir (path : LockProg.LookupPath) (isdir : Bool)
  | proc_create_runprogram (mem : Bool)
  | thread_fork (mem : Bool)
  | sys__exit

def DirCall.code : DirCall → LockProg
  | .vfs_getcwd named name colon => LockProg.vfs_getcwd named name colon
  | .vfs_lookup path => LockProg.vfs_lookup path fun _ => .done
  | .vfs_open path o => LockProg.vfs_open path o
  | .vfs_chdir path isdir => LockProg.vfs_chdir path isdir
  | .proc_create_runprogram mem => LockProg.proc_create_runprogram mem
  | .thread_fork mem => LockProg.thread_fork mem
  | .sys__exit => LockProg.exitProg

/-! ## The machine -/

/-- Where a thread is. -/
inductive OnCpu (C : Type) where
  | S_RUN (cpu : C)
  | S_READY
  | S_SLEEP
  | S_ZOMBIE
  deriving DecidableEq, Repr

/-- The threads `T` of a process on the CPUs `C`. -/
structure DirState (T C : Type) where
  prog : T → LockProg
  t_state : T → OnCpu C
  c_curthread : C → Option T
  /-- `p_lock`: the thread that has taken it, and `lk_holder`. -/
  p_lock : Option (T × C)
  /-- The owner of the big lock, and how often. -/
  biglock : Option (T × Nat)
  /-- `p_cwd` is not `NULL`. -/
  p_cwd : Bool
  /-- The "Deadlock" panic, or a failed assertion about a lock. -/
  panicked : Bool

inductive DirAct (T C : Type) where
  | call (t : T) (c : DirCall)
  /-- The next step of a call. -/
  | run (t : T)
  /-- Work that may wait does so. -/
  | sleep (t : T)
  | wake (t : T)
  /-- An idle CPU takes a ready thread. -/
  | dispatch (t : T) (cpu : C)
  /-- A timer interrupt. -/
  | preempt (t : T)

section Machine

variable {T C : Type} [DecidableEq T] [DecidableEq C]

namespace DirState

def setProg (s : DirState T C) (t : T) (p : LockProg) : DirState T C :=
  { s with prog := update s.prog t p }

/-- The thread `t` leaves its CPU. -/
def leave (s : DirState T C) (t : T) (cpu : C) (st : OnCpu C) : DirState T C :=
  { s with t_state := update s.t_state t st, c_curthread := update s.c_curthread cpu none }

/-- The thread `t` has `p_lock`. -/
def Holds (s : DirState T C) (t : T) : Bool :=
  match s.p_lock with
  | none => false
  | some (u, _) => decide (u = t)

/-- How often the thread `t` has the big lock. -/
def depth (s : DirState T C) (t : T) : Nat :=
  match s.biglock with
  | none => 0
  | some (u, d) => if u = t then d else 0

/-- The next step of the program of thread `t`, which runs on `cpu`. -/
def runProg (s : DirState T C) (t : T) (cpu : C) : LockProg → Option (DirState T C)
  | .done => none
  | .spinlock_acquire k =>
    match s.p_lock with
    | none => some ({ s with p_lock := some (t, cpu) }.setProg t k)
    -- the lock is not free: "Deadlock" on the CPU that has it, on another CPU the thread spins
    | some (_, holder) => if holder = cpu then some { s with panicked := true } else none
  | .spinlock_release k =>
    if s.p_lock.map Prod.snd = some cpu then some ({ s with p_lock := none }.setProg t k)
    else some { s with panicked := true }
  | .vfs_biglock_acquire k =>
    match s.biglock with
    | none => some ({ s with biglock := some (t, 1) }.setProg t k)
    | some (u, d) =>
      if u = t then some ({ s with biglock := some (t, d + 1) }.setProg t k)
      -- `lock_acquire` sleeps, and tries again when it wakes up
      else some (s.leave t cpu .S_SLEEP)
  | .vfs_biglock_release k =>
    match s.biglock with
    | none => some { s with panicked := true }
    | some (u, d) =>
      if u = t ∧ 0 < d then
        some ({ s with biglock := if d = 1 then none else some (t, d - 1) }.setProg t k)
      else some { s with panicked := true }
  | .ifCwd yes no => some (s.setProg t (if s.p_cwd then yes else no))
  | .setCwd cwd k => some ({ s with p_cwd := cwd }.setProg t k)
  | .block k => some (s.setProg t k)
  | .zombie => some (s.leave t cpu .S_ZOMBIE)

end DirState

def dirNext (s : DirState T C) (a : DirAct T C) : Option (DirState T C) :=
  if s.panicked then none
  else
    match a with
    | .call t c =>
      match s.t_state t, s.prog t with
      | .S_RUN _, .done => some (s.setProg t c.code)
      | _, _ => none
    | .run t =>
      match s.t_state t with
      | .S_RUN cpu => s.runProg t cpu (s.prog t)
      | _ => none
    | .sleep t =>
      match s.t_state t, s.prog t with
      | .S_RUN cpu, .block k => some ((s.leave t cpu .S_SLEEP).setProg t k)
      | _, _ => none
    | .wake t =>
      if s.t_state t = .S_SLEEP then some { s with t_state := update s.t_state t .S_READY }
      else none
    | .dispatch t cpu =>
      if s.t_state t = .S_READY ∧ s.c_curthread cpu = none then
        some { s with
          t_state := update s.t_state t (.S_RUN cpu)
          c_curthread := update s.c_curthread cpu (some t) }
      else none
    | .preempt t =>
      match s.t_state t with
      -- interrupts are off while the thread has a spinlock
      | .S_RUN cpu => if s.Holds t then none else some (s.leave t cpu .S_READY)
      | _ => none

/-- The threads are ready and in no call, and no lock is taken. -/
def DirStart (s : DirState T C) : Prop :=
  s.panicked = false ∧ s.p_lock = none ∧ s.biglock = none ∧ (∀ t, s.prog t = .done) ∧
    (∀ t, s.t_state t = .S_READY) ∧ ∀ cpu, s.c_curthread cpu = none

variable (T C) in
def dirSystem : System (DirState T C) (DirAct T C) := .ofNext DirStart dirNext

/-- No thread sleeps with `p_lock`, so that nobody waits for a sleeping holder, and
`spinlock_acquire` does not panic. -/
structure HolderAwake (s : DirState T C) : Prop where
  awake : ∀ t, s.Holds t = true → s.t_state t ≠ .S_SLEEP
  noPanic : s.panicked = false

/-- A thread that has `p_lock` asks for the big lock only when no other thread has that. -/
def Uncontended (s : DirState T C) : DirAct T C → Prop
  | .run t => ∀ k u d, s.prog t = .vfs_biglock_acquire k → s.Holds t = true → s.biglock = some (u, d) → u = t
  | _ => True

/-! ## The judgement -/

/-- `Bracketed b d p`: the program `p` can be run by a thread that has `p_lock` when `b`, and the
big lock `d` times; with `p_lock` it neither waits nor ends, and it gives back what it takes. -/
def Bracketed : Bool → Nat → LockProg → Prop
  | b, d, .done => b = false ∧ d = 0
  | b, d, .spinlock_acquire k => b = false ∧ Bracketed true d k
  | b, d, .spinlock_release k => b = true ∧ Bracketed false d k
  | b, d, .vfs_biglock_acquire k => Bracketed b (d + 1) k
  | b, d, .vfs_biglock_release k => 0 < d ∧ Bracketed b (d - 1) k
  | b, d, .ifCwd yes no => Bracketed b d yes ∧ Bracketed b d no
  | b, d, .setCwd _ k => Bracketed b d k
  | b, d, .block k => b = false ∧ Bracketed b d k
  | b, d, .zombie => b = false ∧ d = 0

namespace LockProg

variable {b : Bool} {d : Nat} {k : LockProg} {kk : Bool → LockProg}

theorem bracketed_incref (h : Bracketed b d k) : Bracketed b d (vnode_incref k) :=
  ⟨Nat.succ_pos d, h⟩

theorem bracketed_vop (h : Bracketed false d k) : Bracketed false d (vop k) :=
  ⟨rfl, Nat.succ_pos d, h⟩

theorem bracketed_getcurdir (h : ∀ cwd, Bracketed false d (kk cwd)) : Bracketed false d (vfs_getcurdir kk) :=
  ⟨rfl, bracketed_incref ⟨rfl, h true⟩, rfl, h false⟩

theorem bracketed_setcurdir {isdir : Bool} (h : Bracketed false d k) :
    Bracketed false d (vfs_setcurdir isdir k) := by
  apply bracketed_incref
  cases isdir with
  | false => exact h
  | true => exact bracketed_incref ⟨rfl, ⟨rfl, bracketed_vop h⟩, rfl, h⟩

variable {path : LookupPath}

theorem bracketed_getdevice (h : ∀ ok, Bracketed false d (kk ok)) :
    Bracketed false d (getdevice path kk) := by
  unfold getdevice
  cases path.start with
  | relative => exact bracketed_getcurdir h
  | device =>
    show Bracketed false d (if _ then _ else _)
    split
    · exact bracketed_vop (h true)
    · exact h false
  | boot =>
    show Bracketed false d (if _ then _ else _)
    split
    · exact bracketed_incref (h true)
    · exact h false
  | volume =>
    apply bracketed_getcurdir
    intro cwd
    cases cwd with
    | false => exact h false
    | true => exact bracketed_vop (bracketed_vop (h true))

/-- The end of `vfs_lookup` and of `vfs_lookparent`. -/
theorem bracketed_unlock (h : Bracketed b d k) : Bracketed b (d + 1) (vfs_biglock_release k) :=
  ⟨Nat.succ_pos d, h⟩

theorem bracketed_lookup (h : ∀ ok, Bracketed false d (kk ok)) :
    Bracketed false d (vfs_lookup path kk) := by
  apply bracketed_getdevice
  intro ok
  split
  · exact bracketed_unlock (h false)
  · split
    · exact bracketed_unlock (h true)
    · exact bracketed_vop (bracketed_vop (bracketed_unlock (h _)))

theorem bracketed_lookparent (h : ∀ ok, Bracketed false d (kk ok)) :
    Bracketed false d (vfs_lookparent path kk) := by
  apply bracketed_getdevice
  intro ok
  split
  · exact bracketed_unlock (h false)
  · split
    · exact bracketed_vop (bracketed_unlock (h false))
    · exact bracketed_vop (bracketed_vop (bracketed_unlock (h _)))

theorem bracketed_done : Bracketed false 0 done := ⟨rfl, rfl⟩

theorem bracketed_openVnode (o : OpenCase) : Bracketed false 0 (openVnode o) := by
  have hvop := bracketed_vop bracketed_done
  have htrunc : Bracketed false 0 (openTrunc o.trunc) := by
    cases o.trunc with
    | no => exact bracketed_done
    | readonly => exact bracketed_vop hvop
    | done => exact hvop
    | failed => exact bracketed_vop (bracketed_vop hvop)
  refine ⟨rfl, ?_⟩
  split
  · exact bracketed_incref htrunc
  · exact hvop

theorem bracketed_open (path : LookupPath) (o : OpenCase) : Bracketed false 0 (vfs_open path o) := by
  unfold vfs_open
  split
  · exact bracketed_done
  split
  · apply bracketed_lookparent
    intro ok
    split
    · apply bracketed_vop
      apply bracketed_vop
      split
      · exact bracketed_openVnode o
      · exact bracketed_done
    · exact bracketed_done
  · apply bracketed_lookup
    intro ok
    split
    · exact bracketed_openVnode o
    · exact bracketed_done

theorem bracketed_getcwd (named name colon : Bool) : Bracketed false 0 (vfs_getcwd named name colon) := by
  have hvop := bracketed_vop bracketed_done
  have hout : Bracketed false 0 (getcwdOutput name colon) := by
    refine ⟨rfl, ?_⟩
    split
    · refine ⟨rfl, ?_⟩
      split
      · exact ⟨rfl, hvop⟩
      · exact hvop
    · exact hvop
  apply bracketed_getcurdir
  intro cwd
  split
  · split
    · exact hout
    · exact bracketed_incref hout
  · exact bracketed_done

theorem bracketed_chdir (path : LookupPath) (isdir : Bool) : Bracketed false 0 (vfs_chdir path isdir) := by
  apply bracketed_lookup
  intro ok
  split
  · exact bracketed_setcurdir (bracketed_vop bracketed_done)
  · exact bracketed_done

end LockProg

/-- Every call can be run by a thread without locks. -/
theorem bracketed_code (c : DirCall) : Bracketed false 0 c.code := by
  have hdone := LockProg.bracketed_done
  cases c with
  | vfs_getcwd named name colon => exact LockProg.bracketed_getcwd named name colon
  | vfs_lookup path => exact LockProg.bracketed_lookup fun _ => hdone
  | vfs_open path o => exact LockProg.bracketed_open path o
  | vfs_chdir path isdir => exact LockProg.bracketed_chdir path isdir
  | proc_create_runprogram mem =>
    cases mem with
    | false => exact hdone
    | true => exact ⟨rfl, LockProg.bracketed_incref ⟨rfl, hdone⟩, rfl, hdone⟩
  | thread_fork mem =>
    cases mem with
    | false => exact hdone
    | true => exact ⟨rfl, rfl, hdone⟩
  | sys__exit => exact ⟨rfl, rfl, rfl, rfl, rfl⟩

/-! ## The invariant -/

/-- What a thread has still to do fits what it has taken, and the thread with `p_lock` runs on the
CPU in `lk_holder`. -/
structure LocksInv (s : DirState T C) : Prop where
  noPanic : s.panicked = false
  current : ∀ t cpu, s.t_state t = .S_RUN cpu ↔ s.c_curthread cpu = some t
  holder : ∀ t cpu, s.p_lock = some (t, cpu) → s.t_state t = .S_RUN cpu
  prog : ∀ t, Bracketed (s.Holds t) (s.depth t) (s.prog t)

variable {s s' : DirState T C} {t u : T} {cpu : C}

namespace DirState

omit [DecidableEq C] in
theorem holds_iff : s.Holds t = true ↔ ∃ cpu, s.p_lock = some (t, cpu) := by
  unfold Holds
  cases h : s.p_lock with
  | none => simp
  | some l =>
    obtain ⟨u, c⟩ := l
    simp [eq_comm]

omit [DecidableEq C] in
theorem depth_pos (h : 0 < s.depth t) : ∃ d, s.biglock = some (t, d) ∧ s.depth t = d := by
  unfold depth at h ⊢
  cases hb : s.biglock with
  | none =>
    rw [hb] at h
    exact absurd h (Nat.lt_irrefl 0)
  | some l =>
    obtain ⟨u, d⟩ := l
    rw [hb] at h
    by_cases hu : u = t
    · subst hu
      exact ⟨d, rfl, if_pos rfl⟩
    · simp only [hu, if_false] at h
      exact absurd h (Nat.lt_irrefl 0)

end DirState

namespace LocksInv

omit [DecidableEq C] in
theorem start (h : DirStart s) : LocksInv s := by
  obtain ⟨hpanic, hlock, hbig, hprog, hstate, hcur⟩ := h
  constructor
  case noPanic => exact hpanic
  case current =>
    intro t cpu
    rw [hstate, hcur]
    simp
  case holder =>
    intro t cpu hl
    rw [hlock] at hl
    cases hl
  case prog =>
    intro t
    rw [hprog]
    simp [DirState.Holds, DirState.depth, hlock, hbig, Bracketed]

omit [DecidableEq C] in
theorem holds_run (h : LocksInv s) (hrun : s.t_state t = .S_RUN cpu) (hl : s.Holds t = true) :
    s.p_lock = some (t, cpu) := by
  obtain ⟨c, hc⟩ := DirState.holds_iff.mp hl
  have hst := h.holder t c hc
  rw [hrun] at hst
  cases hst
  exact hc

omit [DecidableEq C] in
/-- A thread goes on with its program; what the others have is as before. -/
theorem advance (h : LocksInv s) (t : T) {l : Option (T × C)} {b : Option (T × Nat)} {w : Bool} {k : LockProg}
    (hholder : ∀ u c, l = some (u, c) → s.t_state u = .S_RUN c)
    (hk : Bracketed (DirState.Holds { s with p_lock := l } t) (DirState.depth { s with biglock := b } t) k)
    (hothers : ∀ u, u ≠ t → DirState.Holds { s with p_lock := l } u = s.Holds u ∧
      DirState.depth { s with biglock := b } u = s.depth u) :
    LocksInv ({ s with p_lock := l, biglock := b, p_cwd := w }.setProg t k) := by
  constructor
  case noPanic => exact h.noPanic
  case current => exact h.current
  case holder => exact hholder
  case prog =>
    intro u
    show Bracketed (DirState.Holds { s with p_lock := l } u) (DirState.depth { s with biglock := b } u)
      (update s.prog t k u)
    by_cases hu : u = t
    · subst hu
      rw [update_self]
      exact hk
    · obtain ⟨hh, hd⟩ := hothers u hu
      rw [hh, hd, update_of_ne hu]
      exact h.prog u

omit [DecidableEq C] in
/-- A step that takes or gives back no lock. -/
theorem goOn (h : LocksInv s) {w : Bool} {k : LockProg} (hk : Bracketed (s.Holds t) (s.depth t) k) :
    LocksInv ({ s with p_cwd := w }.setProg t k) :=
  h.advance t (l := s.p_lock) (b := s.biglock) h.holder hk fun _ _ => ⟨rfl, rfl⟩

omit [DecidableEq C] in
/-- A thread without `p_lock` goes to another state, on a CPU or off it; the others stay where they are. -/
theorem rescheduled (h : LocksInv s) (hfree : s.Holds t = false) {st : OnCpu C} {cur : C → Option T}
    (hself : ∀ c, st = .S_RUN c ↔ cur c = some t)
    (hothers : ∀ u c, u ≠ t → (s.c_curthread c = some u ↔ cur c = some u)) :
    LocksInv { s with t_state := update s.t_state t st, c_curthread := cur } := by
  constructor
  case noPanic => exact h.noPanic
  case current =>
    apply (forall_update_iff s.t_state fun u st => ∀ c, st = .S_RUN c ↔ cur c = some u).mpr
    exact ⟨hself, fun u hu c => (h.current u c).trans (hothers u c hu)⟩
  case holder =>
    intro u c hl
    have hu : u ≠ t := by
      intro heq
      rw [← heq, (DirState.holds_iff (s := s)).mpr ⟨c, hl⟩] at hfree
      cases hfree
    show update s.t_state t st u = _
    rw [update_of_ne hu]
    exact h.holder u c hl
  case prog => exact h.prog

/-- A thread without `p_lock` leaves its CPU. -/
theorem leave (h : LocksInv s) (hrun : s.t_state t = .S_RUN cpu) (hfree : s.Holds t = false) {st : OnCpu C}
    (hst : ∀ c, st ≠ .S_RUN c) : LocksInv (s.leave t cpu st) := by
  have hcur := (h.current t cpu).mp hrun
  apply h.rescheduled hfree
  · intro c
    apply iff_of_false (hst c)
    intro hc
    by_cases heq : c = cpu
    · rw [heq, update_self] at hc
      cases hc
    · -- the thread was on one CPU only
      rw [update_of_ne heq, ← h.current, hrun] at hc
      cases hc
      exact heq rfl
  · intro u c hu
    by_cases heq : c = cpu
    · rw [heq, hcur, update_self]
      simp [Ne.symm hu]
    · rw [update_of_ne heq]

omit [DecidableEq C] in
/-- A thread that does not run does not have `p_lock`. -/
theorem not_holds (h : LocksInv s) (hnot : ∀ c, s.t_state t ≠ .S_RUN c) : s.Holds t = false := by
  rw [← Bool.not_eq_true]
  intro hheld
  obtain ⟨c, hl⟩ := DirState.holds_iff.mp hheld
  exact hnot c (h.holder t c hl)

omit [DecidableEq C] in
/-- A sleeping thread is made ready. -/
theorem wake (h : LocksInv s) (hsleep : s.t_state t = .S_SLEEP) :
    LocksInv { s with t_state := update s.t_state t .S_READY } := by
  apply h.rescheduled (h.not_holds (by simp [hsleep]))
  · intro c
    rw [← h.current, hsleep]
    simp
  · exact fun u c _ => Iff.rfl

/-- An idle CPU takes a ready thread. -/
theorem dispatch (h : LocksInv s) (hready : s.t_state t = .S_READY) (hidle : s.c_curthread cpu = none) :
    LocksInv { s with
      t_state := update s.t_state t (.S_RUN cpu)
      c_curthread := update s.c_curthread cpu (some t) } := by
  apply h.rescheduled (h.not_holds (by simp [hready]))
  · intro c
    by_cases hc : c = cpu
    · simp [hc]
    · rw [update_of_ne hc, ← h.current, hready]
      simp [Ne.symm hc]
  · intro u c hu
    by_cases hc : c = cpu
    · rw [hc, hidle, update_self]
      simp [Ne.symm hu]
    · rw [update_of_ne hc]

/-! ## The steps of a program -/

section

variable (h : LocksInv s) (hrun : s.t_state t = .S_RUN cpu)
include h hrun

/-- `spinlock_acquire` does not panic, and gives the lock to the thread when it is free. -/
theorem spinAcquire {k : LockProg} (hprog : Bracketed (s.Holds t) (s.depth t) (.spinlock_acquire k))
    (hs : s.runProg t cpu (.spinlock_acquire k) = some s') : LocksInv s' := by
  obtain ⟨hfree, hk⟩ := hprog
  cases hl : s.p_lock with
  | none =>
    simp only [DirState.runProg, hl] at hs
    cases hs
    apply h.advance t (b := s.biglock)
    · intro u c hu
      cases hu
      exact hrun
    · show Bracketed (decide (t = t)) _ k
      rw [decide_eq_true rfl]
      exact hk
    · intro u hu
      refine ⟨?_, rfl⟩
      unfold DirState.Holds
      rw [hl]
      exact decide_eq_false (Ne.symm hu)
  | some l =>
    obtain ⟨u, holder⟩ := l
    simp only [DirState.runProg, hl] at hs
    by_cases hc : holder = cpu
    · -- the holder would be the thread that runs here
      subst hc
      have hu := (h.current u holder).mp (h.holder u holder hl)
      rw [(h.current t holder).mp hrun] at hu
      cases hu
      rw [DirState.holds_iff.mpr ⟨holder, hl⟩] at hfree
      cases hfree
    · rw [if_neg hc] at hs
      cases hs

theorem spinRelease {k : LockProg} (hprog : Bracketed (s.Holds t) (s.depth t) (.spinlock_release k))
    (hs : s.runProg t cpu (.spinlock_release k) = some s') : LocksInv s' := by
  obtain ⟨hheld, hk⟩ := hprog
  have hl := h.holds_run hrun hheld
  simp only [DirState.runProg, hl, Option.map_some, if_true] at hs
  cases hs
  apply h.advance t (b := s.biglock)
  · exact fun _ _ hu => nomatch hu
  · exact hk
  · intro u hu
    refine ⟨?_, rfl⟩
    unfold DirState.Holds
    rw [hl]
    exact (decide_eq_false (Ne.symm hu)).symm

/-- A thread that is refused the big lock leaves its CPU, which is where `p_lock` matters. -/
theorem bigAcquire {k : LockProg}
    (hprog : Bracketed (s.Holds t) (s.depth t) (.vfs_biglock_acquire k))
    (hfree : ∀ u d, s.Holds t = true → s.biglock = some (u, d) → u = t)
    (hs : s.runProg t cpu (.vfs_biglock_acquire k) = some s') : LocksInv s' := by
  have hk : Bracketed (s.Holds t) (s.depth t + 1) k := hprog
  -- the thread that has the big lock afterwards is the one that ran
  have htaken : ∀ d, s.depth t + 1 = d → (∀ u, u ≠ t → s.depth u = 0) →
      LocksInv ({ s with biglock := some (t, d) }.setProg t k) := by
    intro d hd hothers
    apply h.advance t (l := s.p_lock) h.holder
    · show Bracketed _ (if t = t then d else 0) k
      rw [if_pos rfl, ← hd]
      exact hk
    · intro u hu
      refine ⟨rfl, ?_⟩
      show (if t = u then d else 0) = s.depth u
      rw [if_neg (Ne.symm hu), hothers u hu]
  cases hb : s.biglock with
  | none =>
    simp only [DirState.runProg, hb] at hs
    cases hs
    apply htaken 1
    · simp [DirState.depth, hb]
    · intro u _
      simp [DirState.depth, hb]
  | some l =>
    obtain ⟨u, d⟩ := l
    simp only [DirState.runProg, hb] at hs
    by_cases hu : u = t
    · subst hu
      rw [if_pos rfl] at hs
      cases hs
      apply htaken (d + 1)
      · simp [DirState.depth, hb]
      · intro v hv
        simp [DirState.depth, hb, Ne.symm hv]
    · rw [if_neg hu] at hs
      cases hs
      have hnot : s.Holds t = false := by
        rw [← Bool.not_eq_true]
        exact fun hheld => hu (hfree u d hheld hb)
      exact h.leave hrun hnot (by simp)

end

theorem bigRelease (h : LocksInv s) {k : LockProg}
    (hprog : Bracketed (s.Holds t) (s.depth t) (.vfs_biglock_release k))
    (hs : s.runProg t cpu (.vfs_biglock_release k) = some s') : LocksInv s' := by
  obtain ⟨hpos, hk⟩ := hprog
  obtain ⟨d, hb, hd⟩ := DirState.depth_pos hpos
  rw [hd] at hpos hk
  simp only [DirState.runProg, hb, true_and, if_pos hpos] at hs
  cases hs
  have hothers : ∀ u, u ≠ t → s.depth u = 0 := by
    intro u hu
    simp [DirState.depth, hb, Ne.symm hu]
  apply h.advance t (l := s.p_lock) h.holder
  · by_cases hone : d = 1
    · subst hone
      exact hk
    · simp only [DirState.depth, if_neg hone, if_true]
      exact hk
  · intro u hu
    refine ⟨rfl, ?_⟩
    rw [hothers u hu]
    by_cases hone : d = 1
    · simp [DirState.depth, hone]
    · simp [DirState.depth, hone, Ne.symm hu]

theorem run (h : LocksInv s) (hrun : s.t_state t = .S_RUN cpu)
    (hfree : ∀ k u d, s.prog t = .vfs_biglock_acquire k → s.Holds t = true → s.biglock = some (u, d) → u = t)
    (hs : s.runProg t cpu (s.prog t) = some s') : LocksInv s' := by
  have hprog := h.prog t
  generalize hp : s.prog t = p at hprog hs
  cases p with
  | done => cases hs
  | spinlock_acquire k =>
    exact h.spinAcquire hrun hprog hs
  | spinlock_release k =>
    exact h.spinRelease hrun hprog hs
  | vfs_biglock_acquire k =>
    exact h.bigAcquire hrun hprog (fun u d => hfree k u d hp) hs
  | vfs_biglock_release k =>
    exact h.bigRelease hprog hs
  | ifCwd yes no =>
    cases hs
    apply h.goOn (w := s.p_cwd)
    split
    · exact hprog.1
    · exact hprog.2
  | setCwd cwd k =>
    cases hs
    exact h.goOn hprog
  | block k =>
    cases hs
    exact h.goOn (w := s.p_cwd) hprog.2
  | zombie =>
    cases hs
    exact h.leave hrun hprog.1 (by simp)

end LocksInv

/-! ## Runs -/

theorem dirNext_inv {a : DirAct T C} (h : LocksInv s) (hfree : Uncontended s a) (hs : dirNext s a = some s') :
    LocksInv s' := by
  unfold dirNext at hs
  rw [if_neg (by simp [h.noPanic])] at hs
  cases a with
  | call t c =>
    dsimp only at hs
    split at hs
    · rename_i hrun hprog
      cases hs
      have hnone := h.prog t
      rw [hprog] at hnone
      apply h.goOn (w := s.p_cwd)
      -- a thread that is in no call has no lock
      rw [hnone.1, hnone.2]
      exact bracketed_code c
    · cases hs
  | run t =>
    dsimp only at hs
    split at hs
    · rename_i cpu hrun
      exact h.run hrun hfree hs
    · cases hs
  | sleep t =>
    dsimp only at hs
    split at hs
    · rename_i cpu k hrun hprog
      cases hs
      have hblock := h.prog t
      rw [hprog] at hblock
      exact (h.leave hrun hblock.1 (by simp)).goOn (w := s.p_cwd) hblock.2
    · cases hs
  | wake t =>
    obtain ⟨hsleep, hs⟩ := Option.ite_none_right_eq_some.mp hs
    cases hs
    exact h.wake hsleep
  | dispatch t cpu =>
    obtain ⟨⟨hready, hidle⟩, hs⟩ := Option.ite_none_right_eq_some.mp hs
    cases hs
    exact h.dispatch hready hidle
  | preempt t =>
    dsimp only at hs
    split at hs
    · rename_i cpu hrun
      obtain ⟨hnot, hs⟩ := Option.ite_none_left_eq_some.mp hs
      cases hs
      exact h.leave hrun (by simpa using hnot) (by simp)
    · cases hs

omit [DecidableEq C] in
theorem LocksInv.holderAwake (h : LocksInv s) : HolderAwake s where
  awake := by
    intro t hl hsleep
    obtain ⟨c, hc⟩ := DirState.holds_iff.mp hl
    rw [h.holder t c hc] at hsleep
    cases hsleep
  noPanic := h.noPanic

/-- **The spinlock of a process.** When no thread asks for a big lock in other hands while it has
`p_lock`, no thread sleeps with `p_lock` and nothing panics; and the first step against this
puts the thread to sleep with the spinlock. -/
theorem p_lock_holder_awake (h : ((dirSystem T C).restrict Uncontended).Reachable s) :
    HolderAwake s ∧ ∀ a s', ¬ Uncontended s a → dirNext s a = some s' → ¬ HolderAwake s' := by
  have hinv : LocksInv s := by
    refine System.invariant ?_ ?_ h
    · exact fun s hs => LocksInv.start (show DirStart s from hs)
    · exact fun s a s' hinv hstep => dirNext_inv hinv hstep.1 hstep.2
  refine ⟨hinv.holderAwake, ?_⟩
  intro a s' hnot hs hawake
  cases a with
  | run t =>
    unfold Uncontended at hnot
    push Not at hnot
    obtain ⟨k, u, d, hprog, hheld, hbig, hne⟩ := hnot
    obtain ⟨cpu, hc⟩ := DirState.holds_iff.mp hheld
    have hrun := hinv.holder t cpu hc
    simp only [dirNext, hinv.noPanic, Bool.false_eq_true, if_false, hrun, hprog, DirState.runProg, hbig, hne] at hs
    cases hs
    exact hawake.awake t hheld (update_self ..)
  | call t c | sleep t | wake t | dispatch t cpu | preempt t => exact hnot trivial

/-! ## Two threads of one process -/

/-- Two ready threads and two CPUs; the process has a current directory. -/
def dirBoot : DirState Bool Bool where
  prog := fun _ => .done
  t_state := fun _ => .S_READY
  c_curthread := fun _ => none
  p_lock := none
  biglock := none
  p_cwd := true
  panicked := false

theorem dirBoot_start : DirStart dirBoot :=
  ⟨rfl, rfl, rfl, fun _ => rfl, fun _ => rfl, fun _ => rfl⟩

/-- A thread has `p_lock` in `vfs_getcwd`, and the big lock is free. -/
theorem p_lock_holder_awake_getcwd : ∃ s : DirState Bool Bool,
    System.follow dirNext [.dispatch true false, .call true (.vfs_getcwd true true true), .run true] dirBoot = some s ∧
      s.Holds true = true ∧
      (HolderAwake s ∧ ∀ a s', ¬ Uncontended s a → dirNext s a = some s' → ¬ HolderAwake s') := by
  refine ⟨_, rfl, rfl, ?_⟩
  apply p_lock_holder_awake
  refine .step (.run true) (.step (.call true (.vfs_getcwd true true true)) (.step (.dispatch true false)
    (.init dirBoot_start) ⟨trivial, rfl⟩) ⟨trivial, rfl⟩) ⟨?_, rfl⟩
  intro k u d hprog
  cases hprog

/-- The thread `false` is in `vfs_lookup` with the big lock; the thread `true` calls `vfs_getcwd` on
the other CPU and goes to sleep with `p_lock`. -/
def getcwdRun : List (DirAct Bool Bool) :=
  [.dispatch false false, .call false (.vfs_lookup ⟨.device, true, true, true⟩), .run false, .run false,
    .dispatch true true, .call true (.vfs_getcwd true true true), .run true, .run true, .run true]

/-- The first thread waits for the disk, goes on on the CPU of the sleeper and calls `thread_fork`. -/
def deadlockRun : List (DirAct Bool Bool) :=
  [.sleep false, .wake false, .dispatch false true, .run false, .run false,
    .call false (.thread_fork true), .run false]

theorem p_lock_sleeper : ∃ s s' : DirState Bool Bool, (dirSystem Bool Bool).Reachable s ∧ ¬ HolderAwake s ∧
    s.Holds true = true ∧ s.t_state true = .S_SLEEP ∧ s.biglock = some (false, 2) ∧
    (dirSystem Bool Bool).Reachable s' ∧ s'.panicked = true := by
  obtain ⟨s, hs, hheld, hsleep, hbig⟩ : ∃ s, (dirSystem Bool Bool).Reachable s ∧ s.Holds true = true ∧
      s.t_state true = .S_SLEEP ∧ s.biglock = some (false, 2) := System.exists_reachable dirBoot_start getcwdRun rfl
  obtain ⟨s', hs', hpanic⟩ : ∃ s, (dirSystem Bool Bool).Reachable s ∧ s.panicked = true :=
    System.exists_reachable dirBoot_start (getcwdRun ++ deadlockRun) rfl
  refine ⟨s, s', hs, ?_, hheld, hsleep, hbig, hs', hpanic⟩
  exact fun hawake => hawake.awake true hheld hsleep

end Machine

end OS161
