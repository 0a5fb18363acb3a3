import OS161.Framework.Apart
import OS161.Framework.Kernel
import OS161.Framework.TransitionSystem

/-! # Interrupt levels

The model of the code that turns interrupts off and on: `spl.c`, `spinlock.c`, `mips_trap`, the
assertions of `syscall`, and the parts of `thread_switch` and `thread_fork` that the accounting
of `t_iplhigh_count` passes through.

A thread is what it has on its stack: the frames are the kernel code it is in, the innermost
first. Everything else that kernel code does is left open: outside the frames' own code a thread
may call the `spl` functions, the spinlock functions, `thread_switch` and `thread_fork` in any
order, and take traps. A spinlock operation is one step; a CPU that spins has not begun it.
-/

namespace OS161.Spl

open Framework Kern Function

/-- The interrupt priority levels. -/
inductive Ipl where
  | IPL_NONE
  | IPL_HIGH
  deriving DecidableEq, Repr

def Ipl.level : Ipl → Nat
  | .IPL_NONE => 0
  | .IPL_HIGH => 1

/-- The arguments of `thread_switch`. -/
inductive NewState where
  | ready
  /-- `S_SLEEP`, with the lock of the wait channel. -/
  | sleep (wc : Nat)
  | zombie
  deriving DecidableEq, Repr

/-- Where a CPU is in `thread_switch`, after `splhigh`. -/
inductive SwitchPc where
  | start
  /-- The run queue is locked. -/
  | locked
  /-- In the loop that looks for the next thread. -/
  | search
  /-- In `cpu_idle`, before, while and after interrupts are on. -/
  | idle
  | window
  | woken
  /-- Another thread runs. -/
  | parked
  /-- After `switchframe_switch`, with the run queue still locked. -/
  | back
  | unlocked
  deriving DecidableEq, Repr

/-- A kernel function that a thread is in. The numbers `held` are kept for the reader: the kernel
does not store how many spinlocks the thread had when the trap was taken. -/
inductive Frame where
  /-- `mips_trap`, for an interrupt. -/
  | interrupt (doadjust : Bool) (held : Nat)
  /-- `mips_trap`, for a fault: the interrupt bit in the trap frame, and the level at the time. -/
  | fault (ie : Bool) (spl : Ipl) (held : Nat)
  /-- `syscall`, with the interrupt bit in the trap frame. -/
  | syscall (ie : Bool)
  /-- `thread_switch`, with its variable `spl`. The end of `thread_startup` is that of
      `thread_switch` with `IPL_NONE` for it. -/
  | switch (spl : Ipl) (new : NewState) (pc : SwitchPc)
  /-- No kernel function: the thread is in user mode. -/
  | user
  deriving DecidableEq, Repr

inductive SpinId (n : Nat) where
  | runqueue (c : Fin n)
  | other (l : Nat)
  deriving DecidableEq

structure IplThread (n : Nat) where
  t_curspl : Ipl
  t_iplhigh_count : Int
  t_cpu : Fin n
  frames : List Frame
  /-- The spinlocks that the thread has acquired, or come back with, and not released. -/
  held : List (SpinId n)

/-- What the code of a CPU works on: the current thread, and the interrupt bit of the status register. -/
structure Context (n : Nat) where
  thread : IplThread n
  ie : Bool

structure IplState (n : Nat) where
  thread : Nat → IplThread n
  created : Nat → Bool
  curthread : Fin n → Nat
  ie : Fin n → Bool
  c_isidle : Fin n → Bool
  lk_holder : SpinId n → Option (Fin n)

/-- The assertions and panics on the way. -/
inductive IplPanic where
  | splraise_old
  | splraise_new
  | spllower_old
  | spllower_new
  /-- `mips_trap`, at an interrupt and after it. -/
  | trap_count
  | trap_done_spl
  | trap_done_count
  /-- `mips_trap`, before `syscall`. -/
  | trap_syscall_spl
  | trap_syscall_count
  | syscall_spl
  | syscall_count
  | syscall_done_spl
  | syscall_done_count
  | spinlock_deadlock
  | spinlock_release
  deriving DecidableEq, Repr

section Code

variable {n : Nat}

abbrev CpuM (n : Nat) := Kern (Context n) Unit IplPanic

abbrev IplM (n : Nat) := Kern (IplState n) Unit IplPanic

/-! ## Levels -/

def cpu_irqoff : CpuM n Unit := .modify fun x => { x with ie := false }

def cpu_irqon : CpuM n Unit := .modify fun x => { x with ie := true }

def addCount (d : Int) : CpuM n Unit :=
  .modify fun x => { x with thread := { x.thread with t_iplhigh_count := x.thread.t_iplhigh_count + d } }

def setSpl (spl : Ipl) : CpuM n Unit := .modify fun x => { x with thread := { x.thread with t_curspl := spl } }

def setFrames (fs : List Frame) : CpuM n Unit := .modify fun x => { x with thread := { x.thread with frames := fs } }

def setHeld (held : List (SpinId n)) : CpuM n Unit :=
  .modify fun x => { x with thread := { x.thread with held := held } }

def splraise (oldspl newspl : Ipl) : CpuM n Unit := do
  .kassert (oldspl = .IPL_NONE) .splraise_old
  .kassert (newspl = .IPL_HIGH) .splraise_new
  let x ← .read
  if x.thread.t_iplhigh_count = 0 then cpu_irqoff else .ret ()
  addCount 1

def spllower (oldspl newspl : Ipl) : CpuM n Unit := do
  .kassert (oldspl = .IPL_HIGH) .spllower_old
  .kassert (newspl = .IPL_NONE) .spllower_new
  addCount (-1)
  let x ← .read
  if x.thread.t_iplhigh_count = 0 then cpu_irqon else .ret ()

def splx (spl : Ipl) : CpuM n Ipl := do
  let x ← .read
  let cur := x.thread.t_curspl
  if cur.level < spl.level then do
    splraise cur spl
    setSpl spl
    return cur
  else if spl.level < cur.level then do
    setSpl spl
    spllower cur spl
    return cur
  else return spl

def spl0 : CpuM n Ipl := splx .IPL_NONE

def splhigh : CpuM n Ipl := splx .IPL_HIGH

/-! ## Traps -/

/-- `mips_trap` for an interrupt, up to `mainbus_interrupt`. The processor has turned interrupts off. -/
def interruptEntry : CpuM n Unit := do
  cpu_irqoff
  let x ← .read
  if x.thread.t_curspl = .IPL_NONE then do
    .kassert (x.thread.t_iplhigh_count = 0) .trap_count
    setSpl .IPL_HIGH
    addCount 1
    setFrames (.interrupt true x.thread.held.length :: x.thread.frames)
  else setFrames (.interrupt false x.thread.held.length :: x.thread.frames)

/-- The rest of `mips_trap`, and the return from the interrupt, with which interrupts are on again. -/
def interruptExit : CpuM n Unit := do
  let x ← .read
  match x.thread.frames with
  | .interrupt doadjust _ :: rest => do
    if doadjust then do
      .kassert (x.thread.t_curspl = .IPL_HIGH) .trap_done_spl
      .kassert (x.thread.t_iplhigh_count = 1) .trap_done_count
      addCount (-1)
      setSpl .IPL_NONE
    else .ret ()
    setFrames rest
    cpu_irqon
  | _ => .fail ()

/-- `mips_trap` for another trap: interrupts, which the processor has turned off, become what the level says. -/
def trapSync : CpuM n Unit := do
  cpu_irqoff
  let spl ← splhigh
  let _ ← splx spl

def faultEntry : CpuM n Unit := do
  let x ← .read
  trapSync
  setFrames (.fault x.ie x.thread.t_curspl x.thread.held.length :: x.thread.frames)

/-- The return from the trap restores the interrupt bit from the trap frame. -/
def faultExit : CpuM n Unit := do
  let x ← .read
  match x.thread.frames with
  | .fault ie _ _ :: rest => do
    cpu_irqoff
    setFrames rest
    if ie then cpu_irqon else .ret ()
  | _ => .fail ()

def syscallEntry : CpuM n Unit := do
  let before ← .read
  trapSync
  let x ← .read
  .kassert (x.thread.t_curspl = .IPL_NONE) .trap_syscall_spl
  .kassert (x.thread.t_iplhigh_count = 0) .trap_syscall_count
  .kassert (x.thread.t_curspl = .IPL_NONE) .syscall_spl
  .kassert (x.thread.t_iplhigh_count = 0) .syscall_count
  setFrames (.syscall before.ie :: x.thread.frames)

def syscallExit : CpuM n Unit := do
  let x ← .read
  match x.thread.frames with
  | .syscall ie :: rest => do
    .kassert (x.thread.t_curspl = .IPL_NONE) .syscall_done_spl
    .kassert (x.thread.t_iplhigh_count = 0) .syscall_done_count
    cpu_irqoff
    setFrames rest
    if ie then cpu_irqon else .ret ()
  | _ => .fail ()

/-- `mips_usermode`, from a kernel thread or from `execv`. The trap frame it makes up has interrupts on. -/
def mips_usermode : CpuM n Unit := do
  let _ ← spl0
  cpu_irqoff
  setFrames [.user]
  cpu_irqon

/-! ## Spinlocks and switches -/

namespace IplState

def context (s : IplState n) (c : Fin n) : Context n := { thread := s.thread (s.curthread c), ie := s.ie c }

def setContext (s : IplState n) (c : Fin n) (x : Context n) : IplState n :=
  { s with thread := update s.thread (s.curthread c) x.thread, ie := update s.ie c x.ie }

/-- `curcpu` is `curthread->t_cpu`. -/
def curcpu (s : IplState n) (c : Fin n) : Fin n := (s.context c).thread.t_cpu

end IplState

def onCpu {α : Type} (c : Fin n) (m : CpuM n α) : IplM n α := .zoom (·.context c) (·.setContext c ·) m

def setHolder (lk : SpinId n) (h : Option (Fin n)) : IplM n Unit :=
  .modify fun s => { s with lk_holder := update s.lk_holder lk h }

/-- `spinlock_acquire`. A step that has to wait is not taken. -/
def spinlock_acquire (c : Fin n) (lk : SpinId n) : IplM n Unit := do
  onCpu c (splraise .IPL_NONE .IPL_HIGH)
  let s ← .read
  .kassert (s.lk_holder lk ≠ some (s.curcpu c)) .spinlock_deadlock
  if s.lk_holder lk = none then do
    setHolder lk (some (s.curcpu c))
    onCpu c (setHeld (lk :: (s.context c).thread.held))
  else .fail ()

def spinlock_release (c : Fin n) (lk : SpinId n) : IplM n Unit := do
  let s ← .read
  .kassert (s.lk_holder lk = some (s.curcpu c)) .spinlock_release
  setHolder lk none
  onCpu c (setHeld ((s.context c).thread.held.erase lk))
  onCpu c (spllower .IPL_HIGH .IPL_NONE)

/-- A thread made by `thread_create` and `thread_fork`: it comes out holding the run queue lock. -/
def newThread (cpu : Fin n) : IplThread n where
  t_curspl := .IPL_HIGH
  t_iplhigh_count := 1 + 1
  t_cpu := cpu
  frames := [.switch .IPL_NONE .ready .parked]
  held := []

def thread_fork (c : Fin n) (newthread : Nat) : IplM n Unit := do
  let s ← .read
  if s.created newthread then .fail ()
  else
    .modify fun s =>
      { s with thread := update s.thread newthread (newThread (s.curcpu c))
               created := update s.created newthread true }

/-- What `thread_switch` finds: whether the run queue is empty and whose turn it is. -/
inductive SwitchChoice where
  | proceed
  | leave
  | next (u : Nat)
  deriving DecidableEq

/-- The current thread leaves the CPU with the run queue locked. -/
def park (c : Fin n) (spl : Ipl) (new : NewState) (rest : List Frame) : IplM n Unit := do
  let s ← .read
  onCpu c do
    setFrames (.switch spl new .parked :: rest)
    setHeld ((s.context c).thread.held.erase (.runqueue (s.curcpu c)))

/-- The thread `u` takes over, with the lock of the run queue that it was on. -/
def resume (c : Fin n) (cpu : Fin n) (u : Nat) : IplM n Unit := do
  let s ← .read
  if s.created u ∧ (s.thread u).t_cpu = cpu then
    match (s.thread u).frames with
    | .switch spl new .parked :: rest =>
      if new = .zombie then .fail ()
      else do
        .modify fun s => { s with curthread := update s.curthread c u }
        onCpu c do
          setFrames (.switch spl new .back :: rest)
          setHeld (.runqueue cpu :: (s.thread u).held)
    | _ => .fail ()
  else .fail ()

/-- A step of `thread_switch`. -/
def switchStep (c : Fin n) (choice : SwitchChoice) (spl : Ipl) (new : NewState) (rest : List Frame) :
    SwitchPc → IplM n Unit
  | .start => do
    let s ← .read
    if s.c_isidle (s.curcpu c) then onCpu c do
      let _ ← splx spl
      setFrames rest
    else do
      spinlock_acquire c (.runqueue (s.curcpu c))
      onCpu c (setFrames (.switch spl new .locked :: rest))
  | .locked => do
    let s ← .read
    if choice = .leave ∧ new = .ready then do
      -- nothing else to run
      spinlock_release c (.runqueue (s.curcpu c))
      onCpu c do
        let _ ← splx spl
        setFrames rest
    else do
      match new with
      | .sleep wc => spinlock_release c (.other wc)
      | _ => .ret ()
      .modify fun s' => { s' with c_isidle := update s'.c_isidle (s.curcpu c) true }
      onCpu c (setFrames (.switch spl new .search :: rest))
  | .search => do
    let s ← .read
    match choice with
    | .next u => do
      .modify fun s' => { s' with c_isidle := update s'.c_isidle (s.curcpu c) false }
      park c spl new rest
      resume c (s.curcpu c) u
    | _ => do
      spinlock_release c (.runqueue (s.curcpu c))
      onCpu c (setFrames (.switch spl new .idle :: rest))
  | .idle => onCpu c do
    cpu_irqon
    setFrames (.switch spl new .window :: rest)
  | .window => onCpu c do
    cpu_irqoff
    setFrames (.switch spl new .woken :: rest)
  | .woken => do
    let s ← .read
    spinlock_acquire c (.runqueue (s.curcpu c))
    onCpu c (setFrames (.switch spl new .search :: rest))
  | .parked => .fail ()
  | .back => do
    let s ← .read
    spinlock_release c (.runqueue (s.curcpu c))
    onCpu c (setFrames (.switch spl new .unlocked :: rest))
  | .unlocked => onCpu c do
    let _ ← splx spl
    setFrames rest

/-! ## Steps -/

/-- `thread_switch` is in its own code, at the high level. -/
def Frame.fixed : Frame → Bool
  | .switch _ _ .unlocked => false
  | .switch _ _ _ => true
  | _ => false

/-- The innermost frame runs code that the model leaves open. -/
def plain : List Frame → Bool
  | [] => true
  | .user :: _ => false
  | f :: _ => !f.fixed

inductive IplOp (n : Nat) where
  | splx (spl : Ipl)
  | spinlock_acquire (lk : SpinId n)
  | spinlock_release (lk : SpinId n)
  | thread_fork (newthread : Nat)
  | thread_switch (new : NewState)
  /-- The next step of `thread_switch`. -/
  | switch (choice : SwitchChoice)
  | interrupt
  | interruptReturn
  | fault
  | faultReturn
  | syscall
  | syscallReturn
  | mips_usermode
  deriving DecidableEq

/-- Code that can run where `ok` says so. -/
def guarded (ok : Bool) (m : IplM n Unit) : IplM n Unit := if ok then m else .fail ()

def cpuStep (c : Fin n) (op : IplOp n) : IplM n Unit := do
  let s ← .read
  let frames := (s.context c).thread.frames
  match op with
  | .splx spl => guarded (plain frames) (onCpu c do let _ ← splx spl)
  | .spinlock_acquire lk => guarded (plain frames) (spinlock_acquire c lk)
  | .spinlock_release lk => guarded (plain frames) (spinlock_release c lk)
  | .thread_fork newthread => guarded (plain frames) (thread_fork c newthread)
  | .thread_switch new => guarded (plain frames) (onCpu c do
      let spl ← splhigh
      setFrames (.switch spl new .start :: frames))
  | .switch choice =>
    match frames with
    | .switch spl new pc :: rest => switchStep c choice spl new rest pc
    | _ => .fail ()
  | .interrupt => guarded (s.ie c) (onCpu c interruptEntry)
  | .interruptReturn => onCpu c interruptExit
  | .fault => guarded (plain frames || frames.head? = some .user) (onCpu c faultEntry)
  | .faultReturn => onCpu c faultExit
  | .syscall => guarded (frames.head? = some .user) (onCpu c syscallEntry)
  | .syscallReturn => onCpu c syscallExit
  | .mips_usermode =>
    match frames with
    | [] => onCpu c mips_usermode
    | [.syscall _, .user] => onCpu c mips_usermode
    | _ => .fail ()

/-- The thread is switched out. -/
def parked : List Frame → Bool
  | .switch _ _ .parked :: _ => true
  | _ => false

structure IplSys (n : Nat) where
  machine : IplState n
  panicked : Option IplPanic

inductive IplAct (n : Nat) where
  | cpu (c : Fin n) (op : IplOp n)
  /-- A thread that is switched out is migrated. -/
  | migrate (u : Nat) (cpu : Fin n)
  deriving DecidableEq

def iplNext (s : IplSys n) (a : IplAct n) : Option (IplSys n) :=
  if s.panicked.isSome then none
  else
    match a with
    | .cpu c op =>
      match cpuStep c op s.machine with
      | .ok _ m => some { s with machine := m }
      | .err _ _ => none
      | .panic p => some { s with panicked := some p }
    | .migrate u cpu =>
      let t := s.machine.thread u
      if parked t.frames then
        some { s with machine := { s.machine with thread := update s.machine.thread u { t with t_cpu := cpu } } }
      else none

/-- The thread of `cpu_create`. -/
def bootThread (c : Fin n) : IplThread n where
  t_curspl := .IPL_HIGH
  t_iplhigh_count := 1
  t_cpu := c
  frames := []
  held := []

/-- The CPUs come up with their first threads, interrupts off. -/
structure IplBoot (s : IplState n) : Prop where
  boot : ∀ c, s.thread (s.curthread c) = bootThread c
  created : ∀ u, s.created u = true ↔ ∃ c, s.curthread c = u
  ie : ∀ c, s.ie c = false
  held : ∀ u, (s.thread u).held = []
  lk_holder : ∀ lk, s.lk_holder lk = none

def iplSystem (n : Nat) : System (IplSys n) (IplAct n) :=
  .ofNext (fun s => IplBoot s.machine ∧ s.panicked = none) iplNext

/-! ## Matched code -/

/-- Each acquire is matched by one release: a spinlock that is released is held, the code of a trap
leaves as many as it found, and none is held in user mode. -/
def matched (t : IplThread n) (op : IplOp n) : Bool :=
  match op, t.frames with
  | .spinlock_release lk, _ => lk ∈ t.held
  | .switch _, .switch _ (.sleep wc) .locked :: _ => .other wc ∈ t.held
  | .interruptReturn, .interrupt _ held :: _ => t.held.length = held
  | .faultReturn, .fault _ _ held :: _ => t.held.length = held
  | .syscallReturn, _ => t.held = []
  | .mips_usermode, _ => t.held = []
  | _, _ => true

/-- The code of a trap leaves the level as it found it. -/
def restored (t : IplThread n) (op : IplOp n) : Bool :=
  match op, t.frames with
  | .interruptReturn, _ => t.t_curspl = .IPL_HIGH
  | .faultReturn, .fault _ spl _ :: _ => t.t_curspl = spl
  | .syscallReturn, _ => t.t_curspl = .IPL_NONE
  | _, _ => true

def Matched (s : IplSys n) : IplAct n → Prop
  | .cpu c op => matched (s.machine.context c).thread op = true
  | .migrate _ _ => True

def Restored (s : IplSys n) : IplAct n → Prop
  | .cpu c op => restored (s.machine.context c).thread op = true
  | .migrate _ _ => True

instance decidableMatched (s : IplSys n) (a : IplAct n) : Decidable (Matched s a) :=
  match a with
  | .cpu c op => inferInstanceAs (Decidable (matched (s.machine.context c).thread op = true))
  | .migrate _ _ => .isTrue trivial

instance decidableRestored (s : IplSys n) (a : IplAct n) : Decidable (Restored s a) :=
  match a with
  | .cpu c op => inferInstanceAs (Decidable (restored (s.machine.context c).thread op = true))
  | .migrate _ _ => .isTrue trivial

end Code

/-! ## The current thread of a CPU -/

section Contexts

variable {n : Nat} {c : Fin n}

def window : List Frame → Bool
  | .switch _ _ .window :: _ => true
  | _ => false

def fixed : List Frame → Bool
  | f :: _ => f.fixed
  | [] => false

/-- What the frames of a thread promise each other. -/
def FramesOk : List Frame → Prop
  | [] => True
  | .interrupt true held :: rest => held = 0 ∧ fixed rest = false ∧ FramesOk rest
  | .interrupt false _ :: rest => window rest = true ∧ FramesOk rest
  | .fault ie spl held :: rest =>
    (ie = true ↔ held + spl.level = 0) ∧ fixed rest = false ∧ (rest.head? = some .user → held + spl.level = 0) ∧
      FramesOk rest
  | .syscall ie :: rest => ie = true ∧ rest = [.user]
  | .switch _ _ _ :: rest => plain rest = true ∧ FramesOk rest
  | .user :: rest => rest = []

/-- What the innermost frame says about the state of the thread. -/
structure TopOk (t : IplThread n) : Prop where
  fixed : fixed t.frames = true → t.t_curspl = .IPL_HIGH
  user : t.frames.head? = some .user → t.held.length + t.t_curspl.level = 0
  locked : ∀ spl new pc rest, t.frames = .switch spl new pc :: rest → pc = .locked ∨ pc = .search ∨ pc = .back →
    .runqueue t.t_cpu ∈ t.held

/-- The state of a CPU between two operations: the count is right, and interrupts are on when it is
0 or when the CPU idles. -/
structure ContextOk (c : Fin n) (x : Context n) : Prop where
  cpu : x.thread.t_cpu = c
  running : parked x.thread.frames = false
  count : x.thread.t_iplhigh_count = (x.thread.held.length + x.thread.t_curspl.level : Nat)
  ie : x.ie = (decide (x.thread.held.length + x.thread.t_curspl.level = 0) || window x.thread.frames)
  frames : FramesOk x.thread.frames
  top : TopOk x.thread

/-- The one state of a CPU that has the count and the interrupts right. -/
def settled (c : Fin n) (spl : Ipl) (frames : List Frame) (held : List (SpinId n)) : Context n where
  thread :=
    { t_curspl := spl
      t_iplhigh_count := (held.length + spl.level : Nat)
      t_cpu := c
      frames := frames
      held := held }
  ie := decide (held.length + spl.level = 0)

theorem ContextOk.eq_with {x : Context n} (h : ContextOk c x) :
    x = { settled c x.thread.t_curspl x.thread.frames x.thread.held with ie := x.ie } := by
  obtain ⟨⟨spl, count, cpu, frames, held⟩, ie⟩ := x
  have hcpu : cpu = c := h.cpu
  have hcount : count = _ := h.count
  rw [hcpu, hcount]
  rfl

theorem ContextOk.eq_settled {x : Context n} (h : ContextOk c x) (hw : window x.thread.frames = false) :
    x = settled c x.thread.t_curspl x.thread.frames x.thread.held := by
  have hie := h.ie
  rw [hw, Bool.or_false] at hie
  have heq := h.eq_with
  rwa [hie] at heq

variable {spl : Ipl} {frames : List Frame} {held : List (SpinId n)}

theorem splraise_run (x : Context n) :
    splraise .IPL_NONE .IPL_HIGH x =
      .ok () { thread := { x.thread with t_iplhigh_count := x.thread.t_iplhigh_count + 1 }
               ie := if x.thread.t_iplhigh_count = 0 then false else x.ie } := by
  apply run_eq_of_wp
  simp only [splraise, cpu_irqoff, addCount, wp_bind, wp_kassert, wp_read, if_true, wp_ite,
    wp_modify, wp_ret]
  split <;> exact ⟨trivial, rfl⟩

theorem spllower_run (x : Context n) :
    spllower .IPL_HIGH .IPL_NONE x =
      .ok () { thread := { x.thread with t_iplhigh_count := x.thread.t_iplhigh_count + -1 }
               ie := if x.thread.t_iplhigh_count + -1 = 0 then true else x.ie } := by
  apply run_eq_of_wp
  simp only [spllower, cpu_irqon, addCount, wp_bind, wp_kassert, wp_read, if_true, wp_ite,
    wp_modify, wp_ret]
  split <;> exact ⟨trivial, rfl⟩

/-- A context is given by its count and its interrupt bit. -/
theorem settled_eq {x : Context n} {k : Nat} (hcount : x.thread.t_iplhigh_count = k) (hie : x.ie = decide (k = 0))
    (hk : x.thread.held.length + x.thread.t_curspl.level = k) :
    x = settled x.thread.t_cpu x.thread.t_curspl x.thread.frames x.thread.held := by
  obtain ⟨⟨spl, count, cpu, frames, held⟩, ie⟩ := x
  have hk' : held.length + spl.level = k := hk
  rw [settled, hk']
  congr 2

/-- One more spinlock, or the high level: interrupts are off. -/
theorem raised_ie (k : Nat) : (if (k : Int) = 0 then false else decide (k = 0)) = decide (k + 1 = 0) := by
  by_cases hk : k = 0
  · simp [hk]
  · simp [hk]

/-- One less: interrupts are on after the last one. -/
theorem lowered_ie (k : Nat) : (if ((k + 1 : Nat) : Int) + -1 = 0 then true else decide (k + 1 = 0)) = decide (k = 0) := by
  by_cases hk : k = 0
  · simp [hk]
  · rw [if_neg (by omega)]
    simp [hk]

theorem splx_settled (l : Ipl) : splx l (settled c spl frames held) = .ok spl (settled c l frames held) := by
  cases spl with
  | IPL_NONE =>
    cases l with
    | IPL_NONE => rfl
    | IPL_HIGH =>
      show (splraise .IPL_NONE .IPL_HIGH >>= fun _ => setSpl .IPL_HIGH >>= fun _ => pure Ipl.IPL_NONE) _ = _
      rw [bind_run_ok (splraise_run _)]
      exact congrArg (Outcome.ok _) (settled_eq (k := held.length + 1) rfl (raised_ie _) rfl)
  | IPL_HIGH =>
    cases l with
    | IPL_HIGH => rfl
    | IPL_NONE =>
      show (spllower .IPL_HIGH .IPL_NONE >>= fun _ => pure Ipl.IPL_HIGH) _ = _
      rw [bind_run_ok (spllower_run _)]
      refine congrArg (Outcome.ok _) (settled_eq (k := held.length) ?_ (lowered_ie _) rfl)
      show ((held.length + 1 : Nat) : Int) + -1 = held.length
      omega

/-! ### Frames -/

theorem of_not_fixed (h : fixed frames = false) : window frames = false ∧ parked frames = false := by
  rcases frames with _ | ⟨f, rest⟩
  · exact ⟨rfl, rfl⟩
  · cases f with
    | switch spl new pc =>
      cases pc with
      | unlocked => exact ⟨rfl, rfl⟩
      | _ => exact nomatch h
    | _ => exact ⟨rfl, rfl⟩

theorem window_of_fixed (h : fixed frames = false) : window frames = false := (of_not_fixed h).1

theorem fixed_of_plain (h : plain frames = true) : fixed frames = false := by
  rcases frames with _ | ⟨f, rest⟩
  · rfl
  · cases f with
    | user => rfl
    | _ => exact (Bool.not_eq_true' _).mp h

theorem user_of_plain (h : plain frames = true) : frames.head? ≠ some .user := by
  rcases frames with _ | ⟨f, rest⟩
  · exact nofun
  · cases f with
    | user => exact nomatch h
    | _ => exact nofun

/-- Outside the code of `thread_switch` a context is good when its frames are, and in user mode also the count. -/
theorem ContextOk.of_settled (hf : fixed frames = false) (hframes : FramesOk frames)
    (huser : frames.head? = some .user → held.length + spl.level = 0) :
    ContextOk c (settled c spl frames held) where
  cpu := rfl
  running := (of_not_fixed hf).2
  count := rfl
  ie := by
    show _ = (_ || window frames)
    rw [window_of_fixed hf, Bool.or_false]
    rfl
  frames := hframes
  top := by
    refine ⟨fun h => ?_, huser, ?_⟩
    · exact absurd (hf.symm.trans h) Bool.false_ne_true
    · intro spl' new pc rest (h : frames = _) hpc
      rw [h] at hf
      rcases hpc with rfl | rfl | rfl <;> exact nomatch hf

theorem ContextOk.of_plain (hp : plain frames = true) (hframes : FramesOk frames) :
    ContextOk c (settled c spl frames held) :=
  .of_settled (fixed_of_plain hp) hframes fun h => absurd h (user_of_plain hp)

/-- In the code of `thread_switch`, interrupts off. -/
theorem ContextOk.of_switch {new : NewState} {pc : SwitchPc} {rest : List Frame}
    (hpc : pc ≠ .parked ∧ pc ≠ .window) (hlocked : pc = .locked ∨ pc = .search ∨ pc = .back → .runqueue c ∈ held)
    (hrest : plain rest = true ∧ FramesOk rest) {spl' : Ipl} :
    ContextOk c (settled c .IPL_HIGH (.switch spl' new pc :: rest) held) where
  cpu := rfl
  running := by cases pc <;> simp_all [parked, settled]
  count := rfl
  ie := by cases pc <;> simp_all [window, settled]
  frames := hrest
  top := by
    refine ⟨fun _ => rfl, nofun, ?_⟩
    intro spl₁ new₁ pc₁ rest₁ h h₁
    cases h
    exact hlocked h₁

/-- A CPU that idles, interrupts on. -/
theorem ContextOk.of_window (hw : window frames = true) (hframes : FramesOk frames) :
    ContextOk c { settled c .IPL_HIGH frames held with ie := true } := by
  rcases frames with _ | ⟨f, rest⟩
  · exact nomatch hw
  · cases f with
    | switch spl new pc =>
      cases pc with
      | window =>
        refine ⟨rfl, rfl, rfl, ?_, hframes, fun _ => rfl, nofun, ?_⟩
        · exact (Bool.or_true _).symm
        · intro spl₁ new₁ pc₁ rest₁ h h₁
          cases h
          rcases h₁ with h₁ | h₁ | h₁ <;> exact nomatch h₁
      | _ => exact nomatch hw
    | _ => exact nomatch hw

/-! ### Code that changes no spinlock -/

/-- The code keeps the context good, and the spinlocks of the thread; no assertion in it fails. -/
def Keeps (c : Fin n) (x : Context n) {α : Type} (m : CpuM n α) : Prop :=
  m.wp (fun _ x' => ContextOk c x' ∧ x'.thread.held = x.thread.held) (fun _ _ => True) (fun _ => False) x

variable {x : Context n}

theorem Keeps.ok {m : CpuM n Unit} {y : Context n} (hm : m x = .ok () y) (hok : ContextOk c y)
    (hheld : y.thread.held = x.thread.held) : Keeps c x m :=
  wp_of_run_ok hm ⟨hok, hheld⟩

theorem splx_keeps (hx : ContextOk c x) (hp : plain x.thread.frames = true) (l : Ipl) :
    Keeps c x (do let _ ← splx l) := by
  have hs := hx.eq_settled (window_of_fixed (fixed_of_plain hp))
  apply Keeps.ok (y := settled c l x.thread.frames x.thread.held)
  · rw [hs, bind_run_ok (splx_settled l)]
    rfl
  · exact .of_plain hp hx.frames
  · rfl

theorem thread_switch_keeps (hx : ContextOk c x) (hp : plain x.thread.frames = true) (new : NewState) :
    Keeps c x (do let spl ← splhigh; setFrames (.switch spl new .start :: x.thread.frames)) := by
  have hs := hx.eq_settled (window_of_fixed (fixed_of_plain hp))
  apply Keeps.ok
    (y := settled c .IPL_HIGH (.switch x.thread.t_curspl new .start :: x.thread.frames) x.thread.held)
  · rw [splhigh]
    nth_rewrite 2 [hs]
    rw [bind_run_ok (splx_settled _)]
    rfl
  · exact .of_switch (by simp) (by simp) ⟨hp, hx.frames⟩
  · rfl

/-- The count is 0: no spinlock is held, and the level is low. -/
theorem nothing_counted (h : held.length + spl.level = 0) : held = [] ∧ spl = .IPL_NONE := by
  refine ⟨List.eq_nil_of_length_eq_zero (by omega), ?_⟩
  cases spl with
  | IPL_NONE => rfl
  | IPL_HIGH => exact nomatch (Nat.add_eq_zero_iff.mp h).2

/-- An interrupt comes when the count is 0, or to a CPU that idles at the high level. -/
theorem ContextOk.interrupted (hx : ContextOk c x) (hie : x.ie = true) :
    (x.thread.held.length + x.thread.t_curspl.level = 0 ∧ fixed x.thread.frames = false) ∨
      (window x.thread.frames = true ∧ x.thread.t_curspl = .IPL_HIGH) := by
  have h := hx.ie
  rw [hie] at h
  by_cases hw : window x.thread.frames = true
  · right
    refine ⟨hw, hx.top.fixed ?_⟩
    by_contra hf
    rw [window_of_fixed (Bool.eq_false_iff.mpr hf)] at hw
    exact nomatch hw
  · left
    rw [Bool.eq_false_iff.mpr hw, Bool.or_false] at h
    have hzero := of_decide_eq_true h.symm
    refine ⟨hzero, Bool.eq_false_iff.mpr fun hf => ?_⟩
    rw [hx.top.fixed hf] at hzero
    exact nomatch hzero

theorem interrupt_keeps (hx : ContextOk c x) (hie : x.ie = true) : Keeps c x interruptEntry := by
  rcases hx.interrupted hie with ⟨hzero, hf⟩ | ⟨hw, hhigh⟩
  · -- the level is 0 and no spinlock is held
    obtain ⟨hheld, hspl⟩ := nothing_counted hzero
    have hs := hx.eq_settled (window_of_fixed hf)
    rw [hheld, hspl] at hs
    apply Keeps.ok (y := settled c .IPL_HIGH (.interrupt true 0 :: x.thread.frames) [])
    · rw [hs]
      rfl
    · exact .of_settled rfl ⟨rfl, hf, hx.frames⟩ nofun
    · rw [hheld]
      rfl
  · apply Keeps.ok
      (y := settled c .IPL_HIGH (.interrupt false x.thread.held.length :: x.thread.frames) x.thread.held)
    · have heq := hx.eq_with
      rw [hhigh] at heq
      nth_rewrite 1 [heq]
      rfl
    · exact .of_settled rfl ⟨hw, hx.frames⟩ nofun
    · rfl

/-- The returns from traps. Elsewhere they are not taken. -/
theorem interruptReturn_keeps (hx : ContextOk c x) (hm : matched x.thread .interruptReturn = true)
    (hspl : x.thread.t_curspl = .IPL_HIGH) : Keeps c x interruptExit := by
  unfold Keeps interruptExit
  rw [wp_read_bind]
  split
  · rename_i doadjust h rest hfr
    have hs := hx.eq_settled (by rw [hfr]; rfl)
    have hframes := hx.frames
    unfold matched at hm
    rw [hfr] at hm hframes
    rw [hfr, hspl] at hs
    cases doadjust with
    | true =>
      obtain ⟨hzero, hf, hrest⟩ := hframes
      have hnil : x.thread.held = [] := List.eq_nil_of_length_eq_zero ((of_decide_eq_true hm).trans hzero)
      rw [hnil] at hs ⊢
      apply wp_of_run_ok (a := ()) (y := settled c .IPL_NONE rest [])
      · rw [hs]
        rfl
      · exact ⟨.of_settled hf hrest fun _ => rfl, rfl⟩
    | false =>
      -- back in the window of `cpu_idle`
      obtain ⟨hw, hrest⟩ := hframes
      rw [if_neg Bool.false_ne_true]
      apply wp_of_run_ok (a := ()) (y := { settled c .IPL_HIGH rest x.thread.held with ie := true })
      · nth_rewrite 1 [hs]
        rfl
      · exact ⟨.of_window hw hrest, rfl⟩
  · trivial

/-- `splhigh` brings the recorded state in line with a processor that has interrupts off. -/
theorem splhigh_irqoff :
    splhigh { settled c spl frames held with ie := false } = .ok spl (settled c .IPL_HIGH frames held) := by
  have hhigh : (settled c .IPL_HIGH frames held).ie = false := by simp [settled, Ipl.level]
  cases spl with
  | IPL_NONE =>
    show (splraise .IPL_NONE .IPL_HIGH >>= fun _ => setSpl .IPL_HIGH >>= fun _ => pure Ipl.IPL_NONE) _ = _
    rw [bind_run_ok (splraise_run _)]
    refine congrArg (Outcome.ok _) (settled_eq (k := held.length + 1) rfl ?_ rfl)
    exact (ite_self _).trans hhigh.symm
  | IPL_HIGH =>
    show Outcome.ok _ { settled c .IPL_HIGH frames held with ie := false } = _
    rw [← hhigh]

theorem trapSync_settled : trapSync (settled c spl frames held) = .ok () (settled c spl frames held) := by
  show (splhigh >>= fun spl => splx spl >>= fun _ => pure ()) { settled c spl frames held with ie := false } = _
  rw [bind_run_ok splhigh_irqoff, bind_run_ok (splx_settled spl)]
  rfl

section

variable (hx : ContextOk c x)
include hx

theorem fault_keeps (hf : fixed x.thread.frames = false) : Keeps c x faultEntry := by
  have hs := hx.eq_settled (window_of_fixed hf)
  apply Keeps.ok
    (y := settled c x.thread.t_curspl (.fault x.ie x.thread.t_curspl x.thread.held.length :: x.thread.frames)
      x.thread.held)
  · rw [faultEntry, read_bind_run]
    nth_rewrite 5 [hs]
    rw [bind_run_ok trapSync_settled]
    rfl
  · refine .of_settled rfl ⟨?_, hf, hx.top.user, hx.frames⟩ nofun
    rw [hx.ie, window_of_fixed hf, Bool.or_false, decide_eq_true_iff]
  · rfl

theorem faultReturn_keeps (hm : matched x.thread .faultReturn = true)
    (hr : restored x.thread .faultReturn = true) : Keeps c x faultExit := by
  unfold Keeps faultExit
  rw [wp_read_bind]
  split
  · rename_i ie l h rest hfr
    have hs := hx.eq_settled (by rw [hfr]; rfl)
    have hframes := hx.frames
    unfold matched at hm
    unfold restored at hr
    rw [hfr] at hm hr hframes
    rw [hfr, of_decide_eq_true hr] at hs
    obtain ⟨hie, hf, huser, hrest⟩ := hframes
    rw [← of_decide_eq_true hm] at hie huser
    apply wp_of_run_ok (a := ()) (y := settled c l rest x.thread.held)
    · nth_rewrite 1 [hs]
      cases ie with
      | true =>
        show Outcome.ok () _ = _
        rw [settled, settled, decide_eq_true (hie.mp rfl)]
      | false =>
        have hzero : ¬ x.thread.held.length + l.level = 0 := fun h => nomatch hie.mpr h
        show Outcome.ok () _ = _
        rw [settled, settled, decide_eq_false hzero]
    · exact ⟨.of_settled hf hrest huser, rfl⟩
  · trivial

/-- In user mode the count is 0. -/
theorem ContextOk.eq_user (hu : x.thread.frames.head? = some .user) :
    x = settled c .IPL_NONE [.user] [] := by
  obtain ⟨hheld, hspl⟩ := nothing_counted (hx.top.user hu)
  have hframes := hx.frames
  cases hfr : x.thread.frames with
  | nil =>
    rw [hfr] at hu
    exact nomatch hu
  | cons f rest =>
    rw [hfr, List.head?_cons, Option.some.injEq] at hu
    subst hu
    rw [hfr] at hframes
    have hrest : rest = [] := hframes
    have hs := hx.eq_settled (by rw [hfr]; rfl)
    rwa [hheld, hspl, hfr, hrest] at hs

theorem syscall_keeps (hu : x.thread.frames.head? = some .user) : Keeps c x syscallEntry := by
  rw [hx.eq_user hu]
  apply Keeps.ok (y := settled c .IPL_NONE [.syscall true, .user] [])
  · rfl
  · exact .of_settled rfl ⟨rfl, rfl⟩ nofun
  · rfl

theorem syscallReturn_keeps (hheld : x.thread.held = [])
    (hspl : x.thread.t_curspl = .IPL_NONE) : Keeps c x syscallExit := by
  unfold Keeps syscallExit
  rw [wp_read_bind]
  split
  · rename_i ie rest hfr
    have hs := hx.eq_settled (by rw [hfr]; rfl)
    have hframes := hx.frames
    rw [hfr] at hframes
    obtain ⟨hie, hrest⟩ := hframes
    rw [hfr, hspl, hheld, hrest] at hs
    rw [hs, hie, hrest]
    apply wp_of_run_ok (a := ()) (y := settled c .IPL_NONE [.user] [])
    · rfl
    · exact ⟨.of_settled rfl rfl fun _ => rfl, rfl⟩
  · trivial

theorem mips_usermode_keeps (hf : fixed x.thread.frames = false) (hheld : x.thread.held = []) :
    Keeps c x mips_usermode := by
  have hs := hx.eq_settled (window_of_fixed hf)
  rw [hheld] at hs
  apply Keeps.ok (y := settled c .IPL_NONE [.user] [])
  · rw [mips_usermode, spl0, hs, bind_run_ok (splx_settled _)]
    rfl
  · exact .of_settled rfl rfl fun _ => rfl
  · exact hheld.symm

end

/-! ### `thread_switch` without spinlocks -/

variable {new : NewState} {rest : List Frame}

/-- The thread is in `thread_switch`: it is at the high level, what it returns to is plain code, and
at some places it has the run queue locked. -/
theorem ContextOk.eq_switch (hx : ContextOk c x) {pc : SwitchPc}
    (hfr : x.thread.frames = .switch spl new pc :: rest) (hpc : pc ≠ .window ∧ pc ≠ .unlocked) :
    x = settled c .IPL_HIGH (.switch spl new pc :: rest) x.thread.held ∧ (plain rest = true ∧ FramesOk rest) ∧
      (pc = .locked ∨ pc = .search ∨ pc = .back → .runqueue c ∈ x.thread.held) := by
  have hw : window (.switch spl new pc :: rest) = false := by
    cases pc with
    | window => exact absurd rfl hpc.1
    | _ => rfl
  have hf : fixed (.switch spl new pc :: rest) = true := by
    cases pc with
    | unlocked => exact absurd rfl hpc.2
    | _ => rfl
  rw [← hfr] at hw hf
  have hs := hx.eq_settled hw
  have hframes := hx.frames
  rw [hfr] at hframes
  rw [hx.top.fixed hf, hfr] at hs
  exact ⟨hs, hframes, fun hpc => hx.cpu ▸ hx.top.locked _ _ _ _ hfr hpc⟩

/-- The end of `thread_switch`. -/
theorem switch_done_keeps (hx : ContextOk c x) (hw : window x.thread.frames = false) (l : Ipl)
    (hrest : plain rest = true ∧ FramesOk rest) : Keeps c x (do let _ ← splx l; setFrames rest) := by
  have hs := hx.eq_settled hw
  apply Keeps.ok (y := settled c l rest x.thread.held)
  · rw [hs, bind_run_ok (splx_settled l)]
    rfl
  · exact .of_plain hrest.1 hrest.2
  · rfl

theorem idle_keeps (hx : ContextOk c x) (hfr : x.thread.frames = .switch spl new .idle :: rest) :
    Keeps c x (do cpu_irqon; setFrames (.switch spl new .window :: rest)) := by
  obtain ⟨hs, hframes, -⟩ := hx.eq_switch hfr (by simp)
  apply Keeps.ok
    (y := { settled c .IPL_HIGH (.switch spl new .window :: rest) x.thread.held with ie := true })
  · nth_rewrite 1 [hs]
    rfl
  · exact .of_window rfl hframes
  · rfl

theorem window_keeps (hx : ContextOk c x) (hfr : x.thread.frames = .switch spl new .window :: rest) :
    Keeps c x (do cpu_irqoff; setFrames (.switch spl new .woken :: rest)) := by
  have hs := hx.eq_with
  have hframes := hx.frames
  rw [hfr] at hframes
  rw [hx.top.fixed (by rw [hfr]; rfl)] at hs
  apply Keeps.ok (y := settled c .IPL_HIGH (.switch spl new .woken :: rest) x.thread.held)
  · nth_rewrite 1 [hs]
    congr 1
  · exact .of_switch (by simp) (by simp) hframes
  · rfl

end Contexts

/-! ## The machine -/

section Machine

variable {n : Nat} {s s' : IplState n} {c d : Fin n}

/-- A thread that is switched out counts the run queue lock with which it comes back. -/
def IplThread.spinlocks (t : IplThread n) : Nat := t.held.length + if parked t.frames then 1 else 0

structure ParkedOk (t : IplThread n) : Prop where
  parked : parked t.frames = true
  spl : t.t_curspl = .IPL_HIGH
  count : t.t_iplhigh_count = (t.held.length + 1 + 1 : Nat)
  frames : FramesOk t.frames

structure IplInv (s : IplState n) : Prop where
  cpus : ∀ c, ContextOk c (s.context c)
  current : ∀ c, s.created (s.curthread c) = true
  others : ∀ u, s.created u = true → (∀ c, s.curthread c ≠ u) → ParkedOk (s.thread u)
  fresh : ∀ u, s.created u = false → (s.thread u).held = []
  /-- No spinlock is held twice, and one that is held has a holder. -/
  apart : Apart fun u => (s.thread u).held
  holder : ∀ u lk, lk ∈ (s.thread u).held → s.lk_holder lk ≠ none

@[simp] theorem setContext_context (s : IplState n) (c : Fin n) (x : Context n) : (s.setContext c x).context c = x := by
  simp [IplState.context, IplState.setContext]

theorem setContext_setContext (s : IplState n) (c : Fin n) (x y : Context n) :
    (s.setContext c x).setContext c y = s.setContext c y := by
  simp [IplState.setContext]

theorem setContext_held_self (s : IplState n) (c : Fin n) (x : Context n) :
    ((s.setContext c x).thread (s.curthread c)).held = x.thread.held := by
  simp [IplState.setContext]

variable {u : Nat}

theorem setContext_held_of_ne (s : IplState n) (c : Fin n) (x : Context n) (hu : u ≠ s.curthread c) :
    ((s.setContext c x).thread u).held = (s.thread u).held := by
  simp [IplState.setContext, hu]

/-- Two CPUs run two threads. -/
theorem IplInv.curthread_ne (h : IplInv s) (hd : d ≠ c) : s.curthread d ≠ s.curthread c := by
  intro heq
  have hcpu : (s.thread (s.curthread d)).t_cpu = d := (h.cpus d).cpu
  rw [heq] at hcpu
  exact hd (hcpu.symm.trans (h.cpus c).cpu)

variable {x : Context n} {b : Fin n → Bool}

/-- A step of CPU `c` that changes its context, and the spinlocks of the current thread. -/
theorem IplInv.setContext (h : IplInv s) (hx : ContextOk c x) {holder : SpinId n → Option (Fin n)}
    (hapart : Apart fun u => ((s.setContext c x).thread u).held)
    (hholder : ∀ u lk, lk ∈ ((s.setContext c x).thread u).held → holder lk ≠ none) :
    IplInv { s.setContext c x with lk_holder := holder, c_isidle := b } where
  cpus := by
    intro d
    by_cases hd : d = c
    · subst hd
      have hsame := setContext_context s d x
      rwa [← hsame] at hx
    · have hsame : (s.setContext c x).context d = s.context d := by
        simp [IplState.context, IplState.setContext, hd, h.curthread_ne hd]
      have hok := h.cpus d
      rwa [← hsame] at hok
  current := h.current
  others := by
    intro u hu hne
    have hsame : (s.setContext c x).thread u = s.thread u := update_of_ne (hne c).symm _ _
    have hok := h.others u hu hne
    rwa [← hsame] at hok
  fresh := by
    intro u hu
    have hne : u ≠ s.curthread c := by
      intro heq
      rw [heq] at hu
      exact nomatch hu.symm.trans (h.current c)
    have hsame : (s.setContext c x).thread u = s.thread u := update_of_ne hne _ _
    have hok := h.fresh u hu
    rwa [← hsame] at hok
  apart := hapart
  holder := hholder

/-- The steps that can fail, by the panics that are not about interrupts. -/
def Safe (m : IplM n Unit) (s : IplState n) : Prop :=
  m.wp (fun _ s' => IplInv s') (fun _ _ => True) (fun p => p = .spinlock_deadlock ∨ p = .spinlock_release) s

theorem IplInv.sameHeld (h : IplInv s) (hx : ContextOk c x)
    (hheld : x.thread.held = (s.context c).thread.held) :
    IplInv { s.setContext c x with c_isidle := b } := by
  have hsame : ∀ u, ((s.setContext c x).thread u).held = (s.thread u).held := by
    intro u
    by_cases hu : u = s.curthread c
    · rw [hu, setContext_held_self, hheld]
      rfl
    · exact setContext_held_of_ne s c x hu
  apply h.setContext hx
  · simp only [hsame]
    exact h.apart
  · intro u lk hlk
    rw [hsame] at hlk
    exact h.holder u lk hlk

theorem IplInv.onCpu (h : IplInv s) {m : CpuM n Unit} (hm : Keeps c (s.context c) m) : Safe (onCpu c m) s := by
  apply (wp_zoom _ _ _).mpr
  apply wp_mono hm
  · intro _ x ⟨hx, hheld⟩
    exact h.sameHeld hx hheld (b := s.c_isidle)
  · exact fun _ _ _ => trivial
  · exact fun _ hf => hf.elim

/-! ### Spinlocks -/

/-- The state in which the lock `lk` has the holder `h` and the CPU the context `x`. -/
def IplState.withLock (s : IplState n) (c : Fin n) (x : Context n) (lk : SpinId n) (h : Option (Fin n)) : IplState n :=
  { s.setContext c x with lk_holder := update s.lk_holder lk h }

theorem setContext_withLock (s : IplState n) (c : Fin n) (x y : Context n) (lk : SpinId n) (h : Option (Fin n)) :
    (s.withLock c x lk h).setContext c y = s.withLock c y lk h := by
  simp [IplState.withLock, IplState.setContext]

@[simp] theorem withLock_context (s : IplState n) (c : Fin n) (x : Context n) (lk : SpinId n) (h : Option (Fin n)) :
    (s.withLock c x lk h).context c = x :=
  setContext_context s c x

variable {lk : SpinId n}

/-- The current thread has one more spinlock, which nobody had. -/
theorem IplInv.acquired (h : IplInv s) (hx : ContextOk c x)
    (hheld : x.thread.held = lk :: (s.context c).thread.held) (hfree : s.lk_holder lk = none) :
    IplInv { s.withLock c x lk (some c) with c_isidle := b } := by
  apply h.setContext hx
  · apply h.apart.add (u := lk) (j := s.curthread c)
    · intro u hu
      exact h.holder u lk hu hfree
    · rw [setContext_held_self, hheld]
      rfl
    · intro u hu
      rw [setContext_held_of_ne s c x hu]
  · intro u l hl
    show update s.lk_holder lk (some c) l ≠ none
    by_cases hlk : l = lk
    · rw [hlk, update_self]
      exact Option.some_ne_none c
    · rw [update_of_ne hlk]
      by_cases hu : u = s.curthread c
      · rw [hu, setContext_held_self, hheld] at hl
        rcases List.mem_cons.mp hl with hl | hl
        · exact absurd hl hlk
        · exact h.holder _ l hl
      · rw [setContext_held_of_ne s c x hu] at hl
        exact h.holder u l hl

/-- The current thread has one spinlock less, which nobody has now. -/
theorem IplInv.released (h : IplInv s) (hx : ContextOk c x)
    (hlk : lk ∈ (s.context c).thread.held) (hheld : x.thread.held = (s.context c).thread.held.erase lk) :
    IplInv { s.withLock c x lk none with c_isidle := b } := by
  have hone : (s.thread (s.curthread c)).held.Perm (lk :: ((s.setContext c x).thread (s.curthread c)).held) := by
    rw [setContext_held_self, hheld]
    exact List.perm_cons_erase hlk
  have hrest : ∀ u, u ≠ s.curthread c → ((s.setContext c x).thread u).held.Perm (s.thread u).held := by
    intro u hu
    rw [setContext_held_of_ne s c x hu]
  apply h.setContext hx
  · exact h.apart.remove hone hrest
  · intro u l hl
    have hne : l ≠ lk := by
      intro heq
      rw [heq] at hl
      exact h.apart.not_mem_of_remove hone hrest u hl
    show update s.lk_holder lk none l ≠ none
    rw [update_of_ne hne]
    by_cases hu : u = s.curthread c
    · rw [hu] at hl
      exact h.holder _ l (hone.mem_iff.mpr (List.mem_cons_of_mem lk hl))
    · exact h.holder u l ((hrest u hu).mem_iff.mp hl)

variable {spl : Ipl} {frames : List Frame} {held : List (SpinId n)}

/-- The state of the CPU after `splraise`, before the lock is taken. -/
def raised (c : Fin n) (spl : Ipl) (frames : List Frame) (held : List (SpinId n)) : Context n :=
  let x := settled c spl frames held
  { thread := { x.thread with t_iplhigh_count := x.thread.t_iplhigh_count + 1 }
    ie := if x.thread.t_iplhigh_count = 0 then false else x.ie }

theorem raised_held (lk : SpinId n) :
    { raised c spl frames held with thread := { (raised c spl frames held).thread with held := lk :: held } } =
      settled c spl frames (lk :: held) := by
  have hk : held.length + spl.level + 1 = (lk :: held).length + spl.level := by
    rw [List.length_cons]
    omega
  refine settled_eq (k := (lk :: held).length + spl.level) ?_ ?_ rfl
  · rw [← hk]
    rfl
  · rw [← hk]
    exact raised_ie _

theorem lowered_held (hlk : lk ∈ held) :
    spllower .IPL_HIGH .IPL_NONE
      { settled c spl frames held with thread := { (settled c spl frames held).thread with held := held.erase lk } } =
      .ok () (settled c spl frames (held.erase lk)) := by
  have hk : held.length + spl.level = (held.erase lk).length + spl.level + 1 := by
    have := List.length_erase_of_mem hlk
    have := List.length_pos_of_mem hlk
    omega
  rw [spllower_run]
  refine congrArg (Outcome.ok _) (settled_eq (k := (held.erase lk).length + spl.level) ?_ ?_ rfl)
  · show ((held.length + spl.level : Nat) : Int) + -1 = _
    rw [hk]
    omega
  · show (if ((held.length + spl.level : Nat) : Int) + -1 = 0 then true else decide (held.length + spl.level = 0)) = _
    rw [hk]
    exact lowered_ie _

theorem wp_acquire (hs : s.context c = settled c spl frames held) (lk : SpinId n) :
    (spinlock_acquire c lk).wp
      (fun _ s' => s.lk_holder lk = none ∧ s' = s.withLock c (settled c spl frames (lk :: held)) lk (some c))
      (fun _ _ => True) (fun p => p = .spinlock_deadlock ∨ p = .spinlock_release) s := by
  rw [spinlock_acquire, wp_bind, onCpu, wp_zoom, hs]
  apply wp_of_run_ok (splraise_run _)
  show wp _ _ _ _ (s.setContext c (raised c spl frames held))
  have hcpu : (s.setContext c (raised c spl frames held)).curcpu c = c := by
    rw [IplState.curcpu, setContext_context]
    rfl
  simp only [wp_bind, wp_read, wp_kassert, hcpu, setContext_context]
  split
  · rw [wp_ite]
    split
    · rename_i hfree
      refine ⟨hfree, ?_⟩
      let s₁ := s.withLock c (raised c spl frames held) lk (some c)
      show s₁.setContext c { s₁.context c with thread := { (s₁.context c).thread with held := lk :: held } } = _
      rw [withLock_context, raised_held, setContext_withLock]
    · trivial
  · exact .inl trivial

theorem wp_release (hs : s.context c = settled c spl frames held) (hlk : lk ∈ held) :
    (spinlock_release c lk).wp
      (fun _ s' => s' = s.withLock c (settled c spl frames (held.erase lk)) lk none)
      (fun _ _ => True) (fun p => p = .spinlock_deadlock ∨ p = .spinlock_release) s := by
  rw [spinlock_release, wp_read_bind, wp_bind, wp_kassert]
  split
  · let s₁ : IplState n := { s with lk_holder := update s.lk_holder lk none }
    let x := settled c spl frames held
    let y : Context n := { x with thread := { x.thread with held := held.erase lk } }
    have hx : s₁.context c = x := hs
    have hstep : (onCpu c (setHeld ((s.context c).thread.held.erase lk))) s₁ = .ok () (s₁.setContext c y) := by
      show Outcome.ok () (s₁.setContext c { s₁.context c with thread := { (s₁.context c).thread with held := _ } }) = _
      rw [hx, hs]
      rfl
    show wp (onCpu c (setHeld ((s.context c).thread.held.erase lk)) >>= fun _ =>
      onCpu c (spllower .IPL_HIGH .IPL_NONE)) _ _ _ s₁
    rw [wp_bind]
    apply wp_of_run_ok hstep
    rw [onCpu, wp_zoom, setContext_context]
    apply wp_of_run_ok (lowered_held hlk)
    rw [setContext_setContext]
    rfl
  · exact .inr rfl

theorem acquire_then (h : IplInv s) (hs : s.context c = settled c spl frames held) (lk : SpinId n) {m : CpuM n Unit}
    (hm : m (settled c spl frames (lk :: held)) = .ok () x) (hx : ContextOk c x)
    (hheld : x.thread.held = lk :: held) : Safe (do spinlock_acquire c lk; onCpu c m) s := by
  apply wp_then (wp_acquire hs lk)
  intro _ s' ⟨hfree, hs'⟩
  rw [hs', onCpu, wp_zoom, withLock_context]
  apply wp_of_run_ok hm
  rw [setContext_withLock]
  refine h.acquired hx ?_ hfree (b := s.c_isidle)
  rw [hheld, hs]
  rfl

theorem release_then (h : IplInv s) (hs : s.context c = settled c spl frames held) (hlk : lk ∈ held)
    {m : CpuM n Unit} (hm : m (settled c spl frames (held.erase lk)) = .ok () x)
    (hx : ContextOk c x) (hheld : x.thread.held = held.erase lk) :
    Safe (do spinlock_release c lk; onCpu c m) s := by
  apply wp_then (wp_release hs hlk)
  intro _ s' hs'
  rw [hs', onCpu, wp_zoom, withLock_context]
  apply wp_of_run_ok hm
  rw [setContext_withLock]
  refine h.released hx ?_ ?_ (b := s.c_isidle)
  · rw [hs]
    exact hlk
  · rw [hheld, hs]
    rfl

theorem acquire_safe (h : IplInv s) (hp : plain (s.context c).thread.frames = true) (lk : SpinId n) :
    Safe (spinlock_acquire c lk) s := by
  have hc := h.cpus c
  have hs := hc.eq_settled (window_of_fixed (fixed_of_plain hp))
  apply wp_imp (wp_acquire hs lk)
  intro _ s' ⟨hfree, hs'⟩
  rw [hs']
  exact h.acquired (.of_plain hp hc.frames) rfl hfree (b := s.c_isidle)

theorem release_safe (h : IplInv s) (hp : plain (s.context c).thread.frames = true)
    (hlk : lk ∈ (s.context c).thread.held) : Safe (spinlock_release c lk) s := by
  have hc := h.cpus c
  have hs := hc.eq_settled (window_of_fixed (fixed_of_plain hp))
  apply wp_imp (wp_release hs hlk)
  intro _ s' hs'
  rw [hs']
  exact h.released (.of_plain hp hc.frames) hlk rfl (b := s.c_isidle)

/-! ### Threads -/

theorem ParkedOk.newThread (cpu : Fin n) : ParkedOk (newThread cpu) := ⟨rfl, rfl, rfl, rfl, trivial⟩

/-- A step that changes one thread, which is current on no CPU, and no spinlock. -/
theorem IplInv.elsewhere (h : IplInv s) {t : IplThread n} {created : Nat → Bool}
    (hu : ∀ d, s.curthread d ≠ u) (hcreated : ∀ v, v ≠ u → created v = s.created v)
    (hself : s.created u = true → created u = true) (ht : created u = true → ParkedOk t)
    (hheld : t.held = (s.thread u).held) :
    IplInv { s with thread := update s.thread u t, created := created } := by
  have hcur : ∀ d, update s.thread u t (s.curthread d) = s.thread (s.curthread d) :=
    fun d => update_of_ne (hu d) ..
  have hsame : ∀ v, (update s.thread u t v).held = (s.thread v).held := by
    intro v
    by_cases hv : v = u
    · rw [hv, update_self, hheld]
    · rw [update_of_ne hv]
  constructor
  · intro d
    show ContextOk d ⟨update s.thread u t (s.curthread d), s.ie d⟩
    rw [hcur]
    exact h.cpus d
  · intro d
    exact (hcreated _ (hu d)).trans (h.current d)
  · intro v hv hne
    show ParkedOk (update s.thread u t v)
    by_cases hvu : v = u
    · subst hvu
      rw [update_self]
      exact ht hv
    · rw [update_of_ne hvu]
      exact h.others v ((hcreated v hvu).symm.trans hv) hne
  · intro v hv
    refine (hsame v).trans (h.fresh v (Bool.eq_false_iff.mpr fun hold => ?_))
    by_cases hvu : v = u
    · subst hvu
      exact nomatch hv.symm.trans (hself hold)
    · exact nomatch hv.symm.trans ((hcreated v hvu).trans hold)
  · show Apart fun v => (update s.thread u t v).held
    simp only [hsame]
    exact h.apart
  · intro v lk (hlk : lk ∈ (update s.thread u t v).held)
    rw [hsame] at hlk
    exact h.holder v lk hlk

theorem thread_fork_safe (h : IplInv s) (u : Nat) : Safe (thread_fork c u) s := by
  unfold Safe thread_fork
  rw [wp_read_bind, wp_ite]
  split
  · trivial
  · rename_i hu
    rw [Bool.not_eq_true] at hu
    apply h.elsewhere
    · intro d hd
      have hd' := h.current d
      rw [hd] at hd'
      exact nomatch hu.symm.trans hd'
    · exact fun v hv => update_of_ne hv ..
    · exact fun _ => update_self ..
    · exact fun _ => .newThread _
    · rw [h.fresh u hu]
      rfl

/-- A thread that is switched out is current on no CPU. -/
theorem IplInv.not_current (h : IplInv s) (hu : parked (s.thread u).frames = true) (d : Fin n) :
    s.curthread d ≠ u := by
  intro hd
  have hrun : parked (s.thread (s.curthread d)).frames = false := (h.cpus d).running
  rw [hd] at hrun
  exact nomatch hrun.symm.trans hu

theorem migrate_inv (h : IplInv s) (hu : parked (s.thread u).frames = true) (cpu : Fin n) :
    IplInv { s with thread := update s.thread u { s.thread u with t_cpu := cpu } } := by
  apply h.elsewhere (h.not_current hu) (fun _ _ => rfl) id
  · intro hcreated
    obtain ⟨hp, hspl, hcount, hframes⟩ := h.others u hcreated (h.not_current hu)
    exact ⟨hp, hspl, hcount, hframes⟩
  · rfl

/-! ### The switch -/

/-- The state after `switchframe_switch`: the thread `t` of CPU `c` is switched out, as `t'`, and `u` runs, as `u'`. -/
def IplState.switched (s : IplState n) (c : Fin n) (t' : IplThread n) (u : Nat) (u' : IplThread n)
    (isidle : Fin n → Bool) : IplState n :=
  { s with thread := update (update s.thread (s.curthread c) t') u u'
           curthread := update s.curthread c u
           c_isidle := isidle }

/-- The run queue lock passes from the thread that leaves to the one that takes over. -/
theorem IplInv.switched (h : IplInv s) {t' u' : IplThread n} {isidle : Fin n → Bool} (lk : SpinId n)
    (ht' : ParkedOk t') (ht : (s.context c).thread.held.Perm (lk :: t'.held)) (hcreated : s.created u = true)
    (hu : parked ((update s.thread (s.curthread c) t') u).frames = true)
    (hu' : ContextOk c ⟨u', s.ie c⟩)
    (hheld : u'.held = lk :: ((update s.thread (s.curthread c) t') u).held) :
    IplInv (s.switched c t' u u' isidle) := by
  let mid : Nat → IplThread n := update s.thread (s.curthread c) t'
  have hmid : ∀ v, v ≠ s.curthread c → mid v = s.thread v := fun v hv => update_of_ne hv _ _
  have hself : mid (s.curthread c) = t' := update_self _ _ _
  have hne : ∀ d, d ≠ c → s.curthread d ≠ u := by
    intro d hd heq
    have hrun : parked (s.thread (s.curthread d)).frames = false := (h.cpus d).running
    have hmd := hmid _ (h.curthread_ne hd)
    rw [← hmd, heq] at hrun
    exact nomatch hrun.symm.trans hu
  have hone : (s.thread (s.curthread c)).held.Perm (lk :: (mid (s.curthread c)).held) := by
    rw [hself]
    exact ht
  have hrest : ∀ v, v ≠ s.curthread c → (mid v).held.Perm (s.thread v).held := by
    intro v hv
    rw [hmid v hv]
  have hsub : ∀ v l, l ∈ (mid v).held → l ∈ (s.thread v).held := by
    intro v l hl
    by_cases hv : v = s.curthread c
    · rw [hv] at hl ⊢
      exact hone.mem_iff.mpr (List.mem_cons_of_mem lk hl)
    · exact (hrest v hv).mem_iff.mp hl
  have hthread : ∀ v, v ≠ u → (s.switched c t' u u' isidle).thread v = mid v :=
    fun v hv => update_of_ne hv _ _
  have hthread_u : (s.switched c t' u u' isidle).thread u = u' := update_self _ _ _
  have hcur : ∀ d, d ≠ c → (s.switched c t' u u' isidle).curthread d = s.curthread d :=
    fun d hd => update_of_ne hd _ _
  have hcur_c : (s.switched c t' u u' isidle).curthread c = u := update_self _ _ _
  constructor
  · intro d
    by_cases hd : d = c
    · subst hd
      rw [IplState.context, hcur_c, hthread_u]
      exact hu'
    · rw [IplState.context, hcur d hd, hthread _ (hne d hd), hmid _ (h.curthread_ne hd)]
      exact h.cpus d
  · intro d
    by_cases hd : d = c
    · rw [hd, hcur_c]
      exact hcreated
    · rw [hcur d hd]
      exact h.current d
  · intro v hv hvcur
    have hvu : v ≠ u := by
      intro heq
      exact hvcur c (hcur_c.trans heq.symm)
    rw [hthread v hvu]
    by_cases hvc : v = s.curthread c
    · rw [hvc, hself]
      exact ht'
    · rw [hmid v hvc]
      apply h.others v hv
      intro d
      by_cases hd : d = c
      · rw [hd]
        exact fun heq => hvc heq.symm
      · have hd' := hvcur d
        rwa [hcur d hd] at hd'
  · intro v hv
    replace hv : s.created v = false := hv
    have hvc : v ≠ s.curthread c := by
      intro heq
      rw [heq, h.current c] at hv
      exact nomatch hv
    have hvu : v ≠ u := by
      intro heq
      rw [heq, hcreated] at hv
      exact nomatch hv
    rw [hthread v hvu, hmid v hvc]
    exact h.fresh v hv
  · apply (h.apart.remove hone hrest).add (h.apart.not_mem_of_remove hone hrest) (j := u)
    · rw [hthread_u, hheld]
    · intro v hv
      rw [hthread v hv]
  · intro v l hl
    by_cases hvu : v = u
    · rw [hvu, hthread_u, hheld] at hl
      rcases List.mem_cons.mp hl with rfl | hl
      · exact h.holder _ l (hone.mem_iff.mpr List.mem_cons_self)
      · exact h.holder u l (hsub u l hl)
    · rw [hthread v hvu] at hl
      exact h.holder v l (hsub v l hl)

variable {new : NewState} {rest : List Frame} {t : IplThread n}

/-- The thread as it leaves the CPU, and as it comes back. -/
def IplThread.leaving (t : IplThread n) (spl : Ipl) (new : NewState) (rest : List Frame) : IplThread n :=
  { t with frames := .switch spl new .parked :: rest, held := t.held.erase (.runqueue t.t_cpu) }

def IplThread.entering (t : IplThread n) (spl : Ipl) (new : NewState) (rest : List Frame) : IplThread n :=
  { t with frames := .switch spl new .back :: rest, held := .runqueue t.t_cpu :: t.held }

/-- The thread that leaves still counts the lock, but the lock is not its own any more. -/
theorem ParkedOk.leaving {ie : Bool} (hc : ContextOk c ⟨t, ie⟩) (hfr : t.frames = .switch spl new .search :: rest) :
    ParkedOk (t.leaving spl new rest) := by
  have hframes := hc.frames
  have hhigh : t.t_curspl = .IPL_HIGH := hc.top.fixed (by rw [hfr]; rfl)
  have hlk : .runqueue t.t_cpu ∈ t.held := hc.top.locked _ _ _ _ hfr (.inr (.inl rfl))
  have hcount : t.t_iplhigh_count = (t.held.length + t.t_curspl.level : Nat) := hc.count
  rw [hfr] at hframes
  refine ⟨rfl, hhigh, ?_, hframes⟩
  have hlen := List.length_erase_of_mem hlk
  have hpos := List.length_pos_of_mem hlk
  show t.t_iplhigh_count = ((t.held.erase (.runqueue t.t_cpu)).length + 1 + 1 : Nat)
  rw [hcount, hlen, hhigh, Ipl.level]
  omega

/-- The thread that comes back has counted the lock when it left, or in `thread_fork`. -/
theorem ContextOk.entering (ht : ParkedOk t) (hcpu : t.t_cpu = c) (hfr : t.frames = .switch spl new .parked :: rest) :
    ContextOk c ⟨t.entering spl new rest, false⟩ := by
  have hframes := ht.frames
  rw [hfr] at hframes
  have hs : (⟨t.entering spl new rest, false⟩ : Context n) =
      settled t.t_cpu t.t_curspl (.switch spl new .back :: rest) (.runqueue t.t_cpu :: t.held) := by
    apply settled_eq (k := t.held.length + 1 + 1) ht.count rfl
    show t.held.length + 1 + t.t_curspl.level = _
    rw [ht.spl]
    rfl
  rw [hs, hcpu, ht.spl]
  exact .of_switch (by simp) (by simp) hframes

theorem park_run (s : IplState n) (c : Fin n) (spl : Ipl) (new : NewState) (rest : List Frame) :
    park c spl new rest s =
      .ok () { s with thread := update s.thread (s.curthread c)
                        ((s.thread (s.curthread c)).leaving spl new rest) } := by
  show Outcome.ok () (s.setContext c ⟨(s.thread (s.curthread c)).leaving spl new rest, s.ie c⟩) = _
  rw [IplState.setContext, update_eq_self]

theorem wp_resume (s : IplState n) (c : Fin n) (u : Nat) :
    (resume c c u).wp (fun _ s' => ∃ spl new rest, s.created u = true ∧ (s.thread u).t_cpu = c ∧
        (s.thread u).frames = .switch spl new .parked :: rest ∧
        s' = { s with thread := update s.thread u ((s.thread u).entering spl new rest)
                      curthread := update s.curthread c u })
      (fun _ _ => True) (fun _ => False) s := by
  rw [resume, wp_read_bind, wp_ite]
  split
  · rename_i hu
    obtain ⟨hcreated, hcpu⟩ := hu
    split
    · rename_i spl new rest hfr
      rw [wp_ite]
      split
      · trivial
      · let s₁ : IplState n := { s with curthread := update s.curthread c u }
        have hctx : s₁.context c = ⟨s.thread u, s.ie c⟩ := by
          show Context.mk (s.thread (update s.curthread c u c)) (s.ie c) = _
          rw [update_self]
        have hrun : onCpu c (do
            setFrames (.switch spl new .back :: rest)
            setHeld (.runqueue c :: (s.thread u).held)) s₁ =
              .ok () (s₁.setContext c ⟨(s.thread u).entering spl new rest, s.ie c⟩) := by
          show Outcome.ok () (s₁.setContext c
            ⟨{ (s₁.context c).thread with frames := .switch spl new .back :: rest
                                          held := .runqueue c :: (s.thread u).held }, (s₁.context c).ie⟩) = _
          rw [hctx, IplThread.entering]
          simp only [hcpu]
        rw [wp_modify_bind]
        apply wp_of_run_ok hrun
        refine ⟨spl, new, rest, hcreated, hcpu, hfr, ?_⟩
        simp only [IplState.setContext, s₁, update_self, update_eq_self]
    · trivial
  · trivial

theorem search_next_safe (h : IplInv s) (hfr : (s.context c).thread.frames = .switch spl new .search :: rest) (u : Nat) :
    Safe (do
      .modify fun s' => { s' with c_isidle := update s'.c_isidle (s.curcpu c) false }
      park c spl new rest
      resume c (s.curcpu c) u) s := by
  have hc := h.cpus c
  have hcpu : (s.thread (s.curthread c)).t_cpu = c := hc.cpu
  have hcur : s.curcpu c = c := hc.cpu
  have hlk := hc.top.locked _ _ _ _ hfr (.inr (.inl rfl))
  have hie : s.ie c = false := by
    have hie := hc.ie
    rw [hc.top.fixed (by rw [hfr]; rfl), hfr] at hie
    show (s.context c).ie = false
    simpa [window, Ipl.level] using hie
  have hleft : ParkedOk ((s.thread (s.curthread c)).leaving spl new rest) := .leaving hc hfr
  rw [hcur]
  let s₁ : IplState n := { s with c_isidle := update s.c_isidle c false }
  show wp (park c spl new rest >>= fun _ => resume c c u) _ _ _ s₁
  rw [wp_bind]
  apply wp_of_run_ok (park_run s₁ c spl new rest)
  apply wp_mono (wp_resume _ c u)
  · intro _ s' ⟨spl', new', rest', hcreated, hucpu, hufr, hs'⟩
    let mid := update s.thread (s.curthread c) ((s.thread (s.curthread c)).leaving spl new rest)
    have hpu : parked (mid u).frames = true := by
      rw [hufr]
      rfl
    -- it is the thread that has just left, or one that left before
    have hmid : ParkedOk (mid u) := by
      by_cases hu : u = s.curthread c
      · have hself : mid u = (s.thread (s.curthread c)).leaving spl new rest := by
          rw [hu]
          exact update_self _ _ _
        rw [hself]
        exact hleft
      · have hsame : mid u = s.thread u := update_of_ne hu _ _
        rw [hsame] at hpu ⊢
        exact h.others u hcreated (h.not_current hpu)
    have hu' := ContextOk.entering hmid hucpu hufr
    rw [← hie] at hu'
    rw [hs']
    apply h.switched (.runqueue c) hleft _ hcreated hpu hu'
    · rw [IplThread.entering]
      rw [hucpu]
    · rw [IplThread.leaving, hcpu]
      rw [hc.cpu] at hlk
      exact List.perm_cons_erase hlk
  · exact fun _ _ _ => trivial
  · exact fun _ hf => hf.elim

theorem setFrames_settled (fs : List Frame) :
    setFrames fs (settled c spl frames held) = .ok () (settled c spl fs held) := rfl

theorem onCpu_setFrames (hs : s.context c = settled c spl frames held) (fs : List Frame) :
    onCpu c (setFrames fs) s = .ok () (s.setContext c (settled c spl fs held)) := by
  show Outcome.ok () (s.setContext c { s.context c with thread := { (s.context c).thread with frames := fs } }) = _
  rw [hs]
  rfl

/-- `thread_switch` goes to its loop. -/
theorem locked_proceed_safe (h : IplInv s) (hfr : (s.context c).thread.frames = .switch spl new .locked :: rest)
    (hwc : ∀ wc, new = .sleep wc → .other wc ∈ (s.context c).thread.held) :
    Safe (do
      match new with
      | .sleep wc => spinlock_release c (.other wc)
      | _ => .ret ()
      .modify fun s' => { s' with c_isidle := update s'.c_isidle (s.curcpu c) true }
      onCpu c (setFrames (.switch spl new .search :: rest))) s := by
  have hc := h.cpus c
  obtain ⟨hs, hrest, hlk⟩ := hc.eq_switch hfr (by simp)
  replace hlk := hlk (.inl rfl)
  have hnext : ∀ held : List (SpinId n), .runqueue c ∈ held →
      ContextOk c (settled c .IPL_HIGH (.switch spl new .search :: rest) held) :=
    fun held hmem => .of_switch (by simp) (fun _ => hmem) hrest
  let isidle := update s.c_isidle (s.curcpu c) true
  have hstay : Safe (do
      .modify fun s' => { s' with c_isidle := update s'.c_isidle (s.curcpu c) true }
      onCpu c (setFrames (.switch spl new .search :: rest))) s := by
    have hrun := onCpu_setFrames (s := { s with c_isidle := isidle }) hs (.switch spl new .search :: rest)
    exact wp_of_run_ok hrun (h.sameHeld (hnext _ hlk) rfl)
  cases new with
  | sleep wc =>
    have hmem := hwc wc rfl
    apply wp_then (wp_release hs hmem)
    intro _ s' hs'
    have hmem' : .runqueue c ∈ (s.context c).thread.held.erase (.other wc) :=
      (List.mem_erase_of_ne (by simp)).mpr hlk
    have hctx : IplState.context { s' with c_isidle := isidle } c =
        settled c .IPL_HIGH (.switch spl (.sleep wc) .locked :: rest)
          ((s.context c).thread.held.erase (.other wc)) := by
      rw [hs']
      simp [IplState.context, IplState.withLock, IplState.setContext]
    have hrun := onCpu_setFrames hctx (.switch spl (.sleep wc) .search :: rest)
    rw [hs'] at hrun ⊢
    refine wp_of_run_ok hrun ?_
    have hinv := h.released (b := isidle) (hnext _ hmem') hmem rfl
    rw [← setContext_withLock] at hinv
    exact hinv
  | ready | zombie => exact hstay

theorem switchStep_safe (h : IplInv s) (choice : SwitchChoice) {pc : SwitchPc}
    (hfr : (s.context c).thread.frames = .switch spl new pc :: rest)
    (hwc : pc = .locked → ∀ wc, new = .sleep wc → .other wc ∈ (s.context c).thread.held) :
    Safe (switchStep c choice spl new rest pc) s := by
  have hc := h.cpus c
  have hcur : s.curcpu c = c := hc.cpu
  cases pc with
  | start =>
    obtain ⟨hs, hrest, -⟩ := hc.eq_switch hfr (by simp)
    unfold Safe switchStep
    rw [wp_read_bind, wp_ite]
    split
    · -- an interrupt of the idle loop
      exact h.onCpu (switch_done_keeps hc (by rw [hfr]; rfl) spl hrest)
    · rw [hcur]
      apply acquire_then h hs _ (setFrames_settled _)
      · exact .of_switch (by simp) (fun _ => List.mem_cons_self) hrest
      · rfl
  | locked =>
    obtain ⟨hs, hrest, hlk⟩ := hc.eq_switch hfr (by simp)
    unfold Safe switchStep
    rw [wp_read_bind, wp_ite]
    split
    · rw [hcur]
      apply release_then h hs (hlk (.inl rfl)) (x := settled c spl rest ((s.context c).thread.held.erase (.runqueue c)))
      · rw [bind_run_ok (splx_settled spl)]
        rfl
      · exact .of_plain hrest.1 hrest.2
      · rfl
    · exact locked_proceed_safe h hfr (hwc rfl)
  | search =>
    obtain ⟨hs, hrest, hlk⟩ := hc.eq_switch hfr (by simp)
    have hidle : Safe (do
        spinlock_release c (.runqueue (s.curcpu c))
        onCpu c (setFrames (.switch spl new .idle :: rest))) s := by
      rw [hcur]
      apply release_then h hs (hlk (.inr (.inl rfl))) (setFrames_settled _)
      · exact .of_switch (by simp) (by simp) hrest
      · rfl
    unfold Safe switchStep
    rw [wp_read_bind]
    cases choice with
    | next u => exact search_next_safe h hfr u
    | proceed | leave => exact hidle
  | idle => exact h.onCpu (idle_keeps hc hfr)
  | window => exact h.onCpu (window_keeps hc hfr)
  | woken =>
    obtain ⟨hs, hrest, -⟩ := hc.eq_switch hfr (by simp)
    unfold Safe switchStep
    rw [wp_read_bind, hcur]
    apply acquire_then h hs _ (setFrames_settled _)
    · exact .of_switch (by simp) (fun _ => List.mem_cons_self) hrest
    · rfl
  | parked => trivial
  | back =>
    obtain ⟨hs, hrest, hlk⟩ := hc.eq_switch hfr (by simp)
    unfold Safe switchStep
    rw [wp_read_bind, hcur]
    apply release_then h hs (hlk (.inr (.inr rfl))) (setFrames_settled _)
    · exact .of_settled rfl hrest nofun
    · rfl
  | unlocked =>
    have hframes := hc.frames
    rw [hfr] at hframes
    exact h.onCpu (switch_done_keeps hc (by rw [hfr]; rfl) spl hframes)

/-! ### Every step -/

theorem guarded_safe {ok : Bool} {m : IplM n Unit} (h : ok = true → Safe m s) : Safe (guarded ok m) s := by
  unfold Safe guarded
  rw [wp_ite]
  split
  · rename_i hok
    exact h hok
  · trivial

/-- **The step lemma**: matched code that restores the level keeps the accounting, and no assertion
about it fails. -/
theorem cpuStep_safe (h : IplInv s) {op : IplOp n} (hm : matched (s.context c).thread op = true)
    (hr : restored (s.context c).thread op = true) : Safe (cpuStep c op) s := by
  have hc := h.cpus c
  unfold Safe cpuStep
  rw [wp_read_bind]
  cases op with
  | splx spl => exact guarded_safe fun hp => h.onCpu (splx_keeps hc hp spl)
  | spinlock_acquire lk => exact guarded_safe fun hp => acquire_safe h hp lk
  | spinlock_release lk => exact guarded_safe fun hp => release_safe h hp (of_decide_eq_true hm)
  | thread_fork u => exact guarded_safe fun _ => thread_fork_safe h u
  | thread_switch new => exact guarded_safe fun hp => h.onCpu (thread_switch_keeps hc hp new)
  | switch choice =>
    show wp (match (s.context c).thread.frames with
      | .switch spl new pc :: rest => switchStep c choice spl new rest pc
      | _ => .fail ()) _ _ _ s
    split
    · rename_i spl new pc rest hfr
      apply switchStep_safe h choice hfr
      intro hpc wc hnew
      subst hpc
      subst hnew
      unfold matched at hm
      rw [hfr] at hm
      exact of_decide_eq_true hm
    · trivial
  | interrupt => exact guarded_safe fun hie => h.onCpu (interrupt_keeps hc hie)
  | interruptReturn => exact h.onCpu (interruptReturn_keeps hc hm (of_decide_eq_true hr))
  | fault =>
    apply guarded_safe
    intro hok
    apply h.onCpu (fault_keeps hc _)
    rcases Bool.or_eq_true_iff.mp hok with hp | hu
    · exact fixed_of_plain hp
    · rw [hc.eq_user (of_decide_eq_true hu)]
      rfl
  | faultReturn => exact h.onCpu (faultReturn_keeps hc hm hr)
  | syscall => exact guarded_safe fun hu => h.onCpu (syscall_keeps hc (of_decide_eq_true hu))
  | syscallReturn => exact h.onCpu (syscallReturn_keeps hc (of_decide_eq_true hm) (of_decide_eq_true hr))
  | mips_usermode =>
    have hheld : (s.context c).thread.held = [] := of_decide_eq_true hm
    show wp (match (s.context c).thread.frames with
      | [] => onCpu c mips_usermode
      | [.syscall _, .user] => onCpu c mips_usermode
      | _ => .fail ()) _ _ _ s
    split
    · rename_i hfr
      exact h.onCpu (mips_usermode_keeps hc (by rw [hfr]; rfl) hheld)
    · rename_i hfr
      exact h.onCpu (mips_usermode_keeps hc (by rw [hfr]; rfl) hheld)
    · trivial

theorem iplInv_boot (h : IplBoot s) : IplInv s where
  cpus := by
    intro c
    have hctx : s.context c = settled c .IPL_HIGH [] [] := by
      rw [IplState.context, h.boot c, h.ie c]
      rfl
    rw [hctx]
    exact .of_plain rfl trivial
  current := fun c => (h.created _).mpr ⟨c, rfl⟩
  others := by
    intro u hu hne
    obtain ⟨c, hc⟩ := (h.created u).mp hu
    exact absurd hc (hne c)
  fresh := fun u _ => h.held u
  apart := by
    simp only [h.held]
    exact ⟨fun _ => List.nodup_nil, fun _ _ _ hx => nomatch hx⟩
  holder := by
    intro u lk hlk
    rw [h.held u] at hlk
    exact nomatch hlk

/-! ## Runs -/

/-- The assertions about levels have not failed. -/
structure SysInv (s : IplSys n) : Prop where
  inv : IplInv s.machine
  safe : ∀ p, s.panicked = some p → p = .spinlock_deadlock ∨ p = .spinlock_release

theorem sysInv_step {s s' : IplSys n} {a : IplAct n} (h : SysInv s) (hm : Matched s a) (hr : Restored s a)
    (hstep : iplNext s a = some s') : SysInv s' := by
  unfold iplNext at hstep
  split at hstep
  · exact nomatch hstep
  · cases a with
    | cpu c op =>
      have hsafe := cpuStep_safe h.inv hm hr
      cases hrun : cpuStep c op s.machine with
      | ok _ m =>
        simp only [hrun] at hstep
        cases hstep
        exact ⟨wp_ok hrun hsafe, h.safe⟩
      | err _ m =>
        simp only [hrun] at hstep
        exact nomatch hstep
      | panic p =>
        simp only [hrun] at hstep
        cases hstep
        refine ⟨h.inv, ?_⟩
        intro p' hp
        cases hp
        unfold Safe at hsafe
        exact wp_panic (F := fun p => p = .spinlock_deadlock ∨ p = .spinlock_release) hrun hsafe
    | migrate u cpu =>
      simp only at hstep
      split at hstep
      · rename_i hu
        cases hstep
        exact ⟨migrate_inv h.inv hu cpu, h.safe⟩
      · exact nomatch hstep

theorem sysInv_reachable {s : IplSys n}
    (hs : ((iplSystem n).restrict fun s a => Matched s a ∧ Restored s a).Reachable s) : SysInv s := by
  apply System.invariant _ _ hs
  · intro s ⟨hboot, hnone⟩
    refine ⟨iplInv_boot hboot, ?_⟩
    intro p hp
    rw [hnone] at hp
    exact nomatch hp
  · intro s a s' h ⟨⟨hm, hr⟩, hstep⟩
    exact sysInv_step h hm hr hstep

/-- **Interrupt level accounting.** For any number of CPUs and threads, whatever the order of `spl`
calls, spinlock operations, traps, switches, migrations and forks, as long as each acquire is
matched by a release and the code of each trap leaves the level as it found it: the count of
every thread is the number of its spinlocks, and one for the high level; a spinlock is counted
by one thread only; interrupts are on exactly when the count of the current thread is 0, except
where an idle CPU lets them in; and no assertion about levels and counts fails. -/
theorem ipl_accounting {s : IplSys n}
    (hs : ((iplSystem n).restrict fun s a => Matched s a ∧ Restored s a).Reachable s) :
    (∀ u, s.machine.created u = true →
      (s.machine.thread u).t_iplhigh_count =
        (s.machine.thread u).spinlocks + if (s.machine.thread u).t_curspl = .IPL_HIGH then 1 else 0) ∧
    (∀ lk u v, lk ∈ (s.machine.thread u).held → lk ∈ (s.machine.thread v).held → u = v) ∧
    (∀ c, window (s.machine.context c).thread.frames = false →
      (s.machine.ie c = true ↔ (s.machine.thread (s.machine.curthread c)).t_iplhigh_count = 0)) ∧
    ∀ p, s.panicked = some p → p = .spinlock_deadlock ∨ p = .spinlock_release := by
  obtain ⟨hi, hsafe⟩ := sysInv_reachable hs
  refine ⟨?_, fun lk u v => hi.apart.disjoint u v lk, ?_, hsafe⟩
  · intro u hu
    have hlevel : ∀ spl : Ipl, (spl.level : Int) = if spl = .IPL_HIGH then 1 else 0 := by
      intro spl
      cases spl <;> rfl
    by_cases hcur : ∃ c, s.machine.curthread c = u
    · obtain ⟨c, rfl⟩ := hcur
      have hrun : parked (s.machine.thread (s.machine.curthread c)).frames = false := (hi.cpus c).running
      have hcount := (hi.cpus c).count
      rw [IplThread.spinlocks, hrun, ← hlevel]
      exact hcount
    · obtain ⟨hp, hspl, hcount, -⟩ := hi.others u hu fun c hc => hcur ⟨c, hc⟩
      rw [IplThread.spinlocks, hp, hspl, hcount]
      rfl
  · intro c hw
    have hok := hi.cpus c
    have hie : s.machine.ie c = _ := congrArg Context.ie (hok.eq_settled hw)
    have hcount : (s.machine.thread (s.machine.curthread c)).t_iplhigh_count = _ := hok.count
    rw [hie, settled, decide_eq_true_iff, hcount]
    exact Int.natCast_eq_zero.symm

end Machine

/-! ## Two runs -/

/-- One CPU that comes up. -/
def oneCpu : IplSys 1 where
  machine :=
    { thread := fun _ => bootThread (.last 0)
      created := fun u => u = 0
      curthread := fun _ => 0
      ie := fun _ => false
      c_isidle := fun _ => false
      lk_holder := fun _ => none }
  panicked := none

theorem oneCpu_boot : IplBoot oneCpu.machine where
  boot := by
    intro c
    rw [Subsingleton.elim c 0]
    rfl
  created := by
    intro u
    constructor
    · intro hu
      exact ⟨0, (of_decide_eq_true hu).symm⟩
    · rintro ⟨c, rfl⟩
      rfl
  ie := fun _ => rfl
  held := fun _ => rfl
  lk_holder := fun _ => rfl

/-- A thread is forked and runs, takes a spinlock and an interrupt, and goes to user mode and back. -/
def firstRun : List (IplOp 1) :=
  [.splx .IPL_NONE, .thread_fork 1, .thread_switch .ready, .switch .proceed, .switch .proceed, .switch (.next 1),
    .switch .proceed, .switch .proceed, .spinlock_acquire (.other 5), .splx .IPL_HIGH, .spinlock_release (.other 5),
    .splx .IPL_NONE, .interrupt, .spinlock_acquire (.other 7), .spinlock_release (.other 7), .interruptReturn,
    .mips_usermode, .syscall]

theorem ipl_accounting_firstRun :
    ∃ s, ((iplSystem 1).restrict fun s a => Matched s a ∧ Restored s a).Reachable s ∧ s.machine.curthread 0 = 1 ∧
      (s.machine.thread 0).t_iplhigh_count = 2 ∧ (s.machine.thread 0).spinlocks = 1 ∧ s.machine.ie 0 = true ∧
      (s.machine.thread 1).t_iplhigh_count = 0 := by
  obtain ⟨s, hreach, hcur, hcount, hspin, hie, hw⟩ : ∃ s,
      ((iplSystem 1).restrict fun s a => Matched s a ∧ Restored s a).Reachable s ∧ s.machine.curthread 0 = 1 ∧
      (s.machine.thread 0).t_iplhigh_count = 2 ∧ (s.machine.thread 0).spinlocks = 1 ∧ s.machine.ie 0 = true ∧
      window (s.machine.context 0).thread.frames = false :=
    System.exists_restricted (s := oneCpu) ⟨oneCpu_boot, rfl⟩ (firstRun.map (.cpu 0)) (by decide +kernel)
  obtain ⟨-, -, hirq, -⟩ := ipl_accounting hreach
  have hzero := (hirq 0 hw).mp hie
  rw [hcur] at hzero
  exact ⟨s, hreach, hcur, hcount, hspin, hie, hzero⟩

/-- A system call that calls `splhigh` and does not go back: no spinlock is used at all. -/
def leakedLevel : List (IplOp 1) := [.mips_usermode, .syscall, .splx .IPL_HIGH, .syscallReturn]

theorem ipl_accounting_leak :
    ∃ s, ((iplSystem 1).restrict Matched).Reachable s ∧ s.panicked = some .syscall_done_spl := by
  exact System.exists_restricted (s := oneCpu) ⟨oneCpu_boot, rfl⟩ (leakedLevel.map (.cpu 0)) (by decide +kernel)

end OS161.Spl
