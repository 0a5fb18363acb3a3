import OS161.Framework.Kernel
import OS161.Thread.Migration

/-! # Threads on their lists

The model of `thread_switch` and of the functions that move threads from list to list
(`kern/thread/thread.c`), for any number of CPUs. Every CPU runs the code of one thread, on the
stack of that thread; the frames of a stack are the kernel functions that the thread is in, the
innermost first. A step is what a CPU does between two points at which other CPUs can see a
difference.

`curthread` is a register of each CPU and `curcpu` is `curthread->t_cpu`. Interrupts are taken
where no spinlock is held and no interrupt handler runs, and by an idle CPU.
-/

namespace OS161.Threads

open Framework Function

inductive ThreadState where
  | S_RUN
  | S_READY
  | S_SLEEP
  | S_ZOMBIE
  deriving DecidableEq, Repr

/-- The arguments of `thread_switch`. -/
inductive NewState (W : Type) where
  | ready
  /-- `S_SLEEP`, with the wait channel. -/
  | sleep (wc : W)
  | zombie
  deriving DecidableEq

def NewState.state {W : Type} : NewState W → ThreadState
  | .ready => .S_READY
  | .sleep _ => .S_SLEEP
  | .zombie => .S_ZOMBIE

/-- Where a CPU is in `thread_switch`. -/
inductive SwitchPc where
  /-- At the test of `c_isidle`. -/
  | start
  /-- About to lock the run queue. -/
  | want
  /-- The run queue is locked, the thread is on no list. -/
  | locked
  /-- On the wait channel, which is still locked. -/
  | published
  /-- On its list. -/
  | queued
  /-- In the loop that looks for the next thread, with the run queue locked. -/
  | search
  /-- In `cpu_idle`, with the run queue unlocked. -/
  | idle
  /-- `curthread` is the next thread, the stack is still the old one. -/
  | chosen (next : Nat)
  deriving DecidableEq, Repr

/-- Where a CPU is in code that locks, works on a list and unlocks. -/
inductive LockPc where
  | want
  | locked
  | done
  deriving DecidableEq, Repr

/-- A kernel function that a thread is in. -/
inductive KFrame (n : Nat) (W : Type) where
  /-- An interrupt handler. -/
  | intr
  /-- `thread_fork`, before `thread_make_runnable`. -/
  | fork (newthread : Nat)
  /-- `thread_make_runnable(target, false)`, with its `targetcpu`. -/
  | runnable (target : Nat) (targetcpu : Fin n) (pc : LockPc)
  /-- `wchan_wakeone`, or `wchan_wakeall` if `all`, with the threads it has taken. -/
  | wake (all : Bool) (wc : W) (pc : LockPc) (taken : List Nat)
  /-- Between `wchan_lock` and `wchan_sleep`. -/
  | locked (wc : W)
  | switch (new : NewState W) (pc : SwitchPc)
  /-- `thread_switch` after `switchframe_switch`, and `thread_startup`. -/
  | resume
  | exorcise
  | migrate (pc : MigratePc n)
  deriving DecidableEq

/-- The state of the thread system, with `n` CPUs, wait channels `W` and processes `P`. -/
structure Sched (n : Nat) (W P : Type) where
  /-- The thread on whose stack a CPU runs. -/
  stack : Fin n → Nat
  /-- The register `curthread` of a CPU. -/
  curthread : Fin n → Nat
  c_curthread : Fin n → Nat
  c_isidle : Fin n → Bool
  c_runqueue : Fin n → List Nat
  c_zombies : Fin n → List Nat
  /-- The holders of the run queue locks. -/
  rqLock : Fin n → Option (Fin n)
  wc_threads : W → List Nat
  wcLock : W → Option (Fin n)
  t_cpu : Nat → Fin n
  t_state : Nat → ThreadState
  t_proc : Nat → Option P
  p_threads : P → List Nat
  frames : Nat → List (KFrame n W)
  /-- The thread has called `thread_exit`. -/
  exiting : Nat → Bool
  /-- The number of threads that have been created. -/
  created : Nat
  destroyed : Nat → Bool

/-- The assertions and panics of the modelled functions. -/
inductive SchedPanic where
  | spinlock_deadlock
  | spinlock_release
  | make_runnable_lock
  | exorcise_curthread
  | exorcise_state
  | thread_destroy_state
  | thread_destroy_proc
  | proc_remthread_null
  | proc_remthread_escaped
  | thread_exit_proc
  /-- A thread is taken from an empty list and used. -/
  | null_thread
  deriving DecidableEq, Repr

section Code

variable {n : Nat} {W P : Type} [DecidableEq W] [DecidableEq P]

/-- Code of one step; it fails where the CPU has to wait. -/
abbrev SchedM (n : Nat) (W P : Type) : Type → Type := Kern (Sched n W P) Unit SchedPanic

/-- `curcpu`, on CPU `c`. -/
def Sched.curcpu (s : Sched n W P) (c : Fin n) : Fin n := s.t_cpu (s.curthread c)

def Sched.setFrames (s : Sched n W P) (t : Nat) (fs : List (KFrame n W)) : Sched n W P :=
  { s with frames := update s.frames t fs }

def setFrames (t : Nat) (fs : List (KFrame n W)) : SchedM n W P Unit := .modify fun s => s.setFrames t fs

/-- `spinlock_acquire` of a run queue lock. -/
def lockQueue (c x : Fin n) : SchedM n W P Unit := do
  let s ← .read
  .kassert (s.rqLock x ≠ some (s.curcpu c)) .spinlock_deadlock
  if s.rqLock x = none then
    .modify fun s => { s with rqLock := update s.rqLock x (some (s.curcpu c)) }
  else .fail ()

/-- `spinlock_release` of a run queue lock. -/
def unlockQueue (c x : Fin n) : SchedM n W P Unit := do
  let s ← .read
  .kassert (s.rqLock x = some (s.curcpu c)) .spinlock_release
  .modify fun s => { s with rqLock := update s.rqLock x none }

def wchan_lock (c : Fin n) (wc : W) : SchedM n W P Unit := do
  let s ← .read
  .kassert (s.wcLock wc ≠ some (s.curcpu c)) .spinlock_deadlock
  if s.wcLock wc = none then
    .modify fun s => { s with wcLock := update s.wcLock wc (some (s.curcpu c)) }
  else .fail ()

def wchan_unlock (c : Fin n) (wc : W) : SchedM n W P Unit := do
  let s ← .read
  .kassert (s.wcLock wc = some (s.curcpu c)) .spinlock_release
  .modify fun s => { s with wcLock := update s.wcLock wc none }

def setQueue (x : Fin n) (q : List Nat) : SchedM n W P Unit :=
  .modify fun s => { s with c_runqueue := update s.c_runqueue x q }

def setChannel (wc : W) (q : List Nat) : SchedM n W P Unit :=
  .modify fun s => { s with wc_threads := update s.wc_threads wc q }

def setZombies (x : Fin n) (q : List Nat) : SchedM n W P Unit :=
  .modify fun s => { s with c_zombies := update s.c_zombies x q }

/-! ## The functions -/

/-- `thread_make_runnable(target, false)`. -/
def runnableStep (c : Fin n) (t target : Nat) (x : Fin n) (rest : List (KFrame n W)) : LockPc → SchedM n W P Unit
  | .want => do
    lockQueue c x
    setFrames t (.runnable target x .locked :: rest)
  | .locked => do
    let s ← .read
    setQueue x (s.c_runqueue x ++ [target])
    setFrames t (.runnable target x .done :: rest)
  | .done => do
    unlockQueue c x
    setFrames t rest

/-- `wchan_wakeone` and `wchan_wakeall`: threads are taken off the channel while it is locked, one
or all of them, and made runnable afterwards. -/
def wakeStep (c : Fin n) (t : Nat) (all : Bool) (wc : W) (taken : List Nat) (rest : List (KFrame n W)) :
    LockPc → SchedM n W P Unit
  | .want => do
    wchan_lock c wc
    setFrames t (.wake all wc .locked taken :: rest)
  | .locked => do
    let s ← .read
    match s.wc_threads wc with
    | u :: us =>
      if all = true ∨ taken = [] then do
        setChannel wc us
        setFrames t (.wake all wc .locked (taken ++ [u]) :: rest)
      else do
        wchan_unlock c wc
        setFrames t (.wake all wc .done taken :: rest)
    | [] => do
      wchan_unlock c wc
      setFrames t (.wake all wc .done taken :: rest)
  | .done => do
    let s ← .read
    match taken with
    | [] => setFrames t rest
    | u :: us => setFrames t (.runnable u (s.t_cpu u) .want :: .wake all wc .done us :: rest)

/-- Put `cur` in the right place: the `switch` of `thread_switch`. -/
def publish (c : Fin n) (t : Nat) (new : NewState W) (rest : List (KFrame n W)) : SchedM n W P Unit := do
  let s ← .read
  let cur := s.curthread c
  match new with
  | .ready => do
    -- `thread_make_runnable(cur, true)`
    .kassert (s.rqLock (s.t_cpu cur) = some (s.curcpu c)) .make_runnable_lock
    setQueue (s.t_cpu cur) (s.c_runqueue (s.t_cpu cur) ++ [cur])
    setFrames t (.switch new .queued :: rest)
  | .sleep wc => do
    setChannel wc (s.wc_threads wc ++ [cur])
    setFrames t (.switch new .published :: rest)
  | .zombie => do
    setZombies (s.curcpu c) (s.c_zombies (s.curcpu c) ++ [cur])
    setFrames t (.switch new .queued :: rest)

/-- `thread_switch`. -/
def switchStep (c : Fin n) (t : Nat) (new : NewState W) (rest : List (KFrame n W)) : SwitchPc → SchedM n W P Unit
  | .start => do
    let s ← .read
    -- an idle CPU has nothing to switch from
    if s.c_isidle (s.curcpu c) then setFrames t rest else setFrames t (.switch new .want :: rest)
  | .want => do
    let s ← .read
    lockQueue c (s.curcpu c)
    setFrames t (.switch new .locked :: rest)
  | .locked => do
    let s ← .read
    if new = .ready ∧ s.c_runqueue (s.curcpu c) = [] then do
      unlockQueue c (s.curcpu c)
      setFrames t rest
    else publish c t new rest
  | .published =>
    match new with
    | .sleep wc => do
      wchan_unlock c wc
      setFrames t (.switch new .queued :: rest)
    | _ => setFrames t (.switch new .queued :: rest)
  | .queued => do
    .modify fun s =>
      { s with
        t_state := update s.t_state (s.curthread c) new.state
        c_isidle := update s.c_isidle (s.curcpu c) true }
    setFrames t (.switch new .search :: rest)
  | .search => do
    let s ← .read
    let k := s.curcpu c
    match s.c_runqueue k with
    | [] => do
      unlockQueue c k
      setFrames t (.switch new .idle :: rest)
    | next :: q => do
      setQueue k q
      .modify fun s =>
        { s with
          c_isidle := update s.c_isidle k false
          c_curthread := update s.c_curthread k next
          curthread := update s.curthread c next }
      setFrames t (.switch new (.chosen next) :: rest)
  | .idle => do
    let s ← .read
    lockQueue c (s.curcpu c)
    setFrames t (.switch new .search :: rest)
  | .chosen next => do
    -- `switchframe_switch`: the context is saved on the stack, the other stack is taken up
    setFrames t (.resume :: rest)
    .modify fun s => { s with stack := update s.stack c next }

/-- The end of `thread_switch`, up to `exorcise`, in the thread that is back on its stack. -/
def resumeStep (c : Fin n) (t : Nat) (rest : List (KFrame n W)) : SchedM n W P Unit := do
  .modify fun s => { s with t_state := update s.t_state t .S_RUN }
  let s ← .read
  unlockQueue c (s.curcpu c)
  setFrames t (.exorcise :: rest)

/-- `exorcise`, one round of its loop, with `thread_destroy`. -/
def exorciseStep (c : Fin n) (t : Nat) (rest : List (KFrame n W)) : SchedM n W P Unit := do
  let s ← .read
  match s.c_zombies (s.curcpu c) with
  | [] => setFrames t rest
  | z :: zs => do
    setZombies (s.curcpu c) zs
    .kassert (z ≠ s.curthread c) .exorcise_curthread
    .kassert (s.t_state z = .S_ZOMBIE) .exorcise_state
    .kassert (s.t_state z ≠ .S_RUN) .thread_destroy_state
    .kassert (s.t_proc z = none) .thread_destroy_proc
    .modify fun s => { s with destroyed := update s.destroyed z true }

/-- `thread_consider_migration`: the lock that a step needs is taken before it, and released after
it unless the function goes on with it. -/
def migrateStep (c : Fin n) (t : Nat) (rest : List (KFrame n W)) (pc : MigratePc n) : SchedM n W P Unit := do
  let s ← .read
  match pc.wants (s.curcpu c) with
  | some x => lockQueue c x
  | none => .ret ()
  match migrateNext (s.curcpu c) (s.curthread c) { c_runqueue := s.c_runqueue, t_cpu := s.t_cpu } pc with
  | .error .null_thread => .halt .null_thread
  | .ok (q, next) => do
    .modify fun s => { s with c_runqueue := q.c_runqueue, t_cpu := q.t_cpu }
    match (pc.wants (s.curcpu c)).or (pc.holds (s.curcpu c)) with
    | some x => if next.bind (·.holds (s.curcpu c)) = some x then .ret () else unlockQueue c x
    | none => .ret ()
    match next with
    | some pc' => setFrames t (.migrate pc' :: rest)
    | none => setFrames t rest

/-! ## Steps -/

/-- The next step of the code that CPU `c` is in. -/
def runStep (c : Fin n) (t : Nat) (rest : List (KFrame n W)) : KFrame n W → SchedM n W P Unit
  | .intr => setFrames t rest
  | .fork newthread => do
    let s ← .read
    setFrames t (.runnable newthread (s.t_cpu newthread) .want :: rest)
  | .runnable target x pc => runnableStep c t target x rest pc
  | .wake all wc pc taken => wakeStep c t all wc taken rest pc
  | .locked wc => setFrames t (.switch (.sleep wc) .start :: rest)
  | .switch new pc => switchStep c t new rest pc
  | .resume => resumeStep c t rest
  | .exorcise => exorciseStep c t rest
  | .migrate pc => migrateStep c t rest pc

/-- What the own code of a thread, or an interrupt handler, can do next. -/
inductive ThreadCall (W P : Type) where
  | thread_fork (p : P)
  | thread_yield
  | wchan_lock (wc : W)
  | wchan_unlock
  | wchan_wakeone (wc : W)
  | wchan_wakeall (wc : W)
  | thread_exit
  | thread_consider_migration
  deriving DecidableEq

/-- `thread_fork` up to `thread_make_runnable`, in process `p`. -/
def thread_fork (c : Fin n) (t : Nat) (p : P) : SchedM n W P Unit :=
  .modify fun s =>
    { s with
      created := s.created + 1
      t_cpu := update s.t_cpu s.created (s.t_cpu (s.curthread c))
      t_state := update s.t_state s.created .S_READY
      t_proc := update s.t_proc s.created (some p)
      p_threads := update s.p_threads p (s.p_threads p ++ [s.created])
      frames := update (update s.frames s.created [.resume]) t [.fork s.created] }

/-- `proc_remthread`, and the assertion of `thread_exit` after it. -/
def thread_exit (c : Fin n) (t : Nat) : SchedM n W P Unit := do
  let s ← .read
  let cur := s.curthread c
  match s.t_proc cur with
  | none => .halt .proc_remthread_null
  | some p => do
    .kassert (cur ∈ s.p_threads p) .proc_remthread_escaped
    .modify fun s =>
      { s with
        p_threads := update s.p_threads p ((s.p_threads p).erase cur)
        t_proc := update s.t_proc cur none
        exiting := update s.exiting t true }
    let s ← .read
    .kassert (s.t_proc cur = none) .thread_exit_proc

/-- The own code of a thread that has not called `thread_exit`. -/
def threadCall (c : Fin n) (t : Nat) : ThreadCall W P → SchedM n W P Unit
  | .thread_fork p => thread_fork c t p
  | .thread_yield => setFrames t [.switch .ready .start]
  | .wchan_lock wc => do
    wchan_lock c wc
    setFrames t [.locked wc]
  | .wchan_wakeone wc => setFrames t [.wake false wc .want []]
  | .wchan_wakeall wc => setFrames t [.wake true wc .want []]
  | .thread_exit => thread_exit c t
  | _ => .fail ()

/-- `thread_exit` after `proc_remthread`: `V(sem_runprogram)` and the last switch. -/
def exitCall (t : Nat) : ThreadCall W P → SchedM n W P Unit
  | .wchan_wakeone wc => setFrames t [.wake false wc .want []]
  | .thread_exit => setFrames t [.switch .zombie .start]
  | _ => .fail ()

/-- Interrupt handlers wake threads, and the one of the clock migrates threads and yields. -/
def handlerCall (t : Nat) (rest : List (KFrame n W)) : ThreadCall W P → SchedM n W P Unit
  | .wchan_wakeone wc => setFrames t (.wake false wc .want [] :: .intr :: rest)
  | .wchan_wakeall wc => setFrames t (.wake true wc .want [] :: .intr :: rest)
  | .thread_consider_migration => setFrames t (.migrate (.count 0 0 0) :: .intr :: rest)
  | .thread_yield => setFrames t (.switch .ready .start :: .intr :: rest)
  | _ => .fail ()

def callStep (c : Fin n) (t : Nat) (call : ThreadCall W P) : SchedM n W P Unit := do
  let s ← .read
  match s.frames t with
  | [] => if s.exiting t then exitCall t call else threadCall c t call
  | .intr :: rest => handlerCall t rest call
  | .locked wc :: rest =>
    if call = .wchan_unlock then do
      wchan_unlock c wc
      setFrames t rest
    else .fail ()
  | _ => .fail ()

/-- Whether an interrupt can be taken on a stack with these frames. -/
def interruptible : List (KFrame n W) → Bool
  | .switch _ .idle :: _ => true
  | fs =>
    (fs.all fun f => decide (f ≠ .intr)) &&
      match fs with
      | [] => true
      | .fork _ :: _ => true
      | .runnable _ _ .want :: _ => true
      | .wake _ _ .want _ :: _ => true
      | .wake _ _ .done _ :: _ => true
      | _ => false

/-- The steps of CPU `c`. -/
inductive CpuAct (W P : Type) where
  | run
  | call (call : ThreadCall W P)
  | interrupt

def cpuStep (c : Fin n) (a : CpuAct W P) : SchedM n W P Unit := do
  let s ← .read
  let t := s.stack c
  match a with
  | .run =>
    match s.frames t with
    | [] => .fail ()
    | f :: rest => runStep c t rest f
  | .call call => callStep c t call
  | .interrupt => if interruptible (s.frames t) then setFrames t (.intr :: s.frames t) else .fail ()

end Code

/-! ## Threads and processes -/

open Kern

variable {n : Nat} {W P : Type}

/-- A process lists exactly its threads, each of them once. -/
structure Enrolled (s : Sched n W P) : Prop where
  mem : ∀ t p, t ∈ s.p_threads p ↔ s.t_proc t = some p
  nodup : ∀ p, (s.p_threads p).Nodup
  fresh : ∀ t, s.created ≤ t → s.t_proc t = none

/-- The code keeps threads enrolled, and does not panic about a thread that is not listed. -/
abbrev Keeps (m : SchedM n W P Unit) (s : Sched n W P) : Prop :=
  wp m (fun _ => Enrolled) (fun _ _ => True) (· ∉ [.proc_remthread_escaped, .thread_exit_proc]) s

variable {s : Sched n W P} (h : Enrolled s) (c : Fin n) (t : Nat)
include h

variable [DecidableEq W] [DecidableEq P]

omit h

end OS161.Threads
