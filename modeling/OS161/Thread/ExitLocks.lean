import OS161.Framework.TransitionSystem

/-! # Sleep locks at the end of a thread

User processes, one thread each, with the sleep locks that their system calls take:
`vfs_biglock`, the two console locks and the `pd_lock` of each process. A process ends in
`sys__exit`, which it calls itself, which `kill_curthread` calls after a fatal trap, and which
`vm_fault` calls for a store to a read-only page, also when it is the kernel that stores, in the
middle of a system call (`kern/syscall/exit_syscalls.c`, `kern/arch/mips/locore/trap.c`,
`kern/vm/vm.c`, `kern/thread/thread.c`).

`sys__exit` takes the `pd_lock` of its own process and gives back nothing.
-/

namespace OS161

open Framework Function

/-! ## State -/

/-- The sleep locks. -/
inductive SleepLock (T : Type) where
  | vfs_biglock
  | con_userlock_read
  | con_userlock_write
  | pd_lock (t : T)
  deriving DecidableEq, Repr

/-- What a system call does with locks and with user memory. -/
inductive LockStep (T : Type) where
  | acquire (l : SleepLock T)
  | release (l : SleepLock T)
  /-- The kernel stores to user memory. -/
  | store
  deriving DecidableEq, Repr

/-- The system calls that take sleep locks. -/
inductive LockCall (T : Type) where
  /-- `sys_read` on a file: `sfs_read` transfers block by block. -/
  | sfs_read (blocks : Nat)
  /-- `sys_write` on a file, out of a kernel buffer. -/
  | sfs_write
  /-- `sys_read` on the console: `con_io` transfers character by character. -/
  | con_read (chars : Nat)
  | con_write
  /-- `sys_waitpid` for the process of `u`, which waits `waits` times. -/
  | waitpid (u : T) (waits : Nat)
  /-- The name lookups of `sys_open` and `sys_execv`. -/
  | vfs_lookup

/-- The steps of a system call, in order. -/
def LockCall.steps {T : Type} : LockCall T → List (LockStep T)
  | .sfs_read blocks =>
    .acquire .vfs_biglock :: (List.replicate blocks .store ++ [.release .vfs_biglock])
  | .sfs_write => [.acquire .vfs_biglock, .release .vfs_biglock]
  | .con_read chars =>
    .acquire .con_userlock_read :: (List.replicate chars .store ++ [.release .con_userlock_read])
  | .con_write => [.acquire .con_userlock_write, .release .con_userlock_write]
  | .waitpid u waits =>
    -- `cv_wait` gives the lock back and takes it again; `*status` is stored with
    -- the lock held
    .acquire (.pd_lock u) ::
      ((List.replicate waits [.release (.pd_lock u), .acquire (.pd_lock u)]).flatten ++
        [.store, .release (.pd_lock u)])
  | .vfs_lookup => [.acquire .vfs_biglock, .release .vfs_biglock]

/-- Where a thread is. -/
inductive DyingPc (T : Type) where
  /-- In a system call with these steps left; in user mode when there are none. -/
  | run (rest : List (LockStep T))
  /-- `acquire_lock(curproc->pid)` of `sys__exit`. -/
  | acquire_lock
  | wake_up
  /-- Inside `thread_exit`. -/
  | thread_exit
  | zombie
  deriving DecidableEq, Repr

/-- The thread has entered `thread_exit`. -/
def DyingPc.entered {T : Type} : DyingPc T → Bool
  | thread_exit | zombie => true
  | _ => false

/-- The owners of the locks and the threads. -/
structure ExitState (T : Type) where
  lk_owner : SleepLock T → Option T
  pc : T → DyingPc T

/-! ## Steps -/

/-- What the threads do. -/
inductive ExitAct (T : Type) where
  | syscall (t : T) (call : LockCall T)
  /-- The next step of the system call. -/
  | step (t : T)
  /-- `sys__exit`, called from user mode or after a fatal trap there. -/
  | sys__exit (t : T)
  /-- A store to a read-only page, by the process or by the kernel for it. -/
  | readonly_fault (t : T)
  /-- The next step of `sys__exit` and `thread_exit`. -/
  | exit (t : T)

section Steps

variable {T : Type} [DecidableEq T]

namespace ExitState

def setPc (s : ExitState T) (t : T) (pc : DyingPc T) : ExitState T :=
  { s with pc := update s.pc t pc }

def setOwner (s : ExitState T) (l : SleepLock T) (o : Option T) : ExitState T :=
  { s with lk_owner := update s.lk_owner l o }

end ExitState

/-- A step of a system call; one that waits for a lock is not taken until the lock is free. -/
def lockStep (s : ExitState T) (t : T) (rest : List (LockStep T)) :
    LockStep T → Option (ExitState T)
  | .acquire l =>
    if s.lk_owner l = none then some ((s.setOwner l (some t)).setPc t (.run rest)) else none
  | .release l =>
    if s.lk_owner l = some t then some ((s.setOwner l none).setPc t (.run rest)) else none
  | .store => some (s.setPc t (.run rest))

def exitNext (s : ExitState T) : ExitAct T → Option (ExitState T)
  | .syscall t call => if s.pc t = .run [] then some (s.setPc t (.run call.steps)) else none
  | .step t => match s.pc t with
    | .run (step :: rest) => lockStep s t rest step
    | _ => none
  | .sys__exit t => if s.pc t = .run [] then some (s.setPc t .acquire_lock) else none
  | .readonly_fault t => match s.pc t with
    | .run [] => some (s.setPc t .acquire_lock)
    | .run (.store :: _) => some (s.setPc t .acquire_lock)
    | _ => none
  | .exit t => match s.pc t with
    | .acquire_lock =>
      if s.lk_owner (.pd_lock t) = none then
        some ((s.setOwner (.pd_lock t) (some t)).setPc t .wake_up)
      else none
    -- neither `sys__exit` nor `thread_exit` gives the lock back
    | .wake_up => some (s.setPc t .thread_exit)
    | .thread_exit => some (s.setPc t .zombie)
    | _ => none

/-- Every interleaving of any number of processes, all of them in user mode and no lock taken at the
start. -/
def exitSystem (T : Type) [DecidableEq T] : System (ExitState T) (ExitAct T) :=
  .ofNext (fun s => (∀ l, s.lk_owner l = none) ∧ ∀ t, s.pc t = .run []) exitNext

end Steps

/-! ## The property -/

/-- A thread that has entered `thread_exit` owns no sleep lock. -/
def DiesClean {T : Type} (s : ExitState T) : Prop :=
  ∀ t, (s.pc t).entered = true → ∀ l, s.lk_owner l ≠ some t

/-! ## What a step does -/

section Owners

variable {T : Type} [DecidableEq T] {s s' : ExitState T} {t : T} {act : ExitAct T}

theorem ExitState.setPc_pc (t u : T) (pc : DyingPc T) :
    (s.setPc t pc).pc u = if u = t then pc else s.pc u := by
  simp [ExitState.setPc, update_apply]

@[simp] theorem ExitState.setPc_owner (t : T) (pc : DyingPc T) :
    (s.setPc t pc).lk_owner = s.lk_owner := rfl

theorem ExitState.setOwner_owner (l m : SleepLock T) (o : Option T) :
    (s.setOwner l o).lk_owner m = if m = l then o else s.lk_owner m := by
  simp [ExitState.setOwner, update_apply]

/-- The moves of one thread: on with a system call, with a free lock taken or one of its own given
back; from anywhere in one into `sys__exit`; and on through `sys__exit`. -/
inductive ExitMove (s : ExitState T) (u : T) : ExitState T → Prop where
  | run {rest rest'} : s.pc u = .run rest → ExitMove s u (s.setPc u (.run rest'))
  | take {rest rest'} (l : SleepLock T) : s.pc u = .run rest → s.lk_owner l = none →
      ExitMove s u ((s.setOwner l (some u)).setPc u (.run rest'))
  | give {rest rest'} (l : SleepLock T) : s.pc u = .run rest → s.lk_owner l = some u →
      ExitMove s u ((s.setOwner l none).setPc u (.run rest'))
  | die {rest} : s.pc u = .run rest → ExitMove s u (s.setPc u .acquire_lock)
  | lock : s.pc u = .acquire_lock → s.lk_owner (.pd_lock u) = none →
      ExitMove s u ((s.setOwner (.pd_lock u) (some u)).setPc u .wake_up)
  | exit : s.pc u = .wake_up → ExitMove s u (s.setPc u .thread_exit)
  | zombie : s.pc u = .thread_exit → ExitMove s u (s.setPc u .zombie)

/-- Every step is one of these moves. -/
theorem exitNext_move (hs : exitNext s act = some s') : ∃ u, ExitMove s u s' := by
  unfold exitNext at hs
  split at hs
  · split at hs
    · rename_i hu
      cases hs
      exact ⟨_, .run hu⟩
    · cases hs
  · split at hs
    · rename_i step rest hu
      unfold lockStep at hs
      split at hs
      · split at hs
        · rename_i hfree
          cases hs
          exact ⟨_, .take _ hu hfree⟩
        · cases hs
      · split at hs
        · rename_i hmine
          cases hs
          exact ⟨_, .give _ hu hmine⟩
        · cases hs
      · cases hs
        exact ⟨_, .run hu⟩
    · cases hs
  · split at hs
    · rename_i hu
      cases hs
      exact ⟨_, .die hu⟩
    · cases hs
  · split at hs
    · rename_i hu
      cases hs
      exact ⟨_, .die hu⟩
    · rename_i hu
      cases hs
      exact ⟨_, .die hu⟩
    · cases hs
  · split at hs
    · rename_i hu
      split at hs
      · rename_i hfree
        cases hs
        exact ⟨_, .lock hu hfree⟩
      · cases hs
    · rename_i hu
      cases hs
      exact ⟨_, .exit hu⟩
    · rename_i hu
      cases hs
      exact ⟨_, .zombie hu⟩
    · cases hs

/-! ## Locks of a thread in `sys__exit` -/

/-- In `sys__exit`. -/
def DyingPc.exiting {T : Type} : DyingPc T → Bool
  | run _ => false
  | _ => true

/-- In `sys__exit` and past its `acquire_lock`. -/
def DyingPc.locked {T : Type} : DyingPc T → Bool
  | run _ | acquire_lock => false
  | _ => true

/-- A thread in `sys__exit` stays in it. -/
theorem ExitMove.exiting {u : T} (hm : ExitMove s u s') (h : (s.pc t).exiting = true) :
    (s'.pc t).exiting = true := by
  cases hm with
  | run hu | take _ hu _ | give _ hu _ =>
    -- the thread that moves is in a system call
    have hne : t ≠ u := by
      rintro rfl
      simp [hu, DyingPc.exiting] at h
    rw [ExitState.setPc_pc, if_neg hne]
    exact h
  | die | lock | exit | zombie =>
    rw [ExitState.setPc_pc]
    split
    · rfl
    · exact h

/-- A thread in `sys__exit` gives back no lock. -/
theorem ExitMove.owner {u : T} (hm : ExitMove s u s') (h : (s.pc t).exiting = true)
    {l : SleepLock T} (hl : s.lk_owner l = some t) : s'.lk_owner l = some t := by
  have htake : ∀ m, s.lk_owner m = none → (s.setOwner m (some u)).lk_owner l = some t := by
    intro m hfree
    have hne : l ≠ m := by
      rintro rfl
      rw [hfree] at hl
      cases hl
    rw [ExitState.setOwner_owner, if_neg hne, hl]
  cases hm with
  | run | die | exit | zombie => exact hl
  | take m _ hfree => exact htake m hfree
  | lock _ hfree => exact htake _ hfree
  | give m hu hmine =>
    have hne : l ≠ m := by
      rintro rfl
      rw [hmine] at hl
      cases hl
      simp [hu, DyingPc.exiting] at h
    rw [ExitState.setPc_owner, ExitState.setOwner_owner, if_neg hne, hl]

/-- What a thread in `sys__exit` owns, it owns for good. -/
theorem owner_run {acts : List (ExitAct T)} (h : System.Run (exitSystem T) s acts s')
    (hexit : (s.pc t).exiting = true) {l : SleepLock T} (hl : s.lk_owner l = some t) :
    s'.lk_owner l = some t := by
  induction h with
  | done s => exact hl
  | act a rest hstep _ ih =>
    obtain ⟨u, hm⟩ := exitNext_move hstep
    exact ih (hm.exiting hexit) (hm.owner hexit hl)

/-- Past `acquire_lock` of `sys__exit` the thread owns the `pd_lock` of its process. -/
def OwnsPdLock (s : ExitState T) : Prop :=
  ∀ t, (s.pc t).locked = true → s.lk_owner (.pd_lock t) = some t

omit [DecidableEq T] in
theorem DyingPc.exiting_of_locked {pc : DyingPc T} (h : pc.locked = true) : pc.exiting = true := by
  cases pc <;> simp_all [DyingPc.locked, DyingPc.exiting]

theorem OwnsPdLock.step (h : OwnsPdLock s) {u : T} (hm : ExitMove s u s') : OwnsPdLock s' := by
  intro t ht
  by_cases hbefore : (s.pc t).locked = true
  · exact hm.owner (DyingPc.exiting_of_locked hbefore) (h t hbefore)
  · -- the thread that moves is `t`, and it has just got past `acquire_lock`
    have hself : ∀ {s₀ : ExitState T} {pc : DyingPc T}, s₀.pc = s.pc →
        ((s₀.setPc u pc).pc t).locked = true → t = u ∧ pc.locked = true := by
      intro s₀ pc hpc hlocked
      rw [ExitState.setPc_pc, hpc] at hlocked
      split at hlocked
      · rename_i htu
        exact ⟨htu, hlocked⟩
      · exact absurd hlocked hbefore
    cases hm with
    | run | take | give | die =>
      obtain ⟨-, hlocked⟩ := hself rfl ht
      cases hlocked
    | lock =>
      obtain ⟨rfl, -⟩ := hself rfl ht
      rw [ExitState.setPc_owner, ExitState.setOwner_owner, if_pos rfl]
    | exit hu | zombie hu =>
      obtain ⟨rfl, -⟩ := hself rfl ht
      simp [hu, DyingPc.locked] at hbefore

theorem OwnsPdLock.reachable (h : System.Reachable (exitSystem T) s) : OwnsPdLock s := by
  apply System.invariant _ _ h
  · intro s hs t ht
    rw [hs.2 t] at ht
    cases ht
  · intro s act s' hinv hstep
    obtain ⟨u, hm⟩ := exitNext_move hstep
    exact hinv.step hm

end Owners

/-! ## Main result -/

/-- **Every exit leaves a lock behind**: in every run of any number of processes, a thread that has
entered `thread_exit` owns the `pd_lock` of its process; this and every other lock that it owns
stays taken in all that follows, so that nobody else gets it. -/
theorem exit_never_clean {T : Type} [DecidableEq T] (s : ExitState T)
    (h : System.Reachable (exitSystem T) s) (t : T) (ht : (s.pc t).entered = true) :
    ¬ DiesClean s ∧ s.lk_owner (.pd_lock t) = some t ∧
      ∀ l, s.lk_owner l = some t → ∀ acts s', System.Run (exitSystem T) s acts s' →
        s'.lk_owner l = some t := by
  have hlocked : (s.pc t).locked = true := by
    cases hpc : s.pc t <;> simp_all [DyingPc.entered, DyingPc.locked]
  have hown := OwnsPdLock.reachable h t hlocked
  refine ⟨fun hclean => hclean t ht _ hown, hown, ?_⟩
  intro l hl acts s' hrun
  exact owner_run hrun (DyingPc.exiting_of_locked hlocked) hl

/-- Two processes in user mode. -/
def twoInUserMode : ExitState (Fin 2) where
  lk_owner := fun _ => none
  pc := fun _ => .run []

/-- Process 0 calls `_exit`. -/
def plainExit : List (ExitAct (Fin 2)) := [.sys__exit 0, .exit 0, .exit 0]

/-- Process 0 reads a file into its own code. -/
def exitInRead : List (ExitAct (Fin 2)) :=
  [.syscall 0 (.sfs_read 1), .step 0, .readonly_fault 0, .exit 0, .exit 0, .exit 0]

/-- After a plain `_exit` the `pd_lock` stays taken. -/
theorem exit_never_clean_plain :
    ∃ s : ExitState (Fin 2), (s.pc 0).entered = true ∧ ¬ DiesClean s ∧
      s.lk_owner (.pd_lock 0) = some 0 := by
  obtain ⟨s, hreach, hentered⟩ : ∃ s, (exitSystem (Fin 2)).Reachable s ∧ (s.pc 0).entered = true :=
    System.exists_reachable ⟨fun _ => rfl, fun _ => rfl⟩ plainExit (s := twoInUserMode) rfl
  have hnever := exit_never_clean s hreach 0 hentered
  exact ⟨s, hentered, hnever.1, hnever.2.1⟩

/-- A read-only fault in the middle of `sfs_read` leaves `vfs_biglock` taken by a zombie, and no
file system call of process 1 can start again. -/
theorem exit_in_read_keeps_biglock :
    ∃ s : ExitState (Fin 2), System.Reachable (exitSystem (Fin 2)) s ∧ s.pc 0 = .zombie ∧
      ¬ DiesClean s ∧ s.lk_owner .vfs_biglock = some 0 ∧
      ∀ acts s', System.Run (exitSystem (Fin 2)) s acts s' → s'.lk_owner .vfs_biglock = some 0 := by
  obtain ⟨s, hreach, hzombie, howner⟩ : ∃ s, (exitSystem (Fin 2)).Reachable s ∧ s.pc 0 = .zombie ∧
      s.lk_owner .vfs_biglock = some 0 :=
    System.exists_reachable ⟨fun _ => rfl, fun _ => rfl⟩ exitInRead (s := twoInUserMode) rfl
  refine ⟨s, hreach, hzombie, ?_, howner, ?_⟩
  · intro hclean
    exact hclean 0 (by rw [hzombie]; rfl) _ howner
  · intro acts s' hrun
    exact owner_run hrun (by rw [hzombie]; rfl) howner

end OS161
