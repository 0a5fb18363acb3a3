import OS161.Framework.TransitionSystem

/-! # Context switches and the statistics lock

`thread_switch` ends with `as_activate`, which counts a TLB invalidation with `vmstats_inc`,
which takes the sleep lock `stats_lock` (`kern/thread/thread.c`, `kern/vm/addrspace.c`,
`kern/vm/uw-vmstats.c`, `kern/thread/synch.c`). A timer interrupt calls `thread_yield` from the
interrupt handler (`kern/arch/mips/locore/trap.c`, `kern/thread/clock.c`), so that the thread
comes back to `as_activate` with `t_in_interrupt` set, which `lock_acquire` does not allow.

Each thread has the stack of the calls it is in, as far as they matter here; any number of
threads run on any number of CPUs, and the scheduler picks any thread that is ready.
-/

namespace OS161

open Framework

/-! ## State -/

/-- The step that `vmstats_inc` takes next. -/
inductive StatsPc where
  /-- The call of `lock_acquire`, with its assertions. -/
  | acquire
  /-- The loop of `lock_acquire`. -/
  | retry
  /-- `_vmstats_inc`, with the lock held. -/
  | inc
  /-- The call of `lock_release`. -/
  | release
  deriving DecidableEq, Repr

/-- A call that a thread is in. -/
inductive Frame where
  /-- `vmstats_inc`; `high` when the caller has turned interrupts off. -/
  | stats (high : Bool) (pc : StatsPc)
  /-- The call of `as_activate` at the end of `thread_switch`. -/
  | activate
  /-- The end of `mips_trap` for an interrupt. -/
  | irq (old_in : Bool)
  deriving DecidableEq, Repr

/-- `t_state`. -/
inductive ThreadStatus where
  | S_RUN
  | S_READY
  | S_SLEEP
  deriving DecidableEq, Repr

/-- A thread; with an empty stack it runs code that matters here only as a place where interrupts
are on. -/
structure Thr where
  stack : List Frame
  t_in_interrupt : Bool
  t_state : ThreadStatus
  /-- Whether its process has an address space. -/
  as : Bool

/-- The threads, `stats_lock` with its wait channel, and the idle CPUs. -/
structure SwitchState (T : Type) where
  thr : T → Thr
  lk_owner : Option T
  lk_wchan : List T
  idle : Nat
  /-- An assertion has failed. -/
  panicked : Bool

namespace SwitchState

variable {T : Type} [DecidableEq T]

def setThr (s : SwitchState T) (t : T) (th : Thr) : SwitchState T :=
  { s with thr := Function.update s.thr t th }

def setState (s : SwitchState T) (t : T) (newstate : ThreadStatus) : SwitchState T :=
  s.setThr t { s.thr t with t_state := newstate }

def setStack (s : SwitchState T) (t : T) (stack : List Frame) : SwitchState T :=
  s.setThr t { s.thr t with stack := stack }

/-! ## Steps -/

/-- `thread_switch(newstate)` by thread `t` to the thread `next` of the run queue, or to none: a
thread that yields then goes on, for one that sleeps the CPU is idle. A thread switched away
comes back to `as_activate`. -/
def thread_switch (s : SwitchState T) (t : T) (newstate : ThreadStatus) :
    Option T → Option (SwitchState T)
  | some v =>
    if v ≠ t ∧ (s.thr v).t_state = .S_READY then
      some ((s.setThr t { s.thr t with
        stack := .activate :: (s.thr t).stack, t_state := newstate }).setState v .S_RUN)
    else none
  | none =>
    if newstate = .S_READY then some s
    else some { s.setThr t { s.thr t with
      stack := .activate :: (s.thr t).stack, t_state := newstate } with idle := s.idle + 1 }

/-- The loop of `lock_acquire`. -/
def lock_acquire_loop (s : SwitchState T) (t : T) (high : Bool) (rest : List Frame)
    (next : Option T) : Option (SwitchState T) :=
  match s.lk_owner with
  | none => some { s.setStack t (.stats high .inc :: rest) with lk_owner := some t }
  | some _ =>
    { s.setStack t (.stats high .retry :: rest) with
      lk_wchan := s.lk_wchan ++ [t] }.thread_switch t .S_SLEEP next

/-- `lock_release`: wakes the first thread asleep on the lock. -/
def lock_release (s : SwitchState T) : SwitchState T :=
  match s.lk_wchan with
  | [] => { s with lk_owner := none }
  | u :: q => { s.setState u .S_READY with lk_owner := none, lk_wchan := q }

end SwitchState

/-- Whether an interrupt can hit a thread in this place: not in `thread_switch`, not in an
interrupt, and not where the caller of `vmstats_inc` has turned interrupts off. -/
def interruptible : List Frame → Bool
  | [] => true
  | .stats high _ :: _ => !high
  | .activate :: _ => false
  | .irq _ :: _ => false

/-- What the threads and the hardware do. -/
inductive SwitchAct (T : Type) where
  /-- A timer interrupt: `hardclock` calls `thread_yield`. -/
  | timer (t : T) (next : Option T)
  /-- The next step of the call on top of the stack. -/
  | run (t : T) (next : Option T)
  /-- A page fault calls `vmstats_inc`, in `pte_reload` with interrupts as they are, later in
      `vm_fault` with interrupts off. -/
  | vm_fault (t : T) (high : Bool)
  /-- A system call sleeps, on anything but `stats_lock`. -/
  | sleep (t : T) (next : Option T)
  /-- The thread is woken up, or started. -/
  | wake (t : T)
  /-- An idle CPU takes a thread from the run queue. -/
  | dispatch (t : T)
  /-- `curproc_setas`. -/
  | setas (t : T) (as : Bool)
  /-- A system call calls `as_activate`. -/
  | activate (t : T)

section Steps

variable {T : Type} [DecidableEq T]

/-- The next step of the call on top of the stack of thread `t`. -/
def frameStep (s : SwitchState T) (t : T) (next : Option T) : Option (SwitchState T) :=
  match (s.thr t).stack with
  | [] => none
  | .stats high .acquire :: rest =>
    -- `KASSERT(curthread->t_in_interrupt == false)`
    if (s.thr t).t_in_interrupt then some { s with panicked := true }
    else s.lock_acquire_loop t high rest next
  | .stats high .retry :: rest => s.lock_acquire_loop t high rest next
  | .stats high .inc :: rest => some (s.setStack t (.stats high .release :: rest))
  | .stats _ .release :: rest =>
    if (s.thr t).t_in_interrupt ∨ s.lk_owner ≠ some t then some { s with panicked := true }
    else some ((s.setStack t rest).lock_release)
  | .activate :: rest =>
    -- a thread without an address space has nothing to activate
    if (s.thr t).as then some (s.setStack t (.stats true .acquire :: rest))
    else some (s.setStack t rest)
  | .irq old_in :: rest =>
    some (s.setThr t { s.thr t with stack := rest, t_in_interrupt := old_in })

def switchNext (s : SwitchState T) : SwitchAct T → Option (SwitchState T)
  | .timer t next =>
    if s.panicked = false ∧ (s.thr t).t_state = .S_RUN ∧ interruptible (s.thr t).stack then
      match next with
      | none => some s
      | some v => (s.setThr t { s.thr t with
          stack := .irq (s.thr t).t_in_interrupt :: (s.thr t).stack
          t_in_interrupt := true }).thread_switch t .S_READY (some v)
    else none
  | .run t next =>
    if s.panicked = false ∧ (s.thr t).t_state = .S_RUN then frameStep s t next else none
  | .vm_fault t high =>
    if s.panicked = false ∧ (s.thr t).t_state = .S_RUN ∧ (s.thr t).stack = [] ∧ (s.thr t).as then
      some (s.setStack t [.stats high .acquire])
    else none
  | .sleep t next =>
    if s.panicked = false ∧ (s.thr t).t_state = .S_RUN ∧ (s.thr t).stack = [] then
      s.thread_switch t .S_SLEEP next
    else none
  | .wake t =>
    if s.panicked = false ∧ (s.thr t).t_state = .S_SLEEP ∧ t ∉ s.lk_wchan then
      some (s.setState t .S_READY)
    else none
  | .dispatch t =>
    if s.panicked = false ∧ (s.thr t).t_state = .S_READY ∧ s.idle ≠ 0 then
      some { s.setState t .S_RUN with idle := s.idle - 1 }
    else none
  | .setas t as =>
    if s.panicked = false ∧ (s.thr t).t_state = .S_RUN ∧ (s.thr t).stack = [] then
      some (s.setThr t { s.thr t with as := as })
    else none
  | .activate t =>
    if s.panicked = false ∧ (s.thr t).t_state = .S_RUN ∧ (s.thr t).stack = [] then
      some (s.setStack t [.activate])
    else none

/-- No thread is in an interrupt or in `vmstats_inc`; those that do not run will start at the end of
`thread_switch`, as `thread_startup` does. -/
def SwitchState.Initial (s : SwitchState T) : Prop :=
  s.lk_owner = none ∧ s.lk_wchan = [] ∧ s.panicked = false ∧
    ∀ t, (s.thr t).t_in_interrupt = false ∧
      ((s.thr t).t_state = .S_RUN ∧ (s.thr t).stack = [] ∨
        (s.thr t).t_state ≠ .S_RUN ∧ (s.thr t).stack = [.activate])

/-- Every interleaving of any number of threads with timer interrupts and page faults. -/
def switchSystem (T : Type) [DecidableEq T] : System (SwitchState T) (SwitchAct T) :=
  .ofNext SwitchState.Initial switchNext

end Steps

/-! ## The property -/

/-- What is to hold of `stats_lock` in every state. -/
structure StatsOk {T : Type} (s : SwitchState T) : Prop where
  not_panicked : s.panicked = false
  /-- A thread that calls `lock_acquire` is not in an interrupt and does not own the lock. -/
  acquire : ∀ t high rest, (s.thr t).stack = .stats high .acquire :: rest →
    (s.thr t).t_in_interrupt = false ∧ s.lk_owner ≠ some t
  /-- The owner runs, so that the lock is released. -/
  owner : ∀ t, s.lk_owner = some t → (s.thr t).t_state = .S_RUN

/-- The condition on a step, in the state before it: a timer interrupt that switches to another
thread hits a thread without an address space. -/
def NoPreemption {T : Type} (s : SwitchState T) : SwitchAct T → Prop
  | .timer t (some _) => (s.thr t).as = false
  | _ => True

/-! ## The invariant of runs without preemption -/

/-- `vmstats_inc` with the lock held. -/
def Frame.held : Frame → Bool
  | .stats _ .inc | .stats _ .release => true
  | _ => false

/-- The stack of a thread is in line with its flags, and it has called nothing while it holds the
lock. -/
structure Thr.Ok (th : Thr) : Prop where
  kernel : th.as = false → ∀ high pc, .stats high pc ∉ th.stack
  user : th.as = true → ∀ old_in, .irq old_in ∉ th.stack
  irq : ∀ old_in, .irq old_in ∈ th.stack → old_in = false
  flag : th.t_in_interrupt = true → ∃ old_in, .irq old_in ∈ th.stack
  top : ∀ f rest, th.stack = f :: rest → ∀ g ∈ rest, g.held = false

/-- The thread holds the lock. -/
def Thr.Holds (th : Thr) : Prop := ∃ f rest, th.stack = f :: rest ∧ f.held = true

/-- What holds in every state of a run without preemption. -/
structure SwitchInv {T : Type} (s : SwitchState T) : Prop where
  not_panicked : s.panicked = false
  thr : ∀ t, (s.thr t).Ok
  owner : ∀ t, s.lk_owner = some t → (s.thr t).t_state = .S_RUN
  holds : ∀ t, s.lk_owner = some t ↔ (s.thr t).Holds

variable {th : Thr}

theorem Thr.not_holds_nil (h : th.stack = []) : ¬ th.Holds := by
  intro ⟨f, rest, hstack, _⟩
  rw [h] at hstack
  cases hstack

variable {rest : List Frame}

theorem Thr.holds_cons {f : Frame} (h : th.stack = f :: rest) : th.Holds ↔ f.held = true := by
  constructor
  · intro ⟨f', rest', hstack, hheld⟩
    rw [h] at hstack
    cases hstack
    exact hheld
  · intro hheld
    exact ⟨f, rest, h, hheld⟩

theorem Thr.not_holds_cons {f : Frame} (h : th.stack = f :: rest)
    (hf : f.held = false) : ¬ th.Holds := by
  rw [Thr.holds_cons h, hf]
  simp

namespace Thr.Ok

variable {th : Thr} {f : Frame} {rest : List Frame}

/-- A thread that counts statistics is not in an interrupt. -/
theorem not_in_interrupt (h : th.Ok) {high : Bool} {pc : StatsPc}
    (hstack : th.stack = .stats high pc :: rest) : th.as = true ∧ th.t_in_interrupt = false := by
  have has : th.as = true := by
    by_contra hne
    exact h.kernel (by simpa using hne) high pc (by simp [hstack])
  refine ⟨has, ?_⟩
  by_contra hin
  obtain ⟨old_in, hirq⟩ := h.flag (by simpa using hin)
  exact h.user has old_in hirq

/-- The state of a thread does not matter. -/
theorem withState (h : th.Ok) (newstate : ThreadStatus) : { th with t_state := newstate }.Ok :=
  { h with }

section

variable (h : th.Ok) (hstack : th.stack = f :: rest)
include h hstack

/-- Below the top nobody holds the lock. -/
theorem rest_not_holds : ¬ { th with stack := rest }.Holds := by
  intro ⟨g, rest', heq, hheld⟩
  have hg := h.top f rest hstack g (by rw [show rest = g :: rest' from heq]; simp)
  rw [hg] at hheld
  cases hheld

/-- The call on top of the stack returns. -/
theorem return_to {in_interrupt : Bool} (hin : in_interrupt = true → ∃ old_in, .irq old_in ∈ rest) :
    { th with stack := rest, t_in_interrupt := in_interrupt }.Ok := by
  have hsub : ∀ g, g ∈ rest → g ∈ th.stack := by
    intro g hg
    rw [hstack]
    exact List.mem_cons_of_mem f hg
  refine ⟨fun has high pc hmem => h.kernel has high pc (hsub _ hmem),
    fun has old_in hmem => h.user has old_in (hsub _ hmem),
    fun old_in hmem => h.irq old_in (hsub _ hmem), hin, ?_⟩
  intro g rest' heq x hx
  exact h.top f rest hstack x (by
    rw [show rest = g :: rest' from heq]
    exact List.mem_cons_of_mem g hx)

/-- The call on top of the stack, not an interrupt, returns. -/
theorem pop (hf : ∀ old_in, f ≠ .irq old_in) : { th with stack := rest }.Ok := by
  apply h.return_to hstack
  intro hin
  obtain ⟨old_in, hirq⟩ := h.flag hin
  rw [hstack] at hirq
  rcases List.mem_cons.mp hirq with heq | hmem
  · exact absurd heq.symm (hf old_in)
  · exact ⟨old_in, hmem⟩

end

/-- A thread without the lock makes a call that is not an interrupt, and counts statistics only with
an address space. -/
theorem push (h : th.Ok) (hout : ¬ th.Holds) (f : Frame) (hf : ∀ old_in, f ≠ .irq old_in)
    (hstats : ∀ high pc, f = .stats high pc → th.as = true) :
    { th with stack := f :: th.stack }.Ok := by
  refine ⟨?_, ?_, ?_, ?_, ?_⟩
  · intro has high pc hmem
    rcases List.mem_cons.mp hmem with heq | hmem
    · rw [hstats high pc heq.symm] at has
      cases has
    · exact h.kernel has high pc hmem
  · intro has old_in hmem
    rcases List.mem_cons.mp hmem with heq | hmem
    · exact hf old_in heq.symm
    · exact h.user has old_in hmem
  · intro old_in hmem
    rcases List.mem_cons.mp hmem with heq | hmem
    · exact absurd heq.symm (hf old_in)
    · exact h.irq old_in hmem
  · intro hin
    obtain ⟨old_in, hirq⟩ := h.flag hin
    exact ⟨old_in, List.mem_cons_of_mem f hirq⟩
  · intro g rest' heq x hx
    cases heq
    cases hstack : th.stack with
    | nil => simp [hstack] at hx
    | cons g rest =>
      rw [hstack] at hx
      rcases List.mem_cons.mp hx with rfl | hx
      · rw [Thr.holds_cons hstack] at hout
        simpa using hout
      · exact h.top g rest hstack x hx

/-- The call on top of the stack is replaced by a step of `vmstats_inc`. -/
theorem replace (h : th.Ok) (hstack : th.stack = f :: rest) (hf : ∀ old_in, f ≠ .irq old_in)
    (high : Bool) (pc : StatsPc) (has : th.as = true) :
    { th with stack := .stats high pc :: rest }.Ok :=
  (h.pop hstack hf).push (h.rest_not_holds hstack) (.stats high pc) (fun _ => by simp)
    fun _ _ _ => has

end Thr.Ok

namespace SwitchInv

variable {T : Type} [DecidableEq T] {s s' : SwitchState T} {t : T}

/-- A thread changes, and takes or gives back the lock or not; for the others nothing changes. -/
theorem moved (h : SwitchInv s) {o : Option T} (hok : th.Ok) (hself : o = some t ↔ th.Holds)
    (hrun : o = some t → th.t_state = .S_RUN) (hothers : ∀ u, u ≠ t → (o = some u ↔ s.lk_owner = some u)) :
    SwitchInv { s.setThr t th with lk_owner := o } :=
  { h with
    thr := (Function.forall_update_iff s.thr fun _ th => th.Ok).mpr ⟨hok, fun u _ => h.thr u⟩
    owner := (Function.forall_update_iff s.thr fun u th => o = some u → th.t_state = .S_RUN).mpr
      ⟨hrun, fun u hu ho => h.owner u ((hothers u hu).mp ho)⟩
    holds := (Function.forall_update_iff s.thr fun u th => o = some u ↔ th.Holds).mpr
      ⟨hself, fun u hu => (hothers u hu).trans (h.holds u)⟩ }

/-- A thread changes that does not have the lock, before and after. -/
theorem setThr (h : SwitchInv s) (hok : th.Ok) (hout : ¬ th.Holds)
    (howner : s.lk_owner ≠ some t) : SwitchInv (s.setThr t th) :=
  h.moved hok (iff_of_false howner hout) (fun ho => absurd ho howner) fun _ _ => Iff.rfl

omit [DecidableEq T] in
theorem not_owner_of_state (h : SwitchInv s) (hst : (s.thr t).t_state ≠ .S_RUN) :
    s.lk_owner ≠ some t := fun ho => hst (h.owner t ho)

omit [DecidableEq T] in
theorem not_owner_of_top (h : SwitchInv s) {f : Frame}
    (hstack : (s.thr t).stack = f :: rest) (hf : f.held = false) : s.lk_owner ≠ some t := by
  rw [Ne, h.holds]
  exact Thr.not_holds_cons hstack hf

omit [DecidableEq T] in
theorem not_owner_of_nil (h : SwitchInv s) (hstack : (s.thr t).stack = []) :
    s.lk_owner ≠ some t := by
  rw [Ne, h.holds]
  exact Thr.not_holds_nil hstack

section

variable (h : SwitchInv s)
include h

theorem setState {newstate : ThreadStatus} (howner : s.lk_owner ≠ some t) :
    SwitchInv (s.setState t newstate) :=
  h.setThr ((h.thr t).withState newstate) (fun hh => howner ((h.holds t).mpr hh)) howner

/-- `thread_switch` by a thread that does not own the lock. -/
theorem thread_switch {newstate : ThreadStatus} {next : Option T}
    (howner : s.lk_owner ≠ some t) (hs : s.thread_switch t newstate next = some s') :
    SwitchInv s' := by
  have hpush := (h.thr t).push (fun hh => howner ((h.holds t).mpr hh)) .activate (fun _ => by simp)
    (fun _ _ heq => by cases heq)
  have haway := h.setThr (hpush.withState newstate)
    (Thr.not_holds_cons rfl rfl) howner
  unfold SwitchState.thread_switch at hs
  split at hs
  · rename_i v
    split at hs
    · rename_i hv
      cases hs
      exact haway.setState (h.not_owner_of_state (by simp [hv.2]))
    · cases hs
  · split at hs
    · cases hs
      exact h
    · cases hs
      exact { haway with }

/-- The loop of `lock_acquire`, in a thread that is in it. -/
theorem lock_acquire_loop {high : Bool} {pc : StatsPc}
    (hrun : (s.thr t).t_state = .S_RUN) (hstack : (s.thr t).stack = .stats high pc :: rest)
    (hpc : pc = .acquire ∨ pc = .retry) {next : Option T}
    (hs : s.lock_acquire_loop t high rest next = some s') : SwitchInv s' := by
  have has := ((h.thr t).not_in_interrupt hstack).1
  have hnot : s.lk_owner ≠ some t := by
    apply h.not_owner_of_top hstack
    rcases hpc with rfl | rfl <;> rfl
  have hreplace := fun pc' => (h.thr t).replace hstack (fun _ => by simp) high pc' has
  unfold SwitchState.lock_acquire_loop at hs
  split at hs
  · rename_i hfree
    cases hs
    refine h.moved (hreplace .inc) ⟨fun _ => ⟨_, rest, rfl, rfl⟩, fun _ => rfl⟩ (fun _ => hrun) fun u hut => ?_
    rw [hfree]
    simp [Ne.symm hut]
  · rename_i u hu
    have hset := h.setThr (hreplace .retry)
      (Thr.not_holds_cons rfl rfl) hnot
    have hqueued : SwitchInv ({ s.setStack t (.stats high .retry :: rest) with
        lk_wchan := s.lk_wchan ++ [t] } : SwitchState T) :=
      { hset with }
    exact hqueued.thread_switch hnot hs

/-- The owner returns from `lock_release`. -/
theorem lock_release {high : Bool} (hstack : (s.thr t).stack = .stats high .release :: rest) :
    SwitchInv (s.setStack t rest).lock_release := by
  have hmine : s.lk_owner = some t := (h.holds t).mpr ⟨_, rest, hstack, rfl⟩
  have hfree : SwitchInv ({ s.setStack t rest with lk_owner := none } : SwitchState T) := by
    refine h.moved ((h.thr t).pop hstack fun _ => by simp) (iff_of_false nofun ((h.thr t).rest_not_holds hstack)) nofun
      fun u hut => ?_
    rw [hmine]
    simp [Ne.symm hut]
  unfold SwitchState.lock_release
  split
  · exact hfree
  · rename_i u q _
    have hwoken : SwitchInv (({ s.setStack t rest with lk_owner := none } :
        SwitchState T).setState u .S_READY) := hfree.setState fun hu => by cases hu
    exact { hwoken with }

/-- A timer interrupt in a thread without an address space. -/
theorem interrupted (has : (s.thr t).as = false) (hon : interruptible (s.thr t).stack = true) :
    SwitchInv (s.setThr t { s.thr t with
      stack := .irq (s.thr t).t_in_interrupt :: (s.thr t).stack, t_in_interrupt := true }) ∧
      s.lk_owner ≠ some t := by
  -- interrupts are on and it counts no statistics, so it is in none of the calls
  have hstack : (s.thr t).stack = [] := by
    cases hst : (s.thr t).stack with
    | nil => rfl
    | cons f rest =>
      rw [hst] at hon
      cases f with
      | stats high pc => exact absurd (by simp [hst]) ((h.thr t).kernel has high pc)
      | activate => cases hon
      | irq old_in => cases hon
  have hflag : (s.thr t).t_in_interrupt = false := by
    by_contra hin
    obtain ⟨old_in, hirq⟩ := (h.thr t).flag (by simpa using hin)
    simp [hstack] at hirq
  have hout := h.not_owner_of_nil hstack
  refine ⟨h.setThr ?_ (Thr.not_holds_cons rfl rfl) hout, hout⟩
  rw [hstack, hflag]
  refine ⟨by simp, ?_, by simp, fun _ => ⟨false, by simp⟩, ?_⟩
  · intro has'
    rw [show (s.thr t).as = true from has'] at has
    cases has
  · intro f rest heq g hg
    cases heq
    simp at hg

/-- The return from an interrupt. -/
theorem irq_return {old_in : Bool} (hstack : (s.thr t).stack = .irq old_in :: rest) :
    SwitchInv (s.setThr t { s.thr t with stack := rest, t_in_interrupt := old_in }) := by
  have hold := (h.thr t).irq old_in (by simp [hstack])
  refine h.setThr ((h.thr t).return_to hstack ?_) ((h.thr t).rest_not_holds hstack) (h.not_owner_of_top hstack rfl)
  rw [hold]
  exact nofun

/-- **Step** of the call on top of a stack. -/
theorem frameStep (hrun : (s.thr t).t_state = .S_RUN) {next : Option T}
    (hs : frameStep s t next = some s') : SwitchInv s' := by
  unfold OS161.frameStep at hs
  split at hs
  · cases hs
  · rename_i high rest hstack
    rw [((h.thr t).not_in_interrupt hstack).2] at hs
    exact h.lock_acquire_loop hrun hstack (.inl rfl) hs
  · rename_i high rest hstack
    exact h.lock_acquire_loop hrun hstack (.inr rfl) hs
  · rename_i high rest hstack
    cases hs
    have hok := (h.thr t).replace hstack (fun _ => by simp) high .release
      ((h.thr t).not_in_interrupt hstack).1
    have hmine : s.lk_owner = some t := (h.holds t).mpr ⟨_, rest, hstack, rfl⟩
    -- the owner goes on to `lock_release`
    exact h.moved hok ⟨fun _ => ⟨_, rest, rfl, rfl⟩, fun _ => hmine⟩ (fun _ => hrun) fun _ _ => Iff.rfl
  · rename_i high rest hstack
    have hmine : s.lk_owner = some t := (h.holds t).mpr ⟨_, rest, hstack, rfl⟩
    rw [((h.thr t).not_in_interrupt hstack).2, hmine] at hs
    simp only [Bool.false_eq_true, ne_eq, not_true_eq_false, or_self, if_false] at hs
    cases hs
    exact h.lock_release hstack
  · rename_i rest hstack
    have hout : s.lk_owner ≠ some t := h.not_owner_of_top hstack rfl
    split at hs
    · rename_i has
      cases hs
      exact h.setThr ((h.thr t).replace hstack (fun _ => by simp) true .acquire has)
        (Thr.not_holds_cons rfl rfl) hout
    · cases hs
      exact h.setThr ((h.thr t).pop hstack fun _ => by simp) ((h.thr t).rest_not_holds hstack) hout
  · rename_i old_in rest hstack
    cases hs
    exact h.irq_return hstack

/-- A thread that is in none of the calls makes one that is not an interrupt. -/
theorem call (hstack : (s.thr t).stack = []) {f : Frame}
    (hf : ∀ old_in, f ≠ .irq old_in) (hheld : f.held = false)
    (hstats : ∀ high pc, f = .stats high pc → (s.thr t).as = true) :
    SwitchInv (s.setStack t [f]) := by
  have hpush := (h.thr t).push (Thr.not_holds_nil hstack) f hf hstats
  rw [hstack] at hpush
  exact h.setThr hpush (Thr.not_holds_cons rfl hheld) (h.not_owner_of_nil hstack)

/-- **Step**: every action of a run without preemption keeps the invariant. -/
theorem step {act : SwitchAct T} (hd : NoPreemption s act)
    (hs : switchNext s act = some s') : SwitchInv s' := by
  unfold switchNext at hs
  split at hs
  · split at hs
    · rename_i hen
      obtain ⟨-, hrun, hon⟩ := hen
      split at hs
      · cases hs
        exact h
      · obtain ⟨hirq, hout⟩ := h.interrupted hd hon
        exact hirq.thread_switch hout hs
    · cases hs
  · split at hs
    · rename_i hen
      exact h.frameStep hen.2 hs
    · cases hs
  · split at hs
    · rename_i hen
      obtain ⟨-, -, hstack, has⟩ := hen
      cases hs
      exact h.call hstack (fun _ => by simp) rfl fun _ _ _ => has
    · cases hs
  · split at hs
    · rename_i hen
      exact h.thread_switch (h.not_owner_of_nil hen.2.2) hs
    · cases hs
  · split at hs
    · rename_i hen
      cases hs
      exact h.setState (h.not_owner_of_state (by simp [hen.2.1]))
    · cases hs
  · rename_i t
    split at hs
    · rename_i hen
      cases hs
      have hset : SwitchInv (s.setState t .S_RUN) :=
        h.setState (h.not_owner_of_state (by simp [hen.2.1]))
      exact { hset with }
    · cases hs
  · rename_i t as
    split at hs
    · rename_i hen
      obtain ⟨-, -, hstack⟩ := hen
      cases hs
      have hok := h.thr t
      refine h.setThr ⟨?_, ?_, hok.irq, hok.flag, hok.top⟩ (Thr.not_holds_nil hstack)
        (h.not_owner_of_nil hstack)
      · intro _ high pc hmem
        simp [hstack] at hmem
      · intro _ old_in hmem
        simp [hstack] at hmem
    · cases hs
  · split at hs
    · rename_i hen
      cases hs
      exact h.call hen.2.2 (fun _ => by simp) rfl fun _ _ heq => by cases heq
    · cases hs

end

omit [DecidableEq T] in
theorem init (hs : s.Initial) : SwitchInv s := by
  obtain ⟨howner, -, hpanic, hthr⟩ := hs
  have hnot : ∀ t, ¬ (s.thr t).Holds := by
    intro t
    rcases (hthr t).2 with ⟨-, hstack⟩ | ⟨-, hstack⟩
    · exact Thr.not_holds_nil hstack
    · exact Thr.not_holds_cons hstack rfl
  refine ⟨hpanic, ?_, ?_, ?_⟩
  · intro t
    obtain ⟨hflag, hstack⟩ := hthr t
    have hmem : ∀ f ∈ (s.thr t).stack, f = .activate := by
      intro f hf
      rcases hstack with ⟨-, hst⟩ | ⟨-, hst⟩
      · simp [hst] at hf
      · simpa [hst] using hf
    refine ⟨fun _ high pc hm => ?_, fun _ o hm => ?_, fun o hm => ?_, fun hin => ?_, ?_⟩
    · cases hmem _ hm
    · cases hmem _ hm
    · cases hmem _ hm
    · rw [hflag] at hin
      cases hin
    · intro f rest heq g hg
      rw [hmem g (by rw [heq]; exact List.mem_cons_of_mem f hg)]
      rfl
  · intro t ht
    rw [howner] at ht
    cases ht
  · intro t
    rw [howner]
    exact ⟨fun ht => (by cases ht), fun ht => absurd ht (hnot t)⟩

theorem reachable (h : System.Reachable ((switchSystem T).restrict NoPreemption) s) :
    SwitchInv s := by
  apply System.invariant _ _ h
  · intro s hs
    exact SwitchInv.init hs
  · intro s act s' hinv hstep
    exact hinv.step hstep.1 hstep.2

end SwitchInv

/-! ## Main result -/

/-- **Runs without preemption are safe**: when no timer interrupt switches away from a thread with
an address space, no thread calls `lock_acquire` on `stats_lock` in an interrupt or while it
owns it, and the owner runs. -/
theorem stats_lock_without_preemption {T : Type} [DecidableEq T] (s : SwitchState T)
    (h : System.Reachable ((switchSystem T).restrict NoPreemption) s) : StatsOk s := by
  have hinv := SwitchInv.reachable h
  refine { hinv with acquire := ?_ }
  intro t high rest hstack
  exact ⟨((hinv.thr t).not_in_interrupt hstack).2, hinv.not_owner_of_top hstack rfl⟩

/-- Two user processes on one CPU; process 1 is ready. -/
def twoThreads : SwitchState (Fin 2) where
  thr := fun t => match t with
    | 0 => { stack := [], t_in_interrupt := false, t_state := .S_RUN, as := true }
    | 1 => { stack := [.activate], t_in_interrupt := false, t_state := .S_READY, as := true }
  lk_owner := none
  lk_wchan := []
  idle := 0
  panicked := false

theorem twoThreads_initial : twoThreads.Initial := by
  refine ⟨rfl, rfl, rfl, fun t => ?_⟩
  match t with
  | 0 => exact ⟨rfl, .inl ⟨rfl, rfl⟩⟩
  | 1 => exact ⟨rfl, .inr ⟨by decide, rfl⟩⟩

instance NoPreemption.decidable {T : Type} (s : SwitchState T) (act : SwitchAct T) :
    Decidable (NoPreemption s act) := by
  cases act with
  | timer t next => cases next <;> unfold NoPreemption <;> infer_instance
  | _ => exact inferInstanceAs (Decidable True)

/-- Process 0 sleeps in a system call, process 1 takes over and handles a page fault. -/
def voluntaryRun {n : Nat} [NeZero n] : List (SwitchAct (Fin n)) :=
  [.sleep 0 (some 1), .run 1 none, .run 1 none, .run 1 none, .run 1 none, .vm_fault 1 false,
    .run 1 none]

/-- A timer interrupt switches from process 0 to process 1, another one back. -/
def preemptiveRun {n : Nat} [NeZero n] : List (SwitchAct (Fin n)) :=
  [.timer 0 (some 1), .run 1 none, .run 1 none, .run 1 none, .run 1 none, .timer 1 (some 0),
    .run 0 none]

/-- Process 1 owns the lock after its page fault, and all is well. -/
theorem stats_lock_without_preemption_sleep :
    ∃ s : SwitchState (Fin 2), s.lk_owner = some 1 ∧ StatsOk s := by
  obtain ⟨s, hreach, howner⟩ : ∃ s, ((switchSystem (Fin 2)).restrict NoPreemption).Reachable s ∧ s.lk_owner = some 1 :=
    System.exists_restricted twoThreads_initial voluntaryRun rfl
  exact ⟨s, howner, stats_lock_without_preemption s hreach⟩

/-- Back in process 0, `as_activate` calls `lock_acquire` in the interrupt. -/
theorem stats_lock_in_interrupt :
    ∃ s : SwitchState (Fin 2), System.Reachable (switchSystem (Fin 2)) s ∧
      (s.thr 0).stack = [.stats true .acquire, .irq false] ∧ (s.thr 0).t_in_interrupt = true ∧
      ¬ StatsOk s := by
  obtain ⟨s, hreach, hstack, hflag⟩ : ∃ s, (switchSystem (Fin 2)).Reachable s ∧
      (s.thr 0).stack = [.stats true .acquire, .irq false] ∧ (s.thr 0).t_in_interrupt = true :=
    System.exists_reachable twoThreads_initial preemptiveRun rfl
  refine ⟨s, hreach, hstack, hflag, ?_⟩
  intro hok
  have hbad := (hok.acquire 0 true _ hstack).1
  rw [hflag] at hbad
  cases hbad

end OS161
