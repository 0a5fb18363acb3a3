import OS161.Framework.TransitionSystem
import OS161.Lib.Types

/-! # `sys__exit` and `sys_waitpid`

    One child that calls `sys__exit` and any number of threads that call `sys_waitpid` on its pid,
    interleaved at the granularity of the calls on the entry of `p_array`, its lock and its
    condition variable (`kern/syscall/exit_syscalls.c`, `kern/syscall/waitpid_syscalls.c`,
    `kern/proc/proc.c`, `kern/thread/synch.c`).

    Each thread has a program counter named after the call it makes next. The lock and the condition
    variable have the wait channels of the source: threads asleep on them are queued, `lock_release`
    and `cv_signal` wake the first one, and a woken thread calls `lock_acquire` again.

    `sys__exit` leaves the lock of the entry held, and `release_pid` does not wait for the child's
    last use of the entry. `WaitDiscipline` is the condition on the steps of a run under which
    neither does harm.
-/

namespace OS161

open Framework

/-! ## State -/

/-- The threads of the protocol. -/
inductive WaitThread (n : Nat) where
  | child
  | waiter (i : Fin n)
  deriving DecidableEq, Repr

/-- The call that the child makes next. -/
inductive ChildPc where
  /-- The first store of `set_exit_code`, to `pd_exitcode`. -/
  | set_exitcode
  /-- The second store of `set_exit_code`, to `pd_exiting`. -/
  | set_exiting
  | acquire_lock
  /-- Asleep in `lock_acquire`. -/
  | lockSleep
  | wake_up
  | thread_exit
  | terminated
  deriving DecidableEq, Repr

/-- The call that a waiter makes next, with the status word once stored. -/
inductive WaiterPc where
  | valid_pid
  | acquire_lock
  /-- Asleep in `lock_acquire`. -/
  | lockSleep
  | has_exit_code
  /-- Asleep in `cv_wait`. -/
  | cvSleep
  | get_exit_code
  | release_lock (status : UInt32)
  | release_pid (status : UInt32)
  | returned (result : Except Errno UInt32)

namespace WaiterPc

/-- Between the checks at the start of `sys_waitpid` and `release_lock`. -/
def inside : WaiterPc → Bool
  | acquire_lock | lockSleep | has_exit_code | cvSleep | get_exit_code | release_lock _ => true
  | valid_pid | release_pid _ | returned _ => false

/-- Past the checks and not yet returned. -/
def inUse : WaiterPc → Bool
  | release_pid _ => true
  | pc => pc.inside

/-- The status word stored so far. -/
def status : WaiterPc → Option UInt32
  | release_lock v | release_pid v | returned (.ok v) => some v
  | _ => none

end WaiterPc

/-- The arguments of a call of `sys_waitpid`, and whether the caller is the process whose pid is in
`pd_parent_pid`. -/
structure WaitCall where
  byParent : Bool
  status : Int
  options : Int
  deriving DecidableEq, Repr

/-- The entry `p_array[pid]` with its lock and condition variable, and the threads that use it. -/
structure WaitState (n : Nat) where
  pd_exitcode : UInt32
  pd_exiting : Bool
  lk_owner : Option (WaitThread n)
  lk_wchan : List (WaitThread n)
  cv_wchan : List (Fin n)
  child : ChildPc
  waiter : Fin n → WaiterPc
  /-- `p_array[pid]` is NULL, its lock and condition variable are destroyed. -/
  released : Bool
  /-- How often `release_pid` has released the entry. -/
  releases : Nat
  /-- A thread has used the entry, its lock or its condition variable after the release. -/
  misused : Bool
  /-- A wait channel was destroyed with threads asleep on it. -/
  panicked : Bool

namespace WaitState

variable {n : Nat}

/-- The child is alive and nobody has called `sys_waitpid`. -/
def start (n : Nat) : WaitState n where
  pd_exitcode := 0
  pd_exiting := false
  lk_owner := none
  lk_wchan := []
  cv_wchan := []
  child := .set_exitcode
  waiter := fun _ => .valid_pid
  released := false
  releases := 0
  misused := false
  panicked := false

def setWaiter (s : WaitState n) (i : Fin n) (pc : WaiterPc) : WaitState n :=
  { s with waiter := Function.update s.waiter i pc }

/-- A step that goes through `p_array[pid]`, its lock or its condition variable. -/
def use (s : WaitState n) (t : WaitState n) : WaitState n :=
  if s.released then { s with misused := true } else t

/-- `lock_release`: wakes the first thread asleep on the lock. -/
def lock_release (s : WaitState n) : WaitState n :=
  match s.lk_wchan with
  | [] => { s with lk_owner := none }
  | .child :: q => { s with lk_owner := none, lk_wchan := q, child := .acquire_lock }
  | .waiter i :: q => { s.setWaiter i .acquire_lock with lk_owner := none, lk_wchan := q }

/-- `cv_signal`: wakes the first thread asleep on the condition variable, which calls `lock_acquire`
next. -/
def cv_signal (s : WaitState n) : WaitState n :=
  match s.cv_wchan with
  | [] => s
  | i :: q => { s.setWaiter i .acquire_lock with cv_wchan := q }

end WaitState

/-! ## Steps -/

def _MKWAIT_EXIT (code : UInt32) : UInt32 := code <<< 2 ||| 0

/-- `valid_pid` and the two checks on the arguments after it. -/
def waitpid_check (call : WaitCall) (released : Bool) : Option Errno :=
  if released then some .esrch
  else if call.byParent then some .echild
  else if call.options ≠ 0 then some .einval
  else if call.status % 4 ≠ 0 then some .efault
  else none

section Steps

variable {n : Nat}

/-- The next step of `sys__exit(code)`. -/
def exitStep (code : UInt32) (s : WaitState n) : Option (WaitState n) :=
  match s.child with
  | .set_exitcode => some (s.use { s with pd_exitcode := code, child := .set_exiting })
  | .set_exiting => some (s.use { s with pd_exiting := true, child := .acquire_lock })
  | .acquire_lock =>
    match s.lk_owner with
    | some _ => some (s.use { s with lk_wchan := s.lk_wchan ++ [.child], child := .lockSleep })
    | none => some (s.use { s with lk_owner := some .child, child := .wake_up })
  | .lockSleep => none
  | .wake_up => some (s.use { s.cv_signal with child := .thread_exit })
  -- the lock of the entry stays held
  | .thread_exit => some { s with child := .terminated }
  | .terminated => none

/-- The next step of the call of `sys_waitpid` by waiter `i`. -/
def waitStep (call : WaitCall) (i : Fin n) (s : WaitState n) : Option (WaitState n) :=
  match s.waiter i with
  | .valid_pid =>
    match waitpid_check call s.released with
    | some e => some (s.setWaiter i (.returned (.error e)))
    | none => some (s.setWaiter i .acquire_lock)
  | .acquire_lock =>
    match s.lk_owner with
    | some _ => some (s.use
        { s.setWaiter i .lockSleep with lk_wchan := s.lk_wchan ++ [.waiter i] })
    | none => some (s.use { s.setWaiter i .has_exit_code with lk_owner := some (.waiter i) })
  | .lockSleep => none
  | .has_exit_code =>
    if s.pd_exiting then some (s.use (s.setWaiter i .get_exit_code))
    else some (s.use
      { s.lock_release.setWaiter i .cvSleep with cv_wchan := s.cv_wchan ++ [i] })
  | .cvSleep => none
  | .get_exit_code => some (s.use (s.setWaiter i (.release_lock (_MKWAIT_EXIT s.pd_exitcode))))
  | .release_lock v => some (s.use (s.lock_release.setWaiter i (.release_pid v)))
  | .release_pid v =>
    if s.cv_wchan ≠ [] ∨ s.lk_wchan ≠ [] then some (s.use { s with panicked := true })
    else some (s.use
      { s.setWaiter i (.returned (.ok v)) with released := true, releases := s.releases + 1 })
  | .returned _ => none

/-- The next step of a thread, unless the machine has stopped. -/
def waitNext (code : UInt32) (calls : Fin n → WaitCall) (s : WaitState n) :
    WaitThread n → Option (WaitState n)
  | t =>
    if s.misused ∨ s.panicked then none
    else match t with
      | .child => exitStep code s
      | .waiter i => waitStep (calls i) i s

/-- Every interleaving of one `sys__exit(code)` with the calls of `sys_waitpid`. -/
def waitSystem (code : UInt32) (calls : Fin n → WaitCall) : System (WaitState n) (WaitThread n) :=
  .ofNext (fun s => s = WaitState.start n) (waitNext code calls)

end Steps

/-! ## The property -/

section Property

variable {n : Nat} (code : UInt32) (calls : Fin n → WaitCall)

/-- Waiter `i` is asleep on the lock or on the condition variable. -/
def WaitState.Blocked (s : WaitState n) (i : Fin n) : Prop :=
  s.waiter i = .lockSleep ∨ s.waiter i = .cvSleep

/-- The child has terminated, and waiter `i` is asleep whatever the remaining threads do. -/
def WaitStuck (s : WaitState n) (i : Fin n) : Prop :=
  s.child = .terminated ∧
    ∀ acts s', System.Run (waitSystem code calls) s acts s' → s'.Blocked i

/-- What the protocol is to guarantee in every state. -/
structure WaitOk (s : WaitState n) : Prop where
  not_stuck : ∀ i, ¬ WaitStuck code calls s i
  not_misused : s.misused = false
  released_once : s.releases ≤ 1
  status : ∀ i v, s.waiter i = .returned (.ok v) → v = _MKWAIT_EXIT code

/-- The condition on a step, in the state before it:

- the child calls `thread_exit` only when no waiter is between the checks
  of `sys_waitpid` and its `release_lock`;
- once it has terminated, no call of `sys_waitpid` passes the checks;
- `release_pid` is called only after the child's `wake_up`, and when no
  other waiter is past the checks. -/
def WaitDiscipline (s : WaitState n) : WaitThread n → Prop
  | .child => s.child = .thread_exit → ∀ i, (s.waiter i).inside = false
  | .waiter i =>
    match s.waiter i with
    | .valid_pid => s.child = .terminated → waitpid_check (calls i) s.released ≠ none
    | .release_pid _ =>
      (s.child = .thread_exit ∨ s.child = .terminated) ∧
        ∀ j, j ≠ i → (s.waiter j).inUse = false
    | _ => True

instance (s : WaitState n) (t : WaitThread n) : Decidable (WaitDiscipline calls s t) :=
  match t with
  | .child => inferInstanceAs (Decidable (_ → _))
  | .waiter i => by
    unfold WaitDiscipline
    dsimp only
    split <;> infer_instance

end Property

/-! ## The invariant of disciplined runs -/

/-- What holds in every state of a disciplined run. -/
structure WaitInv {n : Nat} (code : UInt32) (s : WaitState n) : Prop where
  misused : s.misused = false
  terminated : s.child = .terminated → ∀ i, (s.waiter i).inside = false
  released : s.released = true →
    (s.child = .thread_exit ∨ s.child = .terminated) ∧ ∀ i, (s.waiter i).inUse = false
  releases : s.releases = if s.released then 1 else 0
  asleep : s.lk_wchan.count .child = if s.child = .lockSleep then 1 else 0
  exitcode : s.child ≠ .set_exitcode → s.pd_exitcode = code
  exiting : s.pd_exiting = true → s.child ≠ .set_exitcode
  reading : ∀ i, s.waiter i = .get_exit_code → s.pd_exiting = true
  status : ∀ i v, (s.waiter i).status = some v → v = _MKWAIT_EXIT code

theorem WaiterPc.inUse_of_inside {pc : WaiterPc} (h : pc.inside = true) : pc.inUse = true := by
  cases pc <;> simp_all [WaiterPc.inside, WaiterPc.inUse]

section Invariant

variable {n : Nat} {code : UInt32} {calls : Fin n → WaitCall} {s s' : WaitState n}

theorem WaitState.of_use {t : WaitState n} (h : s.released = false) (hs : some (s.use t) = some s') : s' = t := by
  simpa [WaitState.use, h, eq_comm] using hs

theorem WaitState.setWaiter_waiter (i j : Fin n) (pc : WaiterPc) :
    (s.setWaiter i pc).waiter j = if j = i then pc else s.waiter j := by
  simp [WaitState.setWaiter, Function.update_apply]

@[simp] theorem WaitState.setWaiter_lk_wchan (i : Fin n) (pc : WaiterPc) :
    (s.setWaiter i pc).lk_wchan = s.lk_wchan := rfl

namespace WaitInv

theorem init : WaitInv code (WaitState.start n) where
  misused := rfl
  terminated := by simp [WaitState.start]
  released := by simp [WaitState.start]
  releases := rfl
  asleep := by simp [WaitState.start]
  exitcode := by simp [WaitState.start]
  exiting := by simp [WaitState.start]
  reading := by simp [WaitState.start]
  status := by simp [WaitState.start, WaiterPc.status]

section

variable (h : WaitInv code s)
include h

/-- The entry is still there for a thread that uses it. -/
theorem not_released {i : Fin n} (hi : (s.waiter i).inUse = true) : s.released = false := by
  by_contra hr
  have hfree := (h.released (by simpa using hr)).2 i
  rw [hi] at hfree
  cases hfree

/-- For a thread inside the entry is there, and the child has not terminated. -/
theorem live {i : Fin n} {pc : WaiterPc} (hpc : s.waiter i = pc) (hi : pc.inside = true) :
    s.released = false ∧ s.child ≠ .terminated := by
  rw [← hpc] at hi
  refine ⟨h.not_released (WaiterPc.inUse_of_inside hi), fun hc => ?_⟩
  have hout := h.terminated hc i
  rw [hi] at hout
  cases hout

/-- A waiter moves on to a call that the state allows. -/
theorem setWaiter (i : Fin n) (pc : WaiterPc) (hterm : s.child = .terminated → pc.inside = false)
    (hrel : s.released = true → pc.inUse = false)
    (hread : pc = .get_exit_code → s.pd_exiting = true)
    (hstatus : ∀ v, pc.status = some v → v = _MKWAIT_EXIT code) : WaitInv code (s.setWaiter i pc) :=
  { h with
    terminated := fun hc => (Function.forall_update_iff s.waiter fun _ pc => pc.inside = false).mpr
      ⟨hterm hc, fun j _ => h.terminated hc j⟩
    released := fun hr => ⟨(h.released hr).1, (Function.forall_update_iff s.waiter fun _ pc => pc.inUse = false).mpr
      ⟨hrel hr, fun j _ => (h.released hr).2 j⟩⟩
    reading := (Function.forall_update_iff s.waiter fun _ pc => pc = .get_exit_code → s.pd_exiting = true).mpr
      ⟨hread, fun j _ => h.reading j⟩
    status := (Function.forall_update_iff s.waiter fun _ pc => ∀ v, pc.status = some v → v = _MKWAIT_EXIT code).mpr
      ⟨hstatus, fun j _ => h.status j⟩ }

/-- While the entry is there and the child has not terminated, a waiter may be anywhere as long as
its status word is right. -/
theorem setWaiter_live (hrel : s.released = false)
    (hterm : s.child ≠ .terminated) (i : Fin n) (pc : WaiterPc)
    (hread : pc = .get_exit_code → s.pd_exiting = true)
    (hstatus : ∀ v, pc.status = some v → v = _MKWAIT_EXIT code) : WaitInv code (s.setWaiter i pc) :=
  h.setWaiter i pc (fun hc => absurd hc hterm) (fun hr => by rw [hrel] at hr; cases hr) hread hstatus

/-- The owner of the lock and the queue of the condition variable are not part of the invariant. -/
theorem withOwner (o : Option (WaitThread n)) (q : List (Fin n)) :
    WaitInv code { s with lk_owner := o, cv_wchan := q } :=
  { h with }

theorem lock_release (hrel : s.released = false) (hterm : s.child ≠ .terminated) :
    WaitInv code s.lock_release ∧ s.lock_release.released = false ∧
      s.lock_release.child ≠ .terminated ∧ s.lock_release.cv_wchan = s.cv_wchan := by
  have hasleep := h.asleep
  unfold WaitState.lock_release
  split
  · exact ⟨h.withOwner _ _, hrel, hterm, rfl⟩
  · rename_i q hq
    -- only a sleeping child is in the queue, so it has stored its exit code
    rw [hq, List.count_cons_self] at hasleep
    have hsleep : s.child = .lockSleep := by
      by_contra hne
      rw [if_neg hne] at hasleep
      cases hasleep
    rw [if_pos hsleep] at hasleep
    have hcode := h.exitcode (by simp [hsleep])
    exact ⟨⟨h.misused, by simp, by simp [hrel], h.releases, by simpa using hasleep,
      fun _ => hcode, by simp, h.reading, h.status⟩, hrel, by simp, rfl⟩
  · rename_i i q hq
    have hw := h.setWaiter_live hrel hterm i .acquire_lock (by simp)
      (by simp [WaiterPc.status])
    rw [hq, List.count_cons_of_ne (by simp)] at hasleep
    exact ⟨{ hw with asleep := hasleep }, hrel, hterm, rfl⟩

theorem cv_signal (hrel : s.released = false) (hterm : s.child ≠ .terminated) :
    WaitInv code s.cv_signal ∧ s.cv_signal.released = false ∧ s.cv_signal.child = s.child := by
  unfold WaitState.cv_signal
  split
  · exact ⟨h, hrel, rfl⟩
  · rename_i i q hq
    have hw := h.setWaiter_live hrel hterm i .acquire_lock (by simp)
      (by simp [WaiterPc.status])
    exact ⟨hw.withOwner _ q, hrel, rfl⟩

/-- A step of the child past its two stores, which keeps the entry and does not put the child on the
queue of the lock. -/
theorem withChild (pc : ChildPc) (hrel : s.released = false)
    (hsleep : s.child ≠ .lockSleep) (hset : s.child ≠ .set_exitcode) (hpc : pc ≠ .lockSleep)
    (hpc' : pc ≠ .set_exitcode) (hterm : pc ≠ .terminated) : WaitInv code { s with child := pc } :=
  { h with
    terminated := fun hc => absurd hc hterm
    released := fun hr => by rw [hrel] at hr; cases hr
    asleep := by simpa [hsleep, hpc] using h.asleep
    exitcode := fun _ => h.exitcode hset
    exiting := fun _ => hpc' }

/-- **Step of the child.** -/
theorem exitStep (hd : WaitDiscipline calls s .child)
    (hs : exitStep code s = some s') : WaitInv code s' := by
  unfold OS161.exitStep at hs
  -- the child has not made its last use of the entry, so the entry is there
  have hrel : s.child ≠ .thread_exit → s.child ≠ .terminated → s.released = false := by
    intro h1 h2
    by_contra hr
    rcases (h.released (by simpa using hr)).1 with hc | hc
    · exact h1 hc
    · exact h2 hc
  have hasleep := h.asleep
  split at hs
  · rename_i hc
    have hr := hrel (by simp [hc]) (by simp [hc])
    obtain rfl := WaitState.of_use hr hs
    have hexiting : s.pd_exiting = false := by
      by_contra hne
      exact h.exiting (by simpa using hne) hc
    exact ⟨h.misused, by simp, by simp [hr], h.releases, by simpa [hc] using hasleep, by simp,
      by simp [hexiting], h.reading, h.status⟩
  · rename_i hc
    have hr := hrel (by simp [hc]) (by simp [hc])
    obtain rfl := WaitState.of_use hr hs
    have hcode := h.exitcode (by simp [hc])
    exact ⟨h.misused, by simp, by simp [hr], h.releases, by simpa [hc] using hasleep,
      fun _ => hcode, by simp, fun _ _ => rfl, h.status⟩
  · rename_i hc
    have hr := hrel (by simp [hc]) (by simp [hc])
    have hcode := h.exitcode (by simp [hc])
    split at hs
    · obtain rfl := WaitState.of_use hr hs
      exact ⟨h.misused, by simp, by simp [hr], h.releases, by simpa [hc] using hasleep,
        fun _ => hcode, by simp, h.reading, h.status⟩
    · obtain rfl := WaitState.of_use hr hs
      exact (h.withChild .wake_up hr (by simp [hc]) (by simp [hc]) (by simp) (by simp)
        (by simp)).withOwner _ _
  · cases hs
  · rename_i hc
    have hr := hrel (by simp [hc]) (by simp [hc])
    obtain rfl := WaitState.of_use hr hs
    obtain ⟨hsig, hsigr, hsigc⟩ := h.cv_signal hr (by simp [hc])
    rw [hc] at hsigc
    exact hsig.withChild .thread_exit hsigr (by simp [hsigc]) (by simp [hsigc]) (by simp) (by simp) (by simp)
  · rename_i hc
    cases hs
    have hcode := h.exitcode (by simp [hc])
    exact ⟨h.misused, fun _ => hd hc, fun hr => ⟨.inr rfl, (h.released hr).2⟩, h.releases,
      by simpa [hc] using hasleep, fun _ => hcode, by simp, h.reading, h.status⟩
  · cases hs

/-- **Step of a waiter.** -/
theorem waitStep {i : Fin n} (hd : WaitDiscipline calls s (.waiter i))
    (hs : waitStep (calls i) i s = some s') : WaitInv code s' := by
  unfold OS161.waitStep at hs
  split at hs
  · rename_i hpc
    simp only [WaitDiscipline, hpc] at hd
    split at hs
    · cases hs
      exact h.setWaiter i _ (fun _ => rfl) (fun _ => rfl) (by simp)
        (by simp [WaiterPc.status])
    · rename_i hok
      cases hs
      have hr : s.released = false := by
        by_contra hr
        have hr' : s.released = true := by simpa using hr
        simp [waitpid_check, hr'] at hok
      exact h.setWaiter_live hr (fun hc => hd hc hok) i _ (by simp)
        (by simp [WaiterPc.status])
  · rename_i hpc
    obtain ⟨hr, ht⟩ := h.live hpc rfl
    split at hs
    · obtain rfl := WaitState.of_use hr hs
      have hw := h.setWaiter_live hr ht i .lockSleep (by simp) (by simp [WaiterPc.status])
      exact { hw with asleep := by simpa [List.count_append] using hw.asleep }
    · obtain rfl := WaitState.of_use hr hs
      exact (h.setWaiter_live hr ht i .has_exit_code (by simp)
        (by simp [WaiterPc.status])).withOwner _ _
  · cases hs
  · rename_i hpc
    obtain ⟨hr, ht⟩ := h.live hpc rfl
    split at hs
    · rename_i hexiting
      obtain rfl := WaitState.of_use hr hs
      exact h.setWaiter_live hr ht i _ (fun _ => hexiting) (by simp [WaiterPc.status])
    · obtain rfl := WaitState.of_use hr hs
      obtain ⟨hl, hlr, hlt, -⟩ := h.lock_release hr ht
      exact (hl.setWaiter_live hlr hlt i .cvSleep (by simp)
        (by simp [WaiterPc.status])).withOwner _ _
  · cases hs
  · rename_i hpc
    obtain ⟨hr, ht⟩ := h.live hpc rfl
    have hcode := h.exitcode (h.exiting (h.reading i hpc))
    obtain rfl := WaitState.of_use hr hs
    exact h.setWaiter_live hr ht i _ (by simp) (by simp [WaiterPc.status, hcode])
  · rename_i v hpc
    obtain ⟨hr, ht⟩ := h.live hpc rfl
    have hv := h.status i v (by simp [hpc, WaiterPc.status])
    obtain rfl := WaitState.of_use hr hs
    obtain ⟨hl, hlr, hlt, -⟩ := h.lock_release hr ht
    exact hl.setWaiter_live hlr hlt i _ (by simp) (by simp [WaiterPc.status, hv])
  · rename_i v hpc
    have hr := h.not_released (i := i) (by simp [hpc, WaiterPc.inUse])
    have hv := h.status i v (by simp [hpc, WaiterPc.status])
    simp only [WaitDiscipline, hpc] at hd
    obtain ⟨hchild, hothers⟩ := hd
    split at hs
    · obtain rfl := WaitState.of_use hr hs
      exact { h with }
    · obtain rfl := WaitState.of_use hr hs
      have hw := h.setWaiter i (.returned (.ok v)) (fun _ => rfl) (fun _ => rfl)
        (by simp) (by simp [WaiterPc.status, hv])
      have hreleases : s.releases = 0 := by
        rw [h.releases, hr]
        rfl
      refine { hw with released := fun _ => ⟨hchild, fun j => ?_⟩, releases := ?_ }
      · -- the released entry has no other user
        rw [WaitState.setWaiter_waiter]
        split
        · rfl
        · rename_i hj
          exact hothers j hj
      · show s.releases + 1 = 1
        rw [hreleases]
  · cases hs

end

/-- The invariant holds in every state of a disciplined run. -/
theorem reachable
    (h : System.Reachable ((waitSystem code calls).restrict (WaitDiscipline calls)) s) :
    WaitInv code s := by
  refine System.invariant ?_ ?_ h
  · intro s hs
    rw [show s = WaitState.start n from hs]
    exact WaitInv.init
  · intro s t s' hinv hstep
    obtain ⟨hd, hnext⟩ := hstep
    change waitNext code calls s t = some s' at hnext
    unfold waitNext at hnext
    split at hnext
    · cases hnext
    · cases t with
      | child => exact hinv.exitStep hd hnext
      | waiter i => exact hinv.waitStep hd hnext

end WaitInv

end Invariant

/-! ## Main result -/

/-- **Disciplined runs are correct**: in every interleaving whose steps all meet `WaitDiscipline`,
no waiter is left asleep by a terminated child, nobody uses the entry after its release, the pid
is released at most once, and a successful `sys_waitpid` has stored the exit code. -/
theorem exit_wait_disciplined {n : Nat} (code : UInt32) (calls : Fin n → WaitCall) (s : WaitState n)
    (h : System.Reachable ((waitSystem code calls).restrict (WaitDiscipline calls)) s) :
    WaitOk code calls s := by
  have hinv := WaitInv.reachable h
  refine ⟨?_, hinv.misused, ?_, ?_⟩
  · intro i hstuck
    obtain ⟨hterm, hrun⟩ := hstuck
    have hin := hinv.terminated hterm i
    rcases hrun [] s (.done s) with hpc | hpc
    · simp [hpc, WaiterPc.inside] at hin
    · simp [hpc, WaiterPc.inside] at hin
  · rw [hinv.releases]
    split <;> omega
  · intro i v hpc
    exact hinv.status i v (by simp [hpc, WaiterPc.status])

/-- One waiter whose call passes the checks. -/
def oneCall : Fin 1 → WaitCall := fun _ => { byParent := false, status := 0, options := 0 }

/-- The waiter reads the exit code and unlocks before the child takes the lock, and releases the pid
after the child's `wake_up`. -/
def luckyRun : List (WaitThread 1) :=
  [.child, .child, .waiter 0, .waiter 0, .waiter 0, .waiter 0, .waiter 0, .child, .child, .child,
    .waiter 0]

/-- The waiter is asleep on the condition variable when the child exits: it is woken, finds the lock
held by the terminated child, and sleeps for good. -/
def stuckRun : List (WaitThread 1) :=
  [.waiter 0, .waiter 0, .waiter 0, .child, .child, .child, .child, .child, .waiter 0]

/-- In the lucky run the waiter returns the exit code, and all is well. -/
theorem exit_wait_disciplined_lucky :
    ∃ s : WaitState 1, s.waiter 0 = .returned (.ok (_MKWAIT_EXIT 7)) ∧ WaitOk 7 oneCall s := by
  obtain ⟨s, hs, hreturned⟩ : ∃ s, System.follow (fun s t => if WaitDiscipline oneCall s t then
      waitNext 7 oneCall s t else none) luckyRun (WaitState.start 1) = some s ∧
      s.waiter 0 = .returned (.ok (_MKWAIT_EXIT 7)) := ⟨_, rfl, rfl⟩
  refine ⟨s, hreturned, exit_wait_disciplined 7 oneCall s ?_⟩
  rw [waitSystem, System.restrict_ofNext]
  exact .follow luckyRun (.init rfl) hs

/-- In the stuck run the child terminates with the lock held and the waiter is asleep on it,
whatever happens next. -/
theorem exit_wait_stuck :
    ∃ s, System.Reachable (waitSystem 7 oneCall) s ∧ WaitStuck 7 oneCall s 0 ∧
      ¬ WaitOk 7 oneCall s := by
  obtain ⟨s, hs, hchild, hwaiter⟩ : ∃ s, System.follow (waitNext 7 oneCall) stuckRun (WaitState.start 1) = some s ∧
      s.child = .terminated ∧ s.waiter 0 = .lockSleep := ⟨_, rfl, rfl, rfl⟩
  have hnext : ∀ t, waitNext 7 oneCall s t = none := by
    intro t
    cases t with
    | child => simp [waitNext, exitStep, hchild]
    | waiter i =>
      obtain rfl : i = 0 := Subsingleton.elim _ _
      simp [waitNext, waitStep, hwaiter]
  have hstuck : WaitStuck 7 oneCall s 0 := by
    refine ⟨hchild, ?_⟩
    intro acts s' h
    cases h with
    | done => exact .inl hwaiter
    | act t rest hstep _ =>
      have hnone := hnext t
      rw [show waitNext 7 oneCall s t = some _ from hstep] at hnone
      cases hnone
  exact ⟨s, .follow stuckRun (.init rfl) hs, hstuck, fun hok => hok.not_stuck 0 hstuck⟩

end OS161
