import OS161.Thread.Lock

/-! # Condition variables

The model of `cv_wait`, `cv_signal` and `cv_broadcast` in `kern/thread/synch.c`, together with
the lock they are used with.

`cv_wait` has three locks to hand over: it takes `cv_spinlock`, releases the sleep lock, locks
the wait channel, releases `cv_spinlock`, and the wait channel is unlocked once the thread is on
its queue. All steps of the sleep lock's own code are steps here too.

`seen`, `woke` and `wakened` are not in the program. They record, for a call of `cv_signal` or
`cv_broadcast`, who was waiting at the time of the call and whom it has made runnable, and for a
call of `cv_wait` whether somebody has made the caller runnable.
-/

namespace OS161

open Framework Function

variable {n : Nat}

/-! ## States -/

/-- Where a thread is. -/
inductive CvPc (ι : Type) where
  /-- In no call on the condition variable, perhaps in one on the lock. -/
  | out
  /-- `cv_wait`: about to take `cv_spinlock`. -/
  | wspin
  /-- About to call `lock_release`. -/
  | wcall
  /-- Inside `lock_release`. -/
  | wrel
  /-- About to lock the wait channel. -/
  | wlock
  /-- About to release `cv_spinlock`. -/
  | wunspin
  /-- `wchan_sleep`: about to queue up. -/
  | wenq
  /-- On the queue, about to unlock the wait channel. -/
  | wunlock
  | asleep
  /-- Runnable again, about to call `lock_acquire`. -/
  | woken
  /-- Inside `lock_acquire`. -/
  | reacq
  /-- About to return from `cv_wait`. -/
  | wret
  /-- `cv_signal`, or `cv_broadcast` if `all`: about to take `cv_spinlock`. -/
  | sspin (all : Bool)
  /-- About to lock the wait channel. -/
  | slock (all : Bool)
  /-- About to take threads off the queue and to unlock the wait channel. -/
  | spop (all : Bool)
  /-- About to make these threads runnable. -/
  | srun (all : Bool) (targets : List ι)
  /-- About to release `cv_spinlock` and to return. -/
  | sunspin (all : Bool)
  deriving DecidableEq

namespace CvPc

variable {ι : Type}

/-- The thread holds `cv_spinlock`. -/
def spins : CvPc ι → Bool
  | wcall | wrel | wlock | wunspin | slock _ | spop _ | srun _ _ | sunspin _ => true
  | _ => false

/-- The thread holds the lock of the wait channel. -/
def chans : CvPc ι → Bool
  | wunspin | wenq | wunlock | spop _ => true
  | _ => false

/-- The thread has released the lock inside `cv_wait` and has not been woken. -/
def waits : CvPc ι → Bool
  | wrel | wlock | wunspin | wenq | wunlock | asleep => true
  | _ => false

/-- The thread has been woken in `cv_wait`. -/
def wasWoken : CvPc ι → Bool
  | woken | reacq | wret => true
  | _ => false

/-- The thread is at a place of a call that it passes with the sleep lock. -/
def owns : CvPc ι → Bool
  | wspin | wcall | wret | sspin _ | slock _ | spop _ | srun _ _ | sunspin _ => true
  | _ => false

/-- What the place means for the queue. -/
def place : CvPc ι → Place ι
  | wunlock => .queued
  | asleep => .asleep
  | srun _ l => .wakes l
  | _ => .off

end CvPc

structure CvState (n : Nat) where
  lock : LockState n
  cv_spinlock : Option (Fin n)
  /-- Who holds the lock of the wait channel. -/
  chan : Option (Fin n)
  queue : List (Fin n)
  pc : Fin n → CvPc (Fin n)
  seen : Fin n → Fin n → Bool
  woke : Fin n → Fin n → Bool
  wakened : Fin n → Bool

namespace CvState

def setPc (s : CvState n) (t : Fin n) (p : CvPc (Fin n)) : CvState n :=
  { s with pc := update s.pc t p }

def withLock (s : CvState n) (l : LockState n) : CvState n := { s with lock := l }

/-- Thread `t` makes thread `a` runnable. -/
def wakeUp (s : CvState n) (t a : Fin n) : CvState n :=
  { s.setPc a .woken with
    woke := update s.woke t (update (s.woke t) a true)
    wakened := update s.wakened a true }

end CvState

/-! ## Steps -/

/-- The next step of a thread that is in one of the three calls. -/
def cvStep (s : CvState n) (t : Fin n) : Option (CvState n) :=
  match s.pc t with
  | .out => none
  | .wspin =>
    if s.cv_spinlock = none then some ({ s with cv_spinlock := some t }.setPc t .wcall) else none
  | .wcall => (lockNext s.lock (.leave t)).map fun l => (s.withLock l).setPc t .wrel
  | .wrel =>
    (lockNext s.lock (.step t)).map fun l =>
      (s.withLock l).setPc t (if l.pc t = GatePc.idle then .wlock else .wrel)
  | .wlock => if s.chan = none then some ({ s with chan := some t }.setPc t .wunspin) else none
  | .wunspin => some ({ s with cv_spinlock := none }.setPc t .wenq)
  | .wenq => some ({ s with queue := s.queue ++ [t] }.setPc t .wunlock)
  | .wunlock => some ({ s with chan := none }.setPc t .asleep)
  | .asleep => none
  | .woken => (lockNext s.lock (.enter t)).map fun l => (s.withLock l).setPc t .reacq
  | .reacq =>
    (lockNext s.lock (.step t)).map fun l =>
      (s.withLock l).setPc t (if l.pc t = GatePc.idle then .wret else .reacq)
  | .wret => some (s.setPc t .out)
  | .sspin all =>
    if s.cv_spinlock = none then some ({ s with cv_spinlock := some t }.setPc t (.slock all)) else none
  | .slock all => if s.chan = none then some ({ s with chan := some t }.setPc t (.spop all)) else none
  | .spop all =>
    -- `wchan_wakeall` takes the whole queue, `wchan_wakeone` the first of it
    let k := if all then s.queue.length else 1
    some ({ s with queue := s.queue.drop k, chan := none }.setPc t (.srun all (s.queue.take k)))
  | .srun all [] => some (s.setPc t (.sunspin all))
  | .srun all (a :: rest) => some ((s.wakeUp t a).setPc t (.srun all rest))
  | .sunspin _ => some ({ s with cv_spinlock := none }.setPc t .out)

inductive CvAct (n : Nat) where
  /-- A call or a step of a client of the lock. -/
  | lock (a : GateAct (Fin n))
  | wait (t : Fin n)
  | signal (all : Bool) (t : Fin n)
  | step (t : Fin n)
  deriving DecidableEq

/-- The thread that acts. -/
def actor : GateAct (Fin n) → Fin n
  | .enter t | .leave t | .step t => t

/-- Who calls one of the three functions is in no other call and has the lock; each of them asserts
as much. -/
def CvReady (s : CvState n) (t : Fin n) : Prop :=
  s.pc t = .out ∧ s.lock.pc t = .idle ∧ s.lock.held t = true ∧ lock_do_i_hold s.lock t = true

instance cvReady_decidable (s : CvState n) (t : Fin n) : Decidable (CvReady s t) := by
  unfold CvReady
  infer_instance

def cvNext (s : CvState n) : CvAct n → Option (CvState n)
  | .lock a =>
    if s.pc (actor a) = .out ∧ LockDiscipline s.lock a then (lockNext s.lock a).map s.withLock else none
  | .wait t =>
    if CvReady s t then some ({ s with wakened := update s.wakened t false }.setPc t .wspin)
    else none
  | .signal all t =>
    if CvReady s t then
      some ({ s with
        seen := update s.seen t fun u => (s.pc u).waits
        woke := update s.woke t fun _ => false }.setPc t (.sspin all))
    else none
  | .step t => cvStep s t

/-- `cv_create`, with a lock fresh from `lock_create`. -/
def cv_create (owner : Option (Fin n)) : CvState n where
  lock := lock_create owner
  cv_spinlock := none
  chan := none
  queue := []
  pc := fun _ => .out
  seen := fun _ _ => false
  woke := fun _ _ => false
  wakened := fun _ => false

def cvSystem (n : Nat) (owner : Option (Fin n)) : System (CvState n) (CvAct n) :=
  .ofNext (fun s => s = cv_create owner) cvNext

/-- What a call is to have done when it is about to return. -/
structure CvOk (s : CvState n) : Prop where
  signal : ∀ t, s.pc t = .sunspin false → (∃ u, s.seen t u = true) →
    ∃ u, s.seen t u = true ∧ s.woke t u = true
  broadcast : ∀ t, s.pc t = .sunspin true → ∀ u, s.seen t u = true → s.woke t u = true
  wait : ∀ t, s.pc t = .wret →
    s.wakened t = true ∧ s.lock.held t = true ∧ s.lock.res.lk_owner = some t

/-- What a step of thread `t` can be. -/
inductive CvMove (s : CvState n) (t : Fin n) : CvState n → Prop where
  | client (a : GateAct (Fin n)) (l : LockState n) (ht : actor a = t) (hpc : s.pc t = .out)
      (hdisc : LockDiscipline s.lock a) (hl : lockNext s.lock a = some l) : CvMove s t (s.withLock l)
  | wait (hready : CvReady s t) :
      CvMove s t ({ s with wakened := update s.wakened t false }.setPc t .wspin)
  | signal (all : Bool) (hready : CvReady s t) :
      CvMove s t ({ s with
        seen := update s.seen t fun u => (s.pc u).waits
        woke := update s.woke t fun _ => false }.setPc t (.sspin all))
  | spin (p : CvPc (Fin n)) (hfree : s.cv_spinlock = none)
      (hp : s.pc t = .wspin ∧ p = .wcall ∨ ∃ all, s.pc t = .sspin all ∧ p = .slock all) :
      CvMove s t ({ s with cv_spinlock := some t }.setPc t p)
  | call (l : LockState n) (hpc : s.pc t = .wcall) (hl : lockNext s.lock (.leave t) = some l) :
      CvMove s t ((s.withLock l).setPc t .wrel)
  | release (l : LockState n) (hpc : s.pc t = .wrel) (hl : lockNext s.lock (.step t) = some l) :
      CvMove s t ((s.withLock l).setPc t (if l.pc t = GatePc.idle then .wlock else .wrel))
  | chan (p : CvPc (Fin n)) (hfree : s.chan = none)
      (hp : s.pc t = .wlock ∧ p = .wunspin ∨ ∃ all, s.pc t = .slock all ∧ p = .spop all) :
      CvMove s t ({ s with chan := some t }.setPc t p)
  | unspin (p : CvPc (Fin n))
      (hp : s.pc t = .wunspin ∧ p = .wenq ∨ ∃ all, s.pc t = .sunspin all ∧ p = .out) :
      CvMove s t ({ s with cv_spinlock := none }.setPc t p)
  | enqueue (hpc : s.pc t = .wenq) :
      CvMove s t ({ s with queue := s.queue ++ [t] }.setPc t .wunlock)
  | fallAsleep (hpc : s.pc t = .wunlock) : CvMove s t ({ s with chan := none }.setPc t .asleep)
  | relock (l : LockState n) (hpc : s.pc t = .woken) (hl : lockNext s.lock (.enter t) = some l) :
      CvMove s t ((s.withLock l).setPc t .reacq)
  | reacquire (l : LockState n) (hpc : s.pc t = .reacq) (hl : lockNext s.lock (.step t) = some l) :
      CvMove s t ((s.withLock l).setPc t (if l.pc t = GatePc.idle then .wret else .reacq))
  | returns (hpc : s.pc t = .wret) : CvMove s t (s.setPc t .out)
  | pop (all : Bool) (k : Nat) (hpc : s.pc t = .spop all) (hk : k = if all then s.queue.length else 1) :
      CvMove s t ({ s with queue := s.queue.drop k, chan := none }.setPc t (.srun all (s.queue.take k)))
  | run (all : Bool) (a : Fin n) (rest : List (Fin n)) (hpc : s.pc t = .srun all (a :: rest)) :
      CvMove s t ((s.wakeUp t a).setPc t (.srun all rest))
  | ran (all : Bool) (hpc : s.pc t = .srun all []) : CvMove s t (s.setPc t (.sunspin all))

theorem cvStep_move {s s' : CvState n} {t : Fin n} (hs : cvStep s t = some s') : CvMove s t s' := by
  unfold cvStep at hs
  split at hs
  case h_1 => cases hs
  case h_2 hpc =>
    split at hs
    · rename_i hfree
      cases hs
      exact .spin _ hfree (.inl ⟨hpc, rfl⟩)
    · cases hs
  case h_3 hpc =>
    obtain ⟨l, hl, rfl⟩ := Option.map_eq_some_iff.mp hs
    exact .call l hpc hl
  case h_4 hpc =>
    obtain ⟨l, hl, rfl⟩ := Option.map_eq_some_iff.mp hs
    exact .release l hpc hl
  case h_5 hpc =>
    split at hs
    · rename_i hfree
      cases hs
      exact .chan _ hfree (.inl ⟨hpc, rfl⟩)
    · cases hs
  case h_6 hpc =>
    cases hs
    exact .unspin _ (.inl ⟨hpc, rfl⟩)
  case h_7 hpc =>
    cases hs
    exact .enqueue hpc
  case h_8 hpc =>
    cases hs
    exact .fallAsleep hpc
  case h_9 => cases hs
  case h_10 hpc =>
    obtain ⟨l, hl, rfl⟩ := Option.map_eq_some_iff.mp hs
    exact .relock l hpc hl
  case h_11 hpc =>
    obtain ⟨l, hl, rfl⟩ := Option.map_eq_some_iff.mp hs
    exact .reacquire l hpc hl
  case h_12 hpc =>
    cases hs
    exact .returns hpc
  case h_13 all hpc =>
    split at hs
    · rename_i hfree
      cases hs
      exact .spin _ hfree (.inr ⟨all, hpc, rfl⟩)
    · cases hs
  case h_14 all hpc =>
    split at hs
    · rename_i hfree
      cases hs
      exact .chan _ hfree (.inr ⟨all, hpc, rfl⟩)
    · cases hs
  case h_15 all hpc =>
    cases hs
    exact .pop all _ hpc rfl
  case h_16 all hpc =>
    cases hs
    exact .ran all hpc
  case h_17 all a rest hpc =>
    cases hs
    exact .run all a rest hpc
  case h_18 all hpc =>
    cases hs
    exact .unspin _ (.inr ⟨all, hpc, rfl⟩)

theorem cvNext_move {s s' : CvState n} {a : CvAct n} (hs : cvNext s a = some s') :
    ∃ t, CvMove s t s' := by
  unfold cvNext at hs
  split at hs
  · rename_i a
    split at hs
    · rename_i hcall
      obtain ⟨l, hl, rfl⟩ := Option.map_eq_some_iff.mp hs
      exact ⟨actor a, .client a l rfl hcall.1 hcall.2 hl⟩
    · cases hs
  · rename_i t
    split at hs
    · rename_i hready
      cases hs
      exact ⟨t, .wait hready⟩
    · cases hs
  · rename_i all t
    split at hs
    · rename_i hready
      cases hs
      exact ⟨t, .signal all hready⟩
    · cases hs
  · rename_i t
    exact ⟨t, cvStep_move hs⟩

/-! ## The invariant -/

/-- How the place of a thread goes with its place in the lock's code and whether it has the lock. -/
def CvStage : CvPc (Fin n) → GatePc (Fin n) → Bool → Prop
  | .out, _, _ => True
  | .wrel, g, held => g.leaves = true ∧ held = false
  | .reacq, g, held => g ≠ .idle ∧ g.leaves = false ∧ held = false
  | .wlock, g, held | .wunspin, g, held | .wenq, g, held | .wunlock, g, held | .asleep, g, held
  | .woken, g, held => g = .idle ∧ held = false
  | .wspin, g, held | .wcall, g, held | .wret, g, held | .sspin _, g, held | .slock _, g, held
  | .spop _, g, held | .srun _ _, g, held | .sunspin _, g, held => g = .idle ∧ held = true

/-- The call still has to wake, or has woken, whom it should. -/
def Answered (all : Bool) (targets : List (Fin n)) (seen woke : Fin n → Bool) : Prop :=
  if all then ∀ u, seen u = true → u ∈ targets ∨ woke u = true
  else (∃ u, seen u = true) → ∃ u, seen u = true ∧ (u ∈ targets ∨ woke u = true)

/-- Until it takes threads off the queue, a call has seen just those who wait. -/
def CvSeen (waiting seen woke : Fin n → Bool) : CvPc (Fin n) → Prop
  | .sspin _ | .slock _ | .spop _ => seen = waiting
  | .srun all targets => Answered all targets seen woke
  | .sunspin all => Answered all [] seen woke
  | _ => True

structure CvInv (s : CvState n) : Prop where
  lock : LockInv s.lock
  stage : ∀ t, CvStage (s.pc t) (s.lock.pc t) (s.lock.held t)
  spin : HeldBy s.cv_spinlock (CvPc.spins ∘ s.pc)
  chan : HeldBy s.chan (CvPc.chans ∘ s.pc)
  line : QueueInv s.queue (CvPc.place ∘ s.pc)
  seen : ∀ t, CvSeen (CvPc.waits ∘ s.pc) (s.seen t) (s.woke t) (s.pc t)
  awake : ∀ t, (s.pc t).wasWoken = true → s.wakened t = true

section Facts

variable {p : CvPc (Fin n)} {g : GatePc (Fin n)} {held : Bool} {waiting waiting' seen woke : Fin n → Bool}

theorem CvStage.of_owns (h : CvStage p g held) (hp : p.owns = true) : g = .idle ∧ held = true := by
  revert h hp
  cases p <;> simp [CvStage, CvPc.owns]

/-- Whoever is asleep in the lock's code is in `lock_acquire`. -/
theorem CvStage.rouse (h : CvStage p (.asleep : GatePc (Fin n)) held) :
    CvStage p (.enter true : GatePc (Fin n)) held := by
  revert h
  cases p <;> simp [CvStage, GatePc.leaves]

/-- What a call has seen is of interest only while it has the lock. -/
theorem CvSeen.of_not_owns (hp : p.owns = false) : CvSeen waiting seen woke p := by
  revert hp
  cases p <;> simp [CvSeen, CvPc.owns]

theorem Answered.wake {all : Bool} {a : Fin n} {rest : List (Fin n)} (h : Answered all (a :: rest) seen woke) :
    Answered all rest seen (update woke a true) := by
  have hmoves : ∀ u, u ∈ a :: rest ∨ woke u = true → u ∈ rest ∨ update woke a true u = true := by
    intro u hu
    by_cases hua : u = a
    · subst hua
      exact .inr (update_self ..)
    · rw [update_of_ne hua]
      exact hu.imp_left fun hmem => (List.mem_cons.mp hmem).resolve_left hua
  cases all with
  | true => exact fun u hu => hmoves u (h u hu)
  | false =>
    intro hex
    obtain ⟨u, hu, hmem⟩ := h hex
    exact ⟨u, hu, hmoves u hmem⟩

theorem CvPc.spins_of_wakes {l : List (Fin n)} (h : p.place = .wakes l) : p.spins = true := by
  revert h
  cases p <;> simp [CvPc.place, CvPc.spins]

theorem CvPc.place_asleep (h : p.place = .asleep) : p = .asleep := by
  revert h
  cases p <;> simp [CvPc.place]

end Facts

namespace CvInv

variable {s s' : CvState n} {t u : Fin n} {p q : CvPc (Fin n)}

/-- No two threads are at places passed with the lock. -/
theorem owns_unique (h : CvInv s) (ht : (s.pc t).owns = true) (hu : (s.pc u).owns = true) : t = u :=
  h.lock.unique (.inl ((h.stage t).of_owns ht).2) (.inl ((h.stage u).of_owns hu).2)

/-- A step of one thread, put together from what it does to each part of the state. -/
theorem move (h : CvInv s) (hpc : s'.pc = update s.pc t p) (hlock : LockInv s'.lock)
    (hothers : ∀ u, u ≠ t → CvStage (s.pc u) (s'.lock.pc u) (s'.lock.held u))
    (hself : CvStage p (s'.lock.pc t) (s'.lock.held t))
    (hspin : HeldBy s'.cv_spinlock (update (CvPc.spins ∘ s.pc) t p.spins))
    (hchan : HeldBy s'.chan (update (CvPc.chans ∘ s.pc) t p.chans))
    (hline : QueueInv s'.queue (update (CvPc.place ∘ s.pc) t p.place))
    (hwaits : p.waits = (s.pc t).waits ∨ (s.pc t).owns = true)
    (hkept : ∀ u, u ≠ t → s'.seen u = s.seen u ∧ s'.woke u = s.woke u ∧ s'.wakened u = s.wakened u)
    (hseen : CvSeen (update (CvPc.waits ∘ s.pc) t p.waits) (s'.seen t) (s'.woke t) p)
    (hawake : p.wasWoken = true → s'.wakened t = true) : CvInv s' := by
  constructor
  case lock => exact hlock
  case stage =>
    rw [hpc]
    exact (forall_update_iff s.pc fun u q => CvStage q (s'.lock.pc u) (s'.lock.held u)).mpr ⟨hself, hothers⟩
  case spin => rwa [hpc, comp_update]
  case chan => rwa [hpc, comp_update]
  case line => rwa [hpc, comp_update]
  case seen =>
    intro u
    rw [hpc, comp_update]
    by_cases hut : u = t
    · subst hut
      rw [update_self]
      exact hseen
    · obtain ⟨hs, hw, -⟩ := hkept u hut
      rw [update_of_ne hut, hs, hw]
      rcases hwaits with hwaits | howns
      · rw [hwaits]
        have hsame : update (CvPc.waits ∘ s.pc) t (s.pc t).waits = CvPc.waits ∘ s.pc :=
          update_eq_self t (CvPc.waits ∘ s.pc)
        rw [hsame]
        exact h.seen u
      · -- the thread that moves has the lock, so no other call is under way
        apply CvSeen.of_not_owns
        by_contra hu
        exact hut (h.owns_unique (by simpa using hu) howns)
  case awake =>
    rw [hpc]
    refine (forall_update_iff s.pc fun u q => q.wasWoken = true → s'.wakened u = true).mpr ⟨hawake, ?_⟩
    intro u hut hu
    rw [(hkept u hut).2.2]
    exact h.awake u hu

theorem stage_at (h : CvInv s) (hq : s.pc t = q) : CvStage q (s.lock.pc t) (s.lock.held t) :=
  hq ▸ h.stage t

theorem seen_at (h : CvInv s) (hq : s.pc t = q) : CvSeen (CvPc.waits ∘ s.pc) (s.seen t) (s.woke t) q :=
  hq ▸ h.seen t

/-- A step that leaves the lock and what has been recorded alone. -/
theorem plain (h : CvInv s) (hq : s.pc t = q) (hpc : s'.pc = update s.pc t p)
    (hkept : s'.lock = s.lock ∧ s'.seen = s.seen ∧ s'.woke = s.woke ∧ s'.wakened = s.wakened)
    (hself : ∀ {g held}, CvStage q g held → CvStage p g held)
    (hspin : HeldBy s'.cv_spinlock (update (CvPc.spins ∘ s.pc) t p.spins))
    (hchan : HeldBy s'.chan (update (CvPc.chans ∘ s.pc) t p.chans))
    (hline : QueueInv s'.queue (update (CvPc.place ∘ s.pc) t p.place))
    (hseen : CvSeen (CvPc.waits ∘ s.pc) (s.seen t) (s.woke t) q →
      CvSeen (CvPc.waits ∘ s.pc) (s.seen t) (s.woke t) p)
    (hwaits : p.waits = q.waits) (hwoken : p.wasWoken = false) : CvInv s' := by
  obtain ⟨hlock, hs, hw, hwak⟩ := hkept
  rw [← hq] at hwaits
  have hsame : update (CvPc.waits ∘ s.pc) t p.waits = CvPc.waits ∘ s.pc := by
    rw [hwaits]
    exact update_eq_self t (CvPc.waits ∘ s.pc)
  apply h.move hpc
  · rw [hlock]
    exact h.lock
  · intro u _
    rw [hlock]
    exact h.stage u
  · rw [hlock]
    exact hself (h.stage_at hq)
  · exact hspin
  · exact hchan
  · exact hline
  · exact .inl hwaits
  · intro u _
    rw [hs, hw, hwak]
    exact ⟨rfl, rfl, rfl⟩
  · rw [hsame, hs, hw]
    exact hseen (h.seen_at hq)
  · rw [hwoken]
    exact nofun

variable {l : LockState n} {a : GateAct (Fin n)}

section

variable (h : CvInv s)
include h

/-- What a step of the lock's code does to the places of the others. -/
theorem others (hl : lockNext s.lock a = some l)
    (hut : u ≠ actor a) : CvStage (s.pc u) (l.pc u) (l.held u) := by
  have hu := h.stage u
  rcases lockNext_cases hl with ⟨t, rfl, -, rfl⟩ | ⟨t, rfl, -, -, rfl⟩ | ⟨t, rfl, hmove⟩
  · have hne : u ≠ t := hut
    rwa [GateState.setPc_pc, update_of_ne hne]
  · have hne : u ≠ t := hut
    show CvStage _ (update s.lock.pc t .leave u) (update s.lock.held t false u)
    rwa [update_of_ne hne, update_of_ne hne]
  · obtain ⟨hheld, hpc | ⟨hasleep, hpc⟩⟩ := hmove.others h.lock.gate (show u ≠ t from hut)
    · rwa [hheld, hpc]
    · rw [hheld, hpc]
      rw [hasleep] at hu
      exact hu.rouse

/-- A step inside the lock's code. -/
theorem inLock (hq : s.pc t = q) (ha : actor a = t)
    (hl : lockNext s.lock a = some l) (hdisc : LockDiscipline s.lock a)
    (hself : CvStage p (l.pc t) (l.held t))
    (hp : p.spins = q.spins ∧ p.chans = q.chans ∧ p.place = .off ∧ q.place = .off)
    (hwaits : p.waits = q.waits ∨ q.owns = true) (hseen : ∀ w, CvSeen w (s.seen t) (s.woke t) p)
    (hawake : p.wasWoken = true → q.wasWoken = true) : CvInv ((s.withLock l).setPc t p) := by
  obtain ⟨hspins, hchans, hplace, hold⟩ := hp
  refine h.move (p := p) (t := t) rfl (h.lock.next hdisc hl) (fun u hut => h.others hl (ha ▸ hut)) hself
    ?_ ?_ ?_ ?_ ?_ ?_ ?_
  · exact h.spin.stays hq hspins
  · exact h.chan.stays hq hchans
  · exact h.line.stays hq (.inl hold) (.inl hplace)
  · rwa [hq]
  · exact fun u _ => ⟨rfl, rfl, rfl⟩
  · exact hseen _
  · intro hp
    exact h.awake t (hq ▸ hawake hp)

/-! ### Steps -/

theorem client (ht : actor a = t)
    (hpc : s.pc t = .out) (hdisc : LockDiscipline s.lock a) (hl : lockNext s.lock a = some l) :
    CvInv (s.withLock l) := by
  have hmove := h.inLock hpc ht hl hdisc (p := .out) trivial ⟨rfl, rfl, rfl, rfl⟩ (.inl rfl) (fun _ => trivial)
    id
  have hsame : (s.withLock l).setPc t .out = s.withLock l := by
    rw [← hpc]
    show ({ s.withLock l with pc := update s.pc t (s.pc t) } : CvState n) = s.withLock l
    rw [update_eq_self]
    rfl
  rwa [hsame] at hmove

theorem wait (hready : CvReady s t) :
    CvInv ({ s with wakened := update s.wakened t false }.setPc t .wspin) := by
  obtain ⟨hpc, hidle, hheld, -⟩ := hready
  refine h.move (p := .wspin) (t := t) rfl h.lock (fun u _ => h.stage u) ⟨hidle, hheld⟩ ?_ ?_ ?_ ?_ ?_ ?_ ?_
  · exact h.spin.stays hpc rfl
  · exact h.chan.stays hpc rfl
  · exact h.line.stays hpc (.inl rfl) (.inl rfl)
  · exact .inl (by rw [hpc]; rfl)
  · exact fun u hut => ⟨rfl, rfl, update_of_ne hut ..⟩
  · trivial
  · exact nofun

theorem signal (all : Bool) (hready : CvReady s t) :
    CvInv ({ s with
      seen := update s.seen t fun u => (s.pc u).waits
      woke := update s.woke t fun _ => false }.setPc t (.sspin all)) := by
  obtain ⟨hpc, hidle, hheld, -⟩ := hready
  refine h.move (p := .sspin all) (t := t) rfl h.lock (fun u _ => h.stage u) ⟨hidle, hheld⟩ ?_ ?_ ?_ ?_ ?_ ?_ ?_
  · exact h.spin.stays hpc rfl
  · exact h.chan.stays hpc rfl
  · exact h.line.stays hpc (.inl rfl) (.inl rfl)
  · exact .inl (by rw [hpc]; rfl)
  · exact fun u hut => ⟨update_of_ne hut .., update_of_ne hut .., rfl⟩
  · -- the caller does not wait itself, before or after
    show update s.seen t _ t = update (CvPc.waits ∘ s.pc) t false
    rw [update_self]
    funext u
    by_cases hut : u = t
    · subst hut
      rw [update_self, hpc]
      rfl
    · rw [update_of_ne hut]
      rfl
  · exact nofun

theorem takeSpin (hfree : s.cv_spinlock = none)
    (hp : s.pc t = .wspin ∧ p = .wcall ∨ ∃ all, s.pc t = .sspin all ∧ p = .slock all) :
    CvInv ({ s with cv_spinlock := some t }.setPc t p) := by
  have hspin := h.spin
  rw [hfree] at hspin
  rcases hp with ⟨hpc, rfl⟩ | ⟨all, hpc, rfl⟩ <;>
    exact h.plain hpc rfl ⟨rfl, rfl, rfl, rfl⟩ id hspin.acquire (h.chan.stays hpc rfl)
      (h.line.stays hpc (.inl rfl) (.inl rfl)) id rfl rfl

theorem takeChan (hfree : s.chan = none)
    (hp : s.pc t = .wlock ∧ p = .wunspin ∨ ∃ all, s.pc t = .slock all ∧ p = .spop all) :
    CvInv ({ s with chan := some t }.setPc t p) := by
  have hchan := h.chan
  rw [hfree] at hchan
  rcases hp with ⟨hpc, rfl⟩ | ⟨all, hpc, rfl⟩ <;>
    exact h.plain hpc rfl ⟨rfl, rfl, rfl, rfl⟩ id (h.spin.stays hpc rfl) hchan.acquire
      (h.line.stays hpc (.inl rfl) (.inl rfl)) id rfl rfl

theorem dropSpin (hp : s.pc t = .wunspin ∧ p = .wenq ∨ ∃ all, s.pc t = .sunspin all ∧ p = .out) :
    CvInv ({ s with cv_spinlock := none }.setPc t p) := by
  rcases hp with ⟨hpc, rfl⟩ | ⟨all, hpc, rfl⟩
  · exact h.plain hpc rfl ⟨rfl, rfl, rfl, rfl⟩ id (h.spin.leaves hpc rfl) (h.chan.stays hpc rfl)
      (h.line.stays hpc (.inl rfl) (.inl rfl)) (fun _ => trivial) rfl rfl
  · exact h.plain hpc rfl ⟨rfl, rfl, rfl, rfl⟩ (fun _ => trivial) (h.spin.leaves hpc rfl) (h.chan.stays hpc rfl)
      (h.line.stays hpc (.inl rfl) (.inl rfl)) (fun _ => trivial) rfl rfl

/-- `cv_wait` calls `lock_release`: from here on the thread counts as waiting. -/
theorem call (hpc : s.pc t = .wcall)
    (hl : lockNext s.lock (.leave t) = some l) : CvInv ((s.withLock l).setPc t .wrel) := by
  have hself : (l.pc t).leaves = true ∧ l.held t = false := by
    rcases lockNext_cases hl with ⟨u, hu, -⟩ | ⟨u, hu, -, -, rfl⟩ | ⟨u, hu, -⟩
    · cases hu
    · cases hu
      rw [GateState.setPc_pc, update_self]
      exact ⟨rfl, update_self ..⟩
    · cases hu
  exact h.inLock hpc rfl hl (h.stage_at hpc).2 hself ⟨rfl, rfl, rfl, rfl⟩ (.inr rfl) (fun _ => trivial) nofun

theorem release (hpc : s.pc t = .wrel) (hl : lockNext s.lock (.step t) = some l) :
    CvInv ((s.withLock l).setPc t (if l.pc t = GatePc.idle then .wlock else .wrel)) := by
  have hst := h.stage_at hpc
  obtain ⟨hplace, hheld⟩ := (Gate.step_move hl).leaving hst.1
  have hout : l.held t = false := hheld.trans hst.2
  split
  · rename_i hidle
    exact h.inLock hpc rfl hl trivial ⟨hidle, hout⟩ ⟨rfl, rfl, rfl, rfl⟩ (.inl rfl) (fun _ => trivial) nofun
  · rename_i hidle
    exact h.inLock hpc rfl hl trivial ⟨hplace.resolve_left hidle, hout⟩ ⟨rfl, rfl, rfl, rfl⟩ (.inl rfl)
      (fun _ => trivial) nofun

theorem relock (hpc : s.pc t = .woken)
    (hl : lockNext s.lock (.enter t) = some l) : CvInv ((s.withLock l).setPc t .reacq) := by
  have hst := h.stage_at hpc
  have hself : l.pc t ≠ .idle ∧ (l.pc t).leaves = false ∧ l.held t = false := by
    rcases lockNext_cases hl with ⟨u, hu, -, rfl⟩ | ⟨u, hu, -⟩ | ⟨u, hu, -⟩
    · cases hu
      rw [GateState.setPc_pc, update_self]
      exact ⟨by simp, rfl, hst.2⟩
    · cases hu
    · cases hu
  exact h.inLock hpc rfl hl hst.2 hself ⟨rfl, rfl, rfl, rfl⟩ (.inl rfl) (fun _ => trivial) id

theorem reacquire (hpc : s.pc t = .reacq) (hl : lockNext s.lock (.step t) = some l) :
    CvInv ((s.withLock l).setPc t (if l.pc t = GatePc.idle then .wret else .reacq)) := by
  have hst := h.stage_at hpc
  rcases (Gate.step_move hl).entering hst.2.1 with ⟨hidle, hin, -⟩ | ⟨hidle, hleaves, hheld⟩
  · rw [if_pos hidle]
    exact h.inLock hpc rfl hl trivial ⟨hidle, hin⟩ ⟨rfl, rfl, rfl, rfl⟩ (.inl rfl) (fun _ => trivial) id
  · rw [if_neg hidle]
    exact h.inLock hpc rfl hl trivial ⟨hidle, hleaves, hheld.trans hst.2.2⟩ ⟨rfl, rfl, rfl, rfl⟩ (.inl rfl)
      (fun _ => trivial) id

end

variable {all : Bool}

section

variable (h : CvInv s) (hpc : s.pc t = .spop all)
include h hpc

/-- With `cv_spinlock` and the wait channel locked by `t`, whoever waits is asleep: each earlier
place of `cv_wait` is passed with one of the two. -/
theorem asleep_of_waits (hu : (s.pc u).waits = true) : s.pc u = .asleep := by
  have hut : u ≠ t := by
    rintro rfl
    rw [hpc] at hu
    cases hu
  have hspin : (CvPc.spins ∘ s.pc) u ≠ true := fun hs =>
    hut (h.spin.unique hs (by simp [hpc, CvPc.spins]))
  have hchan : (CvPc.chans ∘ s.pc) u ≠ true := fun hc =>
    hut (h.chan.unique hc (by simp [hpc, CvPc.chans]))
  revert hu hspin hchan
  simp only [Function.comp_apply]
  cases s.pc u <;> simp [CvPc.waits, CvPc.spins, CvPc.chans]

theorem none_wakes : ∀ v l, (CvPc.place ∘ s.pc) v = .wakes l → l = [] := by
  intro v l hv
  have heq := h.spin.unique (CvPc.spins_of_wakes hv)
    (show (CvPc.spins ∘ s.pc) t = true by simp [hpc, CvPc.spins])
  rw [heq, Function.comp_apply, hpc] at hv
  cases hv

/-- Those who wait are then just those on the queue. -/
theorem mem_queue_iff : u ∈ s.queue ↔ (s.pc u).waits = true := by
  constructor
  · intro hu
    have hplace := h.line.mem u hu
    simp only [Function.comp_apply] at hplace
    revert hplace
    cases s.pc u <;> simp [CvPc.place, CvPc.waits]
  · intro hu
    exact h.line.asleep_mem (h.none_wakes hpc)
      (by rw [Function.comp_apply, h.asleep_of_waits hpc hu]; rfl)

/-- What is taken off the queue is enough. -/
theorem answered {k : Nat} (hk : k = if all then s.queue.length else 1) :
    Answered all (s.queue.take k) (s.seen t) (s.woke t) := by
  have hsn := h.seen t
  rw [hpc] at hsn
  have hqueue : ∀ u, s.seen t u = true ↔ u ∈ s.queue := by
    intro u
    rw [h.mem_queue_iff hpc, show s.seen t = CvPc.waits ∘ s.pc from hsn]
    rfl
  unfold Answered
  split
  · rename_i hall
    rw [if_pos hall] at hk
    intro u hu
    rw [hk, List.take_length]
    exact .inl ((hqueue u).mp hu)
  · rename_i hall
    rw [if_neg hall] at hk
    rintro ⟨u, hu⟩
    -- somebody is on the queue, so it has a first thread
    have hmem := (hqueue u).mp hu
    cases hq : s.queue with
    | nil =>
      rw [hq] at hmem
      cases hmem
    | cons a rest =>
      refine ⟨a, (hqueue a).mpr (by rw [hq]; exact List.mem_cons_self ..), .inl ?_⟩
      rw [hk]
      exact List.mem_cons_self ..

theorem pop {k : Nat} (hk : k = if all then s.queue.length else 1) :
    CvInv ({ s with queue := s.queue.drop k, chan := none }.setPc t (.srun all (s.queue.take k))) := by
  have hline := h.line
  rw [← List.take_append_drop k s.queue] at hline
  have hqueued : ∀ u, (CvPc.place ∘ s.pc) u ≠ .queued := by
    intro u hu
    have hmem := h.line.queued u hu
    rw [Function.comp_apply, h.asleep_of_waits hpc ((h.mem_queue_iff hpc).mp hmem)] at hu
    cases hu
  exact h.plain hpc rfl ⟨rfl, rfl, rfl, rfl⟩ id (h.spin.stays hpc rfl) (h.chan.leaves hpc rfl)
    (hline.dequeue hqueued (h.none_wakes hpc) (.inl (congrArg CvPc.place hpc))) (fun _ => h.answered hpc hk) rfl rfl

end

/-- One of the threads taken off the queue is made runnable. -/
theorem run (h : CvInv s) {a : Fin n} {rest : List (Fin n)}
    (hpc : s.pc t = .srun all (a :: rest)) : CvInv ((s.wakeUp t a).setPc t (.srun all rest)) := by
  have hst := h.stage t
  have hsn := h.seen t
  rw [hpc] at hst hsn
  have ha : s.pc a = .asleep := CvPc.place_asleep
    ((h.line.target t (a :: rest) (by rw [Function.comp_apply, hpc]; rfl)).2 a (List.mem_cons_self ..)).1
  have hta : t ≠ a := by
    rintro rfl
    rw [ha] at hpc
    cases hpc
  have hpcs : ((s.wakeUp t a).setPc t (.srun all rest)).pc =
      update (update s.pc a .woken) t (.srun all rest) := rfl
  constructor
  case lock => exact h.lock
  case stage =>
    have hsta := h.stage_at ha
    have hfirst : ∀ u, CvStage (update s.pc a .woken u) (s.lock.pc u) (s.lock.held u) :=
      (forall_update_iff s.pc fun u q => CvStage q (s.lock.pc u) (s.lock.held u)).mpr ⟨hsta, fun u _ => h.stage u⟩
    exact (forall_update_iff _ fun u q => CvStage q (s.lock.pc u) (s.lock.held u)).mpr ⟨hst, fun u _ => hfirst u⟩
  case spin => exact h.spin.both hta (by rw [ha]; rfl) (by rw [hpc]; rfl)
  case chan => exact h.chan.both hta (by rw [ha]; rfl) (by rw [hpc]; rfl)
  case line =>
    rw [hpcs, comp_update, comp_update]
    exact h.line.awaken (by rw [Function.comp_apply, hpc]; rfl) fun v l hv hvt =>
      absurd (h.spin.unique (CvPc.spins_of_wakes hv) (by simp [hpc, CvPc.spins])) hvt
  case seen =>
    intro u
    rw [hpcs]
    by_cases hut : u = t
    · subst hut
      rw [update_self]
      show Answered all rest (s.seen u) (update s.woke u _ u)
      rw [update_self]
      exact Answered.wake hsn
    · -- nobody else has the lock
      apply CvSeen.of_not_owns
      rw [update_of_ne hut]
      by_cases hua : u = a
      · subst hua
        rw [update_self]
        rfl
      · rw [update_of_ne hua]
        by_contra hu
        exact hut (h.owns_unique (by simpa using hu) (by rw [hpc]; rfl))
  case awake =>
    intro u hu
    rw [hpcs] at hu
    show update s.wakened a true u = true
    by_cases hua : u = a
    · subst hua
      exact update_self ..
    · rw [update_of_ne hua]
      by_cases hut : u = t
      · subst hut
        rw [update_self] at hu
        cases hu
      · rw [update_of_ne hut, update_of_ne hua] at hu
        exact h.awake u hu

/-- **Every step keeps the invariant.** -/
theorem step (h : CvInv s) (hs : CvMove s t s') : CvInv s' := by
  cases hs with
  | client a l ht hpc hdisc hl => exact h.client ht hpc hdisc hl
  | wait hready => exact h.wait hready
  | signal all hready => exact h.signal all hready
  | spin p hfree hp => exact h.takeSpin hfree hp
  | call l hpc hl => exact h.call hpc hl
  | release l hpc hl => exact h.release hpc hl
  | chan p hfree hp => exact h.takeChan hfree hp
  | unspin p hp => exact h.dropSpin hp
  | enqueue hpc =>
    exact h.plain hpc rfl ⟨rfl, rfl, rfl, rfl⟩ id (h.spin.stays hpc rfl) (h.chan.stays hpc rfl)
      (h.line.enqueue (.inl (congrArg CvPc.place hpc))) id rfl rfl
  | fallAsleep hpc =>
    exact h.plain hpc rfl ⟨rfl, rfl, rfl, rfl⟩ id (h.spin.stays hpc rfl) (h.chan.leaves hpc rfl)
      (h.line.fallAsleep (congrArg CvPc.place hpc)) id rfl rfl
  | relock l hpc hl => exact h.relock hpc hl
  | reacquire l hpc hl => exact h.reacquire hpc hl
  | returns hpc =>
    exact h.plain hpc rfl ⟨rfl, rfl, rfl, rfl⟩ (fun _ => trivial) (h.spin.stays hpc rfl) (h.chan.stays hpc rfl)
      (h.line.stays hpc (.inl rfl) (.inl rfl)) id rfl rfl
  | pop all k hpc hk => exact h.pop hpc hk
  | run all a rest hpc => exact h.run hpc
  | ran all hpc =>
    exact h.plain hpc rfl ⟨rfl, rfl, rfl, rfl⟩ id (h.spin.stays hpc rfl) (h.chan.stays hpc rfl)
      (h.line.stays hpc (.inr rfl) (.inl rfl)) id rfl rfl

theorem create (owner : Option (Fin n)) : CvInv (cv_create owner) where
  lock := LockInv.create owner
  stage := fun _ => trivial
  spin := fun t => by simp [cv_create, CvPc.spins]
  chan := fun t => by simp [cv_create, CvPc.chans]
  line := QueueInv.start
  seen := fun _ => trivial
  awake := fun _ ht => nomatch ht

theorem ok (h : CvInv s) : CvOk s where
  signal := by
    intro t hpc hex
    have hsn := h.seen t
    rw [hpc] at hsn
    obtain ⟨u, hu, hmem | hwoke⟩ := hsn hex
    · cases hmem
    · exact ⟨u, hu, hwoke⟩
  broadcast := by
    intro t hpc u hu
    have hsn := h.seen t
    rw [hpc] at hsn
    rcases hsn u hu with hmem | hwoke
    · cases hmem
    · exact hwoke
  wait := by
    intro t hpc
    have hst := h.stage t
    rw [hpc] at hst
    exact ⟨h.awake t (by rw [hpc]; rfl), hst.2, (h.lock.inside t (.inl hst.2)).2⟩

end CvInv

/-- **No signal is lost.** In every state of every run, for every number of threads: a call of
`cv_signal` that is about to return has woken one of the threads that were waiting when it was
called, a call of `cv_broadcast` all of them, and a call of `cv_wait` has been woken and has the
lock. -/
theorem cv_correct {owner : Option (Fin n)} {s : CvState n} (h : (cvSystem n owner).Reachable s) :
    CvOk s := by
  have hinv : CvInv s := by
    refine System.invariant (I := CvInv) ?_ ?_ h
    · rintro s rfl
      exact CvInv.create owner
    · intro s a s' hinv hs
      obtain ⟨t, hmove⟩ := cvNext_move hs
      exact hinv.step hmove
  exact hinv.ok

/-- Thread 0 has released the lock in `cv_wait` and is not on the queue yet when thread 1
signals. -/
def earlySignal {n : Nat} [NeZero n] : List (CvAct n) :=
  [.lock (.enter 0), .lock (.step 0), .lock (.step 0), .wait 0, .step 0, .step 0,
    .step 0, .step 0, .step 0, .step 0, .step 0, .step 0,
    .lock (.enter 1), .lock (.step 1), .lock (.step 1), .signal false 1,
    .step 0, .step 0, .step 1, .step 0, .step 0, .step 1, .step 1, .step 1, .step 1]

theorem cv_correct_two :
    ∃ s : CvState 2, (cvSystem 2 none).Reachable s ∧ s.pc 1 = .sunspin false ∧ s.pc 0 = .woken ∧
      s.seen 1 0 = true ∧ CvOk s := by
  obtain ⟨s, hreach, h1, h0, hseen⟩ : ∃ s, (cvSystem 2 none).Reachable s ∧ s.pc 1 = .sunspin false ∧
      s.pc 0 = .woken ∧ s.seen 1 0 = true := System.exists_reachable (s := cv_create none) (by rfl) earlySignal (by decide)
  exact ⟨s, hreach, h1, h0, hseen, cv_correct hreach⟩

end OS161
