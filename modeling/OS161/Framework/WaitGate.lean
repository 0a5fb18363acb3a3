import OS161.Framework.TransitionSystem
import OS161.Framework.WaitQueue

/-! # Gates: a guarded resource with a wait channel

A resource is guarded by a spinlock. A thread that *enters* takes the spinlock and tests the
resource; if it is not ready, the thread goes to sleep on a wait channel, which has a spinlock
of its own, and tests again after somebody has woken it. A thread that *leaves* changes the
resource and wakes the first thread asleep.

Threads are interleaved between any two operations on one of the spinlocks or on the queue of
the wait channel. Other threads can get in between the wakeup and the second test.

The result for every gate is `GateInv.balance`: no wakeup is lost.
-/

namespace Framework

open Function

variable {ρ ι : Type}

/-- What a gate does with its resource. -/
structure Gate (ρ ι : Type) where
  /-- The test of a thread that wants to enter. -/
  ready : ρ → Bool
  /-- Its effect once the test has succeeded; `none` if an assertion fails. -/
  take : ι → ρ → Option ρ
  /-- The effect of leaving; `none` if an assertion fails. -/
  give : ι → ρ → Option ρ

/-- Where a thread is. -/
inductive GatePc (ι : Type) where
  | idle
  /-- About to take the spinlock, for the first time or after a wakeup. -/
  | enter (woken : Bool)
  /-- With the spinlock, about to test. -/
  | test (woken : Bool)
  /-- With both locks: not ready, about to release the spinlock. -/
  | unlock
  /-- With the lock of the wait channel, about to queue up. -/
  | sleep
  /-- On the queue, about to unlock the wait channel. -/
  | queued
  | asleep
  /-- About to take the spinlock in order to leave. -/
  | leave
  | give
  /-- About to lock the wait channel. -/
  | wake
  /-- With both locks, about to take the first thread off the queue. -/
  | pop
  /-- About to make that thread runnable. -/
  | run (target : Option ι)
  /-- About to release the spinlock. -/
  | done
  deriving DecidableEq, Repr

namespace GatePc

/-- The thread holds the spinlock. -/
def spins : GatePc ι → Bool
  | test _ | unlock | give | wake | pop | run _ | done => true
  | _ => false

/-- The thread holds the lock of the wait channel. -/
def chans : GatePc ι → Bool
  | unlock | sleep | queued | pop => true
  | _ => false

/-- The test has failed, and nobody has woken the thread since. -/
def waits : GatePc ι → Bool
  | unlock | sleep | queued | asleep => true
  | _ => false

/-- The thread has been woken and has not yet tested again. -/
def woken : GatePc ι → Bool
  | enter w | test w => w
  | _ => false

/-- The thread is to test again, or is yet to wake another one that will. -/
def credit : GatePc ι → Bool
  | enter w | test w => w
  | wake | pop | run (some _) => true
  | _ => false

/-- The thread has changed the resource, in a call to leave that has not returned. -/
def gave : GatePc ι → Bool
  | wake | pop | run _ | done => true
  | _ => false

/-- The thread is on its way out. -/
def leaves : GatePc ι → Bool
  | leave | give | wake | pop | run _ | done => true
  | _ => false

end GatePc

structure GateState (ρ ι : Type) where
  res : ρ
  /-- Who holds the spinlock. -/
  spin : Option ι
  /-- Who holds the lock of the wait channel. -/
  chan : Option ι
  queue : List ι
  pc : ι → GatePc ι
  /-- The thread has entered and has not called to leave since. -/
  held : ι → Bool
  /-- How many calls to enter have been completed. -/
  entered : Nat
  /-- How many calls to leave have been completed. -/
  left : Nat

inductive GateAct (ι : Type) where
  | enter (t : ι)
  | leave (t : ι)
  | step (t : ι)
  deriving DecidableEq, Repr

namespace GateState

variable [DecidableEq ι]

/-- Nobody has called anything yet. -/
def start (r : ρ) : GateState ρ ι where
  res := r
  spin := none
  chan := none
  queue := []
  pc := fun _ => .idle
  held := fun _ => false
  entered := 0
  left := 0

def setPc (s : GateState ρ ι) (t : ι) (pc : GatePc ι) : GateState ρ ι :=
  { s with pc := update s.pc t pc }

def setHeld (s : GateState ρ ι) (t : ι) (b : Bool) : GateState ρ ι :=
  { s with held := update s.held t b }

/-- The end of a call to enter. -/
def pass (s : GateState ρ ι) (t : ι) (r : ρ) : GateState ρ ι :=
  ({ s with res := r, spin := none, entered := s.entered + 1 }.setHeld t true).setPc t .idle

@[simp] theorem setPc_res (s : GateState ρ ι) (t : ι) (pc : GatePc ι) : (s.setPc t pc).res = s.res := rfl
@[simp] theorem setPc_spin (s : GateState ρ ι) (t : ι) (pc : GatePc ι) :
    (s.setPc t pc).spin = s.spin := rfl
@[simp] theorem setPc_chan (s : GateState ρ ι) (t : ι) (pc : GatePc ι) :
    (s.setPc t pc).chan = s.chan := rfl
@[simp] theorem setPc_queue (s : GateState ρ ι) (t : ι) (pc : GatePc ι) :
    (s.setPc t pc).queue = s.queue := rfl
@[simp] theorem setPc_pc (s : GateState ρ ι) (t : ι) (pc : GatePc ι) :
    (s.setPc t pc).pc = update s.pc t pc := rfl
end GateState

/-! ## Steps -/

section Steps

variable [DecidableEq ι]

/-- The next step of a thread that is in one of the two calls. -/
def Gate.step (g : Gate ρ ι) (s : GateState ρ ι) (t : ι) : Option (GateState ρ ι) :=
  match s.pc t with
  | .idle => none
  | .enter w => if s.spin = none then some ({ s with spin := some t }.setPc t (.test w)) else none
  | .test _ =>
    -- the spinlock covers the test and what follows if it succeeds
    if g.ready s.res then (g.take t s.res).map (s.pass t)
    else if s.chan = none then some ({ s with chan := some t }.setPc t .unlock)
    else none
  | .unlock => some ({ s with spin := none }.setPc t .sleep)
  | .sleep => some ({ s with queue := s.queue ++ [t] }.setPc t .queued)
  | .queued => some ({ s with chan := none }.setPc t .asleep)
  | .asleep => none
  | .leave => if s.spin = none then some ({ s with spin := some t }.setPc t .give) else none
  | .give => (g.give t s.res).map fun r => { s with res := r }.setPc t .wake
  | .wake => if s.chan = none then some ({ s with chan := some t }.setPc t .pop) else none
  | .pop =>
    match s.queue with
    | [] => some ({ s with chan := none }.setPc t (.run none))
    | a :: q => some ({ s with queue := q, chan := none }.setPc t (.run (some a)))
  | .run none => some (s.setPc t .done)
  | .run (some a) => some ((s.setPc a (.enter true)).setPc t .done)
  | .done => some ({ s with spin := none, left := s.left + 1 }.setPc t .idle)

/-- All steps, with calls at any time. -/
def Gate.next (g : Gate ρ ι) (s : GateState ρ ι) : GateAct ι → Option (GateState ρ ι)
  | .enter t => if s.pc t = .idle then some (s.setPc t (.enter false)) else none
  | .leave t => if s.pc t = .idle then some ((s.setHeld t false).setPc t .leave) else none
  | .step t => g.step s t

/-- What a step of thread `t` can be. -/
inductive GateMove (g : Gate ρ ι) (s : GateState ρ ι) (t : ι) : GateState ρ ι → Prop where
  | lock (p : GatePc ι) (hfree : s.spin = none)
      (hp : s.pc t = .leave ∧ p = .give ∨ ∃ w, s.pc t = .enter w ∧ p = .test w) :
      GateMove g s t ({ s with spin := some t }.setPc t p)
  | pass (w : Bool) (r : ρ) (hpc : s.pc t = .test w) (hready : g.ready s.res = true)
      (htake : g.take t s.res = some r) : GateMove g s t (s.pass t r)
  | fail (w : Bool) (hpc : s.pc t = .test w) (hready : g.ready s.res = false) (hfree : s.chan = none) :
      GateMove g s t ({ s with chan := some t }.setPc t .unlock)
  | unlock (hpc : s.pc t = .unlock) : GateMove g s t ({ s with spin := none }.setPc t .sleep)
  | enqueue (hpc : s.pc t = .sleep) :
      GateMove g s t ({ s with queue := s.queue ++ [t] }.setPc t .queued)
  | fallAsleep (hpc : s.pc t = .queued) : GateMove g s t ({ s with chan := none }.setPc t .asleep)
  | give (r : ρ) (hpc : s.pc t = .give) (hgive : g.give t s.res = some r) :
      GateMove g s t ({ s with res := r }.setPc t .wake)
  | wake (hpc : s.pc t = .wake) (hfree : s.chan = none) :
      GateMove g s t ({ s with chan := some t }.setPc t .pop)
  | popNone (hpc : s.pc t = .pop) (hqueue : s.queue = []) :
      GateMove g s t ({ s with chan := none }.setPc t (.run none))
  | popSome (a : ι) (rest : List ι) (hpc : s.pc t = .pop) (hqueue : s.queue = a :: rest) :
      GateMove g s t ({ s with queue := rest, chan := none }.setPc t (.run (some a)))
  | runNone (hpc : s.pc t = .run none) : GateMove g s t (s.setPc t .done)
  | runSome (a : ι) (hpc : s.pc t = .run (some a)) :
      GateMove g s t ((s.setPc a (.enter true)).setPc t .done)
  | done (hpc : s.pc t = .done) :
      GateMove g s t ({ s with spin := none, left := s.left + 1 }.setPc t .idle)

theorem Gate.step_move {g : Gate ρ ι} {s s' : GateState ρ ι} {t : ι} (hs : g.step s t = some s') :
    GateMove g s t s' := by
  unfold Gate.step at hs
  split at hs
  case h_1 => cases hs
  case h_2 w hpc =>
    split at hs
    · rename_i hfree
      cases hs
      exact .lock _ hfree (.inr ⟨w, hpc, rfl⟩)
    · cases hs
  case h_3 w hpc =>
    split at hs
    · rename_i hready
      obtain ⟨r, htake, rfl⟩ := Option.map_eq_some_iff.mp hs
      exact .pass w r hpc hready htake
    · rename_i hready
      split at hs
      · rename_i hfree
        cases hs
        exact .fail w hpc (by simpa using hready) hfree
      · cases hs
  case h_4 hpc =>
    cases hs
    exact .unlock hpc
  case h_5 hpc =>
    cases hs
    exact .enqueue hpc
  case h_6 hpc =>
    cases hs
    exact .fallAsleep hpc
  case h_7 => cases hs
  case h_8 hpc =>
    split at hs
    · rename_i hfree
      cases hs
      exact .lock _ hfree (.inl ⟨hpc, rfl⟩)
    · cases hs
  case h_9 hpc =>
    obtain ⟨r, hgive, rfl⟩ := Option.map_eq_some_iff.mp hs
    exact .give r hpc hgive
  case h_10 hpc =>
    split at hs
    · rename_i hfree
      cases hs
      exact .wake hpc hfree
    · cases hs
  case h_11 hpc =>
    split at hs
    · rename_i hempty
      cases hs
      exact .popNone hpc hempty
    · rename_i a rest hqueue
      cases hs
      exact .popSome a rest hpc hqueue
  case h_12 hpc =>
    cases hs
    exact .runNone hpc
  case h_13 a hpc =>
    cases hs
    exact .runSome a hpc
  case h_14 hpc =>
    cases hs
    exact .done hpc

/-- What a call can be. -/
theorem Gate.next_cases {g : Gate ρ ι} {s s' : GateState ρ ι} {a : GateAct ι}
    (hs : g.next s a = some s') :
    (∃ t, a = .enter t ∧ s.pc t = .idle ∧ s' = s.setPc t (.enter false)) ∨
    (∃ t, a = .leave t ∧ s.pc t = .idle ∧ s' = (s.setHeld t false).setPc t .leave) ∨
    ∃ t, a = .step t ∧ GateMove g s t s' := by
  unfold Gate.next at hs
  split at hs
  · rename_i t
    split at hs
    · rename_i hidle
      exact .inl ⟨t, rfl, hidle, (Option.some.inj hs).symm⟩
    · cases hs
  · rename_i t
    split at hs
    · rename_i hidle
      exact .inr (.inl ⟨t, rfl, hidle, (Option.some.inj hs).symm⟩)
    · cases hs
  · rename_i t
    exact .inr (.inr ⟨t, rfl, Gate.step_move hs⟩)

end Steps

/-! ## Counting threads -/

section Count

variable [Fintype ι] [DecidableEq ι]

/-- How many threads `f` holds of. -/
def countOf (f : ι → Bool) : Nat := (Finset.univ.filter fun t => f t = true).card

theorem countOf_update_true {f : ι → Bool} {t : ι} (ht : f t = false) :
    countOf (update f t true) = countOf f + 1 := by
  have hset : (Finset.univ.filter fun u => update f t true u = true) =
      insert t (Finset.univ.filter fun u => f u = true) := by
    ext u
    by_cases hu : u = t <;> simp [hu, update_apply]
  unfold countOf
  rw [hset, Finset.card_insert_of_notMem (by simp [ht])]

theorem countOf_update_false {f : ι → Bool} {t : ι} (ht : f t = true) :
    countOf (update f t false) + 1 = countOf f := by
  have hback : update (update f t false) t true = f := by
    rw [update_idem, ← ht, update_eq_self]
  have hcount := countOf_update_true (f := update f t false) (t := t) (by simp)
  rw [hback] at hcount
  exact hcount.symm

/-- Changing one thread changes the count by at most one. -/
theorem countOf_le_update (f : ι → Bool) (t : ι) (b : Bool) :
    countOf f ≤ countOf (update f t b) + 1 := by
  by_cases hb : b = f t
  · rw [hb, update_eq_self]
    exact Nat.le_succ _
  · cases b
    · exact (countOf_update_false (by simpa using hb)).ge
    · rw [countOf_update_true (by simpa using hb)]
      omega

end Count

/-! ## The invariant -/

/-- `avail` says how many threads could enter one after the other. -/
structure GateLaws (g : Gate ρ ι) (avail : ρ → Nat) : Prop where
  ready : ∀ r, g.ready r = false → avail r = 0
  take : ∀ t r r', g.ready r = true → g.take t r = some r' → avail r' + 1 ≤ avail r
  give : ∀ t r r', g.give t r = some r' → avail r' ≤ avail r + 1

/-- What the place of a thread means for the queue. -/
def GatePc.place : GatePc ι → Place ι
  | queued => .queued
  | asleep => .asleep
  | run (some a) => .wakes [a]
  | _ => .off

section Inv

variable [Fintype ι] [DecidableEq ι]

structure GateInv (avail : ρ → Nat) (s : GateState ρ ι) : Prop where
  spin : HeldBy s.spin (GatePc.spins ∘ s.pc)
  chan : HeldBy s.chan (GatePc.chans ∘ s.pc)
  line : QueueInv s.queue (GatePc.place ∘ s.pc)
  /-- While somebody waits, there is a thread on its way for each of those that could enter. -/
  balance : ∀ t, (s.pc t).waits = true → avail s.res ≤ countOf (GatePc.credit ∘ s.pc)

variable {avail : ρ → Nat} {s s' : GateState ρ ι} {t : ι} {p : GatePc ι}

omit [DecidableEq ι] in
theorem GateInv.start (avail : ρ → Nat) (r : ρ) : GateInv avail (GateState.start r : GateState ρ ι) where
  spin := fun t => by simp [GateState.start, GatePc.spins]
  chan := fun t => by simp [GateState.start, GatePc.chans]
  line := QueueInv.start
  balance := fun t ht => nomatch ht

/-- A step of one thread, put together from what it does to the locks, the queue and the balance. -/
theorem GateInv.move (hpc : s'.pc = update s.pc t p)
    (hspin : HeldBy s'.spin (update (GatePc.spins ∘ s.pc) t p.spins))
    (hchan : HeldBy s'.chan (update (GatePc.chans ∘ s.pc) t p.chans))
    (hline : QueueInv s'.queue (update (GatePc.place ∘ s.pc) t p.place))
    (hbalance : ∀ u, (update s.pc t p u).waits = true →
      avail s'.res ≤ countOf (update (GatePc.credit ∘ s.pc) t p.credit)) : GateInv avail s' where
  spin := by rwa [hpc, comp_update]
  chan := by rwa [hpc, comp_update]
  line := by rwa [hpc, comp_update]
  balance := by
    intro u hu
    rw [hpc] at hu
    rw [hpc, comp_update]
    exact hbalance u hu

/-- A step that changes neither the resource nor the credit, of a thread that waits before and after
it or neither before nor after. -/
theorem GateInv.quiet (h : GateInv avail s) {q : GatePc ι} (hq : s.pc t = q)
    (hpc : s'.pc = update s.pc t p) (hres : s'.res = s.res)
    (hspin : HeldBy s'.spin (update (GatePc.spins ∘ s.pc) t p.spins))
    (hchan : HeldBy s'.chan (update (GatePc.chans ∘ s.pc) t p.chans))
    (hline : QueueInv s'.queue (update (GatePc.place ∘ s.pc) t p.place))
    (hcredit : p.credit = q.credit) (hwaits : p.waits = q.waits) : GateInv avail s' := by
  apply GateInv.move hpc hspin hchan hline
  intro u hu
  have hsame : update (GatePc.credit ∘ s.pc) t p.credit = GatePc.credit ∘ s.pc := by
    rw [hcredit, ← hq]
    exact update_eq_self t (GatePc.credit ∘ s.pc)
  rw [hsame, hres]
  by_cases hut : u = t
  · subst hut
    rw [update_self, hwaits, ← hq] at hu
    exact h.balance u hu
  · rw [update_of_ne hut] at hu
    exact h.balance u hu

/-- The other threads that wait have waited before. -/
theorem GateInv.balance_of (h : GateInv avail s) {r : ρ} {n : Nat} (hwaits : p.waits = false)
    (hn : ∀ m, avail s.res ≤ m → m = countOf (GatePc.credit ∘ s.pc) → avail r ≤ n) :
    ∀ u, (update s.pc t p u).waits = true → avail r ≤ n := by
  intro u hu
  have hut : u ≠ t := by
    rintro rfl
    rw [update_self, hwaits] at hu
    cases hu
  rw [update_of_ne hut] at hu
  exact hn _ (h.balance u hu) rfl

/-! ### Steps -/

section Step

variable {g : Gate ρ ι}

/-- A call of one of the two operations. -/
theorem GateInv.call (h : GateInv avail s) (hidle : s.pc t = .idle) (hp : p = .enter false ∨ p = .leave)
    (b : ι → Bool) : GateInv avail ({ s with held := b }.setPc t p) := by
  rcases hp with rfl | rfl <;>
    exact h.quiet hidle rfl rfl (h.spin.stays hidle rfl) (h.chan.stays hidle rfl)
      (h.line.stays hidle (.inl rfl) (.inl rfl)) rfl rfl

/-- Taking the spinlock. -/
theorem GateInv.lock (h : GateInv avail s) (hfree : s.spin = none)
    (hp : s.pc t = .leave ∧ p = .give ∨ ∃ w, s.pc t = .enter w ∧ p = .test w) :
    GateInv avail ({ s with spin := some t }.setPc t p) := by
  have hspin := h.spin
  rw [hfree] at hspin
  rcases hp with ⟨hpc, rfl⟩ | ⟨w, hpc, rfl⟩ <;>
    exact h.quiet hpc rfl rfl hspin.acquire (h.chan.stays hpc rfl) (h.line.stays hpc (.inl rfl) (.inl rfl))
      rfl rfl

section

variable (h : GateInv avail s) (hlaws : GateLaws g avail)
include h hlaws

/-- The test succeeds. -/
theorem GateInv.pass {w : Bool} {r : ρ}
    (hpc : s.pc t = .test w) (hready : g.ready s.res = true) (htake : g.take t s.res = some r) :
    GateInv avail (s.pass t r) := by
  apply GateInv.move rfl
  · exact h.spin.leaves hpc rfl
  · exact h.chan.stays hpc rfl
  · exact h.line.stays hpc (.inl rfl) (.inl rfl)
  · refine h.balance_of rfl fun m hm hcount => ?_
    have hone := hlaws.take t s.res r hready htake
    have hless := countOf_le_update (GatePc.credit ∘ s.pc) t false
    have hle : avail r ≤ countOf (update (GatePc.credit ∘ s.pc) t false) := by
      omega
    exact hle

/-- The test fails: the thread is now bound to sleep. -/
theorem GateInv.fail {w : Bool}
    (hpc : s.pc t = .test w) (hready : g.ready s.res = false) (hfree : s.chan = none) :
    GateInv avail ({ s with chan := some t }.setPc t .unlock) := by
  have hchan := h.chan
  rw [hfree] at hchan
  apply GateInv.move rfl
  · exact h.spin.stays hpc rfl
  · exact hchan.acquire
  · exact h.line.stays hpc (.inl rfl) (.inl rfl)
  · intro u _
    show avail s.res ≤ _
    rw [hlaws.ready s.res hready]
    exact Nat.zero_le _

/-- The resource changes, and the thread is going to wake somebody. -/
theorem GateInv.give (hpc : s.pc t = .give) {r : ρ}
    (hgive : g.give t s.res = some r) : GateInv avail ({ s with res := r }.setPc t .wake) := by
  apply GateInv.move rfl
  · exact h.spin.stays hpc rfl
  · exact h.chan.stays hpc rfl
  · exact h.line.stays hpc (.inl rfl) (.inl rfl)
  · refine h.balance_of rfl fun m hm hcount => ?_
    have hmore := hlaws.give t s.res r hgive
    have hone := countOf_update_true (f := GatePc.credit ∘ s.pc) (t := t) (by simp [hpc, GatePc.credit])
    have hle : avail r ≤ countOf (update (GatePc.credit ∘ s.pc) t true) := by
      omega
    exact hle

end

omit [Fintype ι] [DecidableEq ι] in
/-- Only a thread that holds the spinlock wakes others. -/
theorem GatePc.spins_of_wakes {p : GatePc ι} {l : List ι} (h : p.place = .wakes l) : p.spins = true := by
  revert h
  cases p with
  | run target => exact fun _ => rfl
  | _ => exact fun h => nomatch h

omit [DecidableEq ι] in
/-- Whoever waits and holds no lock is asleep. -/
theorem GateInv.asleep_of_waits (h : GateInv avail s) (hpc : s.pc t = .pop) {u : ι}
    (hu : (s.pc u).waits = true) : s.pc u = .asleep := by
  by_contra hne
  have hholds : (GatePc.chans ∘ s.pc) u = true := by
    show (s.pc u).chans = true
    revert hu hne
    cases s.pc u <;> simp [GatePc.waits, GatePc.chans]
  have heq := h.chan.unique hholds (show (GatePc.chans ∘ s.pc) t = true by simp [hpc, GatePc.chans])
  rw [heq, hpc] at hu
  cases hu

omit [DecidableEq ι] in
/-- Nobody else is in the middle of waking somebody. -/
theorem GateInv.none_wakes (h : GateInv avail s) (hpc : s.pc t = .pop) :
    ∀ v l, (GatePc.place ∘ s.pc) v = .wakes l → l = [] := by
  intro v l hv
  have heq := h.spin.unique (GatePc.spins_of_wakes hv)
    (show (GatePc.spins ∘ s.pc) t = true by simp [hpc, GatePc.spins])
  rw [heq, Function.comp_apply, hpc] at hv
  cases hv

omit [DecidableEq ι] in
/-- Every waiting thread is then on the queue. -/
theorem GateInv.on_queue (h : GateInv avail s) (hpc : s.pc t = .pop) {u : ι}
    (hu : (s.pc u).waits = true) : u ∈ s.queue :=
  h.line.asleep_mem (h.none_wakes hpc) (by rw [Function.comp_apply, h.asleep_of_waits hpc hu]; rfl)

/-- The queue is empty, and so nobody waits. -/
theorem GateInv.popNone (h : GateInv avail s) (hpc : s.pc t = .pop) (hempty : s.queue = []) :
    GateInv avail ({ s with chan := none }.setPc t (.run none)) := by
  apply GateInv.move rfl
  · exact h.spin.stays hpc rfl
  · exact h.chan.leaves hpc rfl
  · exact h.line.stays hpc (.inl rfl) (.inl rfl)
  · intro u hu
    have hut : u ≠ t := by
      rintro rfl
      rw [update_self] at hu
      cases hu
    rw [update_of_ne hut] at hu
    have hmem := h.on_queue hpc hu
    rw [hempty] at hmem
    cases hmem

/-- The first thread comes off the queue. -/
theorem GateInv.popSome (h : GateInv avail s) (hpc : s.pc t = .pop) {a : ι} {rest : List ι}
    (hqueue : s.queue = a :: rest) :
    GateInv avail ({ s with queue := rest, chan := none }.setPc t (.run (some a))) := by
  have hline : QueueInv ([a] ++ rest) (GatePc.place ∘ s.pc) := by
    rw [List.singleton_append, ← hqueue]
    exact h.line
  have hqueued : ∀ u, (GatePc.place ∘ s.pc) u ≠ .queued := by
    intro u hu
    have hwaits : (s.pc u).waits = true := by
      revert hu
      show (s.pc u).place = .queued → _
      cases s.pc u with
      | run target => cases target <;> simp [GatePc.place]
      | _ => simp [GatePc.place, GatePc.waits]
    rw [Function.comp_apply, h.asleep_of_waits hpc hwaits] at hu
    cases hu
  exact h.quiet hpc rfl rfl (h.spin.stays hpc rfl) (h.chan.leaves hpc rfl)
    (hline.dequeue hqueued (h.none_wakes hpc) (.inl (congrArg GatePc.place hpc))) rfl rfl

omit [Fintype ι] [DecidableEq ι] in
theorem GatePc.place_asleep {p : GatePc ι} (h : p.place = .asleep) : p = .asleep := by
  revert h
  cases p with
  | run target => cases target <;> exact fun h => nomatch h
  | asleep => exact fun _ => rfl
  | _ => exact fun h => nomatch h

omit [DecidableEq ι] in
/-- The thread to be woken is asleep. -/
theorem GateInv.target_asleep (h : GateInv avail s) {a : ι} (hpc : s.pc t = .run (some a)) :
    s.pc a = .asleep :=
  GatePc.place_asleep
    ((h.line.target t [a] (by rw [Function.comp_apply, hpc]; rfl)).2 a (List.mem_singleton_self a)).1

/-- The credit passes from the waking thread to the woken one. -/
theorem GateInv.runSome (h : GateInv avail s) {a : ι} (hpc : s.pc t = .run (some a)) :
    GateInv avail ((s.setPc a (.enter true)).setPc t .done) := by
  have ha : s.pc a = .asleep := h.target_asleep hpc
  have hta : t ≠ a := by
    rintro rfl
    rw [ha] at hpc
    cases hpc
  constructor
  case spin => exact h.spin.both hta (by rw [ha]; rfl) (by rw [hpc]; rfl)
  case chan => exact h.chan.both hta (by rw [ha]; rfl) (by rw [hpc]; rfl)
  case line =>
    show QueueInv s.queue (GatePc.place ∘ update (update s.pc a _) t _)
    rw [comp_update, comp_update]
    have hawake := h.line.awaken (t := t) (a := a) (by rw [Function.comp_apply, hpc]; rfl)
      (fun v l hv hvt => absurd (h.spin.unique (GatePc.spins_of_wakes hv) (by simp [hpc, GatePc.spins])) hvt)
    have hstop := hawake.keep (t := t) (.inr (update_self ..)) (.inl rfl)
    rwa [update_idem] at hstop
  case balance =>
    intro u hu
    have hbefore : (s.pc u).waits = true := by
      have hu' : (update (update s.pc a (.enter true)) t .done u).waits = true := hu
      by_cases hut : u = t
      · subst hut
        rw [update_self] at hu'
        cases hu'
      · rw [update_of_ne hut] at hu'
        by_cases hua : u = a
        · subst hua
          rw [update_self] at hu'
          cases hu'
        · rwa [update_of_ne hua] at hu'
    have hle := h.balance u hbefore
    show avail s.res ≤ countOf (GatePc.credit ∘ update (update s.pc a _) t _)
    rw [comp_update, comp_update]
    have hgain := countOf_update_true (f := GatePc.credit ∘ s.pc) (t := a) (by simp [ha, GatePc.credit])
    have hloss := countOf_update_false (f := update (GatePc.credit ∘ s.pc) a true) (t := t)
      (by rw [update_of_ne hta]; simp [hpc, GatePc.credit])
    have hsum : avail s.res ≤
        countOf (update (update (GatePc.credit ∘ s.pc) a true) t false) := by
      omega
    exact hsum

/-- **Every step keeps the invariant.** -/
theorem GateInv.step (h : GateInv avail s) (hlaws : GateLaws g avail) (hs : GateMove g s t s') :
    GateInv avail s' := by
  cases hs with
  | lock p hfree hp => exact h.lock hfree hp
  | pass w r hpc hready htake => exact h.pass hlaws hpc hready htake
  | fail w hpc hready hfree => exact h.fail hlaws hpc hready hfree
  | unlock hpc | done hpc =>
    exact h.quiet hpc rfl rfl (h.spin.leaves hpc rfl) (h.chan.stays hpc rfl)
      (h.line.stays hpc (.inl rfl) (.inl rfl)) rfl rfl
  | enqueue hpc =>
    exact h.quiet hpc rfl rfl (h.spin.stays hpc rfl) (h.chan.stays hpc rfl)
      (h.line.enqueue (.inl (congrArg GatePc.place hpc))) rfl rfl
  | fallAsleep hpc =>
    exact h.quiet hpc rfl rfl (h.spin.stays hpc rfl) (h.chan.leaves hpc rfl)
      (h.line.fallAsleep (congrArg GatePc.place hpc)) rfl rfl
  | give r hpc hgive => exact h.give hlaws hpc hgive
  | wake hpc hfree =>
    have hchan := h.chan
    rw [hfree] at hchan
    exact h.quiet hpc rfl rfl (h.spin.stays hpc rfl) hchan.acquire (h.line.stays hpc (.inl rfl) (.inl rfl))
      rfl rfl
  | popNone hpc hqueue => exact h.popNone hpc hqueue
  | popSome a rest hpc hqueue => exact h.popSome hpc hqueue
  | runNone hpc =>
    exact h.quiet hpc rfl rfl (h.spin.stays hpc rfl) (h.chan.stays hpc rfl)
      (h.line.stays hpc (.inl rfl) (.inl rfl)) rfl rfl
  | runSome a hpc => exact h.runSome hpc

theorem GateInv.next (h : GateInv avail s) (hlaws : GateLaws g avail) {a : GateAct ι}
    (hs : g.next s a = some s') : GateInv avail s' := by
  rcases Gate.next_cases hs with ⟨t, -, hidle, rfl⟩ | ⟨t, -, hidle, rfl⟩ | ⟨t, -, hmove⟩
  · exact h.call hidle (.inl rfl) s.held
  · exact h.call hidle (.inr rfl) _
  · exact h.step hlaws hmove

/-- What a step does to the other threads: at most one is woken. -/
theorem GateMove.others (hs : GateMove g s t s') (h : GateInv avail s) {u : ι} (hut : u ≠ t) :
    s'.held u = s.held u ∧ (s'.pc u = s.pc u ∨ s.pc u = .asleep ∧ s'.pc u = .enter true) := by
  cases hs with
  | pass w r hpc hready htake =>
    exact ⟨update_of_ne hut .., .inl (update_of_ne hut ..)⟩
  | runSome a hpc =>
    refine ⟨rfl, ?_⟩
    rw [GateState.setPc_pc, update_of_ne hut, GateState.setPc_pc]
    by_cases hua : u = a
    · subst hua
      exact .inr ⟨h.target_asleep hpc, update_self ..⟩
    · exact .inl (update_of_ne hua ..)
  | _ => exact ⟨rfl, .inl (update_of_ne hut ..)⟩

omit [Fintype ι] in
/-- A thread on its way in either gets in or stays on its way. -/
theorem GateMove.entering (hs : GateMove g s t s') (hin : (s.pc t).leaves = false) :
    (s'.pc t = .idle ∧ s'.held t = true ∧ g.ready s.res = true) ∨
    (s'.pc t ≠ .idle ∧ (s'.pc t).leaves = false ∧ s'.held t = s.held t) := by
  -- what is left once the new place of the thread is known
  have hstay : ∀ p, s'.pc t = p → p ≠ .idle → p.leaves = false → s'.held t = s.held t →
      (s'.pc t = .idle ∧ s'.held t = true ∧ g.ready s.res = true) ∨
      (s'.pc t ≠ .idle ∧ (s'.pc t).leaves = false ∧ s'.held t = s.held t) := by
    rintro p rfl hne hl hheld
    exact .inr ⟨hne, hl, hheld⟩
  have hout : ∀ p, s.pc t = p → p.leaves = true → False := by
    rintro p rfl hl
    rw [hin] at hl
    cases hl
  cases hs with
  | lock p hfree hp =>
    rcases hp with ⟨hpc, rfl⟩ | ⟨w, hpc, rfl⟩
    · exact (hout _ hpc rfl).elim
    · exact hstay _ (update_self ..) (by simp) rfl rfl
  | pass w r hpc hready htake =>
    exact .inl ⟨update_self .., update_self .., hready⟩
  | fail w hpc hready hfree | unlock hpc | enqueue hpc | fallAsleep hpc =>
    exact hstay _ (update_self ..) (by simp) rfl rfl
  | give r hpc hgive | wake hpc hfree | popNone hpc hqueue | popSome a rest hpc hqueue | runNone hpc | runSome a hpc
  | done hpc => exact (hout _ hpc rfl).elim

omit [Fintype ι] in
/-- A thread on its way out gets out or stays on its way. -/
theorem GateMove.leaving (hs : GateMove g s t s') (hleaves : (s.pc t).leaves = true) :
    (s'.pc t = .idle ∨ (s'.pc t).leaves = true) ∧ s'.held t = s.held t := by
  have hout : ∀ p, s.pc t = p → p.leaves = false → False := by
    rintro p rfl hl
    rw [hleaves] at hl
    cases hl
  cases hs with
  | lock p hfree hp =>
    rcases hp with ⟨hpc, rfl⟩ | ⟨w, hpc, rfl⟩
    · exact ⟨.inr (by rw [GateState.setPc_pc, update_self]; rfl), rfl⟩
    · exact (hout _ hpc rfl).elim
  | pass w r hpc hready htake | fail w hpc hready hfree | unlock hpc | enqueue hpc | fallAsleep hpc =>
    exact (hout _ hpc rfl).elim
  | done hpc => exact ⟨.inl (update_self ..), rfl⟩
  | _ => exact ⟨.inr (by rw [GateState.setPc_pc, update_self]; rfl), rfl⟩

end Step

omit [DecidableEq ι] in
/-- **No lost wakeup.** While somebody sleeps and nobody is leaving, there is a woken thread for
each of those that could enter. -/
theorem GateInv.no_lost_wakeup (h : GateInv avail s) (hasleep : s.pc t = .asleep)
    (hleaves : ∀ u, (s.pc u).leaves = false) : avail s.res ≤ countOf (GatePc.woken ∘ s.pc) := by
  have hcredit : GatePc.credit ∘ s.pc = GatePc.woken ∘ s.pc := by
    funext u
    have hu := hleaves u
    show (s.pc u).credit = (s.pc u).woken
    revert hu
    cases s.pc u <;> simp [GatePc.leaves, GatePc.credit, GatePc.woken]
  have hle := h.balance t (by rw [hasleep]; rfl)
  rwa [hcredit] at hle

end Inv

end Framework
