import OS161.Thread.Lock

/-! # The big lock of the VFS layer

`vfs_biglock_acquire` and `vfs_biglock_release` in `kern/vfs/vfslist.c` make a recursive lock
out of a sleep lock and a counter. They trust `lock_do_i_hold`: a thread that is told it has the
lock does not acquire it.

The counter is shared, and is read and written without any lock of its own.
-/

namespace OS161

open Framework Function

variable {n : Nat}

/-- The bytes of a kernel stack. -/
abbrev STACK_SIZE : Nat := 4096

/-- Where a thread is. -/
inductive BigPc where
  | idle
  /-- `vfs_biglock_acquire`: about to ask whether it has the lock. -/
  | test
  /-- Inside `lock_acquire`. -/
  | locking
  /-- About to increment the depth. -/
  | inc
  /-- `vfs_biglock_release`: about to make the two assertions. -/
  | check
  /-- About to decrement the depth. -/
  | dec
  /-- About to test whether the depth is zero. -/
  | zero
  /-- Inside `lock_release`. -/
  | unlocking
  deriving DecidableEq, Repr

structure BigState (n : Nat) where
  vfs_biglock : LockState n
  vfs_biglock_depth : Nat
  pc : Fin n → BigPc
  /-- How many more times the thread has acquired the big lock than it has released it. -/
  nest : Fin n → Nat

namespace BigState

def setPc (s : BigState n) (t : Fin n) (p : BigPc) : BigState n :=
  { s with pc := update s.pc t p }

def setNest (s : BigState n) (t : Fin n) (k : Nat) : BigState n :=
  { s with nest := update s.nest t k }

end BigState

/-- The next step of a thread that is in one of the two calls. -/
def bigStep (s : BigState n) (t : Fin n) : Option (BigState n) :=
  match s.pc t with
  | .idle => none
  | .test =>
    if lock_do_i_hold s.vfs_biglock t then some (s.setPc t .inc)
    else (lockNext s.vfs_biglock (.enter t)).map fun l => { s with vfs_biglock := l }.setPc t .locking
  | .locking =>
    (lockNext s.vfs_biglock (.step t)).map fun l =>
      { s with vfs_biglock := l }.setPc t (if l.pc t = GatePc.idle then .inc else .locking)
  | .inc =>
    some (({ s with vfs_biglock_depth := (s.vfs_biglock_depth + 1) % 2 ^ 32 }.setNest t
      (s.nest t + 1)).setPc t .idle)
  | .check =>
    if lock_do_i_hold s.vfs_biglock t = true ∧ 0 < s.vfs_biglock_depth then some (s.setPc t .dec)
    else none
  | .dec =>
    some (({ s with vfs_biglock_depth := (s.vfs_biglock_depth + (2 ^ 32 - 1)) % 2 ^ 32 }.setNest t
      (s.nest t - 1)).setPc t .zero)
  | .zero =>
    if s.vfs_biglock_depth = 0 then
      (lockNext s.vfs_biglock (.leave t)).map fun l => { s with vfs_biglock := l }.setPc t .unlocking
    else some (s.setPc t .idle)
  | .unlocking =>
    (lockNext s.vfs_biglock (.step t)).map fun l =>
      { s with vfs_biglock := l }.setPc t (if l.pc t = GatePc.idle then .idle else .unlocking)

inductive BigAct (n : Nat) where
  | acquire (t : Fin n)
  | release (t : Fin n)
  | step (t : Fin n)
  deriving DecidableEq, Repr

/-- Calls at any time. A function that acquires the big lock releases it before it returns, so a
thread that has it `k` times has `k` frames on its kernel stack. -/
def bigNext (s : BigState n) : BigAct n → Option (BigState n)
  | .acquire t => if s.pc t = .idle ∧ s.nest t < STACK_SIZE then some (s.setPc t .test) else none
  | .release t => if s.pc t = .idle then some (s.setPc t .check) else none
  | .step t => bigStep s t

/-- `vfs_bootstrap`, with the memory `lock_create` gets. -/
def vfs_bootstrap (owner : Option (Fin n)) : BigState n where
  vfs_biglock := lock_create owner
  vfs_biglock_depth := 0
  pc := fun _ => .idle
  nest := fun _ => 0

def bigSystem (n : Nat) (owner : Option (Fin n)) : System (BigState n) (BigAct n) :=
  .ofNext (fun s => s = vfs_bootstrap owner) bigNext

/-- What a recursive lock is to be. -/
structure BigOk (s : BigState n) : Prop where
  exclusive : ∀ t u, 0 < s.nest t → 0 < s.nest u → t = u
  depth : ∀ t, 0 < s.nest t → s.vfs_biglock_depth = s.nest t
  free : (∀ t, s.nest t = 0) → s.vfs_biglock_depth = 0
  holds : ∀ t, s.pc t = .idle → (lock_do_i_hold s.vfs_biglock t = true ↔ 0 < s.nest t)

/-! ## Steps -/

/-- What a step can be. -/
inductive BigMove (s : BigState n) (t : Fin n) : BigState n → Prop where
  | acquire (hpc : s.pc t = .idle) (hnest : s.nest t < STACK_SIZE) : BigMove s t (s.setPc t .test)
  | release (hpc : s.pc t = .idle) : BigMove s t (s.setPc t .check)
  | again (hpc : s.pc t = .test) (hown : s.vfs_biglock.res.lk_owner = some t) :
      BigMove s t (s.setPc t .inc)
  | enter (hpc : s.pc t = .test) (hown : s.vfs_biglock.res.lk_owner ≠ some t)
      (hidle : s.vfs_biglock.pc t = .idle) :
      BigMove s t ({ s with vfs_biglock := s.vfs_biglock.setPc t (.enter false) }.setPc t .locking)
  | locking (l : LockState n) (hpc : s.pc t = .locking) (hl : GateMove (lockGate n) s.vfs_biglock t l) :
      BigMove s t ({ s with vfs_biglock := l }.setPc t (if l.pc t = GatePc.idle then .inc else .locking))
  | inc (hpc : s.pc t = .inc) :
      BigMove s t (({ s with vfs_biglock_depth := (s.vfs_biglock_depth + 1) % 2 ^ 32 }.setNest t
        (s.nest t + 1)).setPc t .idle)
  | check (hpc : s.pc t = .check) (hown : s.vfs_biglock.res.lk_owner = some t)
      (hdepth : 0 < s.vfs_biglock_depth) : BigMove s t (s.setPc t .dec)
  | dec (hpc : s.pc t = .dec) :
      BigMove s t (({ s with vfs_biglock_depth := (s.vfs_biglock_depth + (2 ^ 32 - 1)) % 2 ^ 32 }.setNest t
        (s.nest t - 1)).setPc t .zero)
  | zeroLeave (hpc : s.pc t = .zero) (hdepth : s.vfs_biglock_depth = 0)
      (hidle : s.vfs_biglock.pc t = .idle) (hown : s.vfs_biglock.res.lk_owner = some t) :
      BigMove s t ({ s with
        vfs_biglock := (s.vfs_biglock.setHeld t false).setPc t .leave }.setPc t .unlocking)
  | zeroStay (hpc : s.pc t = .zero) (hdepth : s.vfs_biglock_depth ≠ 0) : BigMove s t (s.setPc t .idle)
  | unlocking (l : LockState n) (hpc : s.pc t = .unlocking)
      (hl : GateMove (lockGate n) s.vfs_biglock t l) :
      BigMove s t ({ s with vfs_biglock := l }.setPc t (if l.pc t = GatePc.idle then .idle else .unlocking))

theorem lockNext_step {l l' : LockState n} {t : Fin n} (hs : lockNext l (.step t) = some l') :
    GateMove (lockGate n) l t l' :=
  Gate.step_move hs

theorem bigStep_move {s s' : BigState n} {t : Fin n} (hs : bigStep s t = some s') : BigMove s t s' := by
  unfold bigStep at hs
  split at hs
  case h_1 => cases hs
  case h_2 hpc =>
    split at hs
    · rename_i hhold
      cases hs
      exact .again hpc (lock_do_i_hold_iff.mp hhold)
    · rename_i hhold
      obtain ⟨l, hl, rfl⟩ := Option.map_eq_some_iff.mp hs
      rcases lockNext_cases hl with ⟨u, hu, hidle, rfl⟩ | ⟨u, hu, -⟩ | ⟨u, hu, -⟩
      · cases hu
        exact .enter hpc (fun hown => hhold (lock_do_i_hold_iff.mpr hown)) hidle
      · cases hu
      · cases hu
  case h_3 hpc =>
    obtain ⟨l, hl, rfl⟩ := Option.map_eq_some_iff.mp hs
    exact .locking l hpc (lockNext_step hl)
  case h_4 hpc =>
    cases hs
    exact .inc hpc
  case h_5 hpc =>
    split at hs
    · rename_i hkassert
      cases hs
      exact .check hpc (lock_do_i_hold_iff.mp hkassert.1) hkassert.2
    · cases hs
  case h_6 hpc =>
    cases hs
    exact .dec hpc
  case h_7 hpc =>
    split at hs
    · rename_i hdepth
      obtain ⟨l, hl, rfl⟩ := Option.map_eq_some_iff.mp hs
      rcases lockNext_cases hl with ⟨u, hu, -⟩ | ⟨u, hu, hidle, hown, rfl⟩ | ⟨u, hu, -⟩
      · cases hu
      · cases hu
        exact .zeroLeave hpc hdepth hidle hown
      · cases hu
    · rename_i hdepth
      cases hs
      exact .zeroStay hpc hdepth
  case h_8 hpc =>
    obtain ⟨l, hl, rfl⟩ := Option.map_eq_some_iff.mp hs
    exact .unlocking l hpc (lockNext_step hl)

theorem bigNext_move {s s' : BigState n} {a : BigAct n} (hs : bigNext s a = some s') :
    ∃ t, BigMove s t s' := by
  unfold bigNext at hs
  split at hs
  · rename_i t
    split at hs
    · rename_i hcall
      cases hs
      exact ⟨t, .acquire hcall.1 hcall.2⟩
    · cases hs
  · rename_i t
    split at hs
    · rename_i hidle
      cases hs
      exact ⟨t, .release hidle⟩
    · cases hs
  · rename_i t
    exact ⟨t, bigStep_move hs⟩

/-! ## The invariant -/

/-- How the place of a thread goes with its place in the lock's code, whether it has the lock and
how often it has the big lock. -/
def BigStage : BigPc → GatePc (Fin n) → Bool → Nat → Prop
  | .idle, g, held, k | .check, g, held, k => g = .idle ∧ (held = true ↔ 0 < k) ∧ k ≤ STACK_SIZE
  | .test, g, held, k => g = .idle ∧ (held = true ↔ 0 < k) ∧ k < STACK_SIZE
  | .inc, g, held, k | .zero, g, held, k => g = .idle ∧ held = true ∧ k < STACK_SIZE
  | .dec, g, held, k => g = .idle ∧ held = true ∧ 0 < k ∧ k ≤ STACK_SIZE
  | .locking, g, held, k => g ≠ .idle ∧ g.leaves = false ∧ held = false ∧ k = 0
  | .unlocking, g, held, k => g.leaves = true ∧ held = false ∧ k = 0

structure BigInv (s : BigState n) : Prop where
  lock : LockInv s.vfs_biglock
  owner : OwnerFree s.vfs_biglock
  stage : ∀ t, BigStage (s.pc t) (s.vfs_biglock.pc t) (s.vfs_biglock.held t) (s.nest t)
  depth : ∀ t, s.vfs_biglock.held t = true → s.vfs_biglock_depth = s.nest t
  free : (∀ t, s.vfs_biglock.held t = false) → s.vfs_biglock_depth = 0

section Stage

variable {p : BigPc} {g : GatePc (Fin n)} {held : Bool} {k : Nat}

/-- Whoever has the big lock has the lock. -/
theorem BigStage.held_of_pos (h : BigStage p g held k) (hk : 0 < k) : held = true := by
  cases p with
  | idle => exact h.2.1.mpr hk
  | test => exact h.2.1.mpr hk
  | locking => exact absurd h.2.2.2 (by omega)
  | inc => exact h.2.1
  | check => exact h.2.1.mpr hk
  | dec => exact h.2.1
  | zero => exact h.2.1
  | unlocking => exact absurd h.2.2 (by omega)

/-- A thread asleep is in `lock_acquire`; waking it up makes no difference. -/
theorem BigStage.woken (h : BigStage p (.asleep : GatePc (Fin n)) held k) :
    BigStage p (.enter true : GatePc (Fin n)) held k := by
  cases p with
  | locking => exact ⟨by simp, rfl, h.2.2⟩
  | unlocking | idle | test | inc | check | dec | zero => cases h.1

end Stage

namespace BigInv

variable {s s' : BigState n} {t u : Fin n}

section

variable (h : BigInv s)
include h

/-- Who has the lock is the only one who has it. -/
theorem held_unique (ht : s.vfs_biglock.held t = true) (hu : s.vfs_biglock.held u = true) : t = u :=
  h.lock.unique (.inl ht) (.inl hu)

/-- A move of one thread that leaves the lock alone. -/
theorem local_move {p : BigPc} {k d : Nat}
    (hstage : BigStage p (s.vfs_biglock.pc t) (s.vfs_biglock.held t) k)
    (hkd : s.vfs_biglock.held t = true ∧ d = k ∨ k = s.nest t ∧ d = s.vfs_biglock_depth) :
    BigInv (({ s with vfs_biglock_depth := d }.setNest t k).setPc t p) := by
  constructor
  case lock => exact h.lock
  case owner => exact h.owner
  case stage =>
    intro u
    show BigStage (update s.pc t p u) _ _ (update s.nest t k u)
    by_cases hut : u = t
    · subst hut
      rw [update_self, update_self]
      exact hstage
    · rw [update_of_ne hut, update_of_ne hut]
      exact h.stage u
  case depth =>
    intro u hu
    show d = update s.nest t k u
    by_cases hut : u = t
    · subst hut
      rw [update_self]
      rcases hkd with ⟨-, rfl⟩ | ⟨rfl, rfl⟩
      · rfl
      · exact h.depth u hu
    · rw [update_of_ne hut]
      rcases hkd with ⟨ht, -⟩ | ⟨-, rfl⟩
      · exact absurd (h.held_unique hu ht) hut
      · exact h.depth u hu
  case free =>
    intro hnone
    rcases hkd with ⟨ht, -⟩ | ⟨-, rfl⟩
    · rw [show s.vfs_biglock.held t = false from hnone t] at ht
      cases ht
    · exact h.free hnone

/-- A step of the lock's code: what it does to the other threads is no matter. -/
theorem lock_move {l : LockState n} {p : BigPc} (hl : GateMove (lockGate n) s.vfs_biglock t l)
    (hstage : BigStage p (l.pc t) (l.held t) (s.nest t))
    (hdepth : ∀ u, l.held u = true → s.vfs_biglock_depth = s.nest u)
    (hfree : (∀ u, l.held u = false) → s.vfs_biglock_depth = 0) :
    BigInv ({ s with vfs_biglock := l }.setPc t p) := by
  refine ⟨h.lock.step hl, h.owner.step hl, fun u => ?_, hdepth, hfree⟩
  show BigStage (update s.pc t p u) (l.pc u) (l.held u) (s.nest u)
  by_cases hut : u = t
  · subst hut
    rw [update_self]
    exact hstage
  · rw [update_of_ne hut]
    obtain ⟨hheld, hpc⟩ := hl.others h.lock.gate hut
    rw [hheld]
    rcases hpc with hpc | ⟨hasleep, hpc⟩
    · rw [hpc]
      exact h.stage u
    · rw [hpc]
      have hu := h.stage u
      rw [hasleep] at hu
      exact hu.woken

theorem locking {l : LockState n} (hpc : s.pc t = .locking)
    (hl : GateMove (lockGate n) s.vfs_biglock t l) :
    BigInv ({ s with vfs_biglock := l }.setPc t (if l.pc t = GatePc.idle then .inc else .locking)) := by
  have hst := h.stage t
  rw [hpc] at hst
  obtain ⟨-, hleaves, hheld, hnest⟩ := hst
  have hothers : ∀ u, u ≠ t → l.held u = s.vfs_biglock.held u := fun u hut =>
    (hl.others h.lock.gate hut).1
  rcases hl.entering hleaves with ⟨hidle, hin, hready⟩ | ⟨hidle, hleaves', hheld'⟩
  · -- the lock was free, so nobody had it
    have hnone : ∀ u, s.vfs_biglock.held u = false := by
      intro u
      by_contra hu
      have hlocked := (h.lock.inside u (.inl (by simpa using hu))).1
      simp [lockGate, hlocked] at hready
    have hzero := h.free hnone
    rw [if_pos hidle]
    have hnest' : s.nest t < STACK_SIZE := by rw [hnest]; decide
    refine h.lock_move hl ⟨hidle, hin, hnest'⟩ (fun u hu => ?_) (fun _ => hzero)
    have hut : u = t := by
      by_contra hne
      rw [hothers u hne, hnone u] at hu
      cases hu
    rw [hut, hzero, hnest]
  · rw [if_neg hidle]
    have hsame : ∀ u, l.held u = s.vfs_biglock.held u := by
      intro u
      by_cases hut : u = t
      · rw [hut, hheld']
      · exact hothers u hut
    refine h.lock_move hl ⟨hidle, hleaves', hheld'.trans hheld, hnest⟩ (fun u hu => ?_) (fun hnone => ?_)
    · exact h.depth u ((hsame u).symm.trans hu)
    · exact h.free fun u => (hsame u).symm.trans (hnone u)

theorem unlocking {l : LockState n} (hpc : s.pc t = .unlocking)
    (hl : GateMove (lockGate n) s.vfs_biglock t l) :
    BigInv ({ s with vfs_biglock := l }.setPc t (if l.pc t = GatePc.idle then .idle else .unlocking)) := by
  have hst := h.stage t
  rw [hpc] at hst
  obtain ⟨hleaves, hheld, hnest⟩ := hst
  obtain ⟨hplace, hheld'⟩ := hl.leaving hleaves
  have hsame : ∀ u, l.held u = s.vfs_biglock.held u := by
    intro u
    by_cases hut : u = t
    · rw [hut, hheld']
    · exact (hl.others h.lock.gate hut).1
  have hout := hheld'.trans hheld
  refine h.lock_move hl ?_ (fun u hu => h.depth u ((hsame u).symm.trans hu))
    (fun hnone => h.free fun u => (hsame u).symm.trans (hnone u))
  rcases hplace with hidle | hleaves'
  · rw [if_pos hidle]
    refine ⟨hidle, ?_, by omega⟩
    rw [hout, hnest]
    simp
  · have hne : l.pc t ≠ .idle := by
      intro hidle
      rw [hidle] at hleaves'
      cases hleaves'
    rw [if_neg hne]
    exact ⟨hleaves', hout, hnest⟩

/-- `lock_acquire` is called by a thread that does not have the lock. -/
theorem enter (hpc : s.pc t = .test) (hown : s.vfs_biglock.res.lk_owner ≠ some t)
    (hidle : s.vfs_biglock.pc t = .idle) :
    BigInv ({ s with vfs_biglock := s.vfs_biglock.setPc t (.enter false) }.setPc t .locking) := by
  have hst := h.stage t
  rw [hpc] at hst
  have hheld : s.vfs_biglock.held t = false := by
    by_contra hne
    exact hown ((h.lock.owner_iff_held h.owner hidle).mpr (by simpa using hne))
  have hnest : s.nest t = 0 := by
    by_contra hne
    have := hst.2.1.mpr (by omega)
    rw [hheld] at this
    cases this
  refine { h with lock := h.lock.enter hidle, stage := fun u => ?_ }
  show BigStage (update s.pc t .locking u) (update s.vfs_biglock.pc t (.enter false) u) _ _
  by_cases hut : u = t
  · subst hut
    rw [update_self, update_self]
    exact ⟨by simp, rfl, hheld, hnest⟩
  · rw [update_of_ne hut, update_of_ne hut]
    exact h.stage u

/-- `lock_release` is called when the depth is back to zero. -/
theorem leave (hpc : s.pc t = .zero) (hdepth : s.vfs_biglock_depth = 0)
    (hidle : s.vfs_biglock.pc t = .idle) :
    BigInv ({ s with
      vfs_biglock := (s.vfs_biglock.setHeld t false).setPc t .leave }.setPc t .unlocking) := by
  have hst := h.stage t
  rw [hpc] at hst
  have hheld : s.vfs_biglock.held t = true := hst.2.1
  have hnest : s.nest t = 0 := (h.depth t hheld).symm.trans hdepth
  refine ⟨h.lock.leave hidle hheld, h.owner, fun u => ?_, fun u hu => ?_, fun _ => hdepth⟩
  · show BigStage (update s.pc t .unlocking u) (update s.vfs_biglock.pc t .leave u)
      (update s.vfs_biglock.held t false u) _
    by_cases hut : u = t
    · subst hut
      rw [update_self, update_self, update_self]
      exact ⟨rfl, rfl, hnest⟩
    · rw [update_of_ne hut, update_of_ne hut, update_of_ne hut]
      exact h.stage u
  · -- nobody else had it
    have hu' : update s.vfs_biglock.held t false u = true := hu
    by_cases hut : u = t
    · subst hut
      rw [update_self] at hu'
      cases hu'
    · rw [update_of_ne hut] at hu'
      exact absurd (h.held_unique hu' hheld) hut

/-- A move of one thread that leaves the lock, the depth and the nesting alone. -/
theorem walk {p : BigPc}
    (hstage : BigStage p (s.vfs_biglock.pc t) (s.vfs_biglock.held t) (s.nest t)) :
    BigInv (s.setPc t p) := by
  have hmove := h.local_move hstage (.inr ⟨rfl, rfl⟩)
  unfold BigState.setNest at hmove
  rwa [update_eq_self] at hmove

/-- **Every step keeps the invariant.** -/
theorem move (hs : BigMove s t s') : BigInv s' := by
  have hst := h.stage t
  cases hs with
  | acquire hpc hnest =>
    rw [hpc] at hst
    exact h.walk ⟨hst.1, hst.2.1, hnest⟩
  | release hpc =>
    rw [hpc] at hst
    exact h.walk hst
  | again hpc hown =>
    rw [hpc] at hst
    exact h.walk ⟨hst.1, (h.lock.owner_iff_held h.owner hst.1).mp hown, hst.2.2⟩
  | enter hpc hown hidle => exact h.enter hpc hown hidle
  | locking l hpc hl => exact h.locking hpc hl
  | inc hpc =>
    rw [hpc] at hst
    obtain ⟨hidle, hheld, hnest⟩ := hst
    have hdepth := h.depth t hheld
    refine h.local_move ⟨hidle, ⟨fun _ => by omega, fun _ => hheld⟩, hnest⟩ (.inl ⟨hheld, ?_⟩)
    -- the stack bounds the nesting, so the counter does not wrap
    have hstack : STACK_SIZE = 4096 := rfl
    rw [hdepth]
    exact Nat.mod_eq_of_lt (by omega)
  | check hpc hown hdepth =>
    rw [hpc] at hst
    have hheld := (h.lock.owner_iff_held h.owner hst.1).mp hown
    exact h.walk ⟨hst.1, hheld, hst.2.1.mp hheld, hst.2.2⟩
  | dec hpc =>
    rw [hpc] at hst
    obtain ⟨hidle, hheld, hpos, hnest⟩ := hst
    have hdepth := h.depth t hheld
    refine h.local_move ⟨hidle, hheld, by omega⟩ (.inl ⟨hheld, ?_⟩)
    have hstack : STACK_SIZE = 4096 := rfl
    rw [hdepth]
    omega
  | zeroLeave hpc hdepth hidle hown => exact h.leave hpc hdepth hidle
  | zeroStay hpc hdepth =>
    rw [hpc] at hst
    obtain ⟨hidle, hheld, hnest⟩ := hst
    have hd := h.depth t hheld
    exact h.walk ⟨hidle, ⟨fun _ => by omega, fun _ => hheld⟩, Nat.le_of_lt hnest⟩
  | unlocking l hpc hl => exact h.unlocking hpc hl

end

theorem bootstrap : BigInv (vfs_bootstrap none : BigState n) where
  lock := LockInv.create none
  owner := fun _ => rfl
  stage := fun t => ⟨rfl, by simp [vfs_bootstrap, lock_create, GateState.start], Nat.zero_le _⟩
  depth := fun t ht => nomatch ht
  free := fun _ => rfl

theorem ok (h : BigInv s) : BigOk s := by
  have hheld : ∀ t, 0 < s.nest t → s.vfs_biglock.held t = true := fun t ht => (h.stage t).held_of_pos ht
  constructor
  case exclusive => exact fun t u ht hu => h.held_unique (hheld t ht) (hheld u hu)
  case depth => exact fun t ht => h.depth t (hheld t ht)
  case free =>
    intro hzero
    by_cases hany : ∃ t, s.vfs_biglock.held t = true
    · obtain ⟨t, ht⟩ := hany
      rw [h.depth t ht, hzero t]
    · exact h.free fun t => by simpa using fun ht => hany ⟨t, ht⟩
  case holds =>
    intro t hpc
    have hst := h.stage t
    rw [hpc] at hst
    rw [lock_do_i_hold_iff, h.lock.owner_iff_held h.owner hst.1]
    exact hst.2.1

end BigInv

theorem bigSystem_ok {s : BigState n} (h : (bigSystem n none).Reachable s) : BigOk s := by
  have hinv : BigInv s := by
    refine System.invariant (I := BigInv) ?_ ?_ h
    · rintro s rfl
      exact BigInv.bootstrap
    · intro s a s' hinv hs
      obtain ⟨t, hmove⟩ := bigNext_move hs
      exact hinv.move hmove
  exact hinv.ok

/-! ## Uninitialised memory -/

/-- **Ownership is exact only if the memory of the lock named no thread.** Then the owner test is
right at all times and the big lock is a recursive lock; otherwise the thread it names has the
lock before anybody has acquired it. -/
theorem lock_ownership_iff (n : Nat) (owner : Option (Fin n)) :
    ((∀ s, (lockSystem n owner).Reachable s → OwnerOk s) ∧
      ∀ s, (bigSystem n owner).Reachable s → BigOk s) ↔ owner = none := by
  constructor
  · rintro ⟨hlock, -⟩
    cases owner with
    | none => rfl
    | some t => exact absurd (hlock _ (.init rfl)) (lock_create_owner t)
  · rintro rfl
    exact ⟨fun s hs => lockSystem_owner hs, fun s hs => bigSystem_ok hs⟩

/-- Thread 0, named by the stale memory, walks in without the lock; thread 1 acquires it. -/
def bothInside {n : Nat} [NeZero n] : List (BigAct n) :=
  [.acquire 0, .step 0, .step 0, .acquire 1, .step 1, .step 1, .step 1, .step 1]

/-- Two threads are inside the big lock at once. -/
theorem biglock_two_inside :
    ∃ s, (bigSystem 2 (some 0)).Reachable s ∧ s.nest 0 = 1 ∧ s.nest 1 = 1 ∧
      s.vfs_biglock_depth = 2 ∧ ¬ BigOk s := by
  obtain ⟨s, hreach, h0, h1, hd⟩ : ∃ s, (bigSystem 2 (some 0)).Reachable s ∧ s.nest 0 = 1 ∧ s.nest 1 = 1 ∧
      s.vfs_biglock_depth = 2 := System.exists_reachable (s := vfs_bootstrap (some 0)) (by rfl) bothInside (by decide)
  refine ⟨s, hreach, h0, h1, hd, fun hok => ?_⟩
  have heq := hok.exclusive 0 1 (by omega) (by omega)
  cases heq

end OS161
