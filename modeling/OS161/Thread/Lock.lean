import OS161.Framework.WaitGate

/-! # Sleep locks

The model of `lock_acquire`, `lock_release` and `lock_do_i_hold` in `kern/thread/synch.c`. A
lock is a gate: its resource is the pair of `is_locked` and `lk_owner`, `lock_acquire` enters
and `lock_release` leaves.

`lock_create` does not set `lk_owner`, so the first owner is whatever the memory held before.
-/

namespace OS161

open Framework Function

variable {n : Nat}

/-! ## The gate -/

/-- The fields of `struct lock`. `lk_owner` is only compared with `curthread`: `none` stands for
every pointer that is not one of the threads. -/
structure LockRes (n : Nat) where
  is_locked : Bool
  lk_owner : Option (Fin n)
  deriving DecidableEq

/-- `lock_acquire` and `lock_release`. -/
def lockGate (n : Nat) : Gate (LockRes n) (Fin n) where
  ready := fun r => !r.is_locked
  take := fun t r =>
    if r.is_locked = false then some { is_locked := true, lk_owner := some t } else none
  give := fun _ _ => some { is_locked := false, lk_owner := none }

abbrev LockState (n : Nat) : Type := GateState (LockRes n) (Fin n)

/-- `lock_do_i_hold`, called by thread `t`. -/
def lock_do_i_hold (s : LockState n) (t : Fin n) : Bool := decide (some t = s.res.lk_owner)

/-- `lock_release` asserts that the caller holds the lock before it does anything. -/
def lockNext (s : LockState n) (a : GateAct (Fin n)) : Option (LockState n) :=
  match a with
  | .leave t => if lock_do_i_hold s t then (lockGate n).next s (.leave t) else none
  | a => (lockGate n).next s a

/-- `lock_create`, on memory in which the word of `lk_owner` was `owner`. -/
def lock_create (owner : Option (Fin n)) : LockState n :=
  .start { is_locked := false, lk_owner := owner }

/-- Threads that call `lock_acquire` and `lock_release` at will. -/
def lockSystem (n : Nat) (owner : Option (Fin n)) : System (LockState n) (GateAct (Fin n)) :=
  .ofNext (fun s => s = lock_create owner) lockNext

/-- A thread releases only what it has acquired, and does not acquire what it has. -/
def LockDiscipline (s : LockState n) : GateAct (Fin n) → Prop
  | .enter t => s.held t = false
  | .leave t => s.held t = true
  | .step _ => True

/-- What is to hold in every state of a disciplined run. -/
structure LockOk (s : LockState n) : Prop where
  exclusive : ∀ t u, s.held t = true → s.held u = true → t = u
  owner : ∀ t, s.held t = true → s.res.is_locked = true ∧ s.res.lk_owner = some t
  no_lost_wakeup : ¬ (s.res.is_locked = false ∧ (∃ t, s.pc t = .asleep) ∧
    (∀ t, (s.pc t).leaves = false) ∧ ∀ t, (s.pc t).woken = false)

/-! ## The invariant -/

/-- How many calls of `lock_acquire` would go through. -/
def lockAvail (r : LockRes n) : Nat := if r.is_locked then 0 else 1

theorem lockGate_laws : GateLaws (lockGate n) lockAvail where
  ready := by
    intro r hr
    have hlocked : r.is_locked = true := by simpa [lockGate] using hr
    simp [lockAvail, hlocked]
  take := by
    intro t r r' _ htake
    simp only [lockGate] at htake
    split at htake
    · rename_i hfree
      cases htake
      simp [lockAvail, hfree]
    · cases htake
  give := by
    intro t r r' hgive
    cases hgive
    simp [lockAvail]

/-- In `lock_release`, before the lock is marked free. -/
def GatePc.releasing {ι : Type} : GatePc ι → Bool
  | .leave | .give => true
  | _ => false

/-- The thread has the lock, or is about to mark it free. -/
def LockInside (s : LockState n) (t : Fin n) : Prop :=
  s.held t = true ∨ GatePc.releasing (s.pc t) = true

/-- Two places that are alike for the purposes of who is inside. -/
def SameRole (p q : GatePc (Fin n)) : Prop :=
  GatePc.releasing p = GatePc.releasing q ∧ (p.leaves = true → q.leaves = true)

theorem SameRole.update {pc : Fin n → GatePc (Fin n)} {t : Fin n} {p : GatePc (Fin n)}
    (h : SameRole p (pc t)) (u : Fin n) : SameRole (update pc t p u) (pc u) := by
  by_cases hut : u = t
  · subst hut
    rwa [update_self]
  · rw [update_of_ne hut]
    exact ⟨rfl, fun hl => hl⟩

structure LockInv (s : LockState n) : Prop where
  gate : GateInv lockAvail s
  out : ∀ t, (s.pc t).leaves = true → s.held t = false
  inside : ∀ t, LockInside s t → s.res.is_locked = true ∧ s.res.lk_owner = some t
  locked : s.res.is_locked = true → ∃ t, LockInside s t

namespace LockInv

variable {s s' : LockState n} {t u : Fin n} {p : GatePc (Fin n)}

section

variable (h : LockInv s)
include h

theorem unique (ht : LockInside s t) (hu : LockInside s u) : t = u := by
  have heq := (h.inside t ht).2.symm.trans (h.inside u hu).2
  exact Option.some.inj heq

/-- A move that has nothing to do with who is inside. -/
theorem keep (hgate : GateInv lockAvail s') (hrole : ∀ u, SameRole (s'.pc u) (s.pc u))
    (hheld : s'.held = s.held) (hres : s'.res = s.res) : LockInv s' := by
  have hsame : ∀ u, LockInside s' u ↔ LockInside s u := by
    intro u
    unfold LockInside
    rw [hheld, (hrole u).1]
  constructor
  case gate => exact hgate
  case out =>
    intro u hu
    rw [hheld]
    exact h.out u ((hrole u).2 hu)
  case inside =>
    intro u hu
    rw [hres]
    exact h.inside u ((hsame u).mp hu)
  case locked =>
    intro hlocked
    rw [hres] at hlocked
    obtain ⟨u, hu⟩ := h.locked hlocked
    exact ⟨u, (hsame u).mpr hu⟩

/-- A thread gets the lock. -/
theorem pass {w : Bool} {r : LockRes n} (hpc : s.pc t = .test w)
    (hready : (lockGate n).ready s.res = true) (htake : (lockGate n).take t s.res = some r) :
    LockInv (s.pass t r) := by
  have hfree : s.res.is_locked = false := by simpa [lockGate] using hready
  have hr : r = { is_locked := true, lk_owner := some t } := by
    simp only [lockGate, if_pos hfree] at htake
    exact (Option.some.inj htake).symm
  subst hr
  have hnobody : ∀ u, ¬ LockInside s u := by
    intro u hu
    rw [(h.inside u hu).1] at hfree
    cases hfree
  have hheld : (s.pass t { is_locked := true, lk_owner := some t }).held = update s.held t true := rfl
  have hpcs : (s.pass t { is_locked := true, lk_owner := some t }).pc = update s.pc t .idle := rfl
  constructor
  case gate => exact h.gate.pass lockGate_laws hpc hready htake
  case out =>
    intro u hu
    rw [hpcs] at hu
    have hut : u ≠ t := by
      rintro rfl
      rw [update_self] at hu
      cases hu
    rw [hheld, update_of_ne hut]
    rw [update_of_ne hut] at hu
    exact h.out u hu
  case inside =>
    intro u hu
    have hut : u = t := by
      by_contra hne
      refine hnobody u ?_
      unfold LockInside at hu ⊢
      rwa [hheld, hpcs, update_of_ne hne, update_of_ne hne] at hu
    subst hut
    exact ⟨rfl, rfl⟩
  case locked => exact fun _ => ⟨t, .inl (update_self ..)⟩

/-- The lock is marked free. -/
theorem give (hpc : s.pc t = .give) {r : LockRes n}
    (hgive : (lockGate n).give t s.res = some r) : LockInv ({ s with res := r }.setPc t .wake) := by
  have hr : r = { is_locked := false, lk_owner := none } := (Option.some.inj hgive).symm
  have hin : LockInside s t := .inr (by rw [hpc]; rfl)
  have hout := h.out t (by rw [hpc]; rfl)
  have hnobody : ∀ u, ¬ LockInside ({ s with res := r }.setPc t .wake) u := by
    intro u hu
    unfold LockInside at hu
    by_cases hut : u = t
    · subst hut
      rw [GateState.setPc_pc, update_self] at hu
      rcases hu with hu | hu
      · have hheld : s.held u = true := hu
        rw [hout] at hheld
        cases hheld
      · cases hu
    · rw [GateState.setPc_pc, update_of_ne hut] at hu
      exact hut (h.unique hu hin)
  constructor
  case gate => exact h.gate.give lockGate_laws hpc hgive
  case out =>
    intro u hu
    by_cases hut : u = t
    · subst hut
      exact hout
    · rw [GateState.setPc_pc, update_of_ne hut] at hu
      exact h.out u hu
  case inside => exact fun u hu => absurd hu (hnobody u)
  case locked =>
    subst hr
    exact fun hlocked => nomatch hlocked

theorem step (hs : GateMove (lockGate n) s t s') : LockInv s' := by
  have hgate := h.gate.step lockGate_laws hs
  -- all but two moves take one thread between places of the same role
  have hone : ∀ p, s'.pc = update s.pc t p → SameRole p (s.pc t) →
      s'.held = s.held → s'.res = s.res → LockInv s' := by
    intro p hpc hrole hheld hres
    refine h.keep hgate (fun u => ?_) hheld hres
    rw [hpc]
    exact hrole.update u
  cases hs with
  | lock p hfree hp =>
    refine hone p rfl ?_ rfl rfl
    rcases hp with ⟨hpc, rfl⟩ | ⟨w, hpc, rfl⟩
    · rw [hpc]
      exact ⟨rfl, fun _ => rfl⟩
    · rw [hpc]
      exact ⟨rfl, fun hl => hl⟩
  | pass w r hpc hready htake => exact h.pass hpc hready htake
  | fail w hpc hready hfree | unlock hpc | enqueue hpc | fallAsleep hpc | wake hpc hfree | popNone hpc hqueue
  | popSome a rest hpc hqueue | runNone hpc => exact hone _ rfl (by rw [hpc]; exact ⟨rfl, fun hl => hl⟩) rfl rfl
  | give r hpc hgive => exact h.give hpc hgive
  | runSome a hpc =>
    have ha : s.pc a = .asleep := h.gate.target_asleep hpc
    have hta : t ≠ a := by
      rintro rfl
      rw [hpc] at ha
      cases ha
    have hrolea : SameRole (.enter true) (s.pc a) := by
      rw [ha]
      exact ⟨rfl, fun hl => hl⟩
    have hrolet : SameRole .done ((s.setPc a (.enter true)).pc t) := by
      rw [GateState.setPc_pc, update_of_ne hta, hpc]
      exact ⟨rfl, fun hl => hl⟩
    refine h.keep hgate (fun u => ?_) rfl rfl
    obtain ⟨hrel, hleaves⟩ := hrolet.update u
    obtain ⟨hrel', hleaves'⟩ := hrolea.update u
    exact ⟨hrel.trans hrel', fun hl => hleaves' (hleaves hl)⟩
  | done hpc => exact hone .idle rfl (by rw [hpc]; exact ⟨rfl, fun hl => nomatch hl⟩) rfl rfl

theorem enter (hidle : s.pc t = .idle) : LockInv (s.setPc t (.enter false)) :=
  h.keep (h.gate.call hidle (.inl rfl) s.held)
    (SameRole.update (by rw [hidle]; exact ⟨rfl, fun hl => hl⟩)) rfl rfl

/-- The caller of `lock_release` stays inside until the lock is marked free. -/
theorem leave (hidle : s.pc t = .idle) (hheld : s.held t = true) :
    LockInv ((s.setHeld t false).setPc t .leave) := by
  have hsame : ∀ u, LockInside ((s.setHeld t false).setPc t .leave) u ↔ LockInside s u := by
    intro u
    unfold LockInside
    rw [GateState.setPc_pc]
    show update s.held t false u = true ∨ GatePc.releasing (update s.pc t .leave u) = true ↔ _
    by_cases hut : u = t
    · subst hut
      rw [update_self, update_self]
      exact ⟨fun _ => .inl hheld, fun _ => .inr rfl⟩
    · rw [update_of_ne hut, update_of_ne hut]
  constructor
  case gate => exact h.gate.call hidle (.inr rfl) _
  case out =>
    intro u hu
    show update s.held t false u = false
    by_cases hut : u = t
    · subst hut
      exact update_self ..
    · rw [GateState.setPc_pc, update_of_ne hut] at hu
      rw [update_of_ne hut]
      exact h.out u hu
  case inside => exact fun u hu => h.inside u ((hsame u).mp hu)
  case locked =>
    intro hlocked
    obtain ⟨u, hu⟩ := h.locked hlocked
    exact ⟨u, (hsame u).mpr hu⟩

end

theorem create (owner : Option (Fin n)) : LockInv (lock_create owner) where
  gate := GateInv.start _ _
  out := fun t ht => nomatch ht
  inside := by
    rintro t (ht | ht)
    · cases ht
    · cases ht
  locked := fun hlocked => nomatch hlocked

/-- The invariant gives the property. -/
theorem ok (h : LockInv s) : LockOk s where
  exclusive := fun t u ht hu => h.unique (.inl ht) (.inl hu)
  owner := fun t ht => h.inside t (.inl ht)
  no_lost_wakeup := by
    rintro ⟨hfree, ⟨t, ht⟩, hleaves, hwoken⟩
    have henough := h.gate.no_lost_wakeup ht hleaves
    have hnone : countOf (GatePc.woken ∘ s.pc) = 0 := by
      apply Finset.card_eq_zero.mpr
      apply Finset.filter_eq_empty_iff.mpr
      intro u _ hu
      rw [Function.comp_apply, hwoken u] at hu
      cases hu
    rw [hnone, lockAvail, hfree] at henough
    cases henough

end LockInv

variable {a : GateAct (Fin n)}

/-- What a step of the system can be. -/
theorem lockNext_cases {s s' : LockState n} (hs : lockNext s a = some s') :
    (∃ t, a = .enter t ∧ s.pc t = .idle ∧ s' = s.setPc t (.enter false)) ∨
    (∃ t, a = .leave t ∧ s.pc t = .idle ∧ s.res.lk_owner = some t ∧
      s' = (s.setHeld t false).setPc t .leave) ∨
    ∃ t, a = .step t ∧ GateMove (lockGate n) s t s' := by
  unfold lockNext at hs
  split at hs
  · rename_i t
    split at hs
    · rename_i hhold
      rcases Gate.next_cases hs with ⟨u, hu, -⟩ | ⟨u, hu, hidle, rfl⟩ | ⟨u, hu, -⟩
      · cases hu
      · cases hu
        exact .inr (.inl ⟨t, rfl, hidle, (of_decide_eq_true hhold).symm, rfl⟩)
      · cases hu
    · cases hs
  · rename_i hne
    rcases Gate.next_cases hs with h | ⟨u, hu, -⟩ | h
    · exact .inl h
    · exact absurd hu (hne u)
    · exact .inr (.inr h)

/-! ## Disciplined runs -/

/-- **Every disciplined step keeps the invariant.** -/
theorem LockInv.next {s s' : LockState n} (h : LockInv s) (hdisc : LockDiscipline s a)
    (hs : lockNext s a = some s') : LockInv s' := by
  rcases lockNext_cases hs with ⟨t, rfl, hidle, rfl⟩ | ⟨t, rfl, hidle, -, rfl⟩ | ⟨t, rfl, hmove⟩
  · exact h.enter hidle
  · exact h.leave hidle hdisc
  · exact h.step hmove

/-- **Locks exclude and lose no wakeup.** In every state of every run of threads that release what
they have acquired, whatever memory the lock was created in. -/
theorem lock_correct {owner : Option (Fin n)} {s : LockState n}
    (h : ((lockSystem n owner).restrict LockDiscipline).Reachable s) : LockOk s := by
  have hinv : LockInv s := by
    refine System.invariant (I := LockInv) ?_ ?_ h
    · rintro s rfl
      exact LockInv.create owner
    · intro s a s' hinv ⟨hdisc, hs⟩
      exact hinv.next hdisc hs
  exact hinv.ok

instance lockDiscipline_decidable (s : LockState n) : ∀ a, Decidable (LockDiscipline s a)
  | .enter t => inferInstanceAs (Decidable (s.held t = false))
  | .leave t => inferInstanceAs (Decidable (s.held t = true))
  | .step _ => inferInstanceAs (Decidable True)

/-- Thread 0 has the lock, thread 1 sleeps until thread 0 has released it. -/
def handOver {n : Nat} [NeZero n] : List (GateAct (Fin n)) :=
  [.enter 0, .step 0, .step 0, .enter 1, .step 1, .step 1, .step 1, .step 1, .step 1,
    .leave 0, .step 0, .step 0, .step 0, .step 0, .step 0]

theorem lock_correct_two :
    ∃ s : LockState 2, ((lockSystem 2 (some 1)).restrict LockDiscipline).Reachable s ∧
      s.res.is_locked = false ∧ s.pc 1 = .enter true ∧ LockOk s := by
  obtain ⟨s, hreach, hfree, hwoken⟩ : ∃ s, ((lockSystem 2 (some 1)).restrict LockDiscipline).Reachable s ∧
      s.res.is_locked = false ∧ s.pc 1 = .enter true :=
    System.exists_restricted (s := lock_create (some 1)) (by rfl) handOver (by decide)
  exact ⟨s, hreach, hfree, hwoken, lock_correct hreach⟩

/-! ## Ownership -/

/-- `lock_do_i_hold` gives the right answer to every thread that can ask. -/
def OwnerOk (s : LockState n) : Prop :=
  ∀ t, s.pc t = .idle → (lock_do_i_hold s t = true ↔ s.held t = true)

/-- A lock that is marked free has no owner. `lock_create` does not see to this. -/
def OwnerFree (s : LockState n) : Prop := s.res.is_locked = false → s.res.lk_owner = none

theorem lock_do_i_hold_iff {s : LockState n} {t : Fin n} :
    lock_do_i_hold s t = true ↔ s.res.lk_owner = some t := by
  unfold lock_do_i_hold
  rw [decide_eq_true_iff, eq_comm]

section Owner

variable {s s' : LockState n} {t : Fin n}

theorem LockInv.owner_inside (h : LockInv s) (hfree : OwnerFree s) (hown : s.res.lk_owner = some t) :
    LockInside s t := by
  have hlocked : s.res.is_locked = true := by
    by_contra hne
    rw [hfree (by simpa using hne)] at hown
    cases hown
  obtain ⟨u, hu⟩ := h.locked hlocked
  have heq := (h.inside u hu).2.symm.trans hown
  rwa [Option.some.inj heq] at hu

/-- A thread that is in no call owns the lock just when it holds it. -/
theorem LockInv.owner_iff_held (h : LockInv s) (hfree : OwnerFree s) (hidle : s.pc t = .idle) :
    s.res.lk_owner = some t ↔ s.held t = true := by
  constructor
  · intro hown
    rcases h.owner_inside hfree hown with hheld | hrel
    · exact hheld
    · rw [hidle] at hrel
      cases hrel
  · intro hheld
    exact (h.inside t (.inl hheld)).2

/-- Only the two moves that set `is_locked` set `lk_owner`. -/
theorem OwnerFree.step (h : OwnerFree s) (hs : GateMove (lockGate n) s t s') : OwnerFree s' := by
  cases hs with
  | pass w r hpc hready htake =>
    have hfree : s.res.is_locked = false := by simpa [lockGate] using hready
    simp only [lockGate, if_pos hfree] at htake
    cases htake
    exact fun hf => nomatch hf
  | give r hpc hgive =>
    cases hgive
    exact fun _ => rfl
  | _ => exact h

theorem OwnerFree.next (h : OwnerFree s) (hinv : LockInv s)
    (hs : lockNext s a = some s') : LockInv s' ∧ OwnerFree s' := by
  rcases lockNext_cases hs with ⟨t, rfl, hidle, rfl⟩ | ⟨t, rfl, hidle, hown, rfl⟩ | ⟨t, rfl, hmove⟩
  · exact ⟨hinv.enter hidle, h⟩
  · exact ⟨hinv.leave hidle ((hinv.owner_iff_held h hidle).mp hown), h⟩
  · exact ⟨hinv.step hmove, h.step hmove⟩

/-- With no owner to begin with, ownership is exact at all times. -/
theorem lockSystem_owner (h : (lockSystem n none).Reachable s) : OwnerOk s := by
  have hinv : LockInv s ∧ OwnerFree s := by
    refine System.invariant (I := fun s => LockInv s ∧ OwnerFree s) ?_ ?_ h
    · rintro s rfl
      exact ⟨LockInv.create none, fun _ => rfl⟩
    · intro s a s' ⟨hinv, hfree⟩ hs
      exact hfree.next hinv hs
  intro t hidle
  rw [lock_do_i_hold_iff]
  exact hinv.1.owner_iff_held hinv.2 hidle

/-- A thread whose address was in the memory of the lock holds it from the start. -/
theorem lock_create_owner (t : Fin n) : ¬ OwnerOk (lock_create (some t)) := by
  intro hok
  have hheld := (hok t rfl).mp (lock_do_i_hold_iff.mpr rfl)
  cases hheld

end Owner

end OS161
