import OS161.Framework.WaitGate

/-! # Semaphores

The model of `P` and `V` in `kern/thread/synch.c`, on top of the wait channels of
`kern/thread/thread.c`. A semaphore is a gate: its resource is `sem_count`, `P` enters and `V`
leaves.

`sem_count` is an `int`. `V` asserts that it is positive after the increment, so a semaphore
that is counted up past `2^31 - 1` stops the machine.
-/

namespace OS161

open Framework Function

variable {n : Nat}

/-! ## The gate -/

/-- A value of type `int`. -/
def CInt : Type := { k : Int // -2 ^ 31 ≤ k ∧ k < 2 ^ 31 }

/-- The `int` that the machine computes for `k`. -/
def CInt.wrap (k : Int) : CInt :=
  ⟨Int.bmod k (2 ^ 32), by
    have hlo := Int.le_bmod (x := k) (m := 2 ^ 32) (by decide)
    have hhi := Int.bmod_lt (x := k) (m := 2 ^ 32) (by decide)
    omega⟩

/-- `P` and `V` on `sem_count`. -/
def semGate (n : Nat) : Gate CInt (Fin n) where
  -- the test of `while (sem->sem_count == 0)`
  ready := fun sem_count => decide (sem_count.val ≠ 0)
  take := fun _ sem_count => if sem_count.val > 0 then some (.wrap (sem_count.val - 1)) else none
  give := fun _ sem_count =>
    let sem_count := CInt.wrap (sem_count.val + 1)
    if sem_count.val > 0 then some sem_count else none

/-- Threads that call `P` and `V` at will on a semaphore made by `sem_create(name, c)`. -/
def semSystem (n : Nat) (c : CInt) : System (GateState CInt (Fin n)) (GateAct (Fin n)) :=
  .ofNext (fun s => s = GateState.start c) (semGate n).next

/-- What is to hold in every state. -/
structure SemOk (c : CInt) (s : GateState CInt (Fin n)) : Prop where
  /-- With the spinlock free, the count is the balance of the completed calls. -/
  count : s.spin = none → s.res.val = c.val + s.left - s.entered ∧ 0 ≤ s.res.val
  /-- No wakeup is lost. -/
  no_lost_wakeup : ¬ (0 < s.res.val ∧ (∃ t, s.pc t = .asleep) ∧ (∀ t, (s.pc t).leaves = false) ∧
    (countOf (GatePc.woken ∘ s.pc) : Int) < s.res.val)

/-! ## Arithmetic of the count -/

theorem CInt.wrap_val {k : Int} (h0 : -2 ^ 31 ≤ k) (h1 : k < 2 ^ 31) : (CInt.wrap k).val = k := by
  show Int.bmod k (2 ^ 32) = k
  rw [Int.bmod_eq_of_le_mul_two] <;> omega

/-- A count that passes the assertion of `P` goes down by one. -/
theorem semGate_take {t : Fin n} {k k' : CInt} (h : (semGate n).take t k = some k') :
    0 < k.val ∧ k'.val = k.val - 1 := by
  have hrange := k.property
  simp only [semGate] at h
  split at h
  · cases h
    exact ⟨by assumption, CInt.wrap_val (by omega) (by omega)⟩
  · cases h

/-- A count that passes the assertion of `V` has gone up by one. -/
theorem semGate_give {t : Fin n} {k k' : CInt} (h : (semGate n).give t k = some k') :
    k'.val = k.val + 1 ∧ 0 < k'.val := by
  have hrange := k.property
  simp only [semGate] at h
  split at h
  · rename_i hpos
    cases h
    refine ⟨?_, hpos⟩
    by_cases hmax : k.val + 1 < 2 ^ 31
    · exact CInt.wrap_val (by omega) hmax
    · -- the increment of the largest `int` gives the smallest one
      have hk : k.val + 1 = 2 ^ 31 := by omega
      rw [hk] at hpos
      exact absurd hpos (by decide)
  · cases h

/-- How many calls of `P` would go through. -/
def semAvail (sem_count : CInt) : Nat := sem_count.val.toNat

theorem semGate_laws : GateLaws (semGate n) semAvail where
  ready := by
    intro k hk
    have hzero : k.val = 0 := by simpa [semGate] using hk
    unfold semAvail
    rw [hzero]
    rfl
  take := by
    intro t k k' _ htake
    obtain ⟨hpos, hval⟩ := semGate_take htake
    unfold semAvail
    omega
  give := by
    intro t k k' hgive
    obtain ⟨hval, -⟩ := semGate_give hgive
    unfold semAvail
    omega

/-! ## The balance of completed calls -/

/-- The count is that of the completed calls and of a `V` that has counted up. -/
structure SemCount (c : CInt) (s : GateState CInt (Fin n)) : Prop where
  balance : s.res.val + s.entered = c.val + s.left + countOf (GatePc.gave ∘ s.pc)
  nonneg : 0 ≤ s.res.val

namespace SemCount

variable {c : CInt} {s s' : GateState CInt (Fin n)} {t : Fin n} {p : GatePc (Fin n)}

theorem gave_same (hpc : s'.pc = update s.pc t p) (hgave : p.gave = (s.pc t).gave) :
    GatePc.gave ∘ s'.pc = GatePc.gave ∘ s.pc := by
  rw [hpc, comp_update, hgave]
  exact update_eq_self t (GatePc.gave ∘ s.pc)

/-- A move that changes no number. -/
theorem keep (h : SemCount c s) (hpc : s'.pc = update s.pc t p)
    (hgave : p.gave = (s.pc t).gave) (hres : s'.res = s.res)
    (hentered : s'.entered = s.entered) (hleft : s'.left = s.left) : SemCount c s' := by
  constructor
  · rw [hres, hentered, hleft, gave_same hpc hgave]
    exact h.balance
  · rw [hres]
    exact h.nonneg

theorem step (h : SemCount c s) (hinv : GateInv semAvail s) (hs : GateMove (semGate n) s t s') :
    SemCount c s' := by
  cases hs with
  | lock p hfree hp =>
    refine h.keep rfl ?_ rfl rfl rfl
    rcases hp with ⟨hpc, rfl⟩ | ⟨w, hpc, rfl⟩ <;> rw [hpc] <;> rfl
  | pass w r hpc hready htake =>
    obtain ⟨hpos, hval⟩ := semGate_take htake
    have hsame : GatePc.gave ∘ (s.pass t r).pc = GatePc.gave ∘ s.pc :=
      gave_same rfl (by rw [hpc]; rfl)
    constructor
    · rw [hsame]
      have hbefore := h.balance
      show r.val + ((s.entered + 1 : Nat) : Int) = c.val + s.left + _
      push_cast
      omega
    · show 0 ≤ r.val
      omega
  | fail w hpc hready hfree | unlock hpc | enqueue hpc | fallAsleep hpc =>
    exact h.keep rfl (by rw [hpc]; rfl) rfl rfl rfl
  | give r hpc hgive =>
    obtain ⟨hval, hpos⟩ := semGate_give hgive
    have hmore := countOf_update_true (f := GatePc.gave ∘ s.pc) (t := t)
      (by simp [hpc, GatePc.gave])
    have hpcs : GatePc.gave ∘ ({ s with res := r }.setPc t .wake).pc =
        update (GatePc.gave ∘ s.pc) t true := by
      show GatePc.gave ∘ update s.pc t .wake = _
      rw [comp_update]
      rfl
    constructor
    · rw [hpcs, hmore]
      have hbefore := h.balance
      show r.val + (s.entered : Int) = c.val + s.left + ((_ + 1 : Nat) : Int)
      push_cast
      omega
    · show 0 ≤ r.val
      omega
  | wake hpc hfree | popNone hpc hqueue | popSome a rest hpc hqueue | runNone hpc =>
    exact h.keep rfl (by rw [hpc]; rfl) rfl rfl rfl
  | runSome a hpc =>
    have ha : s.pc a = .asleep := hinv.target_asleep hpc
    have hat : t ≠ a := by
      rintro rfl
      rw [ha] at hpc
      cases hpc
    have hfirst : SemCount c (s.setPc a (.enter true)) := h.keep rfl (by rw [ha]; rfl) rfl rfl rfl
    refine hfirst.keep rfl ?_ rfl rfl rfl
    rw [GateState.setPc_pc, update_of_ne hat, hpc]
    rfl
  | done hpc =>
    have hless := countOf_update_false (f := GatePc.gave ∘ s.pc) (t := t) (by simp [hpc, GatePc.gave])
    have hpcs : GatePc.gave ∘ ({ s with spin := none, left := s.left + 1 }.setPc t .idle).pc =
        update (GatePc.gave ∘ s.pc) t false := by
      show GatePc.gave ∘ update s.pc t .idle = _
      rw [comp_update]
      rfl
    constructor
    · rw [hpcs]
      have hbefore := h.balance
      rw [← hless] at hbefore
      show s.res.val + (s.entered : Int) = c.val + ((s.left + 1 : Nat) : Int) + _
      push_cast at hbefore ⊢
      omega
    · exact h.nonneg

theorem next (h : SemCount c s) (hinv : GateInv semAvail s) {a : GateAct (Fin n)}
    (hs : (semGate n).next s a = some s') : SemCount c s' := by
  rcases Gate.next_cases hs with ⟨t, -, hidle, rfl⟩ | ⟨t, -, hidle, rfl⟩ | ⟨t, -, hmove⟩
  · exact h.keep rfl (by rw [hidle]; rfl) rfl rfl rfl
  · exact h.keep (p := .leave) rfl (by rw [hidle]; rfl) rfl rfl rfl
  · exact h.step hinv hmove

end SemCount

/-! ## Every run -/

/-- Both invariants hold in every state. -/
theorem semSystem_inv {c : CInt} (hc : 0 ≤ c.val) {s : GateState CInt (Fin n)}
    (h : (semSystem n c).Reachable s) : GateInv semAvail s ∧ SemCount c s := by
  refine System.invariant (I := fun s => GateInv semAvail s ∧ SemCount c s) ?_ ?_ h
  · rintro s rfl
    refine ⟨GateInv.start _ c, ?_, hc⟩
    have hnone : countOf (GatePc.gave ∘ (GateState.start c : GateState CInt (Fin n)).pc) = 0 := by
      apply Finset.card_eq_zero.mpr
      apply Finset.filter_eq_empty_iff.mpr
      intro t _ ht
      cases ht
    rw [hnone]
    simp [GateState.start]
  · rintro s a s' ⟨hinv, hcount⟩ hs
    exact ⟨hinv.next semGate_laws hs, hcount.next hinv hs⟩

/-- **Semaphores are correct.** In every state of every run of any number of threads, the count is
the balance of the completed calls, and no wakeup is lost. -/
theorem sem_correct {c : CInt} (hc : 0 ≤ c.val) {s : GateState CInt (Fin n)}
    (h : (semSystem n c).Reachable s) : SemOk c s := by
  obtain ⟨hinv, hcount⟩ := semSystem_inv hc h
  constructor
  · intro hfree
    -- a `V` between its increment and its return holds the spinlock
    have hnone : countOf (GatePc.gave ∘ s.pc) = 0 := by
      apply Finset.card_eq_zero.mpr
      apply Finset.filter_eq_empty_iff.mpr
      intro t _ ht
      have hspin : s.spin = some t := by
        apply (hinv.spin t).mpr
        revert ht
        show (s.pc t).gave = true → (s.pc t).spins = true
        cases s.pc t <;> simp [GatePc.gave, GatePc.spins]
      rw [hfree] at hspin
      cases hspin
    have hbalance := hcount.balance
    rw [hnone] at hbalance
    refine ⟨?_, hcount.nonneg⟩
    push_cast at hbalance
    omega
  · rintro ⟨hpos, ⟨t, ht⟩, hleaves, hfew⟩
    have henough := hinv.no_lost_wakeup ht hleaves
    unfold semAvail at henough
    omega

/-- Two threads and a semaphore of count 0: thread 0 is put to sleep in `P`, and thread 1 wakes it
up with `V`. -/
theorem sem_correct_two :
    ∃ s : GateState CInt (Fin 2), (semSystem 2 ⟨0, by decide⟩).Reachable s ∧
      s.res.val = 1 ∧ s.pc 0 = .enter true ∧ s.left = 1 ∧ SemOk ⟨0, by decide⟩ s := by
  have hrun : ((System.follow (semGate 2).next [.enter 0, .step 0, .step 0, .step 0, .step 0, .step 0,
      .leave 1, .step 1, .step 1, .step 1, .step 1, .step 1, .step 1]
      (GateState.start ⟨0, by decide⟩)).map fun s => (s.res.val, s.pc 0, s.left)) =
        some (1, .enter true, 1) := by
    decide
  obtain ⟨s, hs, hres⟩ := Option.map_eq_some_iff.mp hrun
  have hreach : (semSystem 2 ⟨0, by decide⟩).Reachable s := System.Reachable.follow _ (.init rfl) hs
  have h1 := congrArg Prod.fst hres
  have h2 := congrArg (fun x => x.2.1) hres
  have h3 := congrArg (fun x => x.2.2) hres
  exact ⟨s, hreach, h1, h2, h3, sem_correct (by decide) hreach⟩

end OS161
