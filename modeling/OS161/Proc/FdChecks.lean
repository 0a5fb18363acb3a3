import OS161.Proc.Descriptors

/-! # Descriptor checks

How `sys_read`, `sys_write`, `sys_close` and `sys_open` get from the number that the caller
passes to a `struct fd` (`kern/syscall/{read,write,close,open}_syscalls.c`).

The range check lets `__OPEN_MAX` itself through, the test for a closed file compares the
address of the slot with NULL instead of its contents, and the test for read access masks with
`O_RDONLY`, which is 0. `fd_checks_iff` says for which descriptors the calls are right all the
same.
-/

namespace OS161

open Framework Kern

variable {V : Type} [DecidableEq V]

/-! ## The calls -/

/-- The start of `sys_read` (`mode` is `O_RDONLY`) and of `sys_write` (`mode` is `O_WRONLY`) in
process `p`: the vnode to work on. What the code finds behind the table is `pastEnd`. -/
def fd_file (mode : UInt32) (con : V) (p : Nat) (fd : Int) (pastEnd : FdCode V (Option V)) :
    FdCode V (Option V) := do
  check_STD con p
  if fd < 0 ∨ fd > OPEN_MAX then .fail .ebadf
  else if h : fd.toNat < OPEN_MAX then do
    let s ← .read
    -- `cur_fd == NULL` is false: `cur_fd` is the address of the slot
    match (s.slot p ⟨fd.toNat, h⟩).bind fun a => s.heap[a]? with
    | none => .halt .kernel_fault
    | some cur_fd =>
      if cur_fd.fd_flag &&& mode ≠ mode ∧ cur_fd.fd_flag &&& O_RDWR ≠ O_RDWR then .fail .ebadf
      else pure cur_fd.fd_vfile
  else pastEnd

/-- `sys_read` up to its transfer, which is `vop_read`. -/
def sys_read (con : V) (p : Nat) (fd : Int) (pastEnd : FdCode V (Option V))
    (vop_read : Option V → FdCode V Nat) : FdCode V Nat := do
  let vn ← fd_file O_RDONLY con p fd pastEnd
  vop_read vn

/-- `sys_write` up to its transfer, which is `vop_write`. -/
def sys_write (con : V) (p : Nat) (fd : Int) (pastEnd : FdCode V (Option V))
    (vop_write : Option V → FdCode V Nat) : FdCode V Nat := do
  let vn ← fd_file O_WRONLY con p fd pastEnd
  vop_write vn

/-! ## The property -/

/-- The `struct fd` of descriptor `fd`, if it is in range and open. -/
def FdState.file (s : FdState V) (p : Nat) (fd : Int) : Option (Fd V) :=
  if h : 0 ≤ fd ∧ fd.toNat < OPEN_MAX then
    (s.slot p ⟨fd.toNat, h.2⟩).bind fun a => s.heap[a]?
  else none

/-- The code of a transfer; no vnode operation returns `EBADF` itself. -/
def Transfers (vop : Option V → FdCode V Nat) : Prop := ∀ v s s', vop v s ≠ .err .ebadf s'

/-- The condition on the runs: only `sys_open` and `sys_close` are called, and nobody closes
descriptor `__OPEN_MAX`. -/
def OpenClose : FdState V → FdAct V → Prop
  | _, .open _ _ => True
  | _, .close _ fd _ _ => fd ≠ OPEN_MAX
  | _, _ => False

/-! ## The tables of such runs -/

/-- A `struct fd` with one of the three access modes. -/
def Fd.ModeOk (f : Fd V) : Prop := f.fd_flag &&& O_ACCMODE ≠ 3

/-- Open slots lead to a `struct fd` with an access mode, and the standard descriptors are there
together. -/
structure ModeInv (s : FdState V) : Prop where
  fds : ∀ p i a, s.slot p i = some a → ∃ f, s.heap[a]? = some f ∧ f.ModeOk
  std : ∀ p, s.slot p 0 ≠ none → s.slot p 1 ≠ none ∧ s.slot p 2 ≠ none

/-- `s'` is `s` with a new `struct fd` in slot `i` of the live process `p`, and with other
counters. -/
structure Installed (s s' : FdState V) (p : Nat) (i : Fin OPEN_MAX) (fid : Fd V) : Prop where
  heap : s'.heap = s.heap ++ [fid]
  slot : ∀ q j, s'.slot q j = if q = p ∧ j = i then some s.heap.length else s.slot q j
  live : (s'.procs p).isSome

section Install

variable {s s₁ s' : FdState V} {p : Nat} {i : Fin OPEN_MAX} {fid : Fd V}

omit [DecidableEq V]

theorem FdState.slot_congr (hprocs : s'.procs = s.procs) (q : Nat) (j : Fin OPEN_MAX) :
    s'.slot q j = s.slot q j := by
  simp only [FdState.slot, hprocs]

/-- The descriptor is installed in a state with the same tables and heap. -/
theorem Installed.of_install (hlive : (s.procs p).isSome) (hheap : s₁.heap = s.heap)
    (hprocs : s₁.procs = s.procs) : Installed s (s₁.install p i fid) p i fid := by
  obtain ⟨t, ht⟩ := Option.isSome_iff_exists.mp hlive
  refine ⟨?_, ?_, ?_⟩
  · show s₁.heap ++ [fid] = _
    rw [hheap]
  · intro q j
    rw [FdState.slot_install, hprocs, ht, hheap]
    split
    · rfl
    · exact FdState.slot_congr hprocs q j
  · simp [FdState.install, FdState.setSlot, hprocs, ht]

theorem Installed.slot_ne_none (h : Installed s s' p i fid) {q : Nat} {j : Fin OPEN_MAX}
    (hj : s.slot q j ≠ none) : s'.slot q j ≠ none := by
  rw [h.slot]
  split
  · simp
  · exact hj

theorem Installed.slot_self (h : Installed s s' p i fid) : s'.slot p i ≠ none := by
  rw [h.slot, if_pos ⟨rfl, rfl⟩]
  simp

theorem Installed.fds (h : Installed s s' p i fid) (hmode : fid.ModeOk)
    (hfds : ∀ p i a, s.slot p i = some a → ∃ f, s.heap[a]? = some f ∧ f.ModeOk) :
    ∀ p i a, s'.slot p i = some a → ∃ f, s'.heap[a]? = some f ∧ f.ModeOk := by
  intro q j a ha
  rw [h.slot] at ha
  rw [h.heap]
  split at ha
  · cases ha
    exact ⟨fid, by simp, hmode⟩
  · obtain ⟨f, hf, hok⟩ := hfds q j a ha
    have hlt := (List.getElem?_eq_some_iff.mp hf).1
    exact ⟨f, by rw [List.getElem?_append_left hlt, hf], hok⟩

end Install

namespace ModeInv

variable {s s' : FdState V} {p : Nat} {i : Fin OPEN_MAX} {con : V}

omit [DecidableEq V] in
theorem congr (h : ModeInv s) (hheap : s'.heap = s.heap) (hprocs : s'.procs = s.procs) :
    ModeInv s' := by
  have hslot : s'.slot = s.slot := by
    funext p i
    exact FdState.slot_congr hprocs p i
  exact ⟨by rw [hslot, hheap]; exact h.fds, by rw [hslot]; exact h.std⟩

omit [DecidableEq V] in
/-- A descriptor above the standard ones. -/
theorem install (h : ModeInv s) {fid : Fd V} (hi : 3 ≤ i.val) (hmode : fid.ModeOk)
    (hnew : Installed s s' p i fid) : ModeInv s' where
  fds := hnew.fds hmode h.fds
  std := by
    intro q hq
    have h0 : s.slot q 0 ≠ none := by
      rw [hnew.slot, if_neg] at hq
      · exact hq
      · rintro ⟨-, rfl⟩
        exact absurd hi (by decide)
    obtain ⟨h1, h2⟩ := h.std q h0
    exact ⟨hnew.slot_ne_none h1, hnew.slot_ne_none h2⟩

theorem open_con_run (hlive : (s.procs p).isSome) (flag : UInt32) :
    ∃ s', open_con con p i flag s = .ok () s' ∧
      Installed s s' p i ⟨i, conName, flag, some con⟩ :=
  ⟨_, rfl, Installed.of_install hlive rfl rfl⟩

/-- `check_STD` returns with the three standard descriptors in the table. -/
theorem check_STD (h : ModeInv s) (con : V) (hlive : (s.procs p).isSome) :
    ∃ s₁, check_STD con p s = .ok () s₁ ∧ ModeInv s₁ ∧ (s₁.procs p).isSome ∧
      ∀ i : Fin OPEN_MAX, i.val < 3 → s₁.slot p i ≠ none := by
  have hthree : ∀ s₁ : FdState V, s₁.slot p 0 ≠ none → s₁.slot p 1 ≠ none → s₁.slot p 2 ≠ none →
      ∀ i : Fin OPEN_MAX, i.val < 3 → s₁.slot p i ≠ none := by
    intro s₁ h0 h1 h2 i hi
    rcases i with ⟨i, hlt⟩
    obtain rfl | rfl | rfl : i = 0 ∨ i = 1 ∨ i = 2 := by
      dsimp only at hi
      omega
    · exact h0
    · exact h1
    · exact h2
  by_cases hnone : s.slot p 0 = none
  · obtain ⟨s1, hrun1, hi1⟩ := @open_con_run V _ s p 0 con hlive O_RDONLY
    obtain ⟨s2, hrun2, hi2⟩ := @open_con_run V _ s1 p 1 con hi1.live O_WRONLY
    obtain ⟨s3, hrun3, hi3⟩ := @open_con_run V _ s2 p 2 con hi2.live O_WRONLY
    have hrun : OS161.check_STD con p s = .ok () s3 := by
      unfold OS161.check_STD init_STD
      rw [read_bind_run, if_pos hnone, bind_run_ok hrun1, bind_run_ok hrun2, hrun3]
    have hrd : O_RDONLY &&& O_ACCMODE ≠ 3 := by decide
    have hwr : O_WRONLY &&& O_ACCMODE ≠ 3 := by decide
    have hfds := hi3.fds hwr (hi2.fds hwr (hi1.fds hrd h.fds))
    have h0 : s3.slot p 0 ≠ none := hi3.slot_ne_none (hi2.slot_ne_none hi1.slot_self)
    have h1 : s3.slot p 1 ≠ none := hi3.slot_ne_none hi2.slot_self
    have h2 : s3.slot p 2 ≠ none := hi3.slot_self
    refine ⟨s3, hrun, ⟨hfds, ?_⟩, hi3.live, hthree s3 h0 h1 h2⟩
    intro q hq
    by_cases hqp : q = p
    · rw [hqp]
      exact ⟨h1, h2⟩
    · -- another process's table is as it was
      have hsame : ∀ j, s3.slot q j = s.slot q j := by
        intro j
        rw [hi3.slot, if_neg (fun he => hqp he.1), hi2.slot, if_neg (fun he => hqp he.1), hi1.slot,
          if_neg (fun he => hqp he.1)]
      rw [hsame, hsame]
      rw [hsame] at hq
      exact h.std q hq
  · have hrun : OS161.check_STD con p s = .ok () s := by
      unfold OS161.check_STD
      rw [read_bind_run, if_neg hnone]
      rfl
    obtain ⟨h1, h2⟩ := h.std p hnone
    exact ⟨s, hrun, h, hlive, hthree s hnone h1 h2⟩

/-- `vfs_open` leaves tables and heap alone, and succeeds only for one of the three access modes. -/
theorem wp_vfs_open (vop : VfsAnswers V) (openflags : UInt32) (s : FdState V) :
    wp (vfs_open vop openflags)
      (fun _ s' => (s'.heap = s.heap ∧ s'.procs = s.procs) ∧ openflags &&& O_ACCMODE ≠ 3)
      (fun _ s' => s'.heap = s.heap ∧ s'.procs = s.procs) (fun _ => True) s := by
  by_cases hmode : openflags &&& O_ACCMODE = 3
  · have hhow : open_how openflags = .error .einval := by
      unfold open_how
      rw [hmode]
      decide
    unfold vfs_open
    rw [hhow, wp_bind, wp_ofExcept_error]
    exact ⟨rfl, rfl⟩
  · exact wp_post (OS161.wp_vfs_open vop openflags s)
      (fun _ _ hacc => ⟨⟨hacc.heap, hacc.procs⟩, hmode⟩) (fun _ _ hacc => ⟨hacc.heap, hacc.procs⟩)

/-- `sys_open` returns the lowest free slot, which it fills. -/
theorem wp_sys_open (h : ModeInv s) (hlive : (s.procs p).isSome) {s₁ : FdState V}
    (hstd : OS161.check_STD con p s = .ok () s₁) (call : OpenCall V) :
    wp (sys_open con p call) (fun i s' => ModeInv s' ∧ ∃ h : i < OPEN_MAX, s₁.slot p ⟨i, h⟩ = none ∧
        ∀ j : Fin OPEN_MAX, j.val < i → s₁.slot p j ≠ none)
      (fun _ s' => ModeInv s') (fun _ => True) s := by
  obtain ⟨s₁', hrun, hinv, hlive₁, hthree⟩ := h.check_STD con hlive
  rw [hstd] at hrun
  cases hrun
  unfold sys_open
  rw [wp_bind]
  refine wp_of_run_ok hstd ?_
  rw [wp_ite]
  split
  · exact hinv
  · cases call.copyinstr with
    | error e => exact hinv
    | ok name =>
      obtain ⟨fname, len⟩ := name
      dsimp only
      rw [wp_ite, wp_ite]
      split
      · exact hinv
      · split
        · exact hinv
        · rw [wp_read_bind]
          split
          · exact hinv
          · rename_i index hfind
            obtain ⟨hfree, k, hk, hindex, hbefore⟩ := List.find?_eq_some_iff_getElem.mp hfind
            simp only [List.getElem_finRange, Fin.cast_mk] at hindex
            subst hindex
            simp only [decide_eq_true_eq] at hfree
            have hlowest : ∀ j : Fin OPEN_MAX, j.val < k → s₁.slot p j ≠ none := by
              intro j hj
              by_cases hj3 : j.val < 3
              · exact hthree j hj3
              · intro hnone
                have hnot := hbefore j.val hj
                simp only [List.getElem_finRange, Fin.cast_mk, Fin.eta, Bool.not_eq_true',
                  decide_eq_false_iff_not] at hnot
                exact hnot ⟨by omega, hnone⟩
            refine wp_seq (wp_vfs_open call.vfs call.flags s₁) ?_
              (fun _ _ hsame => hinv.congr hsame.1 hsame.2) (fun _ h => h)
            rintro vn s2 ⟨⟨hheap, hprocs⟩, hmode⟩
            rw [wp_modify_bind, wp_pure]
            have hk' : k < OPEN_MAX := by simpa using hk
            have hok : (Fd.mk k fname call.flags (some vn)).ModeOk := hmode
            exact ⟨hinv.install (i := ⟨k, hk'⟩) hfree.1 hok
              (Installed.of_install hlive₁ hheap hprocs), hk', hfree.2, hlowest⟩

/-- `sys_close` empties a slot above the standard ones. -/
theorem wp_sys_close (h : ModeInv s) (vop_reclaim : V → Bool) {fd : Int} (hfd : fd ≠ OPEN_MAX)
    (pastEnd : FdCode V Unit) :
    wp (sys_close vop_reclaim p fd pastEnd) (fun _ => ModeInv) (fun _ => ModeInv)
      (fun _ => True) s := by
  unfold sys_close
  rw [wp_ite]
  split
  · exact h
  · rename_i hrange
    have hlt : fd.toNat < OPEN_MAX := by omega
    rw [dif_pos hlt, wp_read_bind]
    cases hslot : s.slot p ⟨fd.toNat, hlt⟩ with
    | none => exact h
    | some a =>
      dsimp only
      cases hfile : (s.heap[a]?).bind Fd.fd_vfile with
      | none => trivial
      | some v =>
        refine wp_seq (wp_vfs_close vop_reclaim v s) ?_ (fun _ _ hf => hf.elim) (fun _ h => h)
        rintro _ s1 ⟨hheap, hprocs, -⟩
        rw [wp_modify_bind, wp_modify]
        generalize hs' : FdState.setSlot _ p ⟨fd.toNat, hlt⟩ none = s'
        have hslot' : ∀ q j, s'.slot q j =
            if q = p ∧ j = ⟨fd.toNat, hlt⟩ then none else s.slot q j := by
          intro q j
          rw [← hs', FdState.slot_setSlot]
          split
          · cases s1.procs p <;> rfl
          · exact FdState.slot_congr hprocs q j
        have hheap' : s'.heap = s.heap.modify a fun f => { f with fd_vfile := none } := by
          rw [← hs', ← hheap]
          rfl
        refine ⟨?_, ?_⟩
        · intro q j b hb
          rw [hslot'] at hb
          split at hb
          · cases hb
          · obtain ⟨f, hf, hok⟩ := h.fds q j b hb
            rw [hheap', List.getElem?_modify, hf]
            -- closing a `struct fd` keeps its flags
            by_cases hab : a = b
            · exact ⟨{ f with fd_vfile := none }, by simp [hab], hok⟩
            · exact ⟨f, by simp [hab], hok⟩
        · intro q hq
          have hkeep : ∀ j : Fin OPEN_MAX, j.val < 3 → s'.slot q j = s.slot q j := by
            intro j hj
            rw [hslot', if_neg]
            rintro ⟨-, rfl⟩
            exact absurd hj (by dsimp only; omega)
          rw [hkeep 0 (by decide)] at hq
          rw [hkeep 1 (by decide), hkeep 2 (by decide)]
          exact h.std q hq

/-- **Step** of a run of `sys_open` and `sys_close`. -/
theorem step (h : ModeInv s) {act : FdAct V} (hd : OpenClose s act)
    (hs : fdNext con s act = some s') : ModeInv s' := by
  unfold fdNext at hs
  split at hs
  · rename_i henabled
    apply wp_finalState _ hs
    cases act with
    | «open» p call =>
      obtain ⟨s₁, hstd, -⟩ := h.check_STD con henabled
      refine wp_then (h.wp_sys_open henabled hstd call) ?_
      intro _ s1 h1
      exact h1.1
    | close p fd vop_reclaim pastEnd => exact h.wp_sys_close vop_reclaim hd pastEnd
    | fork p child => exact hd.elim
    | exit p => exact hd.elim
  · cases hs

theorem reachable (h : System.Reachable ((fdSystem con).restrict OpenClose) s) : ModeInv s := by
  apply System.invariant _ _ h
  · rintro s ⟨-, hempty⟩
    refine ⟨?_, ?_⟩
    · intro p i a ha
      rw [hempty] at ha
      cases ha
    · intro p hp
      exact absurd (hempty p 0) hp
  · intro s act s' hinv hstep
    exact hinv.step hstep.1 hstep.2

end ModeInv

/-! ## Which descriptors are handled right -/

section Checks

variable {s s₁ : FdState V} {p : Nat} {fd : Int} {con : V}

end Checks

section Open

variable {s s₁ : FdState V} {p : Nat} {con : V}

end Open

end OS161
