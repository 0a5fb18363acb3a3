import OS161.Framework.Tally
import OS161.Vm.TlbCoherence

/-! # VM statistics

The counters of `kern/vm/uw-vmstats.c` along the runs of processes that fault, are switched and
load programs. Each counter is a 32-bit word that wraps around. A fault that finds the page in
its page table counts a reload; one that has to give the page a frame counts nothing there.

`loads` is not part of the kernel: it says how often `pte_load` has run.
-/

namespace OS161.VmStats

open Function

open Framework Coherence

/-- The counters, under the names of `uw-vmstats.h`. -/
inductive VmStat where
  | TLB_FAULT
  | TLB_FAULT_FREE
  | TLB_FAULT_REPLACE
  | TLB_INVALIDATE
  | TLB_RELOAD
  | PAGE_FAULT_ZERO
  | PAGE_FAULT_DISK
  | ELF_FILE_READ
  | SWAP_FILE_READ
  | SWAP_FILE_WRITE
  deriving DecidableEq, Repr

/-- `stats_counts`. -/
abbrev Counts : Type := VmStat → UInt32

def vmstats_inc (c : Counts) (i : VmStat) : Counts := update c i (c i + 1)

structure StatState where
  machine : Coherence.State
  counts : Counts
  loads : Nat

/-! ## What a step counts -/

/-- The page is in the page table that `vm_fault` looks it up in. -/
def mapped (as : AddrSpace) (addr : Nat) : Bool :=
  match as.select addr with
  | none => false
  | some t => (as.frame t ((as.segment t).vpn addr)).isSome

/-- How `segment_lookup` gets the frame, if `vm_fault` comes to it: from `pte_reload`, or else from `pte_load`. -/
def lookedUp (s : Coherence.State) (cpu : Nat) : Option Bool :=
  (s.cur cpu).bind fun p =>
    match s.stage p, s.p_addrspace p with
    | .missing addr write _, some k =>
      (s.spaces[k]?).bind fun as =>
        match fault_lookup addr write (s.ram, as) with
        | .ok _ _ => some (mapped as addr)
        | _ => none
    | _, _ => none

/-- The counters that a step increments. -/
def increments (s : Coherence.State) : Coherence.Act → List VmStat
  | .proc cpu .lookup =>
    match lookedUp s cpu with
    | some true => [.TLB_RELOAD]
    | _ => []
  | .proc cpu .fill =>
    match tlb_first_invalid (s.tlbs cpu) with
    | some _ => [.TLB_FAULT, .TLB_FAULT_FREE]
    | none => [.TLB_FAULT]
  | .proc _ .evict => [.TLB_FAULT_REPLACE]
  -- `as_activate` counts if there is an address space
  | .proc cpu .activate => if ((s.cur cpu).bind s.p_addrspace).isSome then [.TLB_INVALIDATE] else []
  | .switch _ q => if (q.bind s.p_addrspace).isSome then [.TLB_INVALIDATE] else []
  | _ => []

/-- The frames that a step takes for pages. -/
def pageLoads (s : Coherence.State) : Coherence.Act → Nat
  | .proc cpu .lookup => if lookedUp s cpu = some false then 1 else 0
  | _ => 0

def statNext (s : StatState) (a : Coherence.Act) : Option StatState :=
  (Coherence.next s.machine a).map fun m =>
    { machine := m
      counts := (increments s.machine a).foldl vmstats_inc s.counts
      loads := s.loads + pageLoads s.machine a }

/-- The machine at boot, after `vmstats_init`. -/
def statSystem (firstfree ramsize : Nat) : System StatState Coherence.Act :=
  .ofNext (fun s => Boot firstfree ramsize s.machine ∧ (∀ i, s.counts i = 0) ∧ s.loads = 0) statNext

/-- The equations that `_vmstats_print` checks. -/
structure Identities (c : Counts) : Prop where
  faults : c .TLB_FAULT = c .TLB_FAULT_FREE + c .TLB_FAULT_REPLACE
  pages : c .TLB_FAULT = c .PAGE_FAULT_DISK + c .PAGE_FAULT_ZERO + c .TLB_RELOAD
  disk : c .PAGE_FAULT_DISK = c .ELF_FILE_READ + c .SWAP_FILE_READ

/-- The process is in `vm_fault`. -/
def faulting (st : Stage) : Bool := st.pending.isSome

/-! ## Faults in progress -/

/-- The page has been looked up, the fault is not counted yet. -/
def uncounted : Stage → Bool
  | .found _ _ => true
  | _ => false

/-- The fault is counted, and the TLB entry that it replaces is not. -/
def replacing : Stage → Bool
  | .full _ _ | .evict _ _ _ | .bump _ _ _ _ => true
  | _ => false

theorem not_uncounted {st : Stage} (h : faulting st = false) : uncounted st = false := by
  cases st <;> first | rfl | cases h

theorem not_replacing {st : Stage} (h : faulting st = false) : replacing st = false := by
  cases st <;> first | rfl | cases h

/-- What a step does to the faults in progress, with the counters that it increments and the frames
that it takes. `p` is the process that moves. -/
inductive Effect (st st' : Stage) : List VmStat → Nat → Prop where
  | none (hu : uncounted st' = uncounted st) (hr : replacing st' = replacing st) : Effect st st' [] 0
  | invalidated (hu : uncounted st' = uncounted st) (hr : replacing st' = replacing st) :
      Effect st st' [.TLB_INVALIDATE] 0
  | reloaded (hu : uncounted st = false) (hu' : uncounted st' = true) (hr : replacing st' = replacing st) :
      Effect st st' [.TLB_RELOAD] 0
  | loaded (hu : uncounted st = false) (hu' : uncounted st' = true) (hr : replacing st' = replacing st) :
      Effect st st' [] 1
  | filled (hu : uncounted st = true) (hu' : uncounted st' = false) (hr : replacing st' = replacing st) :
      Effect st st' [.TLB_FAULT, .TLB_FAULT_FREE] 0
  | full (hu : uncounted st = true) (hu' : uncounted st' = false) (hr : replacing st = false)
      (hr' : replacing st' = true) : Effect st st' [.TLB_FAULT] 0
  | replaced (hu : uncounted st' = uncounted st) (hr : replacing st = true) (hr' : replacing st' = false) :
      Effect st st' [.TLB_FAULT_REPLACE] 0

theorem resume_uncounted (back : Bool) : uncounted (.resume back) = false := by cases back <;> rfl

theorem resume_replacing (back : Bool) : replacing (.resume back) = false := by cases back <;> rfl

variable {s s' : Coherence.State}

theorem onSpace_stage {k : Nat} {m : Kern AddrSpace Errno Panic Unit}
    (hs : Coherence.onSpace s k m = some s') : s'.stage = s.stage := by
  obtain ⟨as, -, hs⟩ := Option.bind_eq_some_iff.mp hs
  obtain ⟨as', -, rfl⟩ := Option.map_eq_some_iff.mp hs
  rfl

variable {cpu p : Nat}

/-- A step of a process changes the stage of no other. -/
theorem proc_others {a : ProcAct} (h : ProcMove s cpu p a s') {q : Nat}
    (hq : q ≠ p) : s'.stage q = s.stage q := by
  have hset : ∀ (m : Coherence.State) st, (m.setStage p st).stage q = m.stage q :=
    fun m st => update_of_ne hq _ _
  cases h with
  | as_define_region k vaddr sz _ hs => rw [onSpace_stage hs]
  | as_complete_load k _ hs => rw [onSpace_stage hs]
  | lookup k addr write back _ hst hk hs =>
    obtain ⟨as, -, hs⟩ := Option.bind_eq_some_iff.mp hs
    cases hrun : fault_lookup addr write (s.ram, as) with
    | ok r m =>
      rw [hrun] at hs
      cases hs
      exact hset _ _
    | err e m =>
      rw [hrun] at hs
      cases hs
      exact hset _ _
    | panic e =>
      rw [hrun] at hs
      cases hs
  | activate hst =>
    rw [hset]
    unfold Coherence.State.as_activate
    split <;> rfl
  | _ => exact hset _ _

theorem lookup_effect (hcur : s.cur cpu = some p) (hs : procNext s cpu p .lookup = some s') :
    Effect (s.stage p) (s'.stage p) (increments s (.proc cpu .lookup)) (pageLoads s (.proc cpu .lookup)) := by
  have hset : ∀ (m : Coherence.State) st, (m.setStage p st).stage p = st := fun m st => update_self _ _ _
  cases procNext_move hs with
  | nospace addr write back hst =>
    by_cases hk : s.p_addrspace p = none
    · have hlooked : lookedUp s cpu = none := by simp [lookedUp, hcur, hst, hk]
      simp only [increments, pageLoads, hlooked, hset, reduceCtorEq, if_false]
      rw [hst]
      exact .none rfl rfl
    · -- with an address space the page is looked up
      obtain ⟨k, hk⟩ := Option.ne_none_iff_exists'.mp hk
      unfold procNext at hs
      simp only [hst, hk] at hs
      obtain ⟨as, has, hs⟩ := Option.bind_eq_some_iff.mp hs
      cases hrun : fault_lookup addr write (s.ram, as) with
      | ok r m =>
        rw [hrun] at hs
        have hfound := congrArg (fun s => s.stage p) (Option.some.inj hs)
        simp only [hset, reduceCtorEq] at hfound
      | err e m =>
        have hlooked : lookedUp s cpu = none := by simp [lookedUp, hcur, hst, hk, has, hrun]
        simp only [increments, pageLoads, hlooked, hset, reduceCtorEq, if_false]
        rw [hst]
        exact .none rfl rfl
      | panic e =>
        rw [hrun] at hs
        cases hs
  | lookup k addr write back _ hst hk hs =>
    obtain ⟨as, has, hs⟩ := Option.bind_eq_some_iff.mp hs
    cases hrun : fault_lookup addr write (s.ram, as) with
    | ok r m =>
      rw [hrun] at hs
      cases hs
      have hlooked : lookedUp s cpu = some (mapped as addr) := by simp [lookedUp, hcur, hst, hk, has, hrun]
      simp only [increments, pageLoads, hlooked, hset]
      rw [hst]
      cases mapped as addr with
      | true => exact .reloaded rfl rfl rfl
      | false => exact .loaded rfl rfl rfl
    | err e m =>
      rw [hrun] at hs
      cases hs
      have hlooked : lookedUp s cpu = none := by simp [lookedUp, hcur, hst, hk, has, hrun]
      simp only [increments, pageLoads, hlooked, hset, reduceCtorEq, if_false]
      rw [hst]
      exact .none rfl rfl
    | panic e =>
      rw [hrun] at hs
      cases hs

theorem fill_effect (hs : procNext s cpu p .fill = some s') :
    Effect (s.stage p) (s'.stage p) (increments s (.proc cpu .fill)) (pageLoads s (.proc cpu .fill)) := by
  have hset : ∀ (m : Coherence.State) st, (m.setStage p st).stage p = st := fun m st => update_self _ _ _
  have hfound : ∃ e back, s.stage p = .found e back := by
    cases procNext_move hs with
    | fillFree e back i hst => exact ⟨e, back, hst⟩
    | fillFull e back hst => exact ⟨e, back, hst⟩
  obtain ⟨e, back, hst⟩ := hfound
  unfold procNext at hs
  simp only [hst] at hs
  cases hi : tlb_first_invalid (s.tlbs cpu) with
  | some i =>
    simp only [hi, Option.some.injEq] at hs
    simp only [increments, hi]
    rw [← hs, hset, hst]
    exact .filled rfl (resume_uncounted back) (resume_replacing back)
  | none =>
    simp only [hi, Option.some.injEq] at hs
    simp only [increments, hi]
    rw [← hs, hset, hst]
    exact .full rfl rfl rfl rfl

theorem proc_effect {a : ProcAct} (hcur : s.cur cpu = some p) (hs : procNext s cpu p a = some s') :
    Effect (s.stage p) (s'.stage p) (increments s (.proc cpu a)) (pageLoads s (.proc cpu a)) := by
  have hset : ∀ (m : Coherence.State) st, (m.setStage p st).stage p = st := fun m st => update_self _ _ _
  cases procNext_move hs with
  | trap hst | ret hst | drop hst | fail hst =>
    rw [hset, hst]
    exact .none rfl rfl
  | install k exec hst hk =>
    rw [hset, hst]
    exact .none rfl rfl
  | activate hst =>
    rw [hset, hst]
    unfold increments
    dsimp only
    split
    · exact .invalidated rfl rfl
    · exact .none rfl rfl
  | as_define_region k vaddr sz _ hs =>
    rw [onSpace_stage hs]
    exact .none rfl rfl
  | as_complete_load k _ hs =>
    rw [onSpace_stage hs]
    exact .none rfl rfl
  | fault addr write hst hmiss back =>
    rw [hset]
    rcases hst with hst | hst
    · rw [hst]
      exact .none rfl rfl
    · rw [hst]
      exact .none rfl rfl
  | nospace _ _ _ _ | lookup _ _ _ _ _ _ _ _ => exact lookup_effect hcur hs
  | fillFree _ _ _ _ | fillFull _ _ _ => exact fill_effect hs
  | loadVictim e back hst =>
    rw [hset, hst]
    exact .none rfl rfl
  | loadAgain e v back hst =>
    rw [hset, hst]
    exact .none rfl rfl
  | evict e v tmp back hst =>
    rw [hset, hst]
    exact .replaced (resume_uncounted back) rfl (resume_replacing back)

/-! ## The counters -/

/-- What the counters say, with faults in progress. -/
structure StatInv (s : StatState) : Prop where
  counted : ∃ looked full, Tally (fun p => uncounted (s.machine.stage p) = true) looked ∧
    Tally (fun p => replacing (s.machine.stage p) = true) full ∧
    s.counts .TLB_FAULT = s.counts .TLB_FAULT_FREE + s.counts .TLB_FAULT_REPLACE + UInt32.ofNat full ∧
    s.counts .TLB_RELOAD + UInt32.ofNat s.loads = s.counts .TLB_FAULT + UInt32.ofNat looked
  /-- Nothing in the kernel increments these. -/
  unused : s.counts .PAGE_FAULT_ZERO = 0 ∧ s.counts .PAGE_FAULT_DISK = 0 ∧ s.counts .ELF_FILE_READ = 0 ∧
    s.counts .SWAP_FILE_READ = 0

/-- **One step**: the stage of one process changes, and the counters with it. -/
theorem StatInv.effect {s : StatState} (h : StatInv s) {m : Coherence.State} {p : Nat} {incs : List VmStat} {n : Nat}
    (hothers : ∀ q, q ≠ p → m.stage q = s.machine.stage q) (he : Effect (s.machine.stage p) (m.stage p) incs n) :
    StatInv ⟨m, incs.foldl vmstats_inc s.counts, s.loads + n⟩ := by
  obtain ⟨⟨looked, full, hlooked, hfull, hfaults, hpages⟩, hunused⟩ := h
  have hu : ∀ q, q ≠ p → (uncounted (m.stage q) = true ↔ uncounted (s.machine.stage q) = true) := by
    intro q hq
    rw [hothers q hq]
  have hr : ∀ q, q ≠ p → (replacing (m.stage q) = true ↔ replacing (s.machine.stage q) = true) := by
    intro q hq
    rw [hothers q hq]
  cases he with
  | none hu' hr' | invalidated hu' hr' =>
    exact ⟨⟨looked, full, hlooked.stay hu (by rw [hu']), hfull.stay hr (by rw [hr']), hfaults, hpages⟩, hunused⟩
  | reloaded hu₁ hu₂ hr' =>
    refine ⟨⟨looked + 1, full, hlooked.enter hu (by simp [hu₁]) hu₂, hfull.stay hr (by rw [hr']), hfaults, ?_⟩, hunused⟩
    show s.counts .TLB_RELOAD + 1 + UInt32.ofNat s.loads = s.counts .TLB_FAULT + UInt32.ofNat (looked + 1)
    rw [UInt32.ofNat_add]
    grind
  | loaded hu₁ hu₂ hr' =>
    refine ⟨⟨looked + 1, full, hlooked.enter hu (by simp [hu₁]) hu₂, hfull.stay hr (by rw [hr']), hfaults, ?_⟩, hunused⟩
    show s.counts .TLB_RELOAD + UInt32.ofNat (s.loads + 1) = s.counts .TLB_FAULT + UInt32.ofNat (looked + 1)
    rw [UInt32.ofNat_add, UInt32.ofNat_add]
    grind
  | filled hu₁ hu₂ hr' =>
    obtain ⟨k, rfl⟩ := Nat.exists_eq_succ_of_ne_zero (hlooked.pos hu₁).ne'
    refine ⟨⟨k, full, hlooked.leave hu hu₁ (by simp [hu₂]), hfull.stay hr (by rw [hr']), ?_, ?_⟩, hunused⟩
    · show s.counts .TLB_FAULT + 1 = s.counts .TLB_FAULT_FREE + 1 + s.counts .TLB_FAULT_REPLACE + UInt32.ofNat full
      grind
    · show s.counts .TLB_RELOAD + UInt32.ofNat s.loads = s.counts .TLB_FAULT + 1 + UInt32.ofNat k
      rw [Nat.succ_eq_add_one, UInt32.ofNat_add] at hpages
      grind
  | full hu₁ hu₂ hr₁ hr₂ =>
    obtain ⟨k, rfl⟩ := Nat.exists_eq_succ_of_ne_zero (hlooked.pos hu₁).ne'
    refine ⟨⟨k, full + 1, hlooked.leave hu hu₁ (by simp [hu₂]), hfull.enter hr (by simp [hr₁]) hr₂, ?_, ?_⟩, hunused⟩
    · show s.counts .TLB_FAULT + 1 = s.counts .TLB_FAULT_FREE + s.counts .TLB_FAULT_REPLACE + UInt32.ofNat (full + 1)
      rw [UInt32.ofNat_add]
      grind
    · show s.counts .TLB_RELOAD + UInt32.ofNat s.loads = s.counts .TLB_FAULT + 1 + UInt32.ofNat k
      rw [Nat.succ_eq_add_one, UInt32.ofNat_add] at hpages
      grind
  | replaced hu' hr₁ hr₂ =>
    obtain ⟨k, rfl⟩ := Nat.exists_eq_succ_of_ne_zero (hfull.pos hr₁).ne'
    refine ⟨⟨looked, k, hlooked.stay hu (by rw [hu']), hfull.leave hr hr₁ (by simp [hr₂]), ?_, hpages⟩, hunused⟩
    show s.counts .TLB_FAULT = s.counts .TLB_FAULT_FREE + (s.counts .TLB_FAULT_REPLACE + 1) + UInt32.ofNat k
    rw [Nat.succ_eq_add_one, UInt32.ofNat_add] at hfaults
    grind

theorem StatInv.step {s s' : StatState} {a : Coherence.Act} (h : StatInv s) (hs : statNext s a = some s') :
    StatInv s' := by
  obtain ⟨m, hm, rfl⟩ := Option.map_eq_some_iff.mp hs
  cases a with
  | as_create =>
    cases hm
    exact h.effect (p := 0) (fun _ _ => rfl) (.none rfl rfl)
  | getppages npages =>
    unfold Coherence.next at hm
    dsimp only at hm
    split at hm
    · obtain ⟨ram, -, rfl⟩ := Option.map_eq_some_iff.mp hm
      exact h.effect (p := 0) (fun _ _ => rfl) (.none rfl rfl)
    · cases hm
  | switch cpu q =>
    unfold Coherence.next at hm
    dsimp only at hm
    split at hm
    · cases hm
      have hstage : ((s.machine.become cpu q).as_activate cpu).stage = s.machine.stage := by
        unfold Coherence.State.as_activate
        split <;> rfl
      refine h.effect (p := 0) (fun _ _ => by rw [hstage]) ?_
      rw [hstage]
      unfold increments
      dsimp only
      split
      · exact .invalidated rfl rfl
      · exact .none rfl rfl
    · cases hm
  | proc cpu a =>
    obtain ⟨p, hcur, hp⟩ := Option.bind_eq_some_iff.mp hm
    exact h.effect (fun q hq => proc_others (procNext_move hp) hq) (proc_effect hcur hp)

theorem statInv_reachable {firstfree ramsize : Nat} {s : StatState}
    (h : (statSystem firstfree ramsize).Reachable s) : StatInv s := by
  refine System.invariant (I := StatInv) ?_ ?_ h
  · intro s ⟨hboot, hcounts, hloads⟩
    have hstage := hboot.stage
    refine ⟨⟨0, 0, Tally.zero fun p => ?_, Tally.zero fun p => ?_, ?_, ?_⟩, hcounts _, hcounts _, hcounts _, hcounts _⟩
    · rw [hstage p]
      exact Bool.false_ne_true
    · rw [hstage p]
      exact Bool.false_ne_true
    · rw [hcounts, hcounts, hcounts]
      rfl
    · rw [hcounts, hcounts, hloads]
  · intro s a s' hinv hs
    exact hinv.step hs

/-- **VM statistics.** Whenever no fault is in progress, the faults are those with a free entry and
those with a replaced one, and the disk counters agree; all the equations hold exactly if the
number of pages that have got a frame is 0 modulo 2^32, since `pte_load` counts nothing. -/
theorem vmstats_identities {firstfree ramsize : Nat} {s : StatState}
    (h : (statSystem firstfree ramsize).Reachable s) (hquiet : ∀ p, faulting (s.machine.stage p) = false) :
    s.counts .TLB_FAULT = s.counts .TLB_FAULT_FREE + s.counts .TLB_FAULT_REPLACE ∧
      s.counts .PAGE_FAULT_DISK = s.counts .ELF_FILE_READ + s.counts .SWAP_FILE_READ ∧
      (Identities s.counts ↔ s.loads % 2 ^ 32 = 0) := by
  obtain ⟨⟨looked, full, hlooked, hfull, hfaults, hpages⟩, hzero, hdisk, helf, hswap⟩ := statInv_reachable h
  -- nothing is in progress
  obtain rfl := hlooked.eq_zero fun p => by simp [not_uncounted (hquiet p)]
  obtain rfl := hfull.eq_zero fun p => by simp [not_replacing (hquiet p)]
  have h1 : s.counts .TLB_FAULT = s.counts .TLB_FAULT_FREE + s.counts .TLB_FAULT_REPLACE := by
    simpa using hfaults
  have h2 : s.counts .PAGE_FAULT_DISK = s.counts .ELF_FILE_READ + s.counts .SWAP_FILE_READ := by
    rw [hdisk, helf, hswap]
    rfl
  have h3 : s.counts .TLB_RELOAD + UInt32.ofNat s.loads = s.counts .TLB_FAULT := by simpa using hpages
  have hloads : UInt32.ofNat s.loads = 0 ↔ s.loads % 2 ^ 32 = 0 := by
    rw [← UInt32.toNat_inj, UInt32.toNat_ofNat']
    rfl
  refine ⟨h1, h2, ?_⟩
  rw [← hloads]
  constructor
  · intro hid
    have := hid.pages
    rw [hdisk, hzero] at this
    grind
  · intro hl
    refine ⟨h1, ?_, h2⟩
    rw [hdisk, hzero, ← h3, hl]
    grind

/-- The machine of `Coherence.booted`, with its counters. -/
def booted : StatState := ⟨Coherence.booted, fun _ => 0, 0⟩

/-- A program is loaded, and touches a page twice, with a context switch in between. -/
def touchTwice : List Coherence.Act :=
  touchPage ++ [.proc 0 .trap, .switch 0 none, .switch 0 (some 0), .proc 0 .ret, .proc 0 (.fault 0x400010 false),
    .proc 0 .lookup, .proc 0 .fill]

/-- The other processes do nothing. -/
theorem touchTwice_others (q : Nat) :
    (System.follow statNext touchTwice booted).map (fun s => s.machine.stage (q + 1)) = some (.bare false) := rfl

/-- The state that it ends in: no fault is in progress, and the page has been loaded once and reloaded once. -/
theorem touchTwice_run :
    ∃ s, (statSystem 0x80040000 0x200000).Reachable s ∧ (∀ p, faulting (s.machine.stage p) = false) ∧
      s.counts .TLB_FAULT = 2 ∧ s.counts .TLB_RELOAD = 1 ∧ s.counts .PAGE_FAULT_ZERO = 0 ∧
      s.counts .PAGE_FAULT_DISK = 0 ∧ s.loads = 1 := by
  have hrun : ((System.follow statNext touchTwice booted).map fun s =>
      (s.machine.stage 0, s.counts .TLB_FAULT, s.counts .TLB_RELOAD, s.counts .PAGE_FAULT_ZERO,
        s.counts .PAGE_FAULT_DISK, s.loads)) = some (.user, 2, 1, 0, 0, 1) := by
    decide +kernel
  obtain ⟨s, hs, hres⟩ := Option.map_eq_some_iff.mp hrun
  simp only [Prod.mk.injEq] at hres
  obtain ⟨h0, h1, h2, h3, h4, h5⟩ := hres
  refine ⟨s, System.Reachable.follow touchTwice (.init ⟨booted_boot, fun _ => rfl, rfl⟩) hs, ?_, h1, h2, h3, h4, h5⟩
  intro p
  match p with
  | 0 =>
    rw [h0]
    rfl
  | q + 1 =>
    have hq := touchTwice_others q
    rw [hs] at hq
    have hbare : s.machine.stage (q + 1) = .bare false := Option.some.inj hq
    rw [hbare]
    rfl

theorem vmstats_identities_touch :
    ∃ s, (statSystem 0x80040000 0x200000).Reachable s ∧ s.loads = 1 ∧
      (Identities s.counts ↔ s.loads % 2 ^ 32 = 0) := by
  obtain ⟨s, hreach, hquiet, -, -, -, -, hloads⟩ := touchTwice_run
  exact ⟨s, hreach, hloads, (vmstats_identities hreach hquiet).2.2⟩

/-- Two faults, one reload, and no page fault of either kind. -/
theorem vmstats_miscount :
    ∃ s, (statSystem 0x80040000 0x200000).Reachable s ∧ (∀ p, faulting (s.machine.stage p) = false) ∧
      s.counts .TLB_FAULT = 2 ∧ s.counts .TLB_RELOAD = 1 ∧ ¬ Identities s.counts := by
  obtain ⟨s, hreach, hquiet, hfault, hreload, hzero, hdisk, -⟩ := touchTwice_run
  refine ⟨s, hreach, hquiet, hfault, hreload, fun hid => ?_⟩
  have hpages := hid.pages
  rw [hfault, hreload, hzero, hdisk] at hpages
  exact absurd hpages (by decide)

end OS161.VmStats
