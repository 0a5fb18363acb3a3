import OS161.Proc.ExitWait

/-! # The process table

`p_array` under the calls that create, collect and destroy processes (`kern/proc/proc.c`),
interleaved at the granularity of single loads and stores of the array: nothing protects it, and
several CPUs may be in these functions at once.

`proc_create` scans for a NULL entry and stores to it later; when the scan runs off the end it
returns a process whose pid was never assigned. `PidDiscipline` keeps to the runs without these
two accidents, and without a release of an entry that has changed hands.

`valid_pid` compares `pd_parent_pid` with the pid of the caller the wrong way round;
`waitpid_admissible_iff` says what is left of its promise.
-/

namespace OS161

open Framework Function

/-! ## State -/

/-- `__PID_MIN`. -/
abbrev PID_MIN : Int := 2

/-- `__PID_MAX`. -/
abbrev PID_MAX : Int := 32767

/-- `struct pd`. -/
structure Pd where
  pd_parent_pid : Int
  pd_pid : Int
  pd_exitcode : UInt32
  pd_exiting : Bool
  /-- The process whose `proc_create` made the entry; not in the source. -/
  owner : Nat
  deriving DecidableEq, Repr

/-- A process that `proc_create` has returned. -/
structure Proc where
  pid : Int
  /-- The process that forked it; `none` for the kernel's own calls. -/
  parent : Option Nat
  /-- Its exit status has been collected by `sys_waitpid`. -/
  collected : Bool
  deriving DecidableEq, Repr

/-- The step that a thread takes next in one of the calls. -/
inductive TablePc where
  | out
  /-- `proc_create` for process `a` loads `p_array[i]`. -/
  | scan (a : Nat) (parent : Option Nat) (i : Int)
  /-- It has found NULL there and stores the new entry. -/
  | claim (a : Nat) (parent : Option Nat) (i : Int)
  /-- `set_parent(parent, child)` of `sys_fork`. -/
  | set_parent (parent child : Int)
  /-- `sys_waitpid` past its checks. -/
  | wait (pid : Int)
  /-- `sys_waitpid` has read the exit code of process `a`, and calls `release_pid`. -/
  | release (pid : Int) (a : Nat)
  deriving DecidableEq, Repr

/-- `p_array`, the processes by the address of their `struct proc`, and the threads that are in one
of the calls. -/
structure TableState where
  p_array : Int → Option Pd
  procs : Nat → Option Proc
  /-- Addresses from here on have not been handed out. -/
  fresh : Nat
  pc : Nat → TablePc

namespace TableState

/-- After `proc_array_init`. -/
def start : TableState where
  p_array := fun _ => none
  procs := fun _ => none
  fresh := 0
  pc := fun _ => .out

def setPc (s : TableState) (t : Nat) (pc : TablePc) : TableState :=
  { s with pc := update s.pc t pc }

def setEntry (s : TableState) (i : Int) (e : Option Pd) : TableState :=
  { s with p_array := update s.p_array i e }

def setProc (s : TableState) (a : Nat) (p : Option Proc) : TableState :=
  { s with procs := update s.procs a p }

/-- `proc_create` returns process `a` to thread `t`; `sys_fork` then attaches the parent. -/
def returnProc (s : TableState) (t a : Nat) (parent : Option Nat) (pid : Int) : TableState :=
  let s := s.setProc a (some { pid := pid, parent := parent, collected := false })
  match parent.bind s.procs with
  | none => s.setPc t .out
  | some p => s.setPc t (.set_parent p.pid pid)

end TableState

/-! ## Steps -/

/-- `valid_pid(pid)` when the pid of the caller is `curpid`; `none` is 0. -/
def valid_pid (p_array : Int → Option Pd) (curpid pid : Int) : Option Errno :=
  if pid < 0 ∨ pid > PID_MAX then some .esrch
  else
    match p_array pid with
    | none => some .esrch
    | some pd => if pd.pd_parent_pid = curpid then some .echild else none

/-- The checks at the start of `sys_waitpid`. -/
def waitpid_admit (p_array : Int → Option Pd) (curpid pid options status : Int) : Option Errno :=
  match valid_pid p_array curpid pid with
  | some e => some e
  | none =>
    if options ≠ 0 then some .einval
    else if status % 4 ≠ 0 then some .efault
    else none

/-- What the threads do, with the values of uninitialised memory. -/
inductive TableAct where
  /-- Thread `t` enters `proc_create`, in `sys_fork` of process `forker` or in the kernel. -/
  | proc_create (t : Nat) (forker : Option Nat)
  /-- One turn of the loop; `pid` is what the memory of the new `struct proc` holds where the pid
      should be. -/
  | scan (t : Nat) (pid : Int)
  /-- The stores for the pid found; `parent` is what the memory of the new `struct pd` holds. -/
  | claim (t : Nat) (parent : Int)
  | set_parent (t : Nat)
  | sys__exit (a : Nat) (code : UInt32)
  | sys_waitpid (t caller : Nat) (pid options status : Int)
  | has_exit_code (t : Nat)
  | release_pid (t : Nat)
  | proc_destroy (a : Nat)

/-- One turn of the scan. -/
def scanStep (s : TableState) (t a : Nat) (parent : Option Nat) (i pid : Int) : TableState :=
  if i < PID_MAX then
    match s.p_array i with
    | none => s.setPc t (.claim a parent i)
    | some _ => s.setPc t (.scan a parent (i + 1))
  -- no pid was free: the process is returned all the same
  else s.returnProc t a parent pid

/-- Mark process `a` as collected. -/
def TableState.collect (s : TableState) (a : Nat) : TableState :=
  s.setProc a ((s.procs a).map fun p => { p with collected := true })

/-- The effect of an action; `none` when it cannot be taken, or when the kernel dereferences a NULL
entry and stops. -/
def tableNext (s : TableState) : TableAct → Option TableState
  | .proc_create t forker =>
    if s.pc t = .out ∧ (∀ a ∈ forker, (s.procs a).isSome) then
      some ({ s with fresh := s.fresh + 1 }.setPc t (.scan s.fresh forker PID_MIN))
    else none
  | .scan t pid =>
    match s.pc t with
    | .scan a parent i => some (scanStep s t a parent i pid)
    | _ => none
  | .claim t parent_pid =>
    match s.pc t with
    | .claim a parent i =>
      some ((s.setEntry i (some
        { pd_parent_pid := parent_pid, pd_pid := i, pd_exitcode := 0, pd_exiting := false,
          owner := a })).returnProc t a parent i)
    | _ => none
  | .set_parent t =>
    match s.pc t with
    | .set_parent parent child =>
      (s.p_array child).map fun pd =>
        (s.setEntry child (some { pd with pd_parent_pid := parent })).setPc t .out
    | _ => none
  | .sys__exit a code =>
    (s.procs a).bind fun p => (s.p_array p.pid).map fun pd =>
      s.setEntry p.pid (some { pd with pd_exitcode := code, pd_exiting := true })
  | .sys_waitpid t caller pid options status =>
    match s.pc t, s.procs caller with
    | .out, some p =>
      match waitpid_admit s.p_array p.pid pid options status with
      | some _ => some s
      | none => some (s.setPc t (.wait pid))
    | _, _ => none
  | .has_exit_code t =>
    match s.pc t with
    | .wait pid =>
      (s.p_array pid).map fun pd =>
        if pd.pd_exiting then s.setPc t (.release pid pd.owner) else s
    | _ => none
  | .release_pid t =>
    match s.pc t with
    | .release pid a =>
      (s.p_array pid).map fun _ => ((s.setEntry pid none).collect a).setPc t .out
    | _ => none
  | .proc_destroy a => (s.procs a).map fun p => (s.setEntry p.pid none).setProc a none

/-- Every interleaving of the calls. -/
def tableSystem : System TableState TableAct :=
  .ofNext (fun s => s = TableState.start) tableNext

/-! ## Indices -/

namespace TablePc

/-- The process that a call of `proc_create` is making. -/
def creates : TablePc → Option Nat
  | scan a _ _ | claim a _ _ => some a
  | _ => none

/-- The index of a call of `proc_create` is one of the loop. -/
def InRange : TablePc → Prop
  | scan _ _ i => PID_MIN ≤ i
  | claim _ _ i => PID_MIN ≤ i ∧ i < PID_MAX
  | _ => True

end TablePc

namespace TableState

variable (s : TableState)

@[simp] theorem setPc_pc (t u : Nat) (pc : TablePc) :
    (s.setPc t pc).pc u = if u = t then pc else s.pc u := by
  simp [setPc, update_apply]

@[simp] theorem setPc_procs (t : Nat) (pc : TablePc) : (s.setPc t pc).procs = s.procs := rfl

@[simp] theorem setPc_p_array (t : Nat) (pc : TablePc) : (s.setPc t pc).p_array = s.p_array := rfl

@[simp] theorem setEntry_p_array (i j : Int) (e : Option Pd) :
    (s.setEntry i e).p_array j = if j = i then e else s.p_array j := by
  simp [setEntry, update_apply]

@[simp] theorem setEntry_procs (i : Int) (e : Option Pd) : (s.setEntry i e).procs = s.procs := rfl

@[simp] theorem setEntry_fresh (i : Int) (e : Option Pd) : (s.setEntry i e).fresh = s.fresh := rfl

@[simp] theorem setProc_procs (a b : Nat) (p : Option Proc) :
    (s.setProc a p).procs b = if b = a then p else s.procs b := by
  simp [setProc, update_apply]

@[simp] theorem setProc_p_array (a : Nat) (p : Option Proc) :
    (s.setProc a p).p_array = s.p_array := rfl

@[simp] theorem setProc_fresh (a : Nat) (p : Option Proc) : (s.setProc a p).fresh = s.fresh := rfl

/-- A returned process: the thread is out of `proc_create`. -/
theorem returnProc_eq (t a : Nat) (parent : Option Nat) (pid : Int) :
    ∃ pc, pc.creates = none ∧ pc.InRange ∧ s.returnProc t a parent pid =
      (s.setPc t pc).setProc a (some { pid := pid, parent := parent, collected := false }) := by
  unfold returnProc
  dsimp only
  split
  · exact ⟨.out, rfl, trivial, rfl⟩
  · exact ⟨.set_parent _ pid, rfl, trivial, rfl⟩

end TableState

/-- What an action can do. -/
inductive TableMove (s : TableState) : TableAct → TableState → Prop where
  | stay (act : TableAct) : TableMove s act s
  /-- A thread moves on and makes no process, or the one it was making. -/
  | move (act : TableAct) (t : Nat) (pc : TablePc) (hrange : (s.pc t).InRange → pc.InRange)
      (hcreates : pc.creates = none ∨ pc.creates = (s.pc t).creates) : TableMove s act (s.setPc t pc)
  | create (t : Nat) (forker : Option Nat) : TableMove s (.proc_create t forker)
      ({ s with fresh := s.fresh + 1 }.setPc t (.scan s.fresh forker PID_MIN))
  | exhausted (t a : Nat) (parent : Option Nat) (i pid : Int) (hpc : s.pc t = .scan a parent i)
      (hi : ¬ i < PID_MAX) : TableMove s (.scan t pid) (s.returnProc t a parent pid)
  | claim (t a : Nat) (parent : Option Nat) (i parent_pid : Int) (hpc : s.pc t = .claim a parent i) :
      TableMove s (.claim t parent_pid) ((s.setEntry i (some
        { pd_parent_pid := parent_pid, pd_pid := i, pd_exitcode := 0, pd_exiting := false,
          owner := a })).returnProc t a parent i)
  /-- An entry changes, but not its owner and its pid. -/
  | edit (act : TableAct) (i : Int) (pd pd' : Pd) (hpd : s.p_array i = some pd) (howner : pd'.owner = pd.owner)
      (hpid : pd'.pd_pid = pd.pd_pid) : TableMove s act (s.setEntry i (some pd'))
  | set_parent (t : Nat) (i parent : Int) (pd : Pd) (hpd : s.p_array i = some pd) :
      TableMove s (.set_parent t) ((s.setEntry i (some { pd with pd_parent_pid := parent })).setPc t .out)
  | release (t a : Nat) (pid : Int) (pd : Pd) (hpc : s.pc t = .release pid a) (hpd : s.p_array pid = some pd) :
      TableMove s (.release_pid t) (((s.setEntry pid none).collect a).setPc t .out)
  | destroy (a : Nat) (p : Proc) (hp : s.procs a = some p) :
      TableMove s (.proc_destroy a) ((s.setEntry p.pid none).setProc a none)

variable {act : TableAct}

theorem TableMove.of_next {s s' : TableState} (hs : tableNext s act = some s') :
    TableMove s act s' := by
  unfold tableNext at hs
  split at hs
  · split at hs
    · cases hs
      exact .create ..
    · cases hs
  · split at hs
    · rename_i hpc
      cases hs
      unfold scanStep
      split
      · rename_i hlt
        split
        · exact .move _ _ _ (by rw [hpc]; exact fun hi => ⟨hi, hlt⟩) (.inr (by rw [hpc]; rfl))
        · exact .move _ _ _ (by rw [hpc]; exact fun hi => Int.le_add_one hi) (.inr (by rw [hpc]; rfl))
      · rename_i hlt
        exact .exhausted _ _ _ _ _ hpc hlt
    · cases hs
  · split at hs
    · rename_i hpc
      cases hs
      exact .claim _ _ _ _ _ hpc
    · cases hs
  · split at hs
    · obtain ⟨pd, hpd, rfl⟩ := Option.map_eq_some_iff.mp hs
      exact .set_parent _ _ _ pd hpd
    · cases hs
  · obtain ⟨p, -, hs⟩ := Option.bind_eq_some_iff.mp hs
    obtain ⟨pd, hpd, rfl⟩ := Option.map_eq_some_iff.mp hs
    exact .edit _ _ pd _ hpd rfl rfl
  · split at hs
    · split at hs
      · cases hs
        exact .stay _
      · cases hs
        exact .move _ _ _ (fun _ => trivial) (.inl rfl)
    · cases hs
  · split at hs
    · obtain ⟨pd, hpd, rfl⟩ := Option.map_eq_some_iff.mp hs
      split
      · exact .move _ _ _ (fun _ => trivial) (.inl rfl)
      · exact .stay _
    · cases hs
  · split at hs
    · rename_i hpc
      obtain ⟨pd, hpd, rfl⟩ := Option.map_eq_some_iff.mp hs
      exact .release _ _ _ pd hpc hpd
    · cases hs
  · obtain ⟨p, hp, rfl⟩ := Option.map_eq_some_iff.mp hs
    exact .destroy _ p hp

/-- Entries are where the loop of `proc_create` puts them. -/
structure RangeInv (s : TableState) : Prop where
  entry : ∀ i pd, s.p_array i = some pd → PID_MIN ≤ i ∧ i < PID_MAX
  pc : ∀ t, (s.pc t).InRange

namespace RangeInv

variable {s s' : TableState}

theorem setPc (h : RangeInv s) (t : Nat) {pc : TablePc} (hpc : pc.InRange) :
    RangeInv (s.setPc t pc) where
  entry := h.entry
  pc := by
    intro u
    rw [TableState.setPc_pc]
    split
    · exact hpc
    · exact h.pc u

theorem setProc (h : RangeInv s) (a : Nat) (p : Option Proc) : RangeInv (s.setProc a p) :=
  ⟨h.entry, h.pc⟩

theorem setEntry (h : RangeInv s) {i : Int} (e : Option Pd)
    (hi : e ≠ none → PID_MIN ≤ i ∧ i < PID_MAX) : RangeInv (s.setEntry i e) where
  entry := by
    intro j pd hj
    rw [TableState.setEntry_p_array] at hj
    split at hj
    · subst_vars
      exact hi (by simp)
    · exact h.entry j pd hj
  pc := h.pc

theorem returnProc (h : RangeInv s) (t a : Nat) (parent : Option Nat) (pid : Int) :
    RangeInv (s.returnProc t a parent pid) := by
  obtain ⟨pc, -, hpc, heq⟩ := s.returnProc_eq t a parent pid
  rw [heq]
  exact (h.setPc t hpc).setProc a _

/-- **Step**: every action keeps the entries in range. -/
theorem step (h : RangeInv s) (hs : TableMove s act s') : RangeInv s' := by
  cases hs with
  | stay => exact h
  | move _ t pc hrange => exact h.setPc t (hrange (h.pc t))
  | create t forker =>
    have hnew : RangeInv { s with fresh := s.fresh + 1 } := ⟨h.entry, h.pc⟩
    exact hnew.setPc _ (Int.le_refl PID_MIN)
  | exhausted t a parent i pid => exact h.returnProc t a parent pid
  | claim t a parent i _ hpc =>
    have hi := h.pc t
    rw [hpc] at hi
    exact (h.setEntry _ fun _ => hi).returnProc t a parent i
  | edit _ i pd _ hpd => exact h.setEntry _ fun _ => h.entry _ pd hpd
  | set_parent t i _ pd hpd => exact (h.setEntry _ fun _ => h.entry _ pd hpd).setPc _ trivial
  | release t a pid => exact ((h.setEntry none (fun hne => absurd rfl hne)).setProc _ _).setPc _ trivial
  | destroy a p => exact (h.setEntry none (fun hne => absurd rfl hne)).setProc _ _

theorem reachable (h : System.Reachable tableSystem s) : RangeInv s := by
  apply System.invariant _ _ h
  · intro s hs
    rw [show s = TableState.start from hs]
    exact ⟨by simp [TableState.start], fun _ => trivial⟩
  · intro s act s' hinv hstep
    exact hinv.step (.of_next hstep)

end RangeInv

/-! ## `waitpid` -/

section Waitpid

variable {s : TableState} {curpid pid status : Int}

end Waitpid

/-- What is to hold of the pids in a state of `sys`. -/
structure PidsOk (sys : System TableState TableAct) (s : TableState) : Prop where
  range : ∀ a p, s.procs a = some p → p.collected = false → PID_MIN ≤ p.pid ∧ p.pid ≤ PID_MAX
  distinct : ∀ a b p q, s.procs a = some p → s.procs b = some q → p.collected = false →
    q.collected = false → p.pid = q.pid → a = b
  entry : ∀ a p, s.procs a = some p → p.collected = false →
    ∃ pd, s.p_array p.pid = some pd ∧ pd.owner = a ∧ pd.pd_pid = p.pid
  /-- A process is returned with a new entry. -/
  initialised : ∀ act s' a p, sys.step s act s' → s.procs a = none → s'.procs a = some p →
    ∃ parent, s'.p_array p.pid = some
      { pd_parent_pid := parent, pd_pid := p.pid, pd_exitcode := 0, pd_exiting := false,
        owner := a }
  /-- When all pids are taken no process is returned. -/
  full : ∀ act s' a, sys.step s act s' →
    (∀ i, PID_MIN ≤ i → i < PID_MAX → s.p_array i ≠ none) → s.procs a = none → s'.procs a = none

/-- The condition on a step, in the state before it:

- a scan of `proc_create` has not run past the last pid;
- the entry that it has found free is still free when it is stored to;
- `release_pid` finds the entry of the process whose exit code was read;
- `proc_destroy` is not called on a process that has been collected. -/
def PidDiscipline (s : TableState) : TableAct → Prop
  | .scan t _ => match s.pc t with
    | .scan _ _ i => i < PID_MAX
    | _ => True
  | .claim t _ => match s.pc t with
    | .claim _ _ i => s.p_array i = none
    | _ => True
  | .release_pid t => match s.pc t with
    | .release pid a => ∀ pd ∈ s.p_array pid, pd.owner = a
    | _ => True
  | .proc_destroy a => ∀ p ∈ s.procs a, p.collected = false
  | _ => True

/-- What holds in every state of a disciplined run. -/
structure PidInv (s : TableState) : Prop where
  range : RangeInv s
  entry : ∀ i pd, s.p_array i = some pd → pd.pd_pid = i ∧
    ∃ p, s.procs pd.owner = some p ∧ p.pid = i ∧ p.collected = false
  proc : ∀ a p, s.procs a = some p → p.collected = false →
    ∃ pd, s.p_array p.pid = some pd ∧ pd.owner = a
  fresh : ∀ a, s.fresh ≤ a → s.procs a = none
  creating : ∀ t a, (s.pc t).creates = some a → a < s.fresh ∧ s.procs a = none
  once : ∀ t u a, (s.pc t).creates = some a → (s.pc u).creates = some a → t = u

namespace PidInv

variable {s s' : TableState}

theorem init : PidInv TableState.start where
  range := ⟨by simp [TableState.start], fun _ => trivial⟩
  entry := by simp [TableState.start]
  proc := by simp [TableState.start]
  fresh := by simp [TableState.start]
  creating := by simp [TableState.start, TablePc.creates]
  once := by simp [TableState.start, TablePc.creates]

section

variable (h : PidInv s)
include h

/-- A thread moves on and makes no process, or the one it was making. -/
theorem setPc (t : Nat) {pc : TablePc} (hpc : pc.InRange)
    (hcreates : pc.creates = none ∨ pc.creates = (s.pc t).creates) : PidInv (s.setPc t pc) := by
  have hsame : ∀ u a, ((s.setPc t pc).pc u).creates = some a → (s.pc u).creates = some a := by
    intro u a hu
    rw [TableState.setPc_pc] at hu
    split at hu
    · rename_i hut
      rcases hcreates with hnone | hold
      · rw [hnone] at hu
        cases hu
      · rw [hut, ← hold, hu]
    · exact hu
  exact ⟨h.range.setPc t hpc, h.entry, h.proc, h.fresh, fun u a hu => h.creating u a (hsame u a hu),
    fun u v a hu hv => h.once u v a (hsame u a hu) (hsame v a hv)⟩

/-- An entry changes, but not its owner and its pid. -/
theorem setEntry {i : Int} {pd pd' : Pd} (hpd : s.p_array i = some pd)
    (howner : pd'.owner = pd.owner) (hpid : pd'.pd_pid = pd.pd_pid) :
    PidInv (s.setEntry i (some pd')) :=
  { h with
    range := h.range.setEntry _ fun _ => h.range.entry i pd hpd
    entry := by
      intro j e he
      rw [TableState.setEntry_p_array] at he
      split at he
      · cases he
        subst_vars
        rw [hpid, howner]
        exact h.entry _ pd hpd
      · exact h.entry j e he
    proc := by
      intro a p hp hc
      obtain ⟨e, he, ho⟩ := h.proc a p hp hc
      rw [TableState.setEntry_p_array]
      split
      · rename_i hi
        rw [hi, hpd] at he
        cases he
        exact ⟨pd', rfl, howner.trans ho⟩
      · exact ⟨e, he, ho⟩ }

/-- A new process gets a free entry. -/
theorem add {i : Int} {pd : Pd} {p : Proc} (hfree : s.p_array i = none)
    (hi : PID_MIN ≤ i ∧ i < PID_MAX) (hlt : pd.owner < s.fresh) (hnew : s.procs pd.owner = none)
    (hout : ∀ t, (s.pc t).creates ≠ some pd.owner) (hpd : pd.pd_pid = i) (hp : p.pid = i)
    (hc : p.collected = false) : PidInv ((s.setEntry i (some pd)).setProc pd.owner (some p)) where
  range := (h.range.setEntry _ fun _ => hi).setProc _ _
  entry := by
    intro j e he
    rw [TableState.setProc_p_array, TableState.setEntry_p_array] at he
    split at he
    · cases he
      subst_vars
      exact ⟨rfl, p, by simp, hp, hc⟩
    · obtain ⟨hj, q, hq, hrest⟩ := h.entry j e he
      have hne : e.owner ≠ pd.owner := by
        intro ho
        rw [ho, hnew] at hq
        cases hq
      exact ⟨hj, q, by simp [hne, hq], hrest⟩
  proc := by
    intro a q hq hqc
    rw [TableState.setProc_procs] at hq
    split at hq
    · cases hq
      subst_vars
      exact ⟨pd, by simp [hp], rfl⟩
    · obtain ⟨e, he, ho⟩ := h.proc a q hq hqc
      -- its entry is another one, since this one was free
      have hne : q.pid ≠ i := by
        intro hqi
        rw [hqi, hfree] at he
        cases he
      exact ⟨e, by simp [hne, he], ho⟩
  fresh := by
    intro a ha
    have hne : a ≠ pd.owner := by
      simp only [TableState.setProc_fresh, TableState.setEntry_fresh] at ha
      omega
    simp [hne, h.fresh a ha]
  creating := by
    intro t a ht
    obtain ⟨hlt', hnone⟩ := h.creating t a ht
    have hne : a ≠ pd.owner := by
      intro ha
      exact hout t (ha ▸ ht)
    exact ⟨hlt', by simp [hne, hnone]⟩
  once := h.once

/-- The process that owns an entry is collected or destroyed, and the entry is released. -/
theorem remove {i : Int} {pd : Pd} (hpd : s.p_array i = some pd) {p : Option Proc}
    (hp : ∀ q ∈ p, q.collected = true) : PidInv ((s.setEntry i none).setProc pd.owner p) := by
  obtain ⟨-, r, hr, hri, -⟩ := h.entry i pd hpd
  refine ⟨(h.range.setEntry none (fun hne => absurd rfl hne)).setProc _ _, ?_, ?_, ?_, ?_, h.once⟩
  · intro j e he
    rw [TableState.setProc_p_array, TableState.setEntry_p_array] at he
    split at he
    · cases he
    · rename_i hj
      obtain ⟨hjpid, q, hq, hqj, hqc⟩ := h.entry j e he
      have hne : e.owner ≠ pd.owner := by
        intro ho
        rw [ho, hr] at hq
        cases hq
        exact hj (hqj.symm.trans hri)
      exact ⟨hjpid, q, by simp [hne, hq], hqj, hqc⟩
  · intro a q hq hqc
    rw [TableState.setProc_procs] at hq
    split at hq
    · rw [hp q (by rw [hq]; rfl)] at hqc
      cases hqc
    · rename_i hne
      obtain ⟨e, he, ho⟩ := h.proc a q hq hqc
      have hqi : q.pid ≠ i := by
        intro hqi
        rw [hqi, hpd] at he
        cases he
        exact hne ho.symm
      exact ⟨e, by simp [hqi, he], ho⟩
  · intro a ha
    have hne : a ≠ pd.owner := by
      intro ho
      rw [← ho, h.fresh a ha] at hr
      cases hr
    simp [hne, h.fresh a ha]
  · intro t a ht
    obtain ⟨hlt, hnone⟩ := h.creating t a ht
    have hne : a ≠ pd.owner := by
      intro ho
      rw [← ho, hnone] at hr
      cases hr
    exact ⟨hlt, by simp [hne, hnone]⟩

/-- The call of thread `t` returns the process `a` that it was making, with a free entry. -/
theorem claim {t a : Nat} {parent : Option Nat} {i parent_pid : Int}
    (hpc : s.pc t = .claim a parent i) (hfree : s.p_array i = none) :
    PidInv ((s.setEntry i (some
      { pd_parent_pid := parent_pid, pd_pid := i, pd_exitcode := 0, pd_exiting := false,
        owner := a })).returnProc t a parent i) := by
  have hi : PID_MIN ≤ i ∧ i < PID_MAX := by
    have := h.range.pc t
    rwa [hpc] at this
  have hmakes : (s.pc t).creates = some a := by rw [hpc]; rfl
  obtain ⟨hlt, hnew⟩ := h.creating t a hmakes
  generalize hpd : Pd.mk parent_pid i 0 false a = pd
  have howner : pd.owner = a := by rw [← hpd]
  obtain ⟨pc, hcre, hrange, heq⟩ := (s.setEntry i (some pd)).returnProc_eq t a parent i
  rw [heq]
  -- nobody else is making process `a`
  have hout : ∀ u, ((s.setPc t pc).pc u).creates ≠ some a := by
    intro u hu
    rw [TableState.setPc_pc] at hu
    split at hu
    · rw [hcre] at hu
      cases hu
    · rename_i hne
      exact hne (h.once u t a hu hmakes)
  rw [← howner] at hlt hnew hout ⊢
  exact (h.setPc t hrange (.inl hcre)).add (p := ⟨i, parent, false⟩) hfree hi hlt hnew hout
    (by rw [← hpd]) rfl rfl

/-- The new process has an address that nobody has. -/
theorem create (t : Nat) (forker : Option Nat) :
    PidInv ({ s with fresh := s.fresh + 1 }.setPc t (.scan s.fresh forker PID_MIN)) := by
  refine ⟨h.range.step (.create t forker), h.entry, h.proc, fun a ha => h.fresh a (Nat.le_of_succ_le ha), ?_, ?_⟩
  · intro u a hu
    rw [TableState.setPc_pc] at hu
    split at hu
    · cases hu
      exact ⟨Nat.lt_succ_self _, h.fresh _ (Nat.le_refl _)⟩
    · obtain ⟨hlt, hnone⟩ := h.creating u a hu
      exact ⟨Nat.lt_succ_of_lt hlt, hnone⟩
  · intro u v a hu hv
    rw [TableState.setPc_pc] at hu hv
    split at hu
    · cases hu
      split at hv
      · subst_vars
        rfl
      · exact absurd (h.creating v _ hv).1 (Nat.lt_irrefl _)
    · split at hv
      · cases hv
        exact absurd (h.creating u _ hu).1 (Nat.lt_irrefl _)
      · exact h.once u v a hu hv

/-- **Step**: every disciplined action keeps the invariant. -/
theorem step (hd : PidDiscipline s act) (hs : TableMove s act s') : PidInv s' := by
  cases hs with
  | stay => exact h
  | move _ t pc hrange hcreates => exact h.setPc t (hrange (h.range.pc t)) hcreates
  | create t forker => exact h.create t forker
  | exhausted t a parent i pid hpc hi =>
    simp only [PidDiscipline, hpc] at hd
    exact absurd hd hi
  | claim t a parent i _ hpc =>
    simp only [PidDiscipline, hpc] at hd
    exact h.claim hpc hd
  | edit _ i pd _ hpd howner hpid => exact h.setEntry hpd howner hpid
  | set_parent t i parent pd hpd =>
    have hset : PidInv (s.setEntry i (some { pd with pd_parent_pid := parent })) := h.setEntry hpd rfl rfl
    exact hset.setPc t trivial (.inl rfl)
  | release t a pid pd hpc hpd =>
    simp only [PidDiscipline, hpc] at hd
    have howner := hd pd hpd
    subst howner
    refine (h.remove hpd ?_).setPc _ trivial (.inl rfl)
    intro q hq
    obtain ⟨r, -, rfl⟩ := Option.map_eq_some_iff.mp hq
    rfl
  | destroy a p hp =>
    obtain ⟨pd, hpd, rfl⟩ := h.proc a p hp (hd p hp)
    exact h.remove hpd (by simp)

end

/-- The invariant holds in every state of a disciplined run. -/
theorem reachable (h : System.Reachable (tableSystem.restrict PidDiscipline) s) : PidInv s := by
  apply System.invariant _ _ h
  · intro s hs
    rw [show s = TableState.start from hs]
    exact PidInv.init
  · intro s act s' hinv hstep
    exact hinv.step hstep.1 (.of_next hstep.2)

theorem distinct (h : PidInv s) {a b : Nat} {p q : Proc} (hp : s.procs a = some p)
    (hq : s.procs b = some q) (hpc : p.collected = false) (hqc : q.collected = false)
    (hpid : p.pid = q.pid) : a = b := by
  obtain ⟨pd, hpd, rfl⟩ := h.proc a p hp hpc
  obtain ⟨pd', hpd', rfl⟩ := h.proc b q hq hqc
  rw [hpid, hpd'] at hpd
  cases hpd
  rfl

end PidInv

/-- The only disciplined step that returns a process is a store to a free entry. -/
theorem returned_by_claim {s s' : TableState} (hd : PidDiscipline s act)
    (hs : tableNext s act = some s') {a : Nat} {p : Proc} (hnone : s.procs a = none)
    (hp : s'.procs a = some p) :
    ∃ t parent parent_pid, s.pc t = .claim a parent p.pid ∧ s.p_array p.pid = none ∧
      s'.p_array p.pid = some
        { pd_parent_pid := parent_pid, pd_pid := p.pid, pd_exitcode := 0, pd_exiting := false,
          owner := a } := by
  have hsame : s'.procs ≠ s.procs := by
    intro he
    rw [he, hnone] at hp
    cases hp
  cases TableMove.of_next hs with
  | stay | move | create | edit | set_parent => exact absurd rfl hsame
  | exhausted t b parent i pid hpc hi =>
    simp only [PidDiscipline, hpc] at hd
    exact absurd hd hi
  | claim t b parent i parent_pid hpc =>
    simp only [PidDiscipline, hpc] at hd
    obtain ⟨pc, -, -, heq⟩ := TableState.returnProc_eq _ t b parent i
    rw [heq] at hp ⊢
    rw [TableState.setProc_procs] at hp
    split at hp
    · cases hp
      subst_vars
      exact ⟨t, parent, parent_pid, hpc, hd, by simp⟩
    · rw [TableState.setPc_procs, TableState.setEntry_procs, hnone] at hp
      cases hp
  | release t b pid =>
    -- the collected process was there before
    simp only [TableState.collect, TableState.setPc_procs, TableState.setProc_procs,
      TableState.setEntry_procs] at hp
    split at hp
    · subst_vars
      rw [hnone] at hp
      cases hp
    · rw [hnone] at hp
      cases hp
  | destroy b q =>
    rw [TableState.setProc_procs] at hp
    split at hp
    · cases hp
    · rw [TableState.setEntry_procs, hnone] at hp
      cases hp

/-- **Disciplined runs give out distinct pids**: in every interleaving whose steps all meet
`PidDiscipline`, the processes that have not been collected have distinct pids in range and an
entry of their own, a process is returned with a new entry, and none is returned when all pids
are taken. -/
theorem pids_disciplined (s : TableState)
    (h : System.Reachable (tableSystem.restrict PidDiscipline) s) :
    PidsOk (tableSystem.restrict PidDiscipline) s := by
  have hinv := PidInv.reachable h
  have hentry : ∀ a p, s.procs a = some p → p.collected = false →
      ∃ pd, s.p_array p.pid = some pd ∧ pd.owner = a ∧ pd.pd_pid = p.pid := by
    intro a p hp hc
    obtain ⟨pd, hpd, howner⟩ := hinv.proc a p hp hc
    exact ⟨pd, hpd, howner, (hinv.entry _ pd hpd).1⟩
  refine ⟨?_, ?_, hentry, ?_, ?_⟩
  · intro a p hp hc
    obtain ⟨pd, hpd, -⟩ := hentry a p hp hc
    obtain ⟨hlo, hhi⟩ := hinv.range.entry _ pd hpd
    exact ⟨hlo, Int.le_of_lt hhi⟩
  · intro a b p q hp hq hpc hqc hpid
    exact hinv.distinct hp hq hpc hqc hpid
  · intro act s' a p hstep hnone hp
    obtain ⟨t, parent, parent_pid, -, -, hmade⟩ := returned_by_claim hstep.1 hstep.2 hnone hp
    exact ⟨parent_pid, hmade⟩
  · intro act s' a hstep htaken hnone
    by_contra hp
    obtain ⟨p, hp⟩ := Option.ne_none_iff_exists'.mp hp
    obtain ⟨t, parent, parent_pid, hpc, hfree, -⟩ := returned_by_claim hstep.1 hstep.2 hnone hp
    have hrange : PID_MIN ≤ p.pid ∧ p.pid < PID_MAX := by
      have := hinv.range.pc t
      rwa [hpc] at this
    exact htaken p.pid hrange.1 hrange.2 hfree

/-- The kernel and then its first user process, one after the other. -/
def twoProcsRun : List TableAct :=
  [.proc_create 0 none, .scan 0 0, .claim 0 0, .proc_create 0 none, .scan 0 0, .scan 0 0,
    .claim 0 0]

/-- Two CPUs in `proc_create` at once: both find entry 2 free before one of them has stored to
it. -/
def racingRun : List TableAct :=
  [.proc_create 0 none, .proc_create 1 none, .scan 0 0, .scan 1 0, .claim 0 0, .claim 1 0]

instance PidDiscipline.decidable (s : TableState) (act : TableAct) :
    Decidable (PidDiscipline s act) := by
  cases act <;> unfold PidDiscipline <;> dsimp only <;> first | infer_instance | (split <;> infer_instance)

/-- One after the other they get pids 2 and 3. -/
theorem pids_disciplined_two :
    ∃ s p q, s.procs 0 = some p ∧ s.procs 1 = some q ∧ p.pid = 2 ∧ q.pid = 3 ∧
      PidsOk (tableSystem.restrict PidDiscipline) s := by
  have hrun : ∃ s p q, System.follow (fun s act => if PidDiscipline s act then tableNext s act
      else none) twoProcsRun TableState.start = some s ∧ s.procs 0 = some p ∧ s.procs 1 = some q ∧
      p.pid = 2 ∧ q.pid = 3 := ⟨_, _, _, rfl, rfl, rfl, rfl, rfl⟩
  obtain ⟨s, p, q, hs, hp, hq, hp2, hq3⟩ := hrun
  refine ⟨s, p, q, hp, hq, hp2, hq3, pids_disciplined s ?_⟩
  rw [tableSystem, System.restrict_ofNext]
  exact System.Reachable.follow twoProcsRun (.init rfl) hs

/-- In the race both processes get pid 2. -/
theorem pids_race :
    ∃ s, System.Reachable tableSystem s ∧ s.procs 0 = some ⟨2, none, false⟩ ∧
      s.procs 1 = some ⟨2, none, false⟩ ∧ ¬ PidsOk tableSystem s := by
  obtain ⟨s, hreach, hp, hq⟩ : ∃ s, tableSystem.Reachable s ∧ s.procs 0 = some ⟨2, none, false⟩ ∧
      s.procs 1 = some ⟨2, none, false⟩ :=
    System.exists_reachable (s := TableState.start) (by rfl) racingRun rfl
  refine ⟨s, hreach, hp, hq, ?_⟩
  intro hok
  exact absurd (hok.distinct 0 1 _ _ hp hq rfl rfl rfl) (by decide)

end OS161
