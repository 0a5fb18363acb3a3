import OS161.Framework.TransitionSystem

/-! # `fork`: the shared trapframe

`sys_fork` hands the child a pointer to the parent's own trapframe (`child_tf = tf`; the copy is
commented out). From then on two threads work on the same 37 words of the parent's kernel stack:

- the parent, at the end of `syscall()`, stores `tf_v0` and `tf_a3`, advances `tf_epc`, and
  loads its registers from the frame in `exception_return`;
- the child, in `enter_forked_process`, stores `tf_a3` and `tf_v0`, advances `tf_epc`, and
  copies the frame to its own stack, from where `mips_usermode` loads its registers.

The model interleaves these single loads and stores. Once the parent is in user mode its next
trap saves new contents in the same frame.
-/

namespace OS161.Fork

open Framework Function

/-! ## Frames and threads -/

/-- The words of `struct trapframe`, in order. -/
inductive Word where
  | tf_vaddr | tf_status | tf_cause | tf_lo | tf_hi | tf_ra | tf_at | tf_v0 | tf_v1
  | tf_a0 | tf_a1 | tf_a2 | tf_a3 | tf_t0 | tf_t1 | tf_t2 | tf_t3 | tf_t4 | tf_t5 | tf_t6 | tf_t7
  | tf_s0 | tf_s1 | tf_s2 | tf_s3 | tf_s4 | tf_s5 | tf_s6 | tf_s7 | tf_t8 | tf_t9 | tf_k0 | tf_k1
  | tf_gp | tf_sp | tf_s8 | tf_epc
  deriving DecidableEq, Repr

open Word

/-- The contents of a trapframe. -/
abbrev Trapframe : Type := Word → UInt32

inductive Side where
  | parent
  | child
  deriving DecidableEq, Repr

def Side.other : Side → Side
  | parent => child
  | child => parent

/-- What a thread does next: one of its two stores, the two halves of `tf_epc += 4`, or loading the
words that are left. -/
inductive Pc where
  | store1
  | store2
  | fetch
  | bump
  | load (rest : List Word)
  deriving DecidableEq, Repr

structure Thread where
  pc : Pc
  /-- The value of `tf_epc` fetched for the increment. -/
  tmp : UInt32
  /-- The words loaded so far: in the end, the registers in user mode. -/
  regs : Trapframe

structure State where
  frame : Trapframe
  thread : Side → Thread

/-! ## The two programs -/

/-- The value that each side stores in `tf_v0`. -/
def retval (pid : UInt32) : Side → UInt32
  | .parent => pid
  | .child => 0

/-- The first store: `tf->tf_v0 = retval` in `syscall`, `tfr->tf_a3 = 0` in
`enter_forked_process`. -/
def firstStore (pid : UInt32) : Side → Word × UInt32
  | .parent => (tf_v0, pid)
  | .child => (tf_a3, 0)

/-- The second store: `tf->tf_a3 = 0` in `syscall`, `tfr->tf_v0 = 0` in `enter_forked_process`. -/
def secondStore : Side → Word × UInt32
  | .parent => (tf_a3, 0)
  | .child => (tf_v0, 0)

/-- The words that are loaded, in order: by `exception_return`, and by the assignment `newstack =
*tfr`. -/
def loads : Side → List Word
  | .parent =>
    [tf_status, tf_lo, tf_hi, tf_ra, tf_at, tf_v0, tf_v1, tf_a0, tf_a1, tf_a2, tf_a3, tf_t0, tf_t1,
      tf_t2, tf_t3, tf_t4, tf_t5, tf_t6, tf_t7, tf_s0, tf_s1, tf_s2, tf_s3, tf_s4, tf_s5, tf_s6,
      tf_s7, tf_t8, tf_t9, tf_gp, tf_s8, tf_epc, tf_sp]
  | .child =>
    [tf_vaddr, tf_status, tf_cause, tf_lo, tf_hi, tf_ra, tf_at, tf_v0, tf_v1, tf_a0, tf_a1, tf_a2,
      tf_a3, tf_t0, tf_t1, tf_t2, tf_t3, tf_t4, tf_t5, tf_t6, tf_t7, tf_s0, tf_s1, tf_s2, tf_s3,
      tf_s4, tf_s5, tf_s6, tf_s7, tf_t8, tf_t9, tf_k0, tf_k1, tf_gp, tf_sp, tf_s8, tf_epc]

/-- The next load or store of a thread. -/
def sideStep (pid : UInt32) (i : Side) (frame : Trapframe) (t : Thread) :
    Option (Trapframe × Thread) :=
  match t.pc with
  | .store1 =>
    some (update frame (firstStore pid i).1 (firstStore pid i).2, { t with pc := .store2 })
  | .store2 =>
    some (update frame (secondStore i).1 (secondStore i).2, { t with pc := .fetch })
  | .fetch => some (frame, { t with pc := .bump, tmp := frame tf_epc })
  | .bump => some (update frame tf_epc (t.tmp + 4), { t with pc := .load (loads i) })
  | .load [] => none
  | .load (w :: rest) =>
    some (frame, { t with pc := .load rest, regs := update t.regs w (frame w) })

inductive Act where
  /-- The next load or store of one side. -/
  | run (i : Side)
  /-- The parent, in user mode, traps again and saves its registers. -/
  | trap (saved : Trapframe)

def State.InUserMode (s : State) (i : Side) : Prop := (s.thread i).pc = .load []

instance (s : State) (i : Side) : Decidable (s.InUserMode i) :=
  inferInstanceAs (Decidable (_ = _))

def forkNext (pid : UInt32) (s : State) : Act → Option State
  | .run i =>
    (sideStep pid i s.frame (s.thread i)).map fun (frame, t) =>
      { frame := frame, thread := update s.thread i t }
  | .trap saved => if s.InUserMode .parent then some { s with frame := saved } else none

/-- `sys_fork` has started the child's thread; neither side has touched the frame yet. -/
def start (tf : Trapframe) : State where
  frame := tf
  thread := fun _ => { pc := .store1, tmp := 0, regs := fun _ => 0 }

/-- Every interleaving of the parent's way back to user mode with the child's
`enter_forked_process`, when the child's pid is `pid`. -/
def forkSystem (tf : Trapframe) (pid : UInt32) : System State Act :=
  .ofNext (fun s => s = start tf) (forkNext pid)

/-! ## The property -/

/-- The side `i` has resumed user mode as `fork` promises. -/
structure Resumed (tf : Trapframe) (pid : UInt32) (s : State) (i : Side) : Prop where
  v0 : (s.thread i).regs tf_v0 = retval pid i
  a3 : (s.thread i).regs tf_a3 = 0
  epc : (s.thread i).regs tf_epc = tf tf_epc + 4
  others : ∀ w ∈ loads i, w ≠ tf_v0 → w ≠ tf_a3 → w ≠ tf_epc → (s.thread i).regs w = tf w

/-- Both sides resume as promised, in every interleaving. -/
def ForkRight (tf : Trapframe) (pid : UInt32) : Prop :=
  ∀ s, System.Reachable (forkSystem tf pid) s → ∀ i, s.InUserMode i → Resumed tf pid s i

/-! ## No interleaving without a later trap is right

Whichever side stores `tf_v0` last, the other side has its own value in its registers only if it
loaded `tf_v0`, hence advanced `tf_epc`, before that store. The last one then advances `tf_epc`
a second time.
-/

/-- Side `i` has stored its return value in `tf_v0`. -/
def stored : Side → Pc → Bool
  | _, .store1 => false
  | .child, .store2 => false
  | _, _ => true

/-- The thread has loaded `tf_v0`. -/
def Loaded (t : Thread) : Prop := ∃ rest, t.pc = .load rest ∧ tf_v0 ∉ rest

/-- `tf_epc` while only one thread has come to its increment. -/
def Ahead (epc : UInt32) (frame : Trapframe) (t : Thread) : Prop :=
  match t.pc with
  | .store1 | .store2 | .fetch => frame tf_epc = epc
  | .bump => frame tf_epc = epc ∧ t.tmp = epc
  | .load _ => frame tf_epc = epc + 4

/-- `tf_epc` for a thread that increments it after the other one has. -/
def Behind (epc : UInt32) (frame : Trapframe) (t : Thread) : Prop :=
  match t.pc with
  | .store1 | .store2 | .fetch => frame tf_epc = epc + 4
  | .bump => t.tmp = epc + 4
  | .load rest =>
    frame tf_epc = epc + 4 + 4 ∧ (tf_epc ∉ rest → t.regs tf_epc = epc + 4 + 4)

/-- The invariant, by who has stored a return value, and who did so last. -/
inductive Inv (tf : Trapframe) (pid : UInt32) (s : State) : Prop where
  | none (hstored : ∀ i, stored i (s.thread i).pc = false) (hepc : s.frame tf_epc = tf tf_epc)
  | one (i : Side) (hstored : stored i (s.thread i).pc = true)
      (hother : stored i.other (s.thread i.other).pc = false)
      (hv0 : s.frame tf_v0 = retval pid i)
      (hepc : Ahead (tf tf_epc) s.frame (s.thread i))
  | both (i : Side) (hstored : stored i (s.thread i).pc = true)
      (hother : stored i.other (s.thread i.other).pc = true)
      (hv0 : s.frame tf_v0 = retval pid i)
      (hepc : Loaded (s.thread i.other) →
        (s.thread i.other).regs tf_v0 = retval pid i.other →
        Behind (tf tf_epc) s.frame (s.thread i))

@[simp] theorem Side.other_other (i : Side) : i.other.other = i := by cases i <;> rfl

@[simp] theorem Side.other_ne (i : Side) : i.other ≠ i := by cases i <;> simp [Side.other]

theorem Side.eq_or_other (i j : Side) : j = i ∨ j = i.other := by
  cases i <;> cases j <;> simp [Side.other]

theorem retval_other_ne {pid : UInt32} (hpid : pid ≠ 0) (i : Side) :
    retval pid i ≠ retval pid i.other := by
  cases i with
  | parent => exact hpid
  | child => exact fun h => hpid h.symm

section Step

variable {tf : Trapframe} {pid : UInt32} {i : Side} {frame frame' : Trapframe} {t t' : Thread}

section

variable (h : sideStep pid i frame t = some (frame', t'))
include h

/-- A step either stores the return value, before the thread has come to the increment, or leaves
`tf_v0` alone. -/
theorem sideStep_cases :
    (stored i t.pc = false ∧ stored i t'.pc = true ∧ frame' tf_v0 = retval pid i ∧
      frame' tf_epc = frame tf_epc ∧ (t'.pc = .store2 ∨ t'.pc = .fetch)) ∨
    (stored i t'.pc = stored i t.pc ∧ frame' tf_v0 = frame tf_v0) := by
  unfold sideStep at h
  split at h
  · rename_i hpc
    cases h
    cases i with
    | parent => left; simp [stored, hpc, firstStore, retval]
    | child => right; simp [stored, hpc, firstStore]
  · rename_i hpc
    cases h
    cases i with
    | parent => right; simp [stored, hpc, secondStore]
    | child => left; simp [stored, hpc, secondStore, retval]
  · rename_i hpc
    cases h
    right
    cases i <;> simp [stored, hpc]
  · rename_i hpc
    cases h
    right
    cases i <;> simp [stored, hpc]
  · cases h
  · rename_i hpc
    cases h
    right
    cases i <;> simp [stored, hpc]

/-- Before the return value is stored, `tf_epc` is not touched. -/
theorem sideStep_epc (hs : stored i t.pc = false) : frame' tf_epc = frame tf_epc := by
  unfold sideStep at h
  split at h
  · cases h
    cases i <;> simp [firstStore]
  · cases h
    cases i <;> simp [secondStore]
  all_goals
    rename_i hpc
    cases i <;> simp [stored, hpc] at hs

theorem Ahead.step {epc : UInt32} (ha : Ahead epc frame t) : Ahead epc frame' t' := by
  unfold sideStep at h
  unfold Ahead at ha ⊢
  split at h
  · rename_i hpc
    cases h
    rw [hpc] at ha
    cases i <;> simpa [firstStore] using ha
  · rename_i hpc
    cases h
    rw [hpc] at ha
    cases i <;> simpa [secondStore] using ha
  · rename_i hpc
    cases h
    rw [hpc] at ha
    exact ⟨ha, ha⟩
  · rename_i hpc
    cases h
    rw [hpc] at ha
    simp [ha.2]
  · cases h
  · rename_i hpc
    cases h
    rw [hpc] at ha
    exact ha

theorem Behind.step {epc : UInt32} (hb : Behind epc frame t) : Behind epc frame' t' := by
  unfold sideStep at h
  unfold Behind at hb ⊢
  split at h
  · rename_i hpc
    cases h
    rw [hpc] at hb
    cases i <;> simpa [firstStore] using hb
  · rename_i hpc
    cases h
    rw [hpc] at hb
    cases i <;> simpa [secondStore] using hb
  · rename_i hpc
    cases h
    rw [hpc] at hb
    exact hb
  · rename_i hpc
    cases h
    rw [hpc] at hb
    have hin : tf_epc ∈ loads i := by cases i <;> simp [loads]
    simp [hb, hin]
  · cases h
  · rename_i w rest hpc
    cases h
    rw [hpc] at hb
    refine ⟨hb.1, fun hrest => ?_⟩
    show update t.regs w (frame w) tf_epc = _
    by_cases hw : tf_epc = w
    · subst hw
      rw [update_self]
      exact hb.1
    · rw [update_of_ne hw]
      exact hb.2 (by simp [hw, hrest])

/-- A thread that has `v0` in its registers after a step either had it before, with the frame
unchanged, or has just loaded it from the frame. -/
theorem Loaded.of_step (hl : Loaded t') :
    frame' = frame ∧ (t'.regs tf_v0 = frame tf_v0 ∨ (Loaded t ∧ t'.regs tf_v0 = t.regs tf_v0)) := by
  obtain ⟨rest, hpc', hrest⟩ := hl
  unfold sideStep at h
  split at h
  · cases h
    cases hpc'
  · cases h
    cases hpc'
  · cases h
    cases hpc'
  · cases h
    -- the increment is followed by the loads, and `tf_v0` is among them
    cases hpc'
    cases i <;> simp [loads] at hrest
  · cases h
  · rename_i w rest' hpc
    cases h
    cases hpc'
    refine ⟨rfl, ?_⟩
    by_cases hw : tf_v0 = w
    · subst hw
      left
      simp
    · right
      exact ⟨⟨_, hpc, by simp [hw, hrest]⟩, update_of_ne hw ..⟩

end

theorem Ahead.congr {epc : UInt32} (h : frame' tf_epc = frame tf_epc) (ha : Ahead epc frame t) :
    Ahead epc frame' t := by
  unfold Ahead at ha ⊢
  rwa [h]

end Step

theorem forkNext_run {pid : UInt32} {s s' : State} {j : Side}
    (h : forkNext pid s (.run j) = some s') :
    sideStep pid j s.frame (s.thread j) = some (s'.frame, s'.thread j) ∧
      ∀ i, i ≠ j → s'.thread i = s.thread i := by
  simp only [forkNext, Option.map_eq_some_iff] at h
  obtain ⟨⟨frame', t'⟩, hstep, rfl⟩ := h
  refine ⟨by simpa using hstep, fun i hi => ?_⟩
  exact update_of_ne hi t' s.thread

variable {tf : Trapframe}

/-- **Step lemma**: each load and store of either side keeps the invariant. -/
theorem Inv.step {pid : UInt32} (hpid : pid ≠ 0) {s s' : State} {j : Side}
    (h : Inv tf pid s) (hs : forkNext pid s (.run j) = some s') : Inv tf pid s' := by
  obtain ⟨hstep, hne⟩ := forkNext_run hs
  rcases sideStep_cases hstep with ⟨hbefore, hafter, hv0', hepc', hpc⟩ | ⟨hsame, hv0'⟩
  · -- `j` stores its return value
    cases h with
    | none hstored hepc =>
      refine .one j hafter ?_ hv0' ?_
      · rw [hne _ j.other_ne]
        exact hstored _
      · rcases hpc with hpc | hpc <;> simp only [Ahead, hpc, hepc', hepc]
    | one i hstored hother hv0 hepc =>
      rcases i.eq_or_other j with rfl | rfl
      · rw [hstored] at hbefore
        cases hbefore
      · have hi := hne i (Ne.symm i.other_ne)
        refine .both i.other hafter ?_ hv0' ?_
        · rw [i.other_other, hi]
          exact hstored
        · -- the other side has loaded `tf_v0`, so it is past its increment
          rw [i.other_other, hi]
          rintro ⟨rest, hload, -⟩ -
          rw [Ahead, hload] at hepc
          rcases hpc with hpc | hpc <;> simp only [Behind, hpc, hepc', hepc]
    | both i hstored hother hv0 hepc =>
      rcases i.eq_or_other j with rfl | rfl
      · rw [hstored] at hbefore
        cases hbefore
      · rw [hother] at hbefore
        cases hbefore
  · -- any other step
    cases h with
    | none hstored hepc =>
      refine .none (fun i => ?_) ?_
      · by_cases hi : i = j
        · subst hi
          rw [hsame]
          exact hstored _
        · rw [hne i hi]
          exact hstored i
      · rw [sideStep_epc hstep (hstored j), hepc]
    | one i hstored hother hv0 hepc =>
      rcases i.eq_or_other j with rfl | rfl
      · refine .one j (by rw [hsame]; exact hstored) ?_ (hv0'.trans hv0) ?_
        · rw [hne _ j.other_ne]
          exact hother
        · exact hepc.step hstep
      · have hi := hne i (Ne.symm i.other_ne)
        refine .one i (by rw [hi]; exact hstored) (by rw [hsame]; exact hother)
          (hv0'.trans hv0) ?_
        rw [hi]
        exact hepc.congr (sideStep_epc hstep hother)
    | both i hstored hother hv0 hepc =>
      rcases i.eq_or_other j with rfl | rfl
      · have hj := hne j.other j.other_ne
        refine .both j (by rw [hsame]; exact hstored) (by rw [hj]; exact hother)
          (hv0'.trans hv0) ?_
        rw [hj]
        intro hl hr
        exact (hepc hl hr).step hstep
      · have hi := hne i (Ne.symm i.other_ne)
        refine .both i (by rw [hi]; exact hstored) (by rw [hsame]; exact hother)
          (hv0'.trans hv0) ?_
        rw [hi]
        intro hl hr
        obtain ⟨hframe, hload | ⟨hl', hkeep⟩⟩ := Loaded.of_step hstep hl
        · -- it loads the value that `i` has stored last
          rw [hload, hv0] at hr
          exact absurd hr (retval_other_ne hpid i)
        · rw [hframe]
          exact hepc hl' (hkeep ▸ hr)

/-- No later trap of the parent. -/
def NoTrap (_ : State) : Act → Prop
  | .run _ => True
  | .trap _ => False

theorem Inv.reachable {pid : UInt32} (hpid : pid ≠ 0) {s : State}
    (h : System.Reachable ((forkSystem tf pid).restrict NoTrap) s) : Inv tf pid s := by
  refine System.invariant ?_ ?_ h
  · intro s hs
    rw [show s = start tf from hs]
    exact .none (fun i => by cases i <;> rfl) rfl
  · intro s a s' hinv hstep
    cases a with
    | run j => exact hinv.step hpid hstep.2
    | trap saved => exact hstep.1.elim

/-- In a state of the invariant in which both sides are in user mode, one of them has not resumed as
it should. -/
theorem Inv.not_both_resumed {pid : UInt32} {s : State} (h : Inv tf pid s)
    (hdone : ∀ i, s.InUserMode i) : ¬ ∀ i, Resumed tf pid s i := by
  intro hall
  have hstored : ∀ i, stored i (s.thread i).pc = true := by
    intro i
    rw [hdone i]
    cases i <;> rfl
  cases h with
  | none hnone _ =>
    have h := hnone .parent
    rw [hstored] at h
    cases h
  | one i _ hother _ _ =>
    rw [hstored] at hother
    cases hother
  | both i _ _ _ hepc =>
    have hb := hepc ⟨[], hdone i.other, by simp⟩ (hall i.other).v0
    rw [Behind, hdone i] at hb
    have hepc := (hall i).epc
    rw [hb.2 (by simp)] at hepc
    -- two increments are not one
    exact absurd hepc (by simp)

/-- How many loads and stores are left to a thread of side `i`. -/
def stepsLeft (i : Side) : Pc → Nat
  | .store1 => (loads i).length + 4
  | .store2 => (loads i).length + 3
  | .fetch => (loads i).length + 2
  | .bump => (loads i).length + 1
  | .load rest => rest.length

/-- A thread with something left to do can do it. -/
theorem sideStep_progress (pid : UInt32) (i : Side) (frame : Trapframe) {t : Thread} {n : Nat}
    (h : stepsLeft i t.pc = n + 1) :
    ∃ frame' t', sideStep pid i frame t = some (frame', t') ∧ stepsLeft i t'.pc = n := by
  unfold sideStep
  cases hpc : t.pc with
  | load rest =>
    cases rest with
    | nil =>
      rw [hpc] at h
      cases h
    | cons w rest =>
      rw [hpc] at h
      exact ⟨_, _, rfl, by simpa [stepsLeft] using h⟩
  | store1 | store2 | fetch | bump =>
    rw [hpc] at h
    simp only [stepsLeft] at h
    exact ⟨_, _, rfl, by simp only [stepsLeft]; omega⟩

/-- From every reachable state, a side can run to user mode on its own. -/
theorem run_to_user_mode {pid : UInt32} (i : Side) (n : Nat) :
    ∀ {s : State}, System.Reachable ((forkSystem tf pid).restrict NoTrap) s →
      stepsLeft i (s.thread i).pc = n →
      ∃ s', System.Reachable ((forkSystem tf pid).restrict NoTrap) s' ∧ s'.InUserMode i ∧
        ∀ j, j ≠ i → s'.thread j = s.thread j := by
  induction n with
  | zero =>
    intro s hs hleft
    refine ⟨s, hs, ?_, fun _ _ => rfl⟩
    unfold State.InUserMode
    cases hpc : (s.thread i).pc with
    | load rest =>
      rw [hpc] at hleft
      rw [List.eq_nil_of_length_eq_zero hleft]
    | store1 | store2 | fetch | bump =>
      rw [hpc] at hleft
      cases hleft
  | succ n ih =>
    intro s hs hleft
    obtain ⟨frame', t', hstep, hleft'⟩ := sideStep_progress pid i s.frame hleft
    have hnext : forkNext pid s (.run i) =
        some { frame := frame', thread := update s.thread i t' } := by
      simp only [forkNext, hstep, Option.map_some]
    have hreach : System.Reachable ((forkSystem tf pid).restrict NoTrap) _ :=
      .step (.run i) hs ⟨trivial, hnext⟩
    obtain ⟨s', hs', hdone, hkeep⟩ := ih hreach (by simpa using hleft')
    refine ⟨s', hs', hdone, fun j hj => ?_⟩
    rw [hkeep j hj]
    exact update_of_ne hj t' s.thread

/-- Some interleaving without a later trap runs both sides to user mode. -/
theorem exists_complete (tf : Trapframe) (pid : UInt32) :
    ∃ s, System.Reachable ((forkSystem tf pid).restrict NoTrap) s ∧ ∀ i, s.InUserMode i := by
  obtain ⟨s, hs, hparent, -⟩ := @run_to_user_mode tf pid .parent _ _ (.init rfl) rfl
  obtain ⟨s', hs', hchild, hkeep⟩ := run_to_user_mode .child _ hs rfl
  refine ⟨s', hs', fun i => ?_⟩
  cases i with
  | parent =>
    unfold State.InUserMode
    rw [hkeep .parent (by simp)]
    exact hparent
  | child => exact hchild

/-- For every trapframe there is an interleaving that goes wrong. -/
theorem not_forkRight {pid : UInt32} (hpid : pid ≠ 0) : ¬ ForkRight tf pid := by
  intro hright
  obtain ⟨s, hs, hdone⟩ := exists_complete tf pid
  exact (Inv.reachable hpid hs).not_both_resumed hdone
    fun i => hright s hs.of_restrict i (hdone i)

/-! ## Main result -/

/-- **`fork` never returns right**: for every trapframe and every pid that `proc_create` hands out,
the promise fails in some interleaving; indeed it fails in every one in which both sides get to
user mode before the parent traps again. -/
theorem fork_never_right (tf : Trapframe) (pid : UInt32) (hpid : 2 ≤ pid) :
    ¬ ForkRight tf pid ∧
      ∀ s, System.Reachable ((forkSystem tf pid).restrict NoTrap) s →
        (∀ i, s.InUserMode i) → ¬ ∀ i, Resumed tf pid s i := by
  have hne : pid ≠ 0 := by
    rintro rfl
    exact absurd hpid (by decide)
  exact ⟨not_forkRight hne, fun s hs hdone => (Inv.reachable hne hs).not_both_resumed hdone⟩

/-- A frame at the `syscall` instruction `0x400100`. -/
def sampleFrame : Trapframe := fun w => if w = tf_epc then 0x400100 else 0

/-- The child of pid 2, forked from the sample frame. -/
theorem fork_never_right_sample : (2 : UInt32) ≤ 2 ∧ ¬ ForkRight sampleFrame 2 :=
  ⟨by decide, (fork_never_right sampleFrame 2 (by decide)).1⟩

/-- The parent goes back to user mode before the child runs. -/
def parentFirst : List Act :=
  List.replicate 37 (.run .parent) ++ List.replicate 41 (.run .child)

/-- When the parent goes first, the child resumes two instructions after its `syscall`, so `fork`
has not kept its promise. -/
theorem fork_child_skips :
    (∃ s, System.Reachable (forkSystem sampleFrame 2) s ∧ s.InUserMode .child ∧
      (s.thread .child).regs tf_epc = 0x400108) ∧ ¬ ForkRight sampleFrame 2 := by
  have hrun : ∃ s, System.follow (forkNext 2) parentFirst (start sampleFrame) = some s ∧
      s.InUserMode .child ∧ (s.thread .child).regs tf_epc = 0x400108 := ⟨_, rfl, rfl, rfl⟩
  obtain ⟨s, hs, hdone, hepc⟩ := hrun
  have hreach : (forkSystem sampleFrame 2).Reachable s := .follow parentFirst (.init rfl) hs
  refine ⟨⟨s, hreach, hdone, hepc⟩, ?_⟩
  intro hright
  have h := (hright s hreach .child hdone).epc
  rw [hepc] at h
  exact absurd h (by decide)

end OS161.Fork
