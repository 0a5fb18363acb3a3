import OS161.Framework.Apart
import OS161.Framework.TransitionSystem

/-! # Thread migration

The model of `thread_consider_migration` (`kern/thread/thread.c`), run by one CPU while the
other CPUs change the run queues whose locks it does not hold. A step is what the function does
under a lock between two looks at a queue. Threads are numbers, CPUs are `Fin n`.

The private list `victims` and the counts are in the program counter.
-/

namespace OS161.Threads

open Framework Function
open scoped List

/-- The run queues, and `t_cpu` of every thread. -/
structure Queues (n : Nat) where
  c_runqueue : Fin n → List Nat
  t_cpu : Nat → Fin n

/-- Where a CPU is in `thread_consider_migration`. -/
inductive MigratePc (n : Nat) where
  /-- Counting, at CPU `i`. -/
  | count (i my_count total_count : Nat)
  | takeWant (to_send one_share : Nat)
  /-- The own run queue is locked, with `left` threads still to be taken. -/
  | taking (left to_send one_share : Nat) (victims : List Nat)
  /-- At CPU `i` in the second loop. -/
  | give (i to_send one_share : Nat) (victims : List Nat)
  /-- The run queue of CPU `x` is locked. -/
  | giving (x : Fin n) (to_send one_share : Nat) (victims : List Nat)
  /-- The leftovers go back, run queue unlocked and locked. -/
  | back (victims : List Nat)
  | backing (victims : List Nat)
  deriving DecidableEq

/-- `DIVROUNDUP`. -/
def divRoundUp (a b : Nat) : Nat := (a + b - 1) / b

namespace MigratePc

variable {n : Nat}

def victims : MigratePc n → List Nat
  | count _ _ _ | takeWant _ _ => []
  | taking _ _ _ victims | give _ _ _ victims | giving _ _ _ victims | back victims | backing victims => victims

/-- The variable `one_share`, where the function has use for it. -/
def one_share : MigratePc n → Nat
  | takeWant _ one_share | taking _ _ one_share _ | give _ _ one_share _ | giving _ _ one_share _ => one_share
  | count _ _ _ | back _ | backing _ => 0

/-- The run queue whose lock is held. -/
def holds (c : Fin n) : MigratePc n → Option (Fin n)
  | taking _ _ _ _ | backing _ => some c
  | giving x _ _ _ => some x
  | _ => none

/-- The run queue whose lock the next step acquires. -/
def wants (c : Fin n) : MigratePc n → Option (Fin n)
  | count i _ _ => if h : i < n then some ⟨i, h⟩ else none
  | takeWant _ _ => some c
  | give i to_send _ _ =>
    if h : i < n ∧ 0 < to_send then if ⟨i, h.1⟩ = c then none else some ⟨i, h.1⟩ else none
  | back victims => if victims = [] then none else some c
  | _ => none

end MigratePc

section Code

variable {n : Nat}

def Queues.setQueue (q : Queues n) (x : Fin n) (l : List Nat) : Queues n :=
  { q with c_runqueue := update q.c_runqueue x l }

def Queues.setCpu (q : Queues n) (u : Nat) (x : Fin n) : Queues n :=
  { q with t_cpu := update q.t_cpu u x }

@[simp] theorem Queues.setQueue_self (q : Queues n) (x : Fin n) (l : List Nat) :
    (q.setQueue x l).c_runqueue x = l := by
  simp [Queues.setQueue]

@[simp] theorem Queues.setQueue_of_ne (q : Queues n) {x y : Fin n} (h : y ≠ x) (l : List Nat) :
    (q.setQueue x l).c_runqueue y = q.c_runqueue y := by
  simp [Queues.setQueue, h]

/-- The run queues and a private list. -/
def Queues.lists (q : Queues n) (victims : List Nat) : Option (Fin n) → List Nat
  | some x => q.c_runqueue x
  | none => victims

/-- A thread taken from an empty list is used. -/
inductive NullThread where
  | null_thread
  deriving DecidableEq, Repr

/-- One step of `thread_consider_migration` on CPU `c`; a `none` in the place of the program counter
is the return. -/
def migrateNext (c : Fin n) (curthread : Nat) (q : Queues n) :
    MigratePc n → Except NullThread (Queues n × Option (MigratePc n))
  | .count i my_count total_count =>
    if h : i < n then
      let len := (q.c_runqueue ⟨i, h⟩).length
      .ok (q, some (.count (i + 1) (if ⟨i, h⟩ = c then len else my_count) (total_count + len)))
    else
      let one_share := divRoundUp total_count n
      if my_count < one_share then .ok (q, none) else .ok (q, some (.takeWant (my_count - one_share) one_share))
  | .takeWant to_send one_share => .ok (q, some (.taking to_send to_send one_share []))
  | .taking 0 to_send one_share victims => .ok (q, some (.give 0 to_send one_share victims))
  | .taking (left + 1) to_send one_share victims =>
    match (q.c_runqueue c).getLast? with
    | none => .error .null_thread
    | some u =>
      .ok (q.setQueue c (q.c_runqueue c).dropLast, some (.taking left to_send one_share (u :: victims)))
  | .give i to_send one_share victims =>
    if h : i < n ∧ 0 < to_send then
      if ⟨i, h.1⟩ = c then .ok (q, some (.give (i + 1) to_send one_share victims))
      else .ok (q, some (.giving ⟨i, h.1⟩ to_send one_share victims))
    else .ok (q, some (.back victims))
  | .giving x to_send one_share victims =>
    if (q.c_runqueue x).length < one_share ∧ 0 < to_send then
      match victims with
      | [] => .error .null_thread
      | u :: us =>
        -- the current thread of an idle CPU can be among the victims, and stays
        if u = curthread then .ok (q, some (.giving x (to_send - 1) one_share (us ++ [u])))
        else
          .ok ((q.setCpu u x).setQueue x (q.c_runqueue x ++ [u]), some (.giving x (to_send - 1) one_share us))
    else .ok (q, some (.give (x + 1) to_send one_share victims))
  | .back [] => .ok (q, none)
  | .back (u :: us) => .ok (q, some (.backing (u :: us)))
  | .backing [] => .ok (q, none)
  | .backing (u :: us) => .ok (q.setQueue c (q.c_runqueue c ++ [u]), some (.backing us))

/-! ## The system -/

structure MigrationState (n : Nat) where
  queues : Queues n
  /-- The run queue locks that other CPUs hold. -/
  busy : Fin n → Bool
  /-- `none` once the function has returned. -/
  pc : Option (MigratePc n)
  panicked : Option NullThread

namespace MigrationState

/-- The private list of the function. -/
def victims (s : MigrationState n) : List Nat := (s.pc.map (·.victims)).getD []

theorem victims_eq {s : MigrationState n} {pc : MigratePc n} (h : s.pc = some pc) : s.victims = pc.victims := by
  rw [victims, h]
  rfl

/-- The lock that the function holds. -/
def holds (c : Fin n) (s : MigrationState n) : Option (Fin n) := s.pc.bind (·.holds c)

/-- All the lists with threads on them. -/
def lists (s : MigrationState n) : Option (Fin n) → List Nat := s.queues.lists s.victims

end MigrationState

/-- Every thread is in one place; a thread on a run queue, or taken from the own one, has its `t_cpu` right. -/
structure Placed (c : Fin n) (q : Queues n) (victims : List Nat) : Prop where
  apart : Apart (q.lists victims)
  home : ∀ x u, u ∈ q.c_runqueue x → q.t_cpu u = x
  taken : ∀ u, u ∈ victims → q.t_cpu u = c

/-- A step of the function: it waits for the lock that it wants. -/
def migrationNext (c : Fin n) (curthread : Nat) (s : MigrationState n) : Option (MigrationState n) :=
  if s.panicked.isSome then none
  else
    s.pc.bind fun pc =>
      if ∀ x, pc.wants c = some x → s.busy x = false then
        match migrateNext c curthread s.queues pc with
        | .ok (q, pc') => some { s with queues := q, pc := pc' }
        | .error e => some { s with panicked := some e }
      else none

/-- What the other CPUs can do: add threads to any queue and take them from the other queues, where
they have the lock, and keep threads in one place. -/
structure Interferes (c : Fin n) (curthread : Nat) (s s' : MigrationState n) : Prop where
  pc : s'.pc = s.pc
  panicked : s'.panicked = s.panicked
  locked : ∀ x, s.holds c = some x → s'.queues.c_runqueue x = s.queues.c_runqueue x ∧ s'.busy x = false
  -- from the queue of CPU `c` only CPU `c` takes threads
  own : s.queues.c_runqueue c <+ s'.queues.c_runqueue c
  current : s'.queues.t_cpu curthread = s.queues.t_cpu curthread
  placed : Placed c s'.queues s'.victims

inductive MigrationAct where
  | own
  | others

def migrationSystem (c : Fin n) (curthread : Nat) : System (MigrationState n) MigrationAct where
  init := fun s =>
    s.pc = some (.count 0 0 0) ∧ s.panicked = none ∧ Placed c s.queues s.victims ∧ s.queues.t_cpu curthread = c
  step := fun s a s' =>
    match a with
    | .own => migrationNext c curthread s = some s'
    | .others => Interferes c curthread s s'

end Code

/-! ## What a step does -/

section Steps

variable {n : Nat} {c : Fin n} {curthread : Nat} {s s' : MigrationState n}

/-- What the counts promise: there is a thread wherever one is taken. -/
def CountsOk (c : Fin n) (q : Queues n) : MigratePc n → Prop
  | .count _ my_count _ => my_count ≤ (q.c_runqueue c).length
  | .takeWant to_send _ => to_send ≤ (q.c_runqueue c).length
  | .taking left to_send _ victims => left ≤ (q.c_runqueue c).length ∧ left + victims.length = to_send
  | .give _ to_send _ victims => to_send ≤ victims.length
  | .giving x to_send _ victims => to_send ≤ victims.length ∧ x ≠ c
  | .back _ | .backing _ => True

structure MigrationInv (c : Fin n) (curthread : Nat) (s : MigrationState n) : Prop where
  safe : s.panicked = none
  placed : Placed c s.queues s.victims
  current : s.queues.t_cpu curthread = c
  counts : ∀ pc, s.pc = some pc → CountsOk c s.queues pc

/-- The three things that a step can do with the threads. -/
inductive Rearranges (c : Fin n) (curthread one_share : Nat) (q q' : Queues n) (v v' : List Nat) : Prop where
  /-- The order of the private list changes. -/
  | stay (hq : q' = q) (hv : v' ~ v)
  | take (u : Nat) (hq : q.c_runqueue c = q'.c_runqueue c ++ [u])
      (hrest : ∀ x, x ≠ c → q'.c_runqueue x = q.c_runqueue x) (hcpu : q'.t_cpu = q.t_cpu) (hv : v' = u :: v)
  | hand (u : Nat) (x : Fin n) (hq : q' = (q.setCpu u x).setQueue x (q.c_runqueue x ++ [u])) (hv : v = u :: v')
      (hcur : u = curthread → x = c) (hshare : x ≠ c → (q.c_runqueue x).length < one_share)

/-- The rank of a program counter, smaller with every step: the phase, then the loops of the phase. -/
def MigratePc.rank : MigratePc n → Nat ×ₗ Nat ×ₗ Nat
  | .count i _ _ => toLex (6, toLex (n - i, 0))
  | .takeWant _ _ => toLex (5, toLex (0, 0))
  | .taking left _ _ _ => toLex (4, toLex (left, 0))
  | .give i to_send _ _ => toLex (3, toLex (n - i, to_send + 1))
  | .giving x to_send _ _ => toLex (3, toLex (n - x, to_send))
  | .back _ => toLex (2, toLex (0, 0))
  | .backing victims => toLex (1, toLex (victims.length, 0))

/-- What is known after a step of the function. -/
structure StepOk (c : Fin n) (curthread : Nat) (q : Queues n) (pc : MigratePc n) (q' : Queues n)
    (pc' : Option (MigratePc n)) : Prop where
  moved : Rearranges c curthread pc.one_share q q' pc.victims ((pc'.map (·.victims)).getD [])
  counts : ∀ p, pc' = some p → CountsOk c q' p
  closer : ∀ p, pc' = some p → p.rank < pc.rank
  finished : pc' = none → pc.victims = []

theorem rank_lt_phase {a b : Nat} {x y : Nat ×ₗ Nat} (h : a < b) : toLex (a, x) < toLex (b, y) :=
  Prod.Lex.toLex_lt_toLex.mpr (.inl h)

theorem rank_lt_outer {a b b' k k' : Nat} (h : b < b') : toLex (a, toLex (b, k)) < toLex (a, toLex (b', k')) :=
  Prod.Lex.toLex_lt_toLex.mpr (.inr ⟨rfl, Prod.Lex.toLex_lt_toLex.mpr (.inl h)⟩)

theorem rank_lt_inner {a b k k' : Nat} (h : k < k') : toLex (a, toLex (b, k)) < toLex (a, toLex (b, k')) :=
  Prod.Lex.toLex_lt_toLex.mpr (.inr ⟨rfl, Prod.Lex.toLex_lt_toLex.mpr (.inr ⟨rfl, h⟩)⟩)

variable {q : Queues n}

/-- A step that leaves the threads where they are. -/
theorem StepOk.control {pc p : MigratePc n} (hv : p.victims ~ pc.victims) (hc : CountsOk c q p)
    (hr : p.rank < pc.rank) : StepOk c curthread q pc q (some p) where
  moved := .stay rfl hv
  counts := by
    intro p' hp
    cases hp
    exact hc
  closer := by
    intro p' hp
    cases hp
    exact hr
  finished := nofun

variable {pc : MigratePc n}

/-- The function returns. -/
theorem StepOk.done (hv : pc.victims = []) : StepOk c curthread q pc q none where
  moved := .stay rfl (by rw [hv]; rfl)
  counts := nofun
  closer := nofun
  finished := fun _ => hv

/-- The function takes the last thread of its queue. -/
theorem StepOk.taken {left to_send one_share u : Nat} {l victims : List Nat}
    (hq : q.c_runqueue c = l ++ [u]) (hc : CountsOk c q (.taking (left + 1) to_send one_share victims)) :
    StepOk c curthread q (.taking (left + 1) to_send one_share victims) (q.setQueue c l)
      (some (.taking left to_send one_share (u :: victims))) := by
  constructor
  · apply Rearranges.take u
    · rw [Queues.setQueue_self, hq]
    · intro x hx
      exact q.setQueue_of_ne hx l
    · rfl
    · rfl
  · intro p hp
    cases hp
    obtain ⟨hleft, hsum⟩ := hc
    rw [hq, List.length_append, List.length_singleton] at hleft
    constructor
    · rw [Queues.setQueue_self]
      omega
    · rw [List.length_cons]
      omega
  · intro p hp
    cases hp
    exact rank_lt_outer (Nat.lt_succ_self left)
  · nofun

/-- The function hands a thread to another CPU. -/
theorem StepOk.handed {x : Fin n} {to_send one_share u : Nat} {us : List Nat}
    (hc : CountsOk c q (.giving x to_send one_share (u :: us)))
    (hroom : (q.c_runqueue x).length < one_share ∧ 0 < to_send) (hu : u ≠ curthread) :
    StepOk c curthread q (.giving x to_send one_share (u :: us)) ((q.setCpu u x).setQueue x (q.c_runqueue x ++ [u]))
      (some (.giving x (to_send - 1) one_share us)) := by
  obtain ⟨hsend, hx⟩ := hc
  constructor
  · exact .hand u x rfl rfl (fun h => absurd h hu) (fun _ => hroom.1)
  · intro p hp
    cases hp
    rw [List.length_cons] at hsend
    exact ⟨by omega, hx⟩
  · intro p hp
    cases hp
    exact rank_lt_inner (Nat.sub_one_lt hroom.2.ne')
  · nofun

/-- The function puts a leftover back on its own queue. -/
theorem StepOk.returned {u : Nat} {us : List Nat} (hu : q.t_cpu u = c) :
    StepOk c curthread q (.backing (u :: us)) (q.setQueue c (q.c_runqueue c ++ [u])) (some (.backing us)) := by
  constructor
  · apply Rearranges.hand u c
    · -- the thread never left this CPU
      have hsame : update q.t_cpu u c = q.t_cpu := by rw [← hu, update_eq_self]
      rw [Queues.setCpu, hsame]
    · rfl
    · intro _
      rfl
    · intro h
      exact absurd rfl h
  · intro p hp
    cases hp
    exact trivial
  · intro p hp
    cases hp
    exact rank_lt_outer (Nat.lt_succ_self us.length)
  · nofun

/-- **The step lemma**: a step from a good state takes no thread from an empty list. -/
theorem migrateNext_spec (hc : CountsOk c q pc) (ht : ∀ u, u ∈ pc.victims → q.t_cpu u = c) :
    ∃ q' pc', migrateNext c curthread q pc = .ok (q', pc') ∧ StepOk c curthread q pc q' pc' := by
  cases pc with
  | count i my_count total_count =>
    by_cases hi : i < n
    · refine ⟨q, _, dif_pos hi, .control (.refl _) ?_ (rank_lt_outer (by omega))⟩
      by_cases hic : (⟨i, hi⟩ : Fin n) = c
      · rw [if_pos hic, hic]
        exact le_refl _
      · rw [if_neg hic]
        exact hc
    · by_cases hshare : my_count < divRoundUp total_count n
      · exact ⟨q, none, (dif_neg hi).trans (if_pos hshare), .done rfl⟩
      · refine ⟨q, _, (dif_neg hi).trans (if_neg hshare), .control (.refl _) ?_ (rank_lt_phase (by decide))⟩
        exact (Nat.sub_le _ _).trans hc
  | takeWant to_send one_share =>
    refine ⟨q, _, rfl, .control (.refl _) ?_ (rank_lt_phase (by decide))⟩
    exact ⟨hc, Nat.add_zero _⟩
  | taking left to_send one_share victims =>
    cases left with
    | zero =>
      refine ⟨q, _, rfl, .control (.refl _) ?_ (rank_lt_phase (by decide))⟩
      have hsum : 0 + victims.length = to_send := hc.2
      show to_send ≤ victims.length
      omega
    | succ left =>
      -- the queue cannot have become shorter since it was counted
      have hne : q.c_runqueue c ≠ [] := by
        intro hnil
        have hlen := hc.1
        rw [hnil] at hlen
        exact absurd hlen (Nat.not_succ_le_zero left)
      have hlast : (q.c_runqueue c).getLast? = some ((q.c_runqueue c).getLast hne) :=
        List.getLast?_eq_some_getLast hne
      refine ⟨_, _, ?_, .taken (List.dropLast_append_getLast hne).symm hc⟩
      rw [migrateNext, hlast]
  | give i to_send one_share victims =>
    by_cases hi : i < n ∧ 0 < to_send
    · by_cases hic : (⟨i, hi.1⟩ : Fin n) = c
      · refine ⟨q, _, (dif_pos hi).trans (if_pos hic), .control (.refl _) hc (rank_lt_outer ?_)⟩
        omega
      · exact ⟨q, _, (dif_pos hi).trans (if_neg hic), .control (.refl _) ⟨hc, hic⟩ (rank_lt_inner (by omega))⟩
    · exact ⟨q, _, dif_neg hi, .control (.refl _) trivial (rank_lt_phase (by decide))⟩
  | giving x to_send one_share victims =>
    by_cases hroom : (q.c_runqueue x).length < one_share ∧ 0 < to_send
    · cases victims with
      | nil => exact absurd hc.1 (Nat.not_le.mpr hroom.2)
      | cons u us =>
        by_cases hu : u = curthread
        · -- the current thread goes to the end of the list, and one less is sent
          refine ⟨q, _, (if_pos hroom).trans (if_pos hu), .control ?_ ?_ (rank_lt_inner (by omega))⟩
          · exact List.perm_append_singleton u us
          · have hsend : to_send ≤ (u :: us).length := hc.1
            refine ⟨?_, hc.2⟩
            rw [List.length_append, List.length_singleton]
            rw [List.length_cons] at hsend
            omega
        · exact ⟨_, _, (if_pos hroom).trans (if_neg hu), .handed hc hroom hu⟩
    · refine ⟨q, _, if_neg hroom, .control (.refl _) hc.1 (rank_lt_outer ?_)⟩
      omega
  | back victims =>
    cases victims with
    | nil => exact ⟨q, none, rfl, .done rfl⟩
    | cons u us => exact ⟨q, _, rfl, .control (.refl _) trivial (rank_lt_phase (by decide))⟩
  | backing victims =>
    cases victims with
    | nil => exact ⟨q, none, rfl, .done rfl⟩
    | cons u us => exact ⟨_, _, rfl, .returned (ht u List.mem_cons_self)⟩

/-! ## Runs -/

variable {q q' : Queues n} {v v' : List Nat} {one_share : Nat}

section

variable (h : Rearranges c curthread one_share q q' v v')
include h

/-- A step moves at most one thread, between a run queue and the private list. -/
theorem Rearranges.moves :
    (q' = q ∧ v' ~ v) ∨
      ∃ u i j, i ≠ j ∧ q.lists v i ~ u :: q'.lists v' i ∧ q'.lists v' j ~ u :: q.lists v j ∧
        ∀ k, k ≠ i → k ≠ j → q'.lists v' k ~ q.lists v k := by
  cases h with
  | stay hq hv => exact .inl ⟨hq, hv⟩
  | take u hq hrest hcpu hv =>
    refine .inr ⟨u, some c, none, nofun, ?_, ?_, ?_⟩
    · show q.c_runqueue c ~ u :: q'.c_runqueue c
      rw [hq]
      exact List.perm_append_singleton u _
    · show v' ~ u :: v
      rw [hv]
    · intro k hk hnone
      cases k with
      | none => exact absurd rfl hnone
      | some x =>
        show q'.c_runqueue x ~ q.c_runqueue x
        rw [hrest x fun h => hk (congrArg some h)]
  | hand u x hq hv hcur hshare =>
    refine .inr ⟨u, none, some x, nofun, ?_, ?_, ?_⟩
    · show v ~ u :: v'
      rw [hv]
    · show q'.c_runqueue x ~ u :: q.c_runqueue x
      rw [hq, Queues.setQueue_self]
      exact List.perm_append_singleton u _
    · intro k hnone hk
      cases k with
      | none => exact absurd rfl hnone
      | some y =>
        show q'.c_runqueue y ~ q.c_runqueue y
        rw [hq, Queues.setQueue_of_ne _ fun h => hk (congrArg some h)]
        rfl

/-- No thread is lost, and none comes from nowhere. -/
theorem Rearranges.mem_iff (u : Nat) : (∃ k, u ∈ q'.lists v' k) ↔ ∃ k, u ∈ q.lists v k := by
  rcases h.moves with ⟨rfl, hv⟩ | ⟨w, i, j, -, hi, hj, hrest⟩
  · apply exists_congr
    intro k
    cases k with
    | none => exact hv.mem_iff
    | some x => exact Iff.rfl
  · exact Apart.mem_move hi hj hrest u

theorem Rearranges.apart (ha : Apart (q.lists v)) : Apart (q'.lists v') := by
  rcases h.moves with ⟨rfl, hv⟩ | ⟨u, i, j, hij, hi, hj, hrest⟩
  · apply ha.perm
    intro k
    cases k with
    | none => exact hv
    | some x => exact .refl _
  · exact ha.move hij hi hj hrest

theorem Rearranges.placed (hp : Placed c q v) : Placed c q' v' := by
  have hapart := h.apart hp.apart
  cases h with
  | stay hq hv =>
    subst hq
    exact ⟨hapart, hp.home, fun u hu => hp.taken u (hv.mem_iff.mp hu)⟩
  | take u hq hrest hcpu hv =>
    have hsub : ∀ w, w ∈ q'.c_runqueue c → w ∈ q.c_runqueue c := by
      intro w hw
      rw [hq]
      exact List.mem_append_left _ hw
    constructor
    · exact hapart
    · intro x w hw
      rw [hcpu]
      by_cases hx : x = c
      · subst hx
        exact hp.home x w (hsub w hw)
      · exact hp.home x w (hrest x hx ▸ hw)
    · intro w hw
      rw [hcpu]
      rw [hv] at hw
      rcases List.mem_cons.mp hw with rfl | hw
      · exact hp.home c w (by rw [hq]; exact List.mem_append_right _ List.mem_cons_self)
      · exact hp.taken w hw
  | hand u x hq hv hcur hshare =>
    -- the thread was on the private list, so its `t_cpu` matters to no other list
    have hfree : ∀ w, w ≠ u → q'.t_cpu w = q.t_cpu w := by
      intro w hw
      rw [hq]
      exact update_of_ne hw _ _
    have hset : q'.t_cpu u = x := by
      rw [hq]
      exact update_self u x q.t_cpu
    have hqx : q'.c_runqueue x = q.c_runqueue x ++ [u] := by rw [hq, Queues.setQueue_self]
    have hux : u ∈ q'.c_runqueue x := by
      rw [hqx]
      exact List.mem_append_right _ List.mem_cons_self
    constructor
    · exact hapart
    · intro y w hw
      by_cases hwu : w = u
      · subst hwu
        have hyx := hapart.disjoint (some x) (some y) w hux hw
        rw [hset]
        exact Option.some.inj hyx
      · rw [hfree w hwu]
        by_cases hy : y = x
        · subst hy
          rw [hqx] at hw
          rcases List.mem_append.mp hw with hw | hw
          · exact hp.home y w hw
          · exact absurd (List.mem_singleton.mp hw) hwu
        · rw [hq, Queues.setQueue_of_ne _ hy] at hw
          exact hp.home y w hw
    · intro w hw
      have hwu : w ≠ u := by
        intro hwu
        subst hwu
        exact nomatch hapart.disjoint none (some x) w hw hux
      rw [hfree w hwu]
      exact hp.taken w (hv ▸ List.mem_cons_of_mem u hw)

/-- The current thread stays with its CPU. -/
theorem Rearranges.current (hcpu : q.t_cpu curthread = c) : q'.t_cpu curthread = c := by
  cases h with
  | stay hq hv => rwa [hq]
  | take u hq hrest hsame hv => rwa [hsame]
  | hand u x hq hv hcur hshare =>
    rw [hq]
    show update q.t_cpu u x curthread = c
    by_cases hu : u = curthread
    · subst hu
      rw [update_self]
      exact hcur rfl
    · rwa [update_of_ne fun h => hu h.symm]

theorem Rearranges.share {x : Fin n} (hx : x ≠ c) :
    q'.c_runqueue x = q.c_runqueue x ∨ (q'.c_runqueue x).length ≤ one_share := by
  cases h with
  | stay hq hv => exact .inl (by rw [hq])
  | take u hq hrest hsame hv => exact .inl (hrest x hx)
  | hand u y hq hv hcur hshare =>
    by_cases hxy : x = y
    · subst hxy
      right
      rw [hq, Queues.setQueue_self, List.length_append, List.length_singleton]
      omega
    · left
      rw [hq, Queues.setQueue_of_ne _ hxy]
      rfl

end

/-- An own step from a good state: what it does, and that it is taken once the lock is free. -/
theorem migrationNext_spec (hi : MigrationInv c curthread s) (hpc : s.pc = some pc) :
    ∃ q' pc', StepOk c curthread s.queues pc q' pc' ∧
      migrationNext c curthread s =
        if ∀ x, pc.wants c = some x → s.busy x = false then some { s with queues := q', pc := pc' } else none := by
  have htaken := hi.placed.taken
  rw [MigrationState.victims_eq hpc] at htaken
  obtain ⟨q', pc', hrun, hok⟩ := migrateNext_spec (c := c) (hi.counts pc hpc) htaken
  refine ⟨q', pc', hok, ?_⟩
  simp only [migrationNext, hi.safe, hpc, Option.isSome_none, Bool.false_eq_true, if_false, Option.bind_some, hrun]

theorem MigrationInv.own (hi : MigrationInv c curthread s) (h : migrationNext c curthread s = some s') :
    ∃ pc, s.pc = some pc ∧ StepOk c curthread s.queues pc s'.queues s'.pc ∧ MigrationInv c curthread s' := by
  cases hpc : s.pc with
  | none =>
    rw [migrationNext, hi.safe, hpc] at h
    exact nomatch h
  | some pc =>
    obtain ⟨q', pc', hok, hrun⟩ := migrationNext_spec hi hpc
    rw [hrun] at h
    split at h
    · cases h
      have hmoved := hok.moved
      rw [← MigrationState.victims_eq hpc] at hmoved
      exact ⟨pc, rfl, hok, hi.safe, hmoved.placed hi.placed, hmoved.current hi.current, hok.counts⟩
    · exact nomatch h

/-- The other CPUs cannot make the own queue shorter than it was counted. -/
theorem CountsOk.mono (h : CountsOk c q pc) (hle : (q.c_runqueue c).length ≤ (q'.c_runqueue c).length) :
    CountsOk c q' pc := by
  cases pc with
  | count i my_count total_count | takeWant to_send one_share => exact le_trans (b := (q.c_runqueue c).length) h hle
  | taking left to_send one_share victims => exact ⟨h.1.trans hle, h.2⟩
  | give i to_send one_share victims => exact h
  | giving x to_send one_share victims => exact h
  | back victims => trivial
  | backing victims => trivial

theorem MigrationInv.others (hi : MigrationInv c curthread s) (h : Interferes c curthread s s') :
    MigrationInv c curthread s' where
  safe := h.panicked.trans hi.safe
  placed := h.placed
  current := h.current.trans hi.current
  counts := by
    intro pc hpc
    rw [h.pc] at hpc
    exact (hi.counts pc hpc).mono h.own.length_le

theorem MigrationInv.step {a : MigrationAct} (hi : MigrationInv c curthread s)
    (h : (migrationSystem c curthread).step s a s') : MigrationInv c curthread s' := by
  cases a with
  | own =>
    obtain ⟨-, -, -, hi'⟩ := hi.own h
    exact hi'
  | others => exact hi.others h

theorem migrationInv_init (h : (migrationSystem c curthread).init s) : MigrationInv c curthread s := by
  obtain ⟨hpc, hsafe, hplaced, hcur⟩ := h
  refine ⟨hsafe, hplaced, hcur, ?_⟩
  intro pc h
  rw [hpc] at h
  cases h
  exact Nat.zero_le _

theorem migrationInv_reachable (h : (migrationSystem c curthread).Reachable s) : MigrationInv c curthread s :=
  System.invariant (fun _ => migrationInv_init) (fun _ _ _ => MigrationInv.step) h

/-- The rank of a state, least once the function has returned. -/
def MigrationState.rank (s : MigrationState n) : Nat ×ₗ Nat ×ₗ Nat :=
  (s.pc.map (·.rank)).getD (toLex (0, toLex (0, 0)))

/-- In a run in which the function gets the locks it waits for, until it has returned, it returns. -/
theorem migration_eventually_returns {run : Nat → MigrationState n} {act : Nat → MigrationAct}
    (hinit : (migrationSystem c curthread).init (run 0))
    (hrun : ∀ k, (migrationSystem c curthread).step (run k) (act k) (run (k + 1)))
    (hfair : ∀ k, (run k).pc ≠ none → ∃ j, k ≤ j ∧ act j = .own) : ∃ k, (run k).pc = none := by
  refine System.eventually_of_rank (fun s => s.pc = none) (fun a => a = .own) wellFounded_lt
    MigrationState.rank (fun _ _ _ => MigrationInv.step) ?_ ?_ (migrationInv_init hinit) hrun hfair
  · intro s a s' hi ha h
    subst ha
    obtain ⟨pc, hpc, hok, -⟩ := hi.own h
    cases hpc' : s'.pc with
    | none => exact .inl rfl
    | some pc' =>
      right
      rw [MigrationState.rank, MigrationState.rank, hpc, hpc']
      exact hok.closer pc' hpc'
  · intro s a s' hi ha h
    cases a with
    | own => exact absurd rfl ha
    | others => rw [MigrationState.rank, MigrationState.rank, Interferes.pc h]

/-- **Migration conserves threads.** Whatever the other CPUs do with the run queues between the
locked sections of `thread_consider_migration`: every thread stays on one list, with `t_cpu`
naming the run queue it is on; the current thread stays with its CPU; no thread is taken from an
empty list; a step of the function loses no thread and makes no other run queue longer than
`one_share`; it returns with no thread on the private list; and it returns if it gets the locks
it waits for. -/
theorem thread_consider_migration_conserves (c : Fin n) (curthread : Nat) {s : MigrationState n}
    (hs : (migrationSystem c curthread).Reachable s) :
    s.panicked = none ∧ Placed c s.queues s.victims ∧
      (∀ x, curthread ∈ s.queues.c_runqueue x → x = c) ∧ s.queues.t_cpu curthread = c ∧
      (∀ pc, s.pc = some pc →
        ((∀ x, pc.wants c = some x → s.busy x = false) → ∃ s', (migrationSystem c curthread).step s .own s') ∧
        ∀ s', (migrationSystem c curthread).step s .own s' →
          (∀ u, (∃ k, u ∈ s'.lists k) ↔ ∃ k, u ∈ s.lists k) ∧
          (∀ x, x ≠ c → s'.queues.c_runqueue x = s.queues.c_runqueue x ∨
            (s'.queues.c_runqueue x).length ≤ pc.one_share) ∧
          (s'.pc = none → pc.victims = [])) ∧
      ∀ (run : Nat → MigrationState n) (act : Nat → MigrationAct),
        (migrationSystem c curthread).init (run 0) →
        (∀ k, (migrationSystem c curthread).step (run k) (act k) (run (k + 1))) →
        (∀ k, (run k).pc ≠ none → ∃ j, k ≤ j ∧ act j = .own) → ∃ k, (run k).pc = none := by
  have hi := migrationInv_reachable hs
  refine ⟨hi.safe, hi.placed, ?_, hi.current, ?_, fun _ _ => migration_eventually_returns⟩
  · intro x hx
    exact (hi.placed.home x curthread hx).symm.trans hi.current
  · intro pc hpc
    constructor
    · intro hfree
      obtain ⟨q', pc', -, hrun⟩ := migrationNext_spec hi hpc
      exact ⟨_, hrun.trans (if_pos hfree)⟩
    · intro s' h
      obtain ⟨pc₁, hpc₁, hok, -⟩ := hi.own h
      obtain rfl : pc₁ = pc := Option.some.inj (hpc₁.symm.trans hpc)
      refine ⟨?_, fun x hx => hok.moved.share hx, hok.finished⟩
      intro u
      rw [MigrationState.lists, MigrationState.lists, MigrationState.victims_eq hpc]
      exact hok.moved.mem_iff u

end Steps

/-! ## An example

Of the four threads on the queue of CPU 0 two are taken. The first one is the current thread of
the CPU, which is not handed over. -/

/-- CPU 0 has four threads, the others none. -/
def fourThreads {n : Nat} [NeZero n] : MigrationState n where
  queues := { c_runqueue := fun x => if x = 0 then [1, 2, 3, 4] else [], t_cpu := fun _ => 0 }
  busy := fun _ => false
  pc := some (.count 0 0 0)
  panicked := none

theorem fourThreads_mem {k : Option (Fin 2)} {u : Nat} (h : u ∈ fourThreads.lists k) : k = some 0 := by
  rcases k with _ | x
  · exact nomatch h
  · by_cases hx : x = 0
    · rw [hx]
    · replace h : u ∈ if x = 0 then [1, 2, 3, 4] else [] := h
      rw [if_neg hx] at h
      exact nomatch h

theorem fourThreads_init : (migrationSystem (0 : Fin 2) 3).init fourThreads := by
  refine ⟨rfl, rfl, ⟨⟨?_, ?_⟩, ?_, nofun⟩, rfl⟩
  · intro k
    rcases k with _ | x
    · exact List.nodup_nil
    · show (if x = 0 then [1, 2, 3, 4] else []).Nodup
      split
      · decide
      · exact List.nodup_nil
  · intro i j x hi hj
    rw [fourThreads_mem hi, fourThreads_mem hj]
  · intro x u hu
    exact (Option.some.inj (fourThreads_mem (k := some x) hu)).symm

/-- The function runs with nothing in between. -/
def undisturbed {n : Nat} (c : Fin n) (curthread : Nat) (k : Nat) (s : MigrationState n) : Option (MigrationState n) :=
  System.follow (fun s (_ : Unit) => migrationNext c curthread s) (List.replicate k ()) s

theorem undisturbed_reachable {n : Nat} {c : Fin n} {curthread : Nat} (k : Nat) {s s' : MigrationState n}
    (hs : (migrationSystem c curthread).Reachable s) (h : undisturbed c curthread k s = some s') :
    (migrationSystem c curthread).Reachable s' := by
  induction k generalizing s with
  | zero =>
    cases h
    exact hs
  | succ k ih =>
    obtain ⟨t, ht, hrest⟩ := Option.bind_eq_some_iff.mp h
    exact ih (.step .own hs ht) hrest

theorem thread_consider_migration_four :
    ∃ s, (migrationSystem (0 : Fin 2) 3).Reachable s ∧ s.pc = none ∧ s.queues.c_runqueue 0 = [1, 2, 3] ∧
      s.queues.c_runqueue 1 = [4] ∧ s.queues.t_cpu 4 = 1 ∧ s.queues.t_cpu 3 = 0 ∧ s.panicked = none := by
  have hview : (undisturbed (0 : Fin 2) 3 16 fourThreads).map (fun s =>
      (s.pc, s.queues.c_runqueue 0, s.queues.c_runqueue 1, s.queues.t_cpu 4)) = some (none, [1, 2, 3], [4], 1) := by
    decide +kernel
  obtain ⟨s, hs, hres⟩ := Option.map_eq_some_iff.mp hview
  simp only [Prod.mk.injEq] at hres
  obtain ⟨hpc, h0, h1, hcpu⟩ := hres
  have hreach := undisturbed_reachable 16 (.init fourThreads_init) hs
  obtain ⟨hsafe, -, -, hcur, -⟩ := thread_consider_migration_conserves 0 3 hreach
  exact ⟨s, hreach, hpc, h0, h1, hcpu, hcur, hsafe⟩

end OS161.Threads
