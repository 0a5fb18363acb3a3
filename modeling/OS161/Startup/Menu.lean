import OS161.Thread.Semaphore

/-! # The menu and the programs it starts

`common_prog` forks a thread for the program and waits with `P(sem_runprogram)`
(`kern/startup/menu.c`). The semaphore is made at the end of `boot`; `thread_exit` does
`V(sem_runprogram)` in every thread (`kern/thread/thread.c`), whoever made the thread.

`P` and `V` are the steps of `Thread/Semaphore` on the count; a `P` that finds the count zero
sleeps until it can take one.
-/

namespace OS161

open Framework Function

/-! ## Model -/

/-- How far a thread has come. -/
inductive ThreadPhase where
  /-- Not forked yet. -/
  | unborn
  | live
  /-- In `thread_exit`, before its `V`. -/
  | exiting
  /-- In `thread_exit`, after its `V`. -/
  | zombie
  deriving DecidableEq, Repr

/-- Where the menu thread is. -/
inductive MenuPc (n : Nat) where
  /-- At the prompt, or in a command other than `common_prog`. -/
  | command
  /-- In `P(sem_runprogram)`, after it has forked the thread `t`. -/
  | P (t : Fin n)
  deriving DecidableEq, Repr

/-- The menu, all threads, and `sem_runprogram`. -/
structure MenuState (n : Nat) where
  menu : MenuPc n
  thr : Fin n → ThreadPhase
  sem_count : CInt
  /-- The threads that `common_prog` has forked and come back from. -/
  returned : List (Fin n)

/-- What the menu and the other threads do. -/
inductive MenuAct (n : Nat) where
  /-- `common_prog` up to its `P`; without a thread, `proc_create_runprogram` or `thread_fork` has
      failed. -/
  | common_prog (t : Option (Fin n))
  /-- A command of the menu, such as a thread test, forks a thread. -/
  | command_fork (t : Fin n)
  /-- The thread `u` forks a thread, in `sys_fork` or in a thread test. -/
  | thread_fork (u t : Fin n)
  /-- `thread_exit` is called. -/
  | thread_exit (t : Fin n)
  /-- `V(sem_runprogram)` in `thread_exit`. -/
  | exit_V (t : Fin n)
  /-- `P(sem_runprogram)` takes one, and `common_prog` returns. -/
  | return_P

namespace MenuState

variable {n : Nat}

def setPhase (s : MenuState n) (t : Fin n) (p : ThreadPhase) : MenuState n :=
  { s with thr := update s.thr t p }

/-- The thread has called `thread_exit`. -/
def Exited (s : MenuState n) (t : Fin n) : Prop := s.thr t = .exiting ∨ s.thr t = .zombie

instance instDecidableExited (s : MenuState n) (t : Fin n) : Decidable (s.Exited t) :=
  inferInstanceAs (Decidable (_ ∨ _))

/-- A new thread `t`. -/
def fork (s : MenuState n) (t : Fin n) : Option (MenuState n) :=
  if s.thr t = .unborn then some (s.setPhase t .live) else none

end MenuState

section System

variable {n : Nat}

def menuNext (s : MenuState n) : MenuAct n → Option (MenuState n)
  | .common_prog forked =>
    if s.menu = .command then
      match forked with
      | none => some s
      | some t => (s.fork t).map fun s' => { s' with menu := .P t }
    else none
  | .command_fork t => if s.menu = .command then s.fork t else none
  | .thread_fork u t => if s.thr u = .live then s.fork t else none
  | .thread_exit t => if s.thr t = .live then some (s.setPhase t .exiting) else none
  | .exit_V t =>
    if s.thr t = .exiting then
      ((semGate n).give t s.sem_count).map fun count => { s.setPhase t .zombie with sem_count := count }
    else none
  | .return_P =>
    match s.menu with
    | .command => none
    | .P t =>
      -- with the count zero the menu thread sleeps
      if (semGate n).ready s.sem_count then
        ((semGate n).take t s.sem_count).map fun count =>
          { s with menu := .command, sem_count := count, returned := t :: s.returned }
      else none

/-- The menu comes up with the count zero. The startup threads of other CPUs may still be on their
way to `thread_exit`. -/
def MenuBoot (s : MenuState n) : Prop :=
  s.menu = .command ∧ s.sem_count.val = 0 ∧ s.returned = [] ∧ ∀ t, s.thr t = .unborn ∨ s.thr t = .live

variable (n) in
def menuSystem : System (MenuState n) (MenuAct n) := .ofNext MenuBoot menuNext

/-- `common_prog` has returned only when the thread it forked had called `thread_exit`. -/
def MenuWaits (s : MenuState n) : Prop := ∀ t ∈ s.returned, s.Exited t

/-- A program is started only when the count is zero, and while the menu waits for its thread no
other thread counts up before that thread is in `thread_exit`. -/
def OwnExit (s : MenuState n) : MenuAct n → Prop
  | .common_prog (some _) => s.sem_count.val = 0
  | .exit_V u => ∀ t, s.menu = .P t → t = u ∨ s.Exited t
  | _ => True

/-! ## What the steps do -/

variable {s s' : MenuState n} {t u : Fin n}

namespace MenuState

theorem fork_some (h : s.fork t = some s') : s.thr t = .unborn ∧ s' = s.setPhase t .live := by
  unfold fork at h
  by_cases hnew : s.thr t = .unborn
  · rw [if_pos hnew] at h
    exact ⟨hnew, (Option.some.inj h).symm⟩
  · rw [if_neg hnew] at h
    cases h

/-- A thread that has called `thread_exit` stays so, unless its phase is set to another. -/
theorem Exited.setPhase (h : s.Exited u) {p : ThreadPhase}
    (hp : t = u → p = .exiting ∨ p = .zombie) : (s.setPhase t p).Exited u := by
  by_cases hut : u = t
  · subst hut
    show update s.thr u p u = _ ∨ update s.thr u p u = _
    rw [update_self]
    exact hp rfl
  · show update s.thr t p u = _ ∨ update s.thr t p u = _
    rw [update_of_ne hut]
    exact h

theorem not_exited_unborn (h : s.thr t = .unborn) : ¬ s.Exited t := by
  unfold Exited
  rw [h]
  simp

end MenuState

/-- The moves of the menu and the threads. -/
inductive MenuMove (s : MenuState n) : MenuAct n → MenuState n → Prop where
  | failed (hmenu : s.menu = .command) : MenuMove s (.common_prog none) s
  | started {t : Fin n} (hmenu : s.menu = .command) (hnew : s.thr t = .unborn) :
      MenuMove s (.common_prog (some t)) { s.setPhase t .live with menu := .P t }
  | forked {a : MenuAct n} {t : Fin n} (ha : ∀ s, OwnExit s a) (hnew : s.thr t = .unborn) :
      MenuMove s a (s.setPhase t .live)
  | exiting {t : Fin n} (hlive : s.thr t = .live) : MenuMove s (.thread_exit t) (s.setPhase t .exiting)
  | counted {t : Fin n} {count : CInt} (hexit : s.thr t = .exiting) (hpos : 0 < count.val) :
      MenuMove s (.exit_V t) { s.setPhase t .zombie with sem_count := count }
  | returned {t : Fin n} {count : CInt} (hmenu : s.menu = .P t) (hpos : 0 < s.sem_count.val)
      (hcount : count.val = s.sem_count.val - 1) :
      MenuMove s .return_P { s with menu := .command, sem_count := count, returned := t :: s.returned }

theorem menuNext_move {a : MenuAct n} (h : menuNext s a = some s') : MenuMove s a s' := by
  cases a with
  | common_prog forked =>
    by_cases hmenu : s.menu = .command
    · simp only [menuNext, hmenu, if_true] at h
      cases forked with
      | none =>
        cases h
        exact .failed hmenu
      | some t =>
        obtain ⟨s₁, hfork, rfl⟩ := Option.map_eq_some_iff.mp h
        obtain ⟨hnew, rfl⟩ := MenuState.fork_some hfork
        exact .started hmenu hnew
    · simp only [menuNext, hmenu, if_false] at h
      cases h
  | command_fork t | thread_fork u t =>
    obtain ⟨-, hfork⟩ := Option.ite_none_right_eq_some.mp h
    obtain ⟨hnew, rfl⟩ := MenuState.fork_some hfork
    exact .forked (fun _ => trivial) hnew
  | thread_exit t =>
    obtain ⟨hlive, hs⟩ := Option.ite_none_right_eq_some.mp h
    cases hs
    exact .exiting hlive
  | exit_V t =>
    obtain ⟨hexit, hs⟩ := Option.ite_none_right_eq_some.mp h
    obtain ⟨count, hgive, rfl⟩ := Option.map_eq_some_iff.mp hs
    exact .counted hexit (semGate_give hgive).2
  | return_P =>
    cases hmenu : s.menu with
    | command =>
      simp only [menuNext, hmenu] at h
      cases h
    | P t =>
      simp only [menuNext, hmenu] at h
      obtain ⟨-, hs⟩ := Option.ite_none_right_eq_some.mp h
      obtain ⟨count, htake, rfl⟩ := Option.map_eq_some_iff.mp hs
      obtain ⟨hpos, hcount⟩ := semGate_take htake
      exact .returned hmenu hpos hcount

/-- `P` does not sleep when the count is positive. -/
theorem return_enabled (hmenu : s.menu = .P t) (hpos : 0 < s.sem_count.val) :
    ∃ s', menuNext s .return_P = some s' ∧ s'.returned = t :: s.returned ∧ s'.thr = s.thr := by
  have hready : (semGate n).ready s.sem_count = true := by
    simp only [semGate, decide_eq_true_eq]
    omega
  have htake : (semGate n).take t s.sem_count = some (.wrap (s.sem_count.val - 1)) := if_pos hpos
  refine ⟨{ s with menu := .command, sem_count := .wrap (s.sem_count.val - 1), returned := t :: s.returned },
    ?_, rfl, rfl⟩
  simp only [menuNext, hmenu, hready, htake, if_true, Option.map_some]

/-! ## Runs -/

/-- The invariant of the runs in which every count belongs to the program waited for. -/
structure MenuInv (s : MenuState n) : Prop where
  waits : MenuWaits s
  nonneg : 0 ≤ s.sem_count.val
  /-- While the menu waits for a thread that goes on, there is nothing to take. -/
  empty : ∀ t, s.menu = .P t → ¬ s.Exited t → s.sem_count.val = 0

theorem MenuInv.boot (h : MenuBoot s) : MenuInv s := by
  obtain ⟨hmenu, hcount, hret, -⟩ := h
  refine ⟨?_, by omega, ?_⟩
  · intro t ht
    rw [hret] at ht
    cases ht
  · intro t ht
    rw [hmenu] at ht
    cases ht

/-- Setting the phase of a thread keeps the invariant when no exited thread is revived and the
awaited thread does not take back its exit. -/
theorem MenuInv.setPhase (h : MenuInv s) {p : ThreadPhase}
    (hp : s.Exited t → p = .exiting ∨ p = .zombie) : MenuInv (s.setPhase t p) := by
  have hkeep : ∀ u, s.Exited u → (s.setPhase t p).Exited u := by
    intro u hu
    apply hu.setPhase
    intro htu
    subst htu
    exact hp hu
  refine ⟨fun u hu => hkeep u (h.waits u hu), h.nonneg, ?_⟩
  intro u hmenu hnot
  exact h.empty u hmenu fun hu => hnot (hkeep u hu)

theorem MenuInv.step {a : MenuAct n} (h : MenuInv s) (hown : OwnExit s a) (hmove : MenuMove s a s') :
    MenuInv s' := by
  cases hmove with
  | failed => exact h
  | started hmenu hnew =>
    have hphase := h.setPhase (p := .live) fun hex => absurd hex (MenuState.not_exited_unborn hnew)
    -- the program starts with the count zero
    exact { hphase with empty := fun _ _ _ => hown }
  | forked _ hnew => exact h.setPhase fun hex => absurd hex (MenuState.not_exited_unborn hnew)
  | exiting => exact h.setPhase fun _ => .inl rfl
  | @counted t count hexit hpos =>
    have hphase := h.setPhase (t := t) (p := .zombie) fun _ => .inr rfl
    refine ⟨hphase.waits, hpos.le, ?_⟩
    intro u hmenu hnot
    -- the thread waited for is the one that counts, or has called `thread_exit` itself
    exfalso
    apply hnot
    rcases hown u hmenu with rfl | hex
    · right
      exact update_self ..
    · exact hex.setPhase fun _ => .inr rfl
  | @returned t count hmenu hpos hcount =>
    refine ⟨?_, show 0 ≤ count.val by omega, fun u hu => by cases hu⟩
    intro u hu
    rcases List.mem_cons.mp hu with rfl | hu
    · -- the count is positive, so the thread has called `thread_exit`
      by_contra hnot
      have hzero := h.empty u hmenu hnot
      omega
    · exact h.waits u hu

/-- **The menu and its program.** When every program is started with the count zero and no other
thread counts before the program's thread is in `thread_exit`, `common_prog` returns only after
that; and the first step against this lets it return too early. -/
theorem menu_waits_for_program (h : ((menuSystem n).restrict OwnExit).Reachable s) :
    MenuWaits s ∧ ∀ a s', ¬ OwnExit s a → menuNext s a = some s' →
      ∃ s'', menuNext s' .return_P = some s'' ∧ ¬ MenuWaits s'' := by
  have hinv : MenuInv s := by
    refine System.invariant (fun s hs => MenuInv.boot (show MenuBoot s from hs)) ?_ h
    exact fun s a s' hinv hstep => hinv.step hstep.1 (menuNext_move hstep.2)
  refine ⟨hinv.waits, ?_⟩
  intro a s' hown hstep
  -- it is enough that the menu waits for a thread that goes on, with a positive count
  have hearly : ∀ t, s'.menu = .P t → ¬ s'.Exited t → 0 < s'.sem_count.val →
      ∃ s'', menuNext s' .return_P = some s'' ∧ ¬ MenuWaits s'' := by
    intro t hmenu hnot hpos
    obtain ⟨s'', hnext, hret, hthr⟩ := return_enabled hmenu hpos
    refine ⟨s'', hnext, fun hwaits => hnot ?_⟩
    have hex := hwaits t (by rw [hret]; exact List.mem_cons_self)
    unfold MenuState.Exited at hex ⊢
    rwa [hthr] at hex
  cases menuNext_move hstep with
  | failed => exact absurd trivial hown
  | @started t hmenu hnew =>
    have hpos : 0 < s.sem_count.val := lt_of_le_of_ne hinv.nonneg fun hzero => hown hzero.symm
    apply hearly t rfl _ hpos
    unfold MenuState.Exited MenuState.setPhase
    simp
  | forked ha => exact absurd (ha s) hown
  | exiting => exact absurd trivial hown
  | @counted u count hexit hpos =>
    obtain ⟨t, hviol⟩ := not_forall.mp hown
    obtain ⟨hmenu, hne⟩ := Classical.not_imp.mp hviol
    obtain ⟨htu, hnot⟩ := not_or.mp hne
    apply hearly t hmenu _ hpos
    show ¬ (update s.thr u .zombie t = _ ∨ update s.thr u .zombie t = _)
    rwa [update_of_ne htu]
  | returned => exact absurd trivial hown

/-- The machine with no thread but the menu, before its first command. -/
def menuBoot : MenuState 2 where
  menu := .command
  thr := fun _ => .unborn
  sem_count := .wrap 0
  returned := []

theorem menuBoot_boot : MenuBoot menuBoot := ⟨rfl, rfl, rfl, fun _ => .inl rfl⟩

/-- One program is run, and the menu has come back from it. -/
theorem menu_waits_for_program_one : ∃ s : MenuState 2,
    System.follow menuNext [.common_prog (some 1), .thread_exit 1, .exit_V 1, .return_P] menuBoot = some s ∧
      s.returned = [1] ∧
      (MenuWaits s ∧ ∀ a s', ¬ OwnExit s a → menuNext s a = some s' →
        ∃ s'', menuNext s' .return_P = some s'' ∧ ¬ MenuWaits s'') := by
  refine ⟨_, rfl, rfl, ?_⟩
  apply menu_waits_for_program
  refine .step .return_P (.step (.exit_V 1) (.step (.thread_exit 1) (.step (.common_prog (some 1))
    (.init menuBoot_boot) ⟨rfl, rfl⟩) ⟨trivial, rfl⟩) ⟨?_, rfl⟩) ⟨trivial, rfl⟩
  intro t ht
  cases ht
  exact .inl rfl

/-- A thread test forks thread 0, which exits; then `common_prog` forks thread 1 and returns while
that thread has not run at all. -/
theorem menu_returns_early : ∃ s : MenuState 2, (menuSystem 2).Reachable s ∧ ¬ MenuWaits s ∧
    System.follow menuNext
      [.command_fork 0, .thread_exit 0, .exit_V 0, .common_prog (some 1), .return_P] menuBoot = some s ∧
    s.returned = [1] ∧ s.thr 1 = .live := by
  obtain ⟨s, hs, hret, hlive⟩ : ∃ s : MenuState 2, System.follow menuNext
      [.command_fork 0, .thread_exit 0, .exit_V 0, .common_prog (some 1), .return_P] menuBoot = some s ∧
      s.returned = [1] ∧ s.thr 1 = .live := ⟨_, rfl, rfl, rfl⟩
  refine ⟨s, System.Reachable.follow _ (.init menuBoot_boot) hs, ?_, hs, hret, hlive⟩
  intro hwaits
  have hex := hwaits 1 (by rw [hret]; exact List.mem_cons_self)
  unfold MenuState.Exited at hex
  rw [hlive] at hex
  simp at hex

end System

end OS161
