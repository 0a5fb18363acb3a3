import Mathlib

/-! # Taking turns

Threads of several groups share a place; a variable says whose turn it is. A thread that may not
go in is blocked, until one that leaves wakes all of them; a thread that has had its last turn
gives the turn away and wakes nobody.

`Step` says what a thread can do, `Inv` that somebody can still go on as long as there are
threads. The steps that take away a thread that could go on have to say who else can.
-/

namespace Framework

open Function

namespace Turns

/-- How far a thread is. -/
inductive Stage where
  | gone
  /-- Outside, and not blocked. -/
  | ready
  | blocked
  | inside
  /-- It does not come back. -/
  | last
  deriving DecidableEq

variable {T G : Type*} {group : T → G}

/-- The thread is not blocked, and will not be blocked before it has left or ended. -/
def GoesOn (group : T → G) (turn : G) (stage : T → Stage) (t : T) : Prop :=
  stage t = .inside ∨ stage t = .last ∨ (stage t = .ready ∧ group t = turn)

def Stage.awake : Stage → Stage
  | .blocked => .ready
  | .gone => .gone
  | .ready => .ready
  | .inside => .inside
  | .last => .last

/-- What the thread `t` can do. -/
inductive Step [DecidableEq T] (group : T → G) (t : T) : G → (T → Stage) → G → (T → Stage) → Prop where
  | stay (turn : G) (stage : T → Stage) : Step group t turn stage turn stage
  | wait (turn : G) (stage : T → Stage) (h : stage t = .ready) (hwhy : group t ≠ turn ∨ ∃ u, stage u = .inside) :
      Step group t turn stage turn (update stage t .blocked)
  | enter (turn : G) (stage : T → Stage) (h : stage t = .ready) :
      Step group t turn stage turn (update stage t .inside)
  | change (turn turn' : G) (stage : T → Stage) (h : stage t = .inside) : Step group t turn stage turn' stage
  /-- It wakes everybody and is outside again. -/
  | leave (turn : G) (stage : T → Stage) (h : stage t = .inside)
      (hnext : ∃ u, (stage u ≠ .gone ∧ group u = turn) ∨ (u ≠ t ∧ (stage u = .inside ∨ stage u = .last))) :
      Step group t turn stage turn (update (Stage.awake ∘ stage) t .ready)
  | leaveLast (turn : G) (stage : T → Stage) (h : stage t = .inside) :
      Step group t turn stage turn (update (Stage.awake ∘ stage) t .last)
  | finish (turn turn' : G) (stage : T → Stage) (h : stage t = .last)
      (hnext : (∀ u, u ≠ t → stage u = .gone) ∨ ∃ u, u ≠ t ∧ GoesOn group turn' stage u) :
      Step group t turn stage turn' (update stage t .gone)

/-- Nobody is left, or somebody can go on. -/
def Inv (group : T → G) (turn : G) (stage : T → Stage) : Prop :=
  (∃ t, stage t ≠ .gone) → ∃ t, GoesOn group turn stage t

variable {turn turn' : G} {stage stage' : T → Stage} {t : T}

theorem GoesOn.of_inside (h : stage t = .inside) : GoesOn group turn stage t := .inl h

theorem GoesOn.of_eq {u : T} (h : GoesOn group turn stage u) (hu : stage' u = stage u) : GoesOn group turn stage' u := by
  rw [GoesOn, hu]
  exact h

/-- The thread that leaves has woken the others of the group whose turn it is. -/
theorem goesOn_awake {u : T} (h : stage u ≠ .gone) (hu : group u = turn) : GoesOn group turn (Stage.awake ∘ stage) u := by
  show (stage u).awake = _ ∨ (stage u).awake = _ ∨ (stage u).awake = _ ∧ _
  cases hs : stage u with
  | gone => exact absurd hs h
  | ready => exact .inr (.inr ⟨rfl, hu⟩)
  | blocked => exact .inr (.inr ⟨rfl, hu⟩)
  | inside => exact .inl rfl
  | last => exact .inr (.inl rfl)

variable [DecidableEq T]

/-- **Step rule**: a step keeps the invariant. -/
theorem Inv.step (h : Inv group turn stage) (hs : Step group t turn stage turn' stage') : Inv group turn' stage' := by
  intro hleft
  cases hs with
  | stay => exact h hleft
  | wait _ hready hwhy =>
    -- the thread itself could not go on, or somebody is inside
    have hother : ∃ u, u ≠ t ∧ GoesOn group turn stage u := by
      rcases hwhy with hturn | ⟨u, hu⟩
      · obtain ⟨u, hu⟩ := h ⟨t, by rw [hready]; exact nofun⟩
        refine ⟨u, ?_, hu⟩
        rintro rfl
        rw [GoesOn, hready] at hu
        rcases hu with h | h | ⟨-, h⟩
        · exact nomatch h
        · exact nomatch h
        · exact hturn h
      · refine ⟨u, ?_, .of_inside hu⟩
        rintro rfl
        rw [hready] at hu
        exact nomatch hu
    obtain ⟨u, hut, hu⟩ := hother
    exact ⟨u, hu.of_eq (update_of_ne hut ..)⟩
  | enter _ hready => exact ⟨t, .of_inside (update_self ..)⟩
  | change _ _ hin => exact ⟨t, .of_inside hin⟩
  | leave _ hin hnext =>
    obtain ⟨u, hu⟩ := hnext
    by_cases hut : u = t
    · subst hut
      rcases hu with ⟨-, hu⟩ | ⟨hne, -⟩
      · exact ⟨u, .inr (.inr ⟨update_self .., hu⟩)⟩
      · exact absurd rfl hne
    · have hon : GoesOn group turn (Stage.awake ∘ stage) u := by
        rcases hu with ⟨hleft, hu⟩ | ⟨-, hu | hu⟩
        · exact goesOn_awake hleft hu
        · exact .inl (congrArg Stage.awake hu)
        · exact .inr (.inl (congrArg Stage.awake hu))
      exact ⟨u, hon.of_eq (update_of_ne hut ..)⟩
  | leaveLast _ hin => exact ⟨t, .inr (.inl (update_self ..))⟩
  | finish _ _ hlast hnext =>
    rcases hnext with hgone | ⟨u, hut, hu⟩
    · obtain ⟨u, hu⟩ := hleft
      by_cases hut : u = t
      · rw [hut, update_self] at hu
        exact absurd rfl hu
      · rw [update_of_ne hut] at hu
        exact absurd (hgone u hut) hu
    · exact ⟨u, hu.of_eq (update_of_ne hut ..)⟩

end Turns

end Framework
