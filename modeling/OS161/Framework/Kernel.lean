import Mathlib

/-! # Kernel code as state transformers

Kernel functions change the machine state and then either return a value, return an error
number, or stop the machine. The state changed before an error is kept: an error return is not a
rollback.

`Kern σ ε π α` is the type of such code over states `σ`, error numbers `ε` and panics `π`. `wp`
is its weakest precondition, with one postcondition for each of the three ways to end, and the
rules below compute it for each way to build code.
-/

namespace Framework

/-- How a piece of kernel code ends. -/
inductive Outcome (σ ε π α : Type) where
  | ok (a : α) (s : σ)
  | err (e : ε) (s : σ)
  | panic (p : π)
  deriving DecidableEq

section Ends

variable {σ ε π α : Type}

/-- The value and the state of a return without an error. -/
def Outcome.returned : Outcome σ ε π α → Option (α × σ)
  | .ok a s => some (a, s)
  | _ => none

def Outcome.stopped : Outcome σ ε π α → Option π
  | .panic p => some p
  | _ => none

variable {o : Outcome σ ε π α}

theorem Outcome.eq_ok {x : α × σ} (h : o.returned = some x) : o = .ok x.1 x.2 := by
  cases o <;> cases h
  rfl

theorem Outcome.eq_panic {p : π} (h : o.stopped = some p) : o = .panic p := by
  cases o <;> cases h
  rfl

end Ends

/-- Kernel code over the state `σ`. -/
def Kern (σ ε π α : Type) : Type := σ → Outcome σ ε π α

namespace Kern

variable {σ ε π α β : Type}

/-! ## Building code -/

def ret (a : α) : Kern σ ε π α := fun s => .ok a s

def andThen (m : Kern σ ε π α) (f : α → Kern σ ε π β) : Kern σ ε π β := fun s =>
  match m s with
  | .ok a s' => f a s'
  | .err e s' => .err e s'
  | .panic p => .panic p

instance : Monad (Kern σ ε π) where
  pure := ret
  bind := andThen

/-- Return an error number. -/
def fail (e : ε) : Kern σ ε π α := fun s => .err e s

/-- Stop the machine. -/
def halt (p : π) : Kern σ ε π α := fun _ => .panic p

def read : Kern σ ε π σ := fun s => .ok s s

/-- Change the state. -/
def modify (f : σ → σ) : Kern σ ε π Unit := fun s => .ok () (f s)

/-- An assertion of the source: the machine stops when it is false. -/
def kassert (c : Prop) [Decidable c] (p : π) : Kern σ ε π Unit :=
  if c then ret () else halt p

/-- Run code and hand its return code to the caller, who decides what an error means. -/
def attempt (m : Kern σ ε π α) : Kern σ ε π (Except ε α) := fun s =>
  match m s with
  | .ok a s' => .ok (.ok a) s'
  | .err e s' => .ok (.error e) s'
  | .panic p => .panic p

/-- Turn a return code back into a return. -/
def ofExcept : Except ε α → Kern σ ε π α
  | .ok a => ret a
  | .error e => fail e

/-- Run code on a part of the state. -/
def zoom {τ : Type} (get : τ → σ) (put : τ → σ → τ) (m : Kern σ ε π α) :
    Kern τ ε π α := fun t =>
  match m (get t) with
  | .ok a s => .ok a (put t s)
  | .err e s => .err e (put t s)
  | .panic p => .panic p

/-- Run code that has a local variable, and return its last value. -/
def withLocal {τ : Type} (x : τ) (m : Kern (σ × τ) ε π α) : Kern σ ε π (α × τ) := fun s =>
  match m (s, x) with
  | .ok a (s', y) => .ok (a, y) s'
  | .err e (s', _) => .err e s'
  | .panic p => .panic p

/-- The state in which code has returned, with or without an error. -/
def finalState (m : Kern σ ε π α) (s : σ) : Option σ :=
  match m s with
  | .ok _ s' => some s'
  | .err _ s' => some s'
  | .panic _ => none

/-! ## Running code -/

variable (s : σ)

@[simp] theorem pure_run (a : α) : (pure a : Kern σ ε π α) s = .ok a s := rfl

@[simp] theorem fail_run (e : ε) : (fail e : Kern σ ε π α) s = .err e s := rfl

@[simp] theorem read_bind_run (f : σ → Kern σ ε π β) : (read >>= f) s = f s s := rfl

@[simp] theorem modify_bind_run (g : σ → σ) (f : Unit → Kern σ ε π β) :
    (modify g >>= f) s = f () (g s) := rfl

variable {m : Kern σ ε π α} {f : α → Kern σ ε π β}

theorem bind_run_ok {s s' : σ} {a : α} (h : m s = .ok a s') : (m >>= f) s = f a s' := by
  show andThen m f s = _
  rw [andThen, h]

theorem bind_run_err {s s' : σ} {e : ε} (h : m s = .err e s') : (m >>= f) s = .err e s' := by
  show andThen m f s = _
  rw [andThen, h]

/-! ## Weakest preconditions -/

/-- `wp m Q E F s`: started in `s`, the code `m` returns a value that meets `Q`, or an error that
meets `E`, or panics in a way that meets `F`. -/
def wp (m : Kern σ ε π α) (Q : α → σ → Prop) (E : ε → σ → Prop) (F : π → Prop)
    (s : σ) : Prop :=
  match m s with
  | .ok a s' => Q a s'
  | .err e s' => E e s'
  | .panic p => F p

variable {s} {Q : α → σ → Prop} {E : ε → σ → Prop} {F : π → Prop}

@[simp] theorem wp_ret (a : α) : wp (ret a) Q E F s ↔ Q a s := Iff.rfl

@[simp] theorem wp_pure (a : α) : wp (pure a : Kern σ ε π α) Q E F s ↔ Q a s := Iff.rfl

@[simp] theorem wp_fail (e : ε) : wp (fail e : Kern σ ε π α) Q E F s ↔ E e s := Iff.rfl

@[simp] theorem wp_halt (p : π) : wp (halt p : Kern σ ε π α) Q E F s ↔ F p := Iff.rfl

@[simp] theorem wp_read {Q : σ → σ → Prop} : wp (read : Kern σ ε π σ) Q E F s ↔ Q s s := Iff.rfl

@[simp] theorem wp_modify {Q : Unit → σ → Prop} (f : σ → σ) :
    wp (modify f : Kern σ ε π Unit) Q E F s ↔ Q () (f s) := Iff.rfl

@[simp] theorem wp_bind {Q : β → σ → Prop} (m : Kern σ ε π α) (f : α → Kern σ ε π β) :
    wp (m >>= f) Q E F s ↔ wp m (fun a s' => wp (f a) Q E F s') E F s := by
  show wp (andThen m f) Q E F s ↔ _
  unfold wp andThen
  cases m s <;> rfl

@[simp] theorem wp_attempt {Q : Except ε α → σ → Prop} (m : Kern σ ε π α) :
    wp (attempt m) Q E F s ↔
      wp m (fun a s' => Q (.ok a) s') (fun e s' => Q (.error e) s') F s := by
  unfold wp attempt
  cases m s <;> rfl

@[simp] theorem wp_ofExcept_ok (a : α) :
    wp (ofExcept (.ok a) : Kern σ ε π α) Q E F s ↔ Q a s := Iff.rfl

@[simp] theorem wp_ofExcept_error (e : ε) :
    wp (ofExcept (.error e) : Kern σ ε π α) Q E F s ↔ E e s := Iff.rfl

@[simp] theorem wp_kassert {Q : Unit → σ → Prop} (c : Prop) [Decidable c] (p : π) :
    wp (kassert c p : Kern σ ε π Unit) Q E F s ↔ if c then Q () s else F p := by
  unfold kassert
  split <;> rfl

@[simp] theorem wp_zoom {τ : Type} {Q : α → τ → Prop} {E : ε → τ → Prop} {t : τ}
    (get : τ → σ) (put : τ → σ → τ) (m : Kern σ ε π α) :
    wp (zoom get put m) Q E F t ↔
      wp m (fun a s => Q a (put t s)) (fun e s => E e (put t s)) F (get t) := by
  unfold wp zoom
  cases m (get t) <;> rfl

@[simp] theorem wp_withLocal {τ : Type} {Q : α × τ → σ → Prop} (x : τ) (m : Kern (σ × τ) ε π α) :
    wp (withLocal x m) Q E F s ↔
      wp m (fun a t => Q (a, t.2) t.1) (fun e t => E e t.1) F (s, x) := by
  unfold wp withLocal
  cases m (s, x) <;> rfl

theorem wp_read_bind {Q : β → σ → Prop} (f : σ → Kern σ ε π β) : wp (read >>= f) Q E F s ↔ wp (f s) Q E F s := Iff.rfl

theorem wp_modify_bind {Q : β → σ → Prop} (g : σ → σ) (f : Unit → Kern σ ε π β) :
    wp (modify g >>= f) Q E F s ↔ wp (f ()) Q E F (g s) := Iff.rfl

/-- An assertion that holds. -/
theorem wp_kassert_bind {Q : β → σ → Prop} {c : Prop} [Decidable c] (h : c) {p : π} (f : Unit → Kern σ ε π β) :
    wp (kassert c p >>= f) Q E F s ↔ wp (f ()) Q E F s := by
  rw [wp_bind, wp_kassert, if_pos h]

theorem wp_ite (c : Prop) [Decidable c] (m m' : Kern σ ε π α) :
    wp (if c then m else m') Q E F s ↔
      if c then wp m Q E F s else wp m' Q E F s := by
  split <;> rfl

/-- **Rule for conditionals**: each branch where its condition holds. -/
theorem wp_if {c : Prop} [Decidable c] {m m' : Kern σ ε π α} (h : c → wp m Q E F s) (h' : ¬ c → wp m' Q E F s) :
    wp (if c then m else m') Q E F s := by
  rw [wp_ite]
  split
  · exact h ‹_›
  · exact h' ‹_›

variable {Q' : α → σ → Prop} {E' : ε → σ → Prop}

/-- **Consequence rule**. -/
theorem wp_mono {F' : π → Prop} (h : wp m Q E F s) (hQ : ∀ a s', Q a s' → Q' a s')
    (hE : ∀ e s', E e s' → E' e s') (hF : ∀ p, F p → F' p) : wp m Q' E' F' s := by
  unfold wp at h ⊢
  split at h
  · exact hQ _ _ h
  · exact hE _ _ h
  · exact hF _ h

/-- The consequence rule for what is returned, value or error. -/
theorem wp_post (h : wp m Q E F s) (hQ : ∀ a s', Q a s' → Q' a s')
    (hE : ∀ e s', E e s' → E' e s') : wp m Q' E' F s :=
  wp_mono h hQ hE fun _ h => h

/-- The consequence rule for the value that is returned. -/
theorem wp_imp (h : wp m Q E F s) (hQ : ∀ a s', Q a s' → Q' a s') : wp m Q' E F s :=
  wp_mono h hQ (fun _ _ h => h) (fun _ h => h)

/-- **Conjunction rule**: what has been shown of the same code in two ways. -/
theorem wp_and {F' : π → Prop} (h : wp m Q E F s) (h' : wp m Q' E' F' s) :
    wp m (fun a s' => Q a s' ∧ Q' a s') (fun e s' => E e s' ∧ E' e s') (fun p => F p ∧ F' p) s := by
  unfold wp at h h' ⊢
  cases hm : m s with
  | ok a s' =>
    rw [hm] at h h'
    exact ⟨h, h'⟩
  | err e s' =>
    rw [hm] at h h'
    exact ⟨h, h'⟩
  | panic p =>
    rw [hm] at h h'
    exact ⟨h, h'⟩

/-- **Sequence rule**: the second piece of code starts where the first may have returned. -/
theorem wp_seq {Q : β → σ → Prop} {F' : π → Prop} (h : wp m Q' E' F' s)
    (hf : ∀ a s', Q' a s' → wp (f a) Q E F s') (hE : ∀ e s', E' e s' → E e s')
    (hF : ∀ p, F' p → F p) : wp (m >>= f) Q E F s := by
  rw [wp_bind]
  exact wp_mono h hf hE hF

/-- The sequence rule for code whose errors are passed on. -/
theorem wp_then {Q : β → σ → Prop}
    (h : wp m Q' E F s) (hf : ∀ a s', Q' a s' → wp (f a) Q E F s') : wp (m >>= f) Q E F s :=
  wp_seq h hf (fun _ _ h => h) (fun _ h => h)

theorem wp_of_run_ok {a : α} {y : σ} (hm : m s = .ok a y) (h : Q a y) : wp m Q E F s := by
  unfold wp
  rwa [hm]

variable {s' : σ}

theorem wp_of_run_err {e : ε} (hm : m s = .err e s') (h : E e s') : wp m Q E F s := by
  unfold wp
  rwa [hm]

/-- Code that can end in one way only ends in that way. -/
theorem run_eq_of_wp {a : α}
    (h : wp m (fun b t => b = a ∧ t = s') (fun _ _ => False) (fun _ => False) s) :
    m s = .ok a s' := by
  unfold wp at h
  cases hm : m s with
  | ok b t =>
    rw [hm] at h
    rw [h.1, h.2]
  | err e t =>
    rw [hm] at h
    exact h.elim
  | panic p =>
    rw [hm] at h
    exact h.elim

/-- Code that can neither fail nor panic returns. -/
theorem exists_ok_of_wp
    (h : wp m Q (fun _ _ => False) (fun _ => False) s) : ∃ a s', m s = .ok a s' ∧ Q a s' := by
  unfold wp at h
  cases hm : m s with
  | ok a s' =>
    rw [hm] at h
    exact ⟨a, s', rfl, h⟩
  | err e s' =>
    rw [hm] at h
    exact h.elim
  | panic p =>
    rw [hm] at h
    exact h.elim

/-- Where code is known to return, its other specifications are about what it returns. -/
theorem exists_of_wp_of_returns {R : α → σ → Prop} (h : wp m Q E F s)
    (hreturns : wp m R (fun _ _ => False) (fun _ => False) s) : ∃ a s', R a s' ∧ Q a s' := by
  obtain ⟨a, s', hm, hR⟩ := exists_ok_of_wp hreturns
  unfold wp at h
  rw [hm] at h
  exact ⟨a, s', hR, h⟩

/-- What every outcome implies, where there is no panic. -/
theorem of_wp {c : Prop} (h : wp m (fun _ _ => c) (fun _ _ => c) (fun _ => False) s) : c := by
  unfold wp at h
  cases hm : m s with
  | ok a s' =>
    rw [hm] at h
    exact h
  | err e s' =>
    rw [hm] at h
    exact h
  | panic p =>
    rw [hm] at h
    exact h.elim

theorem wp_ok {a : α} (hm : m s = .ok a s') (h : wp m Q E F s) : Q a s' := by
  unfold wp at h
  rwa [hm] at h

theorem wp_err {e : ε} (hm : m s = .err e s') (h : wp m Q E F s) : E e s' := by
  unfold wp at h
  rwa [hm] at h

theorem wp_panic {p : π} (hm : m s = .panic p) (h : wp m Q E F s) : F p := by
  unfold wp at h
  rwa [hm] at h

/-- What all returns of a piece of code establish holds in its final state. -/
theorem wp_finalState {I : σ → Prop}
    (h : wp m (fun _ => I) (fun _ => I) (fun _ => True) s) (hs : finalState m s = some s') :
    I s' := by
  unfold wp at h
  unfold finalState at hs
  split at h
  · rename_i hm
    simp only [hm, Option.some.injEq] at hs
    exact hs ▸ h
  · rename_i hm
    simp only [hm, Option.some.injEq] at hs
    exact hs ▸ h
  · rename_i hm
    simp only [hm] at hs
    cases hs

/-! ## Code without an error return -/

/-- Code that returns no error number, whatever state it starts in. -/
def NoError (m : Kern σ ε π α) : Prop :=
  ∀ s, wp m (fun _ _ => True) (fun _ _ => False) (fun _ => True) s

namespace NoError

theorem pure (a : α) : NoError (Pure.pure a : Kern σ ε π α) := fun _ => trivial

theorem halt (p : π) : NoError (Kern.halt p : Kern σ ε π α) := fun _ => trivial

theorem modify (f : σ → σ) : NoError (Kern.modify f : Kern σ ε π Unit) := fun _ => trivial

theorem kassert (c : Prop) [Decidable c] (p : π) : NoError (Kern.kassert c p : Kern σ ε π Unit) := by
  intro s
  rw [wp_kassert]
  split <;> trivial

theorem bind (hm : NoError m) (hf : ∀ a, NoError (f a)) : NoError (m >>= f) :=
  fun s => wp_seq (hm s) (fun a s' _ => hf a s') (fun _ _ h => h) (fun _ h => h)

theorem read_bind {f : σ → Kern σ ε π β} (hf : ∀ a, NoError (f a)) :
    NoError ((Kern.read : Kern σ ε π σ) >>= f) :=
  fun s => hf s s

theorem attempt (m : Kern σ ε π α) : NoError (Kern.attempt m) := by
  intro s
  rw [wp_attempt]
  unfold wp
  split <;> trivial

theorem zoom {τ : Type} (hm : NoError m) (get : τ → σ) (put : τ → σ → τ) :
    NoError (Kern.zoom get put m) :=
  fun t => (wp_zoom get put m).mpr (hm (get t))

end NoError

end Kern

end Framework
