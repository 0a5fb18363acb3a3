import OS161.Framework.Kernel
import OS161.Framework.TransitionSystem

/-! # Objects with a specification

An object is code over a state, one piece for each operation, together with the meaning of the
operations on an abstract value: which calls are allowed, what they may return, and what the
value is afterwards. A call that returns an error leaves the value as it is.
-/

namespace Framework

/-- The operations `ι` of an object with states `σ`, and their meaning on `α`. -/
structure Object (σ ε π ι ρ : Type) (α : Type*) where
  run : ι → Kern σ ε π ρ
  allowed : α → ι → Prop
  result : α → ι → ρ → Prop
  next : α → ι → ρ → α
  /-- The errors that a call may return instead. -/
  refused : α → ι → ε → Prop

namespace Object

variable {σ ε π ι ρ : Type} {α : Type*} (o : Object σ ε π ι ρ α) {init Rep : σ → α → Prop}

/-- The object in use, with its abstract value alongside. -/
def system (init : σ → α → Prop) : System (σ × α) ι where
  init := fun x => init x.1 x.2
  step := fun x op x' => o.allowed x.2 op ∧
    ((∃ r, o.run op x.1 = .ok r x'.1 ∧ x'.2 = o.next x.2 op r) ∨
      ∃ e, o.run op x.1 = .err e x'.1 ∧ x'.2 = x.2)

/-- The call does what is specified; one that fails does nothing, and no assertion fails in
either. -/
def Meets (Rep : σ → α → Prop) (x : σ × α) (op : ι) : Prop :=
  (o.run op).wp (fun r s => o.result x.2 op r ∧ Rep s (o.next x.2 op r))
    (fun e s => o.refused x.2 op e ∧ s = x.1) (fun _ => False) x.1

/-- **Refinement rule**: if every call from a state that represents the value does what is
specified, then so does every call in every run. -/
theorem refines (hinit : ∀ s a, init s a → Rep s a)
    (hmeets : ∀ s a op, Rep s a → o.allowed a op → o.Meets Rep (s, a) op)
    {x : σ × α} (hx : (o.system init).Reachable x) :
    Rep x.1 x.2 ∧ ∀ op, o.allowed x.2 op → o.Meets Rep x op := by
  have hrep : Rep x.1 x.2 := by
    refine System.invariant (I := fun x => Rep x.1 x.2) (fun x h => hinit _ _ h) ?_ hx
    intro x op x' h ⟨hop, hstep⟩
    have hm := hmeets _ _ op h hop
    rcases hstep with ⟨r, hrun, hnext⟩ | ⟨e, hrun, hnext⟩
    · rw [hnext]
      exact (Kern.wp_ok hrun hm).2
    · rw [hnext, (Kern.wp_err hrun hm).2]
      exact h
  exact ⟨hrep, fun op hop => hmeets _ _ op hrep hop⟩

end Object

end Framework
