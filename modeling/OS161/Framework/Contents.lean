import Mathlib

/-! # Contents addressed by position

The contents of a file, a memory or a tape as a function on positions. `splice` writes a list at
a position, `slice` reads one.
-/

namespace Framework

open Function

variable {α : Type*}

/-- `f` with the list `l` written from position `o` on. -/
def splice (f : Nat → α) (o : Nat) (l : List α) : Nat → α := fun p =>
  if o ≤ p then l.getD (p - o) (f p) else f p

/-- The `n` values of `f` from position `o` on. -/
def slice (f : Nat → α) (o n : Nat) : List α := (List.range' o n).map f

variable {f g : Nat → α} {o p n : Nat} {l m : List α}

theorem splice_before (h : p < o) : splice f o l p = f p := by
  unfold splice
  rw [if_neg (by omega)]

theorem splice_after (h : o + l.length ≤ p) : splice f o l p = f p := by
  unfold splice
  rw [if_pos (by omega), List.getD_eq_default _ _ (by omega)]

/-- Positions that are not written keep their value. -/
theorem splice_outside (h : p < o ∨ o + l.length ≤ p) : splice f o l p = f p := by
  rcases h with h | h
  · exact splice_before h
  · exact splice_after h

theorem splice_inside (d : α) (h : o ≤ p) (h' : p < o + l.length) : splice f o l p = l.getD (p - o) d := by
  unfold splice
  rw [if_pos h, List.getD_eq_getElem _ _ (by omega), List.getD_eq_getElem _ _ (by omega)]

@[simp] theorem splice_nil : splice f o [] = f := by
  funext p
  exact splice_outside (by simp; omega)

/-- One value. -/
theorem splice_singleton (x : α) : splice f o [x] = update f o x := by
  funext p
  by_cases h : p = o
  · rw [h, update_self, splice_inside x (Nat.le_refl _) (by simp), Nat.sub_self]
    rfl
  · rw [update_of_ne h]
    exact splice_outside (by simp; omega)

/-- Two lists in a row. -/
theorem splice_append : splice f o (l ++ m) = splice (splice f o l) (o + l.length) m := by
  funext p
  by_cases h : p < o + l.length
  · rw [splice_before h]
    unfold splice
    by_cases ho : o ≤ p
    · rw [if_pos ho, if_pos ho, List.getD_append _ _ _ _ (by omega)]
    · rw [if_neg ho, if_neg ho]
  · have hp : splice f o l p = f p := splice_after (by omega)
    show (if o ≤ p then (l ++ m).getD (p - o) (f p) else f p) =
      if o + l.length ≤ p then m.getD (p - (o + l.length)) (splice f o l p) else splice f o l p
    rw [hp, if_pos (by omega), if_pos (by omega), List.getD_append_right _ _ _ _ (by omega), Nat.sub_add_eq]

@[simp] theorem length_slice : (slice f o n).length = n := by
  simp [slice]

/-- What was written is read. -/
theorem slice_splice : slice (splice f o l) o l.length = l := by
  refine List.ext_getElem length_slice fun k _ hk => ?_
  simp [slice, splice, hk]

theorem slice_append (f : Nat → α) (o n k : Nat) : slice f o (n + k) = slice f o n ++ slice f (o + n) k := by
  unfold slice
  rw [← List.map_append, List.range'_append_1]

end Framework
