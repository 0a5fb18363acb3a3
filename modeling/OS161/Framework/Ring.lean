import Mathlib

/-! # Ring buffers

The contents of a buffer of `n` places that is used as a ring: `len` elements from place `start`
on, and after place `n - 1` comes place `0`.
-/

namespace Framework

open Function

variable {α : Type*} {buf : Nat → α} {n start len : Nat}

/-- Two places of a ring are the same only if they are equally far from `s`. -/
theorem place_inj {s a b : Nat} (ha : a < n) (hb : b < n) (h : (s + a) % n = (s + b) % n) : a = b := by
  have hmod := Nat.ModEq.add_left_cancel' s h
  rwa [Nat.ModEq, Nat.mod_eq_of_lt ha, Nat.mod_eq_of_lt hb] at hmod

/-- The elements of a ring, oldest one first. -/
def ring (buf : Nat → α) (n start len : Nat) : List α :=
  (List.range len).map fun i => buf ((start + i) % n)

/-- The newest element. -/
theorem ring_concat : ring buf n start (len + 1) = ring buf n start len ++ [buf ((start + len) % n)] := by
  rw [ring, List.range_succ, List.map_append]
  rfl

/-- The oldest element. -/
theorem ring_cons : ring buf n start (len + 1) = buf (start % n) :: ring buf n ((start + 1) % n) len := by
  simp [ring, List.range_succ_eq_map, Function.comp_def, Nat.add_assoc, Nat.add_comm 1]

/-- A write to the place after the newest element. -/
theorem ring_update (hlen : len < n) (x : α) :
    ring (update buf ((start + len) % n) x) n start len = ring buf n start len := by
  apply List.map_congr_left
  intro i hi
  have hi := List.mem_range.mp hi
  apply update_of_ne
  intro heq
  exact hi.ne (place_inj (hi.trans hlen) hlen heq)

end Framework
