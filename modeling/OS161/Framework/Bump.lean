import Mathlib

/-! # Bump allocation

An allocator that hands out consecutive cells of one size and takes none back. `Bump size lo cur
cell` says that the cells handed out so far, by owner, are aligned, pairwise distinct and
between `lo` and the bump pointer `cur`; handing out the next `n` cells keeps this.
-/

namespace Framework

variable {ι : Type*} {size lo cur : Nat} {cell cell' : ι → Option Nat}

/-- The cells handed out between `lo` and the bump pointer `cur`. -/
structure Bump (size lo cur : Nat) (cell : ι → Option Nat) : Prop where
  start : lo ≤ cur
  aligned_cur : size ∣ cur
  range : ∀ o c, cell o = some c → lo ≤ c ∧ c + size ≤ cur
  aligned : ∀ o c, cell o = some c → size ∣ c
  injective : ∀ o o' c, cell o = some c → cell o' = some c → o = o'

namespace Bump

/-- Nothing has been handed out. -/
theorem empty (halign : size ∣ lo) (hnone : ∀ o, cell o = none) : Bump size lo lo cell where
  start := Nat.le_refl _
  aligned_cur := halign
  range := fun o c h => by simp [hnone] at h
  aligned := fun o c h => by simp [hnone] at h
  injective := fun o o' c h => by simp [hnone] at h

/-- **Handing out `n` cells**, each to one new owner. -/
theorem extend (h : Bump size lo cur cell) (hsize : 0 < size) (n : Nat)
    (hcell : ∀ o c, cell' o = some c → cell o = some c ∨ ∃ j < n, c = cur + j * size)
    (hnew : ∀ o o' c, cell o ≠ some c → cell o' ≠ some c →
      cell' o = some c → cell' o' = some c → o = o') : Bump size lo (cur + n * size) cell' := by
  refine ⟨?_, ?_, ?_, ?_, ?_⟩
  · have hstart := h.start
    omega
  · exact (Nat.dvd_add_right h.aligned_cur).mpr (Nat.dvd_mul_left _ _)
  · intro o c hc
    rcases hcell o c hc with hold | ⟨j, hj, rfl⟩
    · have hrange := h.range o c hold
      omega
    · have hstart := h.start
      have hmul : (j + 1) * size ≤ n * size := Nat.mul_le_mul_right _ hj
      rw [Nat.add_mul, Nat.one_mul] at hmul
      omega
  · intro o c hc
    rcases hcell o c hc with hold | ⟨j, -, rfl⟩
    · exact h.aligned o c hold
    · exact (Nat.dvd_add_right h.aligned_cur).mpr (Nat.dvd_mul_left _ _)
  · intro o o' c hc hc'
    by_cases hold : cell o = some c
    · by_cases hold' : cell o' = some c
      · exact h.injective o o' c hold hold'
      · -- an old cell ends before the bump pointer
        have hrange := h.range o c hold
        obtain ⟨j, -, rfl⟩ := (hcell o' c hc').resolve_left hold'
        omega
    · by_cases hold' : cell o' = some c
      · have hrange := h.range o' c hold'
        obtain ⟨j, -, rfl⟩ := (hcell o c hc).resolve_left hold
        omega
      · exact hnew o o' c hold hold' hc hc'

end Bump

end Framework
