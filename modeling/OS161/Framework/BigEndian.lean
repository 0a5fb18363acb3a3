import Mathlib

/-! # Big-endian numbers

Numbers stored most significant byte first, in any memory of bytes: a memory is a function from
addresses to bytes.
-/

namespace Framework

/-- The number in the `w` bytes from address `i` on. -/
def beGet (f : Nat → UInt8) : (w i : Nat) → Nat
  | 0, _ => 0
  | w + 1, i => (f i).toNat * 256 ^ w + beGet f w (i + 1)

/-- Byte `k` of the representation of `n` in `w` bytes. -/
def beByte (w n k : Nat) : UInt8 := UInt8.ofNat (n / 256 ^ (w - 1 - k))

/-- The representation of `n` in `w` bytes. -/
def beBytes (w n : Nat) : List UInt8 := (List.range w).map (beByte w n)

variable {f g : Nat → UInt8}

@[simp] theorem length_beBytes (w n : Nat) : (beBytes w n).length = w := by
  simp [beBytes]

theorem getD_beBytes {w k : Nat} (n : Nat) (hk : k < w) : (beBytes w n).getD k 0 = beByte w n k := by
  simp [beBytes, hk]

theorem beGet_lt (f : Nat → UInt8) (w i : Nat) : beGet f w i < 256 ^ w := by
  induction w generalizing i with
  | zero => exact Nat.one_pos
  | succ w ih =>
    have hbyte : (f i).toNat * 256 ^ w ≤ 255 * 256 ^ w :=
      Nat.mul_le_mul_right _ (Nat.le_of_lt_succ (f i).toNat_lt)
    have hrest := ih (i + 1)
    rw [beGet, pow_succ]
    omega

/-- Only the bytes of the number matter. -/
theorem beGet_congr {w i j : Nat} (h : ∀ k < w, f (i + k) = g (j + k)) :
    beGet f w i = beGet g w j := by
  induction w generalizing i j with
  | zero => rfl
  | succ w ih =>
    have hfirst : f i = g j := h 0 (by omega)
    have hrest : beGet f w (i + 1) = beGet g w (j + 1) := by
      apply ih
      intro k hk
      have := h (k + 1) (by omega)
      rwa [show i + (k + 1) = i + 1 + k by omega, show j + (k + 1) = j + 1 + k by omega] at this
    rw [beGet, beGet, hfirst, hrest]

/-- **Round trip**. -/
theorem beGet_beByte {w i n : Nat} (h : ∀ k < w, f (i + k) = beByte w n k) :
    beGet f w i = n % 256 ^ w := by
  induction w generalizing i with
  | zero => rw [pow_zero, Nat.mod_one]; rfl
  | succ w ih =>
    have hrest : beGet f w (i + 1) = n % 256 ^ w := by
      apply ih
      intro k hk
      have hbyte := h (k + 1) (by omega)
      rw [show i + (k + 1) = i + 1 + k by omega] at hbyte
      rw [hbyte]
      unfold beByte
      rw [show w + 1 - 1 - (k + 1) = w - 1 - k by omega]
    have hfirst : (f i).toNat = n / 256 ^ w % 256 := by
      have hbyte := h 0 (by omega)
      rw [Nat.add_zero] at hbyte
      rw [hbyte]
      exact UInt8.toNat_ofNat'
    rw [beGet, hfirst, hrest, pow_succ, Nat.mod_mul]
    ring

end Framework
