import Mathlib

/-! # Byte swapping

The model of `kern/lib/bswap.c`, on the big-endian processor that the kernel is built for. Two
of the eight lanes of `bswap64` are shifted in the wrong direction; everything here is said bit
by bit.
-/

namespace OS161

def bswap32 (val : BitVec 32) : BitVec 32 :=
  ((val &&& 0x000000ff#32) <<< 24) ||| ((val &&& 0x0000ff00#32) <<< 8) |||
    ((val &&& 0x00ff0000#32) >>> 8) ||| ((val &&& 0xff000000#32) >>> 24)

def bswap64 (val : BitVec 64) : BitVec 64 :=
  ((val &&& 0x00000000000000ff#64) <<< 56) |||
    ((val &&& 0x000000000000ff00#64) <<< 40) |||
    ((val &&& 0x0000000000ff0000#64) <<< 24) |||
    ((val &&& 0x00000000ff000000#64) <<< 8) |||
    ((val &&& 0x000000ff00000000#64) <<< 8) |||
    ((val &&& 0x0000ff0000000000#64) <<< 24) |||
    ((val &&& 0x00ff000000000000#64) >>> 40) |||
    ((val &&& 0xff00000000000000#64) >>> 56)

def join32to64 (x1 x2 : BitVec 32) : BitVec 64 := (x1.setWidth 64 <<< 32) ||| x2.setWidth 64

def split64to32 (x : BitVec 64) : BitVec 32 × BitVec 32 :=
  ((x >>> 32).setWidth 32, (x &&& 0xffffffff#64).setWidth 32)

/-- What the functions are for. -/
structure BswapLaws (x : BitVec 64) (a b : BitVec 32) : Prop where
  twice : bswap64 (bswap64 x) = x
  join : bswap64 (join32to64 a b) = join32to64 (bswap32 b) (bswap32 a)
  split_join : split64to32 (join32to64 a b) = (a, b)
  join_split : join32to64 (split64to32 x).1 (split64to32 x).2 = x

variable {x : BitVec 64} {a b : BitVec 32} {i : Nat}

/-- Where bit `i` of a number of `n` bytes comes from when the bytes are reversed. -/
def swapBit (n i : Nat) : Nat := 8 * (n - 1 - i / 8) + i % 8

theorem getLsbD_bswap32 (hi : i < 32) : (bswap32 a).getLsbD i = a.getLsbD (swapBit 4 i) := by
  interval_cases i <;> simp [bswap32, swapBit]

/-- The lanes 2 and 3 get nothing, and lane 5 gets lane 4 too. -/
theorem getLsbD_bswap64 (hi : i < 64) : (bswap64 x).getLsbD i =
    (!decide (16 ≤ i ∧ i < 32) && x.getLsbD (swapBit 8 i) || decide (40 ≤ i ∧ i < 48) && x.getLsbD (i - 8)) := by
  interval_cases i <;> simp [bswap64, swapBit]

/-- The lanes 2 to 4 end up empty, and lane 5 is a copy of lane 3. -/
theorem getLsbD_bswap64_bswap64 (hi : i < 64) : (bswap64 (bswap64 x)).getLsbD i =
    (!decide (16 ≤ i ∧ i < 40) && x.getLsbD (if 40 ≤ i ∧ i < 48 then i - 16 else i)) := by
  have hswap : swapBit 8 (swapBit 8 i) = i ∧ swapBit 8 i / 8 = 7 - i / 8 := by
    simp only [swapBit]
    omega
  have hlane : 40 ≤ i ∧ i < 48 → swapBit 8 (i - 8) = i - 16 := by
    simp only [swapBit]
    omega
  rw [getLsbD_bswap64 hi, getLsbD_bswap64 (by omega), getLsbD_bswap64 (by omega), hswap.1]
  grind

theorem bswap64_bswap64_iff : bswap64 (bswap64 x) = x ↔ ∀ i, 16 ≤ i → i < 48 → x.getLsbD i = false := by
  constructor
  · intro h i hlo hhi
    have hbit : ∀ i, i < 64 → x.getLsbD i = _ := fun i hi => h ▸ getLsbD_bswap64_bswap64 hi
    grind
  · intro h
    apply BitVec.eq_of_getLsbD_eq
    intro i hi
    rw [getLsbD_bswap64_bswap64 hi]
    grind

theorem getLsbD_join32to64 (hi : i < 64) :
    (join32to64 a b).getLsbD i = if 32 ≤ i then a.getLsbD (i - 32) else b.getLsbD i := by
  simp only [join32to64, BitVec.getLsbD_or, BitVec.getLsbD_shiftLeft, BitVec.getLsbD_setWidth]
  grind

/-- The two lanes are the low ones of `a`. -/
theorem bswap64_join_iff : bswap64 (join32to64 a b) = join32to64 (bswap32 b) (bswap32 a) ↔
    ∀ i < 16, a.getLsbD i = false := by
  have hbit : ∀ i, i < 64 →
      (join32to64 (bswap32 b) (bswap32 a)).getLsbD i = (join32to64 a b).getLsbD (swapBit 8 i) := by
    intro i hi
    rw [getLsbD_join32to64 hi, getLsbD_join32to64 (by simp only [swapBit]; omega)]
    grind [getLsbD_bswap32, swapBit]
  constructor
  · intro h i hi
    have hwide : swapBit 4 i < 64 ∧ swapBit 8 (swapBit 4 i) < 64 := by
      simp only [swapBit]
      omega
    have hlost := hbit (swapBit 4 i) hwide.1
    rw [← h, getLsbD_bswap64 hwide.1, getLsbD_join32to64 hwide.2] at hlost
    grind [swapBit]
  · intro h
    apply BitVec.eq_of_getLsbD_eq
    intro i hi
    have hwide : swapBit 8 i < 64 ∧ i - 8 < 64 := by
      simp only [swapBit]
      omega
    rw [hbit i hi, getLsbD_bswap64 hi, getLsbD_join32to64 hwide.1, getLsbD_join32to64 hwide.2]
    grind [swapBit]

theorem getLsbD_split64to32 (hi : i < 32) :
    (split64to32 x).1.getLsbD i = x.getLsbD (32 + i) ∧ (split64to32 x).2.getLsbD i = x.getLsbD i := by
  have hmask : 0xffffffff#64 = (BitVec.allOnes 32).setWidth 64 := rfl
  have hlt : i < 64 := by omega
  simp only [split64to32, hmask, BitVec.getLsbD_setWidth, BitVec.getLsbD_ushiftRight, BitVec.getLsbD_and,
    BitVec.getLsbD_allOnes, hi, hlt, decide_true, Bool.true_and, Bool.and_true, and_self]

theorem split64to32_join32to64 : split64to32 (join32to64 a b) = (a, b) := by
  apply Prod.ext <;> apply BitVec.eq_of_getLsbD_eq <;> intro i hi
  · rw [(getLsbD_split64to32 hi).1, getLsbD_join32to64 (by omega), if_pos (by omega), Nat.add_sub_cancel_left]
  · rw [(getLsbD_split64to32 hi).2, getLsbD_join32to64 (by omega), if_neg (by omega)]

theorem join32to64_split64to32 : join32to64 (split64to32 x).1 (split64to32 x).2 = x := by
  apply BitVec.eq_of_getLsbD_eq
  intro i hi
  rw [getLsbD_join32to64 hi]
  split
  next hhigh => rw [(getLsbD_split64to32 (by omega)).1, Nat.add_sub_cancel' hhigh]
  next hlow => rw [(getLsbD_split64to32 (by omega)).2]

/-- **Byte swapping** is right just for the numbers that are 0 in the lanes which `bswap64` loses:
the four in the middle for two swaps, and the low two of `a` for a join. -/
theorem bswap64_laws_iff (x : BitVec 64) (a b : BitVec 32) :
    BswapLaws x a b ↔ (∀ i, 16 ≤ i → i < 48 → x.getLsbD i = false) ∧ ∀ i < 16, a.getLsbD i = false := by
  rw [← bswap64_bswap64_iff, ← bswap64_join_iff (b := b)]
  constructor
  · intro h
    exact ⟨h.twice, h.join⟩
  · intro ⟨htwice, hjoin⟩
    exact ⟨htwice, hjoin, split64to32_join32to64, join32to64_split64to32⟩

theorem bswap64_loses_lane : bswap64 (bswap64 0x10000#64) = 0#64 ∧ ¬ BswapLaws 0x10000#64 0#32 0#32 :=
  ⟨by decide, fun h => absurd h.twice (by decide)⟩

end OS161
