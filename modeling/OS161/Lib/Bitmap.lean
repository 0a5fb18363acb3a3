import OS161.Framework.Object
import OS161.Lib.Types

/-! # Bitmaps

The model of `kern/lib/bitmap.c`: bits kept eight to a byte, with the search for a clear bit
that looks for a byte with one first.

Main result: `bitmap_refines_set`. The key point is that the bits left over in the last byte
stay set, so that the search never sees them.
-/

namespace OS161

open Framework Kern

abbrev BITS_PER_WORD : Nat := 8

/-- `struct bitmap`. -/
structure Bitmap where
  nbits : Nat
  v : Nat → UInt8

/-- `((WORD_TYPE)1) << offset`. -/
def wordMask (offset : Nat) : UInt8 := ⟨1#8 <<< offset⟩

/-- The word of a bit is replaced. -/
def Bitmap.setWord (b : Bitmap) (ix : Nat) (w : UInt8) : Bitmap :=
  { b with v := fun k => if k = ix then w else b.v k }

def Bitmap.mark (b : Bitmap) (i : Nat) : Bitmap :=
  b.setWord (i / BITS_PER_WORD) (b.v (i / BITS_PER_WORD) ||| wordMask (i % BITS_PER_WORD))

def Bitmap.unmark (b : Bitmap) (i : Nat) : Bitmap :=
  b.setWord (i / BITS_PER_WORD) (b.v (i / BITS_PER_WORD) &&& ~~~ wordMask (i % BITS_PER_WORD))

def bitmap_isset (b : Bitmap) (i : Nat) : Bool :=
  decide (b.v (i / BITS_PER_WORD) &&& wordMask (i % BITS_PER_WORD) ≠ 0)

/-- `bitmap_create`: all bits clear, except for those left over in the last word. -/
def bitmap_create (nbits : Nat) : Bitmap where
  nbits := nbits
  v := fun ix =>
    let words := (nbits + BITS_PER_WORD - 1) / BITS_PER_WORD
    let overbits := nbits - (words - 1) * BITS_PER_WORD
    if words > nbits / BITS_PER_WORD ∧ ix = words - 1 then
      (List.range' overbits (BITS_PER_WORD - overbits)).foldl (fun w j => w ||| wordMask j) 0
    else 0

def bitmap_alloc : Kern Bitmap Errno Panic Nat := do
  let b ← .read
  let maxix := (b.nbits + BITS_PER_WORD - 1) / BITS_PER_WORD
  match (List.range maxix).find? fun ix => b.v ix ≠ 0xff with
  | none => .fail .enospc
  | some ix =>
    match (List.range BITS_PER_WORD).find? fun offset => b.v ix &&& wordMask offset = 0 with
    | none => .halt .bitmap_alloc_word
    | some offset => do
      let index := ix * BITS_PER_WORD + offset
      .modify fun b => b.mark index
      .kassert (index < b.nbits) .bitmap_alloc_index
      pure index

def bitmap_mark (i : Nat) : Kern Bitmap Errno Panic Unit := do
  let b ← .read
  .kassert (i < b.nbits) .bitmap_mark_index
  .kassert (bitmap_isset b i = false) .bitmap_mark_set
  .modify fun b => b.mark i

def bitmap_unmark (i : Nat) : Kern Bitmap Errno Panic Unit := do
  let b ← .read
  .kassert (i < b.nbits) .bitmap_unmark_index
  .kassert (bitmap_isset b i = true) .bitmap_unmark_clear
  .modify fun b => b.unmark i

/-! ## Single bits -/

section Word

variable (w : UInt8) {i j : Nat}

theorem getLsbD_wordMask (hi : i < 8) : (wordMask j).toBitVec.getLsbD i = decide (i = j) := by
  simp only [wordMask, BitVec.getLsbD_shiftLeft, BitVec.getLsbD_one, hi, decide_true, Bool.true_and]
  by_cases h : i = j
  · simp [h]
  · by_cases hlt : i < j
    · simp [h, hlt]
    · have hne : i - j ≠ 0 := by omega
      simp [h, hlt, hne]

/-- The test of a bit through its mask. -/
theorem and_wordMask_ne_zero (hj : j < 8) : w &&& wordMask j ≠ 0 ↔ w.toBitVec.getLsbD j = true := by
  constructor
  · intro h
    by_contra hbit
    apply h
    apply UInt8.eq_of_toBitVec_eq
    apply BitVec.eq_of_getLsbD_eq
    intro i hi
    rw [UInt8.toBitVec_and, BitVec.getLsbD_and, getLsbD_wordMask hi]
    by_cases hij : i = j
    · subst hij
      simp [Bool.eq_false_iff.mpr hbit]
    · simp [hij]
  · intro hbit h
    have h' : (w &&& wordMask j).toBitVec.getLsbD j = false := by
      rw [h]
      simp
    rw [UInt8.toBitVec_and, BitVec.getLsbD_and, getLsbD_wordMask hj, hbit] at h'
    simp at h'

end Word

namespace Bitmap

variable (b : Bitmap) {i j : Nat}

/-- Bit `i` as a bit of its byte. -/
theorem isset_eq (i : Nat) : bitmap_isset b i = (b.v (i / 8)).toBitVec.getLsbD (i % 8) := by
  unfold bitmap_isset
  rw [Bool.eq_iff_iff, decide_eq_true_iff, and_wordMask_ne_zero _ (Nat.mod_lt _ (by decide))]

@[simp] theorem nbits_mark : (b.mark i).nbits = b.nbits := rfl

@[simp] theorem nbits_unmark : (b.unmark i).nbits = b.nbits := rfl

theorem isset_mark : bitmap_isset (b.mark i) j = (bitmap_isset b j || decide (j = i)) := by
  have hlt : j % 8 < 8 := Nat.mod_lt _ (by decide)
  rw [isset_eq, isset_eq]
  simp only [mark, setWord, BITS_PER_WORD]
  by_cases hw : j / 8 = i / 8
  · rw [if_pos hw, UInt8.toBitVec_or, BitVec.getLsbD_or, getLsbD_wordMask hlt, hw]
    congr 2
    rw [eq_iff_iff]
    omega
  · have hne : j ≠ i := fun h => hw (h ▸ rfl)
    simp [hw, hne]

theorem isset_unmark : bitmap_isset (b.unmark i) j = (bitmap_isset b j && !decide (j = i)) := by
  have hlt : j % 8 < 8 := Nat.mod_lt _ (by decide)
  rw [isset_eq, isset_eq]
  simp only [unmark, setWord, BITS_PER_WORD]
  by_cases hw : j / 8 = i / 8
  · rw [if_pos hw, UInt8.toBitVec_and, UInt8.toBitVec_not, BitVec.getLsbD_and, BitVec.getLsbD_not,
      getLsbD_wordMask hlt, hw]
    have heq : (j % 8 = i % 8) = (j = i) := by
      rw [eq_iff_iff]
      omega
    simp [hlt, heq]
  · have hne : j ≠ i := fun h => hw (h ▸ rfl)
    simp [hw, hne]

/-- A byte that is not full has a clear bit. -/
theorem exists_clear {w : UInt8} (h : w ≠ 0xff) : ∃ k < 8, w &&& wordMask k = 0 := by
  by_contra hnone
  apply h
  apply UInt8.eq_of_toBitVec_eq
  apply BitVec.eq_of_getLsbD_eq
  intro k hk
  have hset : w &&& wordMask k ≠ 0 := fun hz => hnone ⟨k, hk, hz⟩
  rw [(and_wordMask_ne_zero w hk).mp hset]
  show true = (BitVec.allOnes 8).getLsbD k
  rw [BitVec.getLsbD_allOnes, decide_eq_true hk]

end Bitmap

/-- The bits left over in the last byte are set. -/
def Bitmap.Padded (b : Bitmap) : Prop :=
  ∀ i, b.nbits ≤ i → i < (b.nbits + 7) / 8 * 8 → bitmap_isset b i = true

/-! ## The operations -/

section Operations

variable {Q : Nat → Bitmap → Prop} {Q' : Unit → Bitmap → Prop} {E : Errno → Bitmap → Prop}
  {F : Panic → Prop} {b : Bitmap} {i : Nat}

theorem Bitmap.Padded.of_mod (h8 : b.nbits % 8 = 0) : b.Padded := fun i _ _ => by omega

theorem isset_of_full (h : b.v (i / 8) = 0xff) : bitmap_isset b i = true := by
  rw [b.isset_eq, h]
  show (BitVec.allOnes 8).getLsbD (i % 8) = true
  rw [BitVec.getLsbD_allOnes]
  simp [Nat.mod_lt]

/-- `bitmap_alloc` sets the first clear bit, or there is none. -/
theorem wp_bitmap_alloc (hpad : b.Padded)
    (hok : ∀ i, i < b.nbits → bitmap_isset b i = false → (∀ j < i, bitmap_isset b j = true) →
      Q i (b.mark i))
    (hfull : (∀ i, i < b.nbits → bitmap_isset b i = true) → E .enospc b) :
    wp bitmap_alloc Q E F b := by
  unfold bitmap_alloc BITS_PER_WORD
  rw [wp_read_bind]
  dsimp only
  cases hix : (List.range ((b.nbits + 8 - 1) / 8)).find? fun ix => decide (b.v ix ≠ 0xff) with
  | none =>
    -- all the bytes are full
    apply hfull
    intro i hi
    have hword := List.find?_eq_none.mp hix (i / 8) (List.mem_range.mpr (by omega))
    exact isset_of_full (by simpa using hword)
  | some ix =>
    obtain ⟨hword, hrange, hbefore⟩ := List.find?_range_eq_some.mp hix
    rw [List.mem_range] at hrange
    dsimp only
    cases hoff : (List.range 8).find? fun offset => decide (b.v ix &&& wordMask offset = 0) with
    | none =>
      obtain ⟨k, hk, hclear⟩ := Bitmap.exists_clear (of_decide_eq_true hword)
      have := List.find?_eq_none.mp hoff k (List.mem_range.mpr hk)
      exact absurd hclear (by simpa using this)
    | some offset =>
      obtain ⟨hclear, hlt, hfirst⟩ := List.find?_range_eq_some.mp hoff
      rw [List.mem_range] at hlt
      have hdiv : (ix * 8 + offset) / 8 = ix := by omega
      have hmod : (ix * 8 + offset) % 8 = offset := by omega
      have hfree : bitmap_isset b (ix * 8 + offset) = false := by
        unfold bitmap_isset BITS_PER_WORD
        rw [hdiv, hmod, of_decide_eq_true hclear]
        rfl
      have hindex : ix * 8 + offset < b.nbits := by
        by_contra hge
        rw [hpad _ (Nat.not_lt.mp hge) (by omega)] at hfree
        cases hfree
      simp only [wp_bind, wp_modify, wp_kassert, wp_pure, if_pos hindex]
      refine hok _ hindex hfree fun j hj => ?_
      by_cases hjx : j / 8 < ix
      · exact isset_of_full (by simpa using hbefore _ hjx)
      · have hj8 : j / 8 = ix := by omega
        have hbit := hfirst (j % 8) (by omega)
        unfold bitmap_isset BITS_PER_WORD
        rw [hj8]
        simpa using hbit

theorem wp_bitmap_mark (hi : i < b.nbits) (hclear : bitmap_isset b i = false)
    (h : Q' () (b.mark i)) : wp (bitmap_mark i) Q' E F b := by
  simp only [bitmap_mark, wp_bind, wp_read, wp_kassert, wp_modify, if_pos hi, if_pos hclear]
  exact h

theorem wp_bitmap_unmark (hi : i < b.nbits) (hset : bitmap_isset b i = true)
    (h : Q' () (b.unmark i)) : wp (bitmap_unmark i) Q' E F b := by
  simp only [bitmap_unmark, wp_bind, wp_read, wp_kassert, wp_modify, if_pos hi, if_pos hset]
  exact h

end Operations

/-! ## The set that a bitmap stands for -/

inductive BitmapOp where
  | alloc
  | mark (i : Nat)
  | unmark (i : Nat)
  | isset (i : Nat)

/-- A bitmap of `nbits` bits as a set of numbers. -/
def bitmapObject (nbits : Nat) : Object Bitmap Errno Panic BitmapOp Nat (Set Nat) where
  run
    | .alloc => bitmap_alloc
    | .mark i => do bitmap_mark i; pure 0
    | .unmark i => do bitmap_unmark i; pure 0
    | .isset i => do let b ← .read; pure (bitmap_isset b i).toNat
  allowed A
    | .alloc => True
    | .mark i => i < nbits ∧ i ∉ A
    | .unmark i => i ∈ A
    | .isset i => i < nbits
  result A
    | .alloc, r => IsLeast {i | i < nbits ∧ i ∉ A} r
    | .isset i, r => r ≠ 0 ↔ i ∈ A
    | _, _ => True
  next A
    | .alloc, r => insert r A
    | .mark i, _ => insert i A
    | .unmark i, _ => A \ {i}
    | .isset _, _ => A
  refused A op e := op = .alloc ∧ e = .enospc ∧ A = {i | i < nbits}

/-- The bits in use are those of the set, and those left over. -/
structure Represents (nbits : Nat) (b : Bitmap) (A : Set Nat) : Prop where
  size : b.nbits = nbits
  bound : ∀ i ∈ A, i < nbits
  isset : ∀ i < (nbits + 7) / 8 * 8, bitmap_isset b i = true ↔ i ∈ A ∨ nbits ≤ i

theorem getLsbD_foldl_wordMask (L : List Nat) (w : UInt8) {i : Nat} (hi : i < 8) :
    (L.foldl (fun w j => w ||| wordMask j) w).toBitVec.getLsbD i =
      (w.toBitVec.getLsbD i || decide (i ∈ L)) := by
  induction L generalizing w with
  | nil => simp
  | cons j L ih =>
    rw [List.foldl_cons, ih, UInt8.toBitVec_or, BitVec.getLsbD_or, getLsbD_wordMask hi]
    simp [Bool.or_assoc]

theorem represents_create (nbits : Nat) : Represents nbits (bitmap_create nbits) ∅ where
  size := rfl
  bound := nofun
  isset := by
    intro i hi
    rw [Bitmap.isset_eq, Set.mem_empty_iff_false, false_or]
    dsimp only [bitmap_create, BITS_PER_WORD]
    split
    · rw [getLsbD_foldl_wordMask _ _ (Nat.mod_lt _ (by decide))]
      simp only [UInt8.toBitVec_zero, BitVec.getLsbD_zero, Bool.false_or, decide_eq_true_eq, List.mem_range'_1]
      omega
    · simp only [UInt8.toBitVec_zero, BitVec.getLsbD_zero, Bool.false_eq_true, false_iff]
      omega

namespace Represents

variable {nbits i : Nat} {b : Bitmap} {A : Set Nat}

section

variable (h : Represents nbits b A)
include h

theorem isset_iff (hi : i < nbits) : bitmap_isset b i = true ↔ i ∈ A := by
  rw [h.isset i (by omega)]
  exact or_iff_left (Nat.not_le.mpr hi)

theorem clear_iff (hi : i < nbits) : bitmap_isset b i = false ↔ i ∉ A := by
  rw [← Bool.not_eq_true, h.isset_iff hi]

theorem padded : b.Padded := by
  intro i hi hlt
  rw [h.size] at hi hlt
  exact (h.isset i hlt).mpr (.inr hi)

theorem mark (hi : i < nbits) : Represents nbits (b.mark i) (insert i A) where
  size := h.size
  bound := by
    rintro j (rfl | hj)
    · exact hi
    · exact h.bound j hj
  isset := by
    intro j hj
    rw [b.isset_mark, Bool.or_eq_true, h.isset j hj, decide_eq_true_eq, Set.mem_insert_iff, or_comm,
      or_assoc]

theorem unmark (hi : i < nbits) : Represents nbits (b.unmark i) (A \ {i}) where
  size := h.size
  bound := fun j hj => h.bound j hj.1
  isset := by
    intro j hj
    rw [b.isset_unmark, Bool.and_eq_true, h.isset j hj, Bool.not_eq_true', decide_eq_false_iff_not]
    show _ ↔ (j ∈ A ∧ j ≠ i) ∨ _
    by_cases hji : j = i
    · simp [hji, Nat.not_le.mpr hi]
    · simp [hji]

/-- **The step lemma**: each allowed call does what it means on the set. -/
theorem meets (op : BitmapOp) (hop : (bitmapObject nbits).allowed A op) :
    (bitmapObject nbits).Meets (Represents nbits) (b, A) op := by
  unfold Object.Meets
  cases op with
  | alloc =>
    apply wp_bitmap_alloc h.padded
    · intro i hi hclear hbelow
      rw [h.size] at hi
      refine ⟨⟨⟨hi, (h.clear_iff hi).mp hclear⟩, ?_⟩, h.mark hi⟩
      rintro j ⟨hj, hjA⟩
      by_contra hlt
      exact hjA ((h.isset_iff hj).mp (hbelow j (Nat.not_le.mp hlt)))
    · intro hfull
      rw [h.size] at hfull
      exact ⟨⟨rfl, rfl, Set.ext fun i => ⟨h.bound i, fun hi => (h.isset_iff hi).mp (hfull i hi)⟩⟩, rfl⟩
  | mark i =>
    obtain ⟨hi, hiA⟩ := hop
    apply (wp_bind _ _).mpr
    exact wp_bitmap_mark (h.size ▸ hi) ((h.clear_iff hi).mpr hiA) ⟨trivial, h.mark hi⟩
  | unmark i =>
    have hi := h.bound i hop
    apply (wp_bind _ _).mpr
    exact wp_bitmap_unmark (h.size ▸ hi) ((h.isset_iff hi).mpr hop) ⟨trivial, h.unmark hi⟩
  | isset i =>
    have hbit := h.isset_iff hop
    refine ⟨?_, h⟩
    show (bitmap_isset b i).toNat ≠ 0 ↔ i ∈ A
    rw [← hbit]
    cases bitmap_isset b i <;> decide

end

end Represents

/-- **The bitmap allocator.** After every sequence of allowed calls the bitmap stands for a set of
numbers below `nbits`, with the bits left over set; and every allowed call then does what it
means on the set: no assertion fails, `bitmap_alloc` returns the least number that is not in the
set, and fails only when there is none, without a change. -/
theorem bitmap_refines_set {nbits : Nat} {x : Bitmap × Set Nat}
    (hx : ((bitmapObject nbits).system fun b A => b = bitmap_create nbits ∧ A = ∅).Reachable x) :
    Represents nbits x.1 x.2 ∧
      ∀ op, (bitmapObject nbits).allowed x.2 op → (bitmapObject nbits).Meets (Represents nbits) x op := by
  refine Object.refines _ ?_ (fun s a op h hop => h.meets op hop) hx
  rintro b A ⟨rfl, rfl⟩
  exact represents_create nbits

theorem bitmap_refines_set_ten : Represents 10 ((bitmap_create 10).mark 0) (insert 0 ∅) := by
  have hx : ((bitmapObject 10).system fun b A => b = bitmap_create 10 ∧ A = ∅).Reachable
      ((bitmap_create 10).mark 0, insert 0 ∅) :=
    .step .alloc (.init (s := (bitmap_create 10, ∅)) ⟨rfl, rfl⟩) ⟨trivial, .inl ⟨0, rfl, rfl⟩⟩
  exact (bitmap_refines_set hx).1

end OS161
