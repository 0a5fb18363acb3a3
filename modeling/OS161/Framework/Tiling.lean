import Mathlib

/-! # Tiled memory

    A piece of memory that blocks fill one after the other, with a tag at the start of each block
    that knows the length of the block and of the one before it. What the tags look like is left
    open.

    Blocks are split and joined by replacing a few neighbours with others of the same total length:
    `Tiled.replace`.
-/

namespace Framework

variable {β : Type*} (len : β → Nat)

/-- The blocks fill the addresses from `a` to `z`. `p` is the length of the block before the first
one, `q` the length of the last one. -/
def Tiled (tag : Nat → Nat → β → Prop) : Nat → Nat → List β → Nat → Nat → Prop
  | a, p, [], z, q => a = z ∧ p = q
  | a, p, b :: bs, z, q => tag a p b ∧ Tiled tag (a + len b) (len b) bs z q

/-- The blocks with their addresses. -/
def placed : Nat → List β → List (Nat × β)
  | _, [] => []
  | a, b :: bs => (a, b) :: placed (a + len b) bs

variable {len} {tag tag' : Nat → Nat → β → Prop} {a m e z p q pm qe : Nat} {b : β} {bs pre mid mid' post : List β}

/-! ## Pieces -/

theorem tiled_append : Tiled len tag a p (pre ++ post) z q ↔
    ∃ m pm, Tiled len tag a p pre m pm ∧ Tiled len tag m pm post z q := by
  induction pre generalizing a p with
  | nil =>
    constructor
    · intro h
      exact ⟨a, p, ⟨rfl, rfl⟩, h⟩
    · intro h
      obtain ⟨m, pm, ⟨rfl, rfl⟩, hpost⟩ := h
      exact hpost
  | cons b pre ih =>
    constructor
    · intro h
      obtain ⟨m, pm, hpre, hpost⟩ := ih.mp h.2
      exact ⟨m, pm, ⟨h.1, hpre⟩, hpost⟩
    · intro h
      obtain ⟨m, pm, hpre, hpost⟩ := h
      exact ⟨hpre.1, ih.mpr ⟨m, pm, hpre.2, hpost⟩⟩

namespace Tiled

theorem le (h : Tiled len tag a p bs z q) : a ≤ z := by
  induction bs generalizing a p with
  | nil => exact Nat.le_of_eq h.1
  | cons b bs ih => exact Nat.le_trans (Nat.le_add_right _ _) (ih h.2)

/-- The lengths alone say where the blocks end. -/
theorem end_unique {z' q' : Nat} (h : Tiled len tag a p bs z q) (h' : Tiled len tag' a p bs z' q') :
    z = z' ∧ q = q' := by
  induction bs generalizing a p with
  | nil => exact ⟨h.1.symm.trans h'.1, h.2.symm.trans h'.2⟩
  | cons b bs ih => exact ih h.2 h'.2

/-- Tags may change if the blocks that are there keep theirs. -/
theorem congr (h : Tiled len tag a p bs z q)
    (htag : ∀ a' p' b, a ≤ a' → a' + len b ≤ z → tag a' p' b → tag' a' p' b) : Tiled len tag' a p bs z q := by
  induction bs generalizing a p with
  | nil => exact h
  | cons b bs ih =>
    refine ⟨htag a p b (Nat.le_refl _) h.2.le h.1, ih h.2 ?_⟩
    intro a' p' b' ha'
    exact htag a' p' b' (Nat.le_trans (Nat.le_add_right _ _) ha')

/-- The block in front gets another length. -/
theorem reprev (h : Tiled len tag e qe post z q) {q' : Nat}
    (hfirst : ∀ b, e + len b ≤ z → tag e qe b → tag' e q' b)
    (htag : ∀ a' p' b, e < a' → a' + len b ≤ z → tag a' p' b → tag' a' p' b)
    (hpos : ∀ a' p' b, tag a' p' b → 0 < len b) : ∃ q'', Tiled len tag' e q' post z q'' := by
  cases post with
  | nil => exact ⟨q', h.1, rfl⟩
  | cons b post =>
    refine ⟨q, hfirst b h.2.le h.1, h.2.congr ?_⟩
    intro a' p' b' ha'
    have hlen := hpos _ _ _ h.1
    exact htag a' p' b' (by omega)

/-- Some neighbours are replaced by others that fill the same addresses. -/
theorem replace (hpre : Tiled len tag a p pre m pm) (hpost : Tiled len tag e qe post z q) {q' : Nat}
    (hmid : Tiled len tag' m pm mid' e q')
    (hbelow : ∀ a' p' b, a' + len b ≤ m → tag a' p' b → tag' a' p' b)
    (hfirst : ∀ b, e + len b ≤ z → tag e qe b → tag' e q' b)
    (habove : ∀ a' p' b, e < a' → tag a' p' b → tag' a' p' b)
    (hpos : ∀ a' p' b, tag a' p' b → 0 < len b) :
    ∃ q'', Tiled len tag' a p (pre ++ mid' ++ post) z q'' := by
  obtain ⟨q'', hpost'⟩ := hpost.reprev hfirst (fun a' p' b ha' _ => habove a' p' b ha') hpos
  have hpre' : Tiled len tag' a p pre m pm := hpre.congr fun a' p' b _ ha' => hbelow a' p' b ha'
  exact ⟨q'', tiled_append.mpr ⟨e, q', tiled_append.mpr ⟨m, pm, hpre', hmid⟩, hpost'⟩⟩

end Tiled

/-! ## Places -/

theorem Tiled.placed_append (h : Tiled len tag a p pre m pm) :
    placed len a (pre ++ post) = placed len a pre ++ placed len m post := by
  induction pre generalizing a p with
  | nil => rw [h.1]; rfl
  | cons b pre ih =>
    show (a, b) :: placed len (a + len b) (pre ++ post) = _
    rw [ih h.2]
    rfl

section

variable (h : Tiled len tag a p bs z q)
include h

/-- A block lies between the ends. -/
theorem Tiled.placed_bounds {x : Nat × β} (hx : x ∈ placed len a bs) :
    a ≤ x.1 ∧ x.1 + len x.2 ≤ z ∧ ∃ p', tag x.1 p' x.2 := by
  induction bs generalizing a p with
  | nil => cases hx
  | cons b bs ih =>
    rcases List.mem_cons.mp hx with rfl | hx
    · exact ⟨Nat.le_refl _, h.2.le, p, h.1⟩
    · obtain ⟨hlo, hhi, htag⟩ := ih h.2 hx
      exact ⟨Nat.le_trans (Nat.le_add_right _ _) hlo, hhi, htag⟩

/-- Where a block is, the blocks fall into those below it and those above it. -/
theorem Tiled.split_at (hx : (m, b) ∈ placed len a bs) :
    ∃ pre post pm, bs = pre ++ b :: post ∧ Tiled len tag a p pre m pm ∧ tag m pm b ∧
      Tiled len tag (m + len b) (len b) post z q := by
  induction bs generalizing a p with
  | nil => cases hx
  | cons c bs ih =>
    rcases List.mem_cons.mp hx with heq | hx
    · cases heq
      exact ⟨[], bs, p, rfl, ⟨rfl, rfl⟩, h.1, h.2⟩
    · obtain ⟨pre, post, pm, rfl, hpre, htag, hpost⟩ := ih h.2 hx
      exact ⟨c :: pre, post, pm, rfl, ⟨h.1, hpre⟩, htag, hpost⟩

/-- Blocks do not overlap. -/
theorem Tiled.placed_apart {x y : Nat × β} (hx : x ∈ placed len a bs)
    (hy : y ∈ placed len a bs) (hlt : x.1 < y.1) : x.1 + len x.2 ≤ y.1 := by
  obtain ⟨pre, post, pm, rfl, hpre, htag, hpost⟩ := h.split_at hy
  rw [hpre.placed_append] at hx
  rcases List.mem_append.mp hx with hx | hx
  · exact (hpre.placed_bounds hx).2.1
  · rcases List.mem_cons.mp hx with rfl | hx
    · exact (Nat.lt_irrefl _ hlt).elim
    · have hlo := (hpost.placed_bounds hx).1
      omega

/-- There is one block at an address. -/
theorem Tiled.placed_unique (hpos : ∀ a' p' b, tag a' p' b → 0 < len b) {c : β}
    (hb : (m, b) ∈ placed len a bs) (hc : (m, c) ∈ placed len a bs) : b = c := by
  obtain ⟨pre, post, pm, rfl, hpre, htag, hpost⟩ := h.split_at hb
  rw [hpre.placed_append] at hc
  rcases List.mem_append.mp hc with hc | hc
  · obtain ⟨-, hend, p', htag'⟩ := hpre.placed_bounds hc
    have hlen := hpos _ _ _ htag'
    omega
  · rcases List.mem_cons.mp hc with heq | hc
    · cases heq
      rfl
    · have hlo := (hpost.placed_bounds hc).1
      have hlen := hpos _ _ _ htag
      omega

/-- What holds of neighbours holds of their addresses. -/
theorem Tiled.isChain_placed {S : β → β → Prop} {R : Nat → Nat → Prop}
    (hR : ∀ a' p' b c, a' + len b + len c ≤ z → tag a' p' b → tag (a' + len b) (len b) c → S b c → R a' (a' + len b))
    (hS : bs.IsChain S) : ((placed len a bs).map Prod.fst).IsChain R := by
  induction bs generalizing a p with
  | nil => exact List.isChain_nil
  | cons b bs ih =>
    rw [List.isChain_cons] at hS
    refine List.isChain_cons.mpr ⟨?_, ih h.2 hS.2⟩
    intro a' ha'
    cases bs with
    | nil => cases ha'
    | cons c bs =>
      cases ha'
      exact hR a p b c h.2.2.le h.1 h.2.1 (hS.1 c rfl)

end

/-! ## No free neighbours -/

/-- No two neighbours are both free. -/
def Settled (free : β → Prop) (bs : List β) : Prop := bs.IsChain fun b c => ¬ (free b ∧ free c)

theorem settled_middle {free : β → Prop} : Settled free (pre ++ b :: post) ↔
    Settled free pre ∧ Settled free post ∧ (free b → ∀ c ∈ pre.getLast?, ¬ free c) ∧
      (free b → ∀ c ∈ post.head?, ¬ free c) := by
  unfold Settled
  rw [List.isChain_append, List.isChain_cons]
  simp only [List.head?_cons, Option.mem_some_iff, forall_eq', not_and]
  constructor
  · intro h
    exact ⟨h.1, h.2.1.2, fun hb c hc hfree => h.2.2 c hc hfree hb, fun hb c hc => h.2.1.1 c hc hb⟩
  · intro h
    exact ⟨h.1, ⟨fun c hc hb => h.2.2.2 hb c hc, h.2.1⟩, fun c hc hfree hb => h.2.2.1 hb c hc hfree⟩

end Framework
