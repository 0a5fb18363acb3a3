import Mathlib

/-! # Paged memory

A memory as a process sees it, its image, kept in the frames of a physical memory. A page that
has no frame yet reads as zero; it gets its frame from the end of the memory in use, where
everything is zero.

`Inv` says that the frames hold the image. The rules below are for the ways in which the memory
changes: a store to a page, a page that gets a frame, and whatever happens outside of the
frames.
-/

namespace Framework

open Function

namespace Paging

variable {α : Type*}

/-- The image `img` of the pages `page`, of `size` values each, is in the frames of the memory
`mem`, which is in use up to `top`. -/
structure Inv (size : Nat) (zero : α) (page : Nat → Prop) (frame : Nat → Option Nat) (top : Nat) (mem img : Nat → α) :
    Prop where
  aligned : ∀ p, page p → size ∣ p
  paged : ∀ p f, frame p = some f → page p
  holds : ∀ p f, frame p = some f → ∀ o, o < size → mem (f + o) = img (p + o)
  absent : ∀ p, page p → frame p = none → ∀ o, o < size → img (p + o) = zero
  apart : ∀ p q f g, frame p = some f → frame q = some g → p ≠ q → f + size ≤ g ∨ g + size ≤ f
  below : ∀ p f, frame p = some f → f + size ≤ top
  free : ∀ x, top ≤ x → mem x = zero

variable {size : Nat} {zero : α} {page : Nat → Prop} {frame frame' : Nat → Option Nat} {top top' : Nat}
  {mem mem' img : Nat → α}

/-- Nothing has a frame. -/
theorem Inv.empty (haligned : ∀ p, page p → size ∣ p) (hframe : ∀ p, frame p = none) (himg : ∀ x, img x = zero)
    (hfree : ∀ x, top ≤ x → mem x = zero) : Inv size zero page frame top mem img where
  aligned := haligned
  paged := fun p _ hf => nomatch (hframe p).symm.trans hf
  holds := fun p _ hf => nomatch (hframe p).symm.trans hf
  absent := fun p _ _ o _ => himg (p + o)
  apart := fun p _ _ _ hf => nomatch (hframe p).symm.trans hf
  below := fun p _ hf => nomatch (hframe p).symm.trans hf
  free := hfree

/-- A value in two pages is in one. -/
theorem same_page {p q o r : Nat} (hp : size ∣ p) (hq : size ∣ q) (ho : o < size) (hr : r < size)
    (h : p + o = q + r) : p = q := by
  obtain ⟨i, rfl⟩ := hp
  obtain ⟨j, rfl⟩ := hq
  have hi : (size * i + o) / size = i := by
    rw [Nat.mul_add_div (by omega), Nat.div_eq_of_lt ho, Nat.add_zero]
  have hj : (size * j + r) / size = j := by
    rw [Nat.mul_add_div (by omega), Nat.div_eq_of_lt hr, Nat.add_zero]
  rw [h, hj] at hi
  rw [hi]

section

variable (h : Inv size zero page frame top mem img)
include h

/-- A store to a page that has a frame. -/
theorem Inv.store {p f o : Nat} (hf : frame p = some f) (ho : o < size) (b : α) :
    Inv size zero page frame top (update mem (f + o) b) (update img (p + o) b) :=
  { h with
    holds := by
      intro q g hg r hr
      by_cases hqp : q = p
      · rw [hqp, hf] at hg
        cases hg
        rw [hqp]
        by_cases hro : r = o
        · rw [hro, update_self, update_self]
        · rw [update_of_ne (by omega), update_of_ne (by omega)]
          exact h.holds p f hf r hr
      · have hframes := h.apart q p g f hg hf hqp
        have hpages : q + r ≠ p + o :=
          fun heq => hqp (same_page (h.aligned q (h.paged q g hg)) (h.aligned p (h.paged p f hf)) hr ho heq)
        rw [update_of_ne (by omega), update_of_ne hpages]
        exact h.holds q g hg r hr
    absent := by
      intro q hq hnone r hr
      have hpages : q + r ≠ p + o := by
        intro heq
        have hqp := same_page (h.aligned q hq) (h.aligned p (h.paged p f hf)) hr ho heq
        rw [hqp, hf] at hnone
        exact nomatch hnone
      rw [update_of_ne hpages]
      exact h.absent q hq hnone r hr
    free := by
      intro x hx
      have hbelow := h.below p f hf
      rw [update_of_ne (by omega)]
      exact h.free x hx }

/-- A page gets the first frame that is not in use. -/
theorem Inv.alloc {p : Nat} (hp : page p) (hnone : frame p = none)
    (hhere : frame' p = some top) (hothers : ∀ q, q ≠ p → frame' q = frame q) :
    Inv size zero page frame' (top + size) mem img where
  aligned := h.aligned
  paged := by
    intro q g hg
    by_cases hqp : q = p
    · rw [hqp]
      exact hp
    · rw [hothers q hqp] at hg
      exact h.paged q g hg
  holds := by
    intro q g hg r hr
    by_cases hqp : q = p
    · -- the frame is zero, and so is the image of a page without a frame
      rw [hqp, hhere] at hg
      cases hg
      rw [hqp, h.free _ (Nat.le_add_right ..), h.absent p hp hnone r hr]
    · rw [hothers q hqp] at hg
      exact h.holds q g hg r hr
  absent := by
    intro q hq hg
    have hqp : q ≠ p := by
      intro heq
      rw [heq, hhere] at hg
      exact nomatch hg
    rw [hothers q hqp] at hg
    exact h.absent q hq hg
  apart := by
    intro q r f g hf hg hqr
    by_cases hqp : q = p
    · rw [hqp, hhere] at hf
      cases hf
      rw [hothers r (fun heq => hqr (hqp.trans heq.symm))] at hg
      exact .inr (h.below r g hg)
    · rw [hothers q hqp] at hf
      by_cases hrp : r = p
      · rw [hrp, hhere] at hg
        cases hg
        exact .inl (h.below q f hf)
      · rw [hothers r hrp] at hg
        exact h.apart q r f g hf hg hqr
  below := by
    intro q g hg
    by_cases hqp : q = p
    · rw [hqp, hhere] at hg
      cases hg
      exact Nat.le_refl _
    · rw [hothers q hqp] at hg
      have := h.below q g hg
      omega
  free := fun x hx => h.free x (by omega)

/-- Others take memory, and write where no page of the image is. -/
theorem Inv.elsewhere (htop : top ≤ top')
    (hmem : ∀ x, (top' ≤ x ∨ ∃ p f, frame p = some f ∧ f ≤ x ∧ x < f + size) → mem' x = mem x) :
    Inv size zero page frame top' mem' img :=
  { h with
    holds := by
      intro p f hf o ho
      rw [hmem _ (.inr ⟨p, f, hf, by omega, by omega⟩)]
      exact h.holds p f hf o ho
    below := fun p f hf => Nat.le_trans (h.below p f hf) htop
    free := by
      intro x hx
      rw [hmem x (.inl hx)]
      exact h.free x (by omega) }

/-- The same pages and frames. -/
theorem Inv.congr {page' : Nat → Prop} (hpage : ∀ p, page' p ↔ page p)
    (hframe : ∀ p, frame' p = frame p) : Inv size zero page' frame' top mem img := by
  have hp : page' = page := funext fun p => propext (hpage p)
  have hf : frame' = frame := funext hframe
  rw [hp, hf]
  exact h

end

end Paging

end Framework
