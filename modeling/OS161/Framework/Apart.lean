import Mathlib

/-! # Lists that are apart

A family of lists, such as the queues of a system, in which everything is at most once. The
rules say that it stays so when something moves from one list to another, is added or is taken
away; the order in a list does not matter to them.
-/

namespace Framework

open Function

/-- Nothing is twice in a list or in two of the lists. -/
structure Apart {ι τ : Type*} (l : ι → List τ) : Prop where
  nodup : ∀ i, (l i).Nodup
  disjoint : ∀ i j x, x ∈ l i → x ∈ l j → i = j

namespace Apart

open scoped List

variable {ι τ : Type*} {l l' : ι → List τ} {i j : ι} {u : τ}

theorem perm (h : Apart l) (hp : ∀ k, l' k ~ l k) : Apart l' where
  nodup := fun k => (hp k).nodup_iff.mpr (h.nodup k)
  disjoint := fun a b x ha hb => h.disjoint a b x ((hp a).mem_iff.mp ha) ((hp b).mem_iff.mp hb)

/-- Something is taken away. -/
theorem remove (h : Apart l) (hi : l i ~ u :: l' i) (hrest : ∀ k, k ≠ i → l' k ~ l k) : Apart l' := by
  have hsub : ∀ k x, x ∈ l' k → x ∈ l k := by
    intro k x hx
    by_cases hk : k = i
    · subst hk
      exact hi.mem_iff.mpr (List.mem_cons_of_mem u hx)
    · exact (hrest k hk).mem_iff.mp hx
  constructor
  · intro k
    by_cases hk : k = i
    · subst hk
      exact (List.nodup_cons.mp (hi.nodup_iff.mp (h.nodup k))).2
    · exact (hrest k hk).nodup_iff.mpr (h.nodup k)
  · intro a b x ha hb
    exact h.disjoint a b x (hsub a x ha) (hsub b x hb)

/-- Once something is taken away it is nowhere. -/
theorem not_mem_of_remove (h : Apart l) (hi : l i ~ u :: l' i) (hrest : ∀ k, k ≠ i → l' k ~ l k) (k : ι) :
    u ∉ l' k := by
  intro hu
  by_cases hk : k = i
  · subst hk
    exact (List.nodup_cons.mp (hi.nodup_iff.mp (h.nodup k))).1 hu
  · have hui : u ∈ l i := hi.mem_iff.mpr List.mem_cons_self
    exact hk (h.disjoint k i u ((hrest k hk).mem_iff.mp hu) hui)

/-- Something that was nowhere is added. -/
theorem add (h : Apart l) (hu : ∀ k, u ∉ l k) (hj : l' j ~ u :: l j) (hrest : ∀ k, k ≠ j → l' k ~ l k) :
    Apart l' := by
  have hmem : ∀ k x, x ∈ l' k → x ∈ l k ∨ (x = u ∧ k = j) := by
    intro k x hx
    by_cases hk : k = j
    · subst hk
      rcases List.mem_cons.mp (hj.mem_iff.mp hx) with hxu | hxl
      · exact .inr ⟨hxu, rfl⟩
      · exact .inl hxl
    · exact .inl ((hrest k hk).mem_iff.mp hx)
  constructor
  · intro k
    by_cases hk : k = j
    · subst hk
      exact hj.nodup_iff.mpr (List.nodup_cons.mpr ⟨hu k, h.nodup k⟩)
    · exact (hrest k hk).nodup_iff.mpr (h.nodup k)
  · intro a b x ha hb
    rcases hmem a x ha with ha | ⟨rfl, rfl⟩
    · rcases hmem b x hb with hb | ⟨rfl, rfl⟩
      · exact h.disjoint a b x ha hb
      · exact absurd ha (hu a)
    · rcases hmem b x hb with hb | ⟨-, rfl⟩
      · exact absurd hb (hu b)
      · rfl

/-- Something moves to another list. -/
theorem move [DecidableEq ι] (h : Apart l) (hij : i ≠ j) (hi : l i ~ u :: l' i) (hj : l' j ~ u :: l j)
    (hrest : ∀ k, k ≠ i → k ≠ j → l' k ~ l k) : Apart l' := by
  -- first it is taken away from `i`, then it is added to `j`
  have hi' : l i ~ u :: update l i (l' i) i := by rwa [update_self]
  have hmid : ∀ k, k ≠ i → update l i (l' i) k ~ l k := by
    intro k hk
    rw [update_of_ne hk]
  refine (h.remove hi' hmid).add (h.not_mem_of_remove hi' hmid) (j := j) ?_ ?_
  · rwa [update_of_ne hij.symm]
  · intro k hk
    by_cases hki : k = i
    · subst hki
      rw [update_self]
    · rw [update_of_ne hki]
      exact hrest k hki hk

/-- What is on the lists, after a move. -/
theorem mem_move (hi : l i ~ u :: l' i) (hj : l' j ~ u :: l j) (hrest : ∀ k, k ≠ i → k ≠ j → l' k ~ l k) (x : τ) :
    (∃ k, x ∈ l' k) ↔ ∃ k, x ∈ l k := by
  have huj : u ∈ l' j := hj.mem_iff.mpr List.mem_cons_self
  have hui : u ∈ l i := hi.mem_iff.mpr List.mem_cons_self
  constructor
  · intro ⟨k, hk⟩
    by_cases hkj : k = j
    · subst hkj
      rcases List.mem_cons.mp (hj.mem_iff.mp hk) with rfl | hx
      · exact ⟨i, hui⟩
      · exact ⟨k, hx⟩
    · by_cases hki : k = i
      · subst hki
        exact ⟨k, hi.mem_iff.mpr (List.mem_cons_of_mem u hk)⟩
      · exact ⟨k, (hrest k hki hkj).mem_iff.mp hk⟩
  · intro ⟨k, hk⟩
    by_cases hki : k = i
    · subst hki
      rcases List.mem_cons.mp (hi.mem_iff.mp hk) with rfl | hx
      · exact ⟨j, huj⟩
      · exact ⟨k, hx⟩
    · by_cases hkj : k = j
      · subst hkj
        exact ⟨k, hj.mem_iff.mpr (List.mem_cons_of_mem u hk)⟩
      · exact ⟨k, (hrest k hki hkj).mem_iff.mpr hk⟩

end Apart

end Framework
