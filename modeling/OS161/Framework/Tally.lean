import Mathlib

/-! # Tallies

A counter that says how many threads are at some place. The threads are not bounded beforehand,
only finitely many are ever at the place. The rules say how the counter follows a thread that
moves.
-/

namespace Framework

/-- Exactly `n` threads are at the place `P`. -/
def Tally {T : Type*} (P : T → Prop) (n : Nat) : Prop := ∃ F : Finset T, (∀ t, t ∈ F ↔ P t) ∧ F.card = n

namespace Tally

variable {T : Type*} {P Q : T → Prop} {n : Nat}

/-- Nobody is there. -/
theorem zero (h : ∀ t, ¬ P t) : Tally P 0 :=
  ⟨∅, fun t => ⟨fun ht => absurd ht (Finset.notMem_empty t), fun ht => absurd ht (h t)⟩, Finset.card_empty⟩

section

variable (h : Tally P n)
include h

theorem congr (hP : ∀ t, Q t ↔ P t) : Tally Q n := by
  obtain ⟨F, hF, hn⟩ := h
  exact ⟨F, fun t => (hF t).trans (hP t).symm, hn⟩

theorem eq_zero (hP : ∀ t, ¬ P t) : n = 0 := by
  obtain ⟨F, hF, rfl⟩ := h
  rw [Finset.card_eq_zero]
  exact Finset.eq_empty_of_forall_notMem fun t ht => hP t ((hF t).mp ht)

theorem pos {t : T} (ht : P t) : 0 < n := by
  obtain ⟨F, hF, rfl⟩ := h
  exact Finset.card_pos.mpr ⟨t, (hF t).mpr ht⟩

/-- At most one thread is there. -/
theorem unique (hn : n ≤ 1) {t u : T} (ht : P t) (hu : P u) : t = u := by
  obtain ⟨F, hF, rfl⟩ := h
  exact Finset.card_le_one.mp hn t ((hF t).mpr ht) u ((hF u).mpr hu)

/-- Nobody arrives or leaves, whatever one thread does elsewhere. -/
theorem stay {t : T} (hrest : ∀ u, u ≠ t → (Q u ↔ P u)) (ht : Q t ↔ P t) : Tally Q n := by
  apply h.congr
  intro u
  by_cases hu : u = t
  · rw [hu]
    exact ht
  · exact hrest u hu

/-- One thread arrives. -/
theorem enter [DecidableEq T] {t : T} (hrest : ∀ u, u ≠ t → (Q u ↔ P u)) (ht : ¬ P t)
    (ht' : Q t) : Tally Q (n + 1) := by
  obtain ⟨F, hF, rfl⟩ := h
  refine ⟨insert t F, ?_, Finset.card_insert_of_notMem fun hmem => ht ((hF t).mp hmem)⟩
  intro u
  rw [Finset.mem_insert, hF]
  by_cases hu : u = t
  · subst hu
    exact ⟨fun _ => ht', fun _ => .inl rfl⟩
  · rw [hrest u hu]
    exact or_iff_right hu

/-- One thread leaves. -/
theorem leave [DecidableEq T] {t : T} (hrest : ∀ u, u ≠ t → (Q u ↔ P u)) (ht : P t)
    (ht' : ¬ Q t) : Tally Q (n - 1) := by
  obtain ⟨F, hF, rfl⟩ := h
  refine ⟨F.erase t, ?_, Finset.card_erase_of_mem ((hF t).mpr ht)⟩
  intro u
  rw [Finset.mem_erase, hF]
  by_cases hu : u = t
  · subst hu
    exact ⟨fun hmem => absurd rfl hmem.1, fun hu' => absurd hu' ht'⟩
  · rw [hrest u hu]
    exact and_iff_right hu

/-- One thread moves. -/
theorem move [DecidableEq T] {t : T} {a b : Bool} (hrest : ∀ u, u ≠ t → (Q u ↔ P u))
    (ha : P t ↔ a = true) (hb : Q t ↔ b = true) : ∃ m, Tally Q m ∧ m + a.toNat = n + b.toNat := by
  cases a <;> cases b
  · exact ⟨n, h.stay hrest (hb.trans ha.symm), rfl⟩
  · exact ⟨n + 1, h.enter hrest (fun ht => nomatch ha.mp ht) (hb.mpr rfl), rfl⟩
  · have hpos := h.pos (ha.mpr rfl)
    exact ⟨n - 1, h.leave hrest (ha.mpr rfl) (fun ht => nomatch hb.mp ht), Nat.sub_add_cancel hpos⟩
  · exact ⟨n, h.stay hrest (hb.trans ha.symm), rfl⟩

end

theorem update {X : Type*} {f : T → X} {p : X → Bool} [DecidableEq T] (h : Tally (fun u => p (f u) = true) n) (t : T)
    (x : X) : ∃ m, Tally (fun u => p (Function.update f t x u) = true) m ∧ m + (p (f t)).toNat = n + (p x).toNat := by
  apply h.move (t := t)
  · exact fun u hu => by rw [Function.update_of_ne hu]
  · exact Iff.rfl
  · rw [Function.update_self]

end Tally

end Framework
