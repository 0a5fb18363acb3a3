import Mathlib

/-! # Linked lists threaded through a table

A list is kept as a first element and a `next` field of each element. `Chain next base l` says
that it holds exactly `l`, in this order. The rules are for what such lists are used for: a new
first element, an element taken out, and changes elsewhere.
-/

namespace Framework

open Function

variable {ι : Type}

/-- Following `next` from `base` visits `l` and then ends. -/
def Chain (next : ι → Option ι) : (base : Option ι) → List ι → Prop
  | base, [] => base = none
  | base, a :: l => base = some a ∧ Chain next (next a) l

namespace Chain

variable {next next' : ι → Option ι} {base : Option ι} {l l' : List ι} {a : ι}

/-- A base determines what is visited. -/
theorem unique (h : Chain next base l) (h' : Chain next base l') : l = l' := by
  induction l generalizing base l' with
  | nil =>
    cases l' with
    | nil => rfl
    | cons b l' =>
      have hbase : base = none := h
      rw [hbase] at h'
      cases h'.1
  | cons a l ih =>
    obtain ⟨rfl, hl⟩ := h
    cases l' with
    | nil => cases h'
    | cons b l' =>
      obtain ⟨hb, hl'⟩ := h'
      cases hb
      rw [ih hl hl']

theorem suffix {l₁ l₂ : List ι} (h : Chain next base (l₁ ++ a :: l₂)) :
    Chain next (some a) (a :: l₂) := by
  induction l₁ generalizing base with
  | nil => exact ⟨rfl, h.2⟩
  | cons b l₁ ih => exact ih h.2

/-- Nothing is visited twice. -/
theorem nodup (h : Chain next base l) : l.Nodup := by
  induction l generalizing base with
  | nil => exact List.nodup_nil
  | cons a l ih =>
    refine List.nodup_cons.mpr ⟨fun ha => ?_, ih h.2⟩
    -- a second visit would be followed by as much as the first
    obtain ⟨l₁, l₂, rfl⟩ := List.append_of_mem ha
    have hsame := unique (suffix h.2) (show Chain next (some a) (a :: (l₁ ++ a :: l₂)) from ⟨rfl, h.2⟩)
    have := congrArg List.length hsame
    simp at this
    omega

/-- Fields of other elements do not matter. -/
theorem congr (h : Chain next base l) (heq : ∀ a ∈ l, next' a = next a) : Chain next' base l := by
  induction l generalizing base with
  | nil => exact h
  | cons a l ih =>
    refine ⟨h.1, ?_⟩
    rw [heq a (List.mem_cons_self ..)]
    exact ih h.2 fun b hb => heq b (List.mem_cons_of_mem _ hb)

variable [DecidableEq ι]

/-- A new first element. -/
theorem push (h : Chain next base l) (ha : a ∉ l) :
    Chain (update next a base) (some a) (a :: l) := by
  refine ⟨rfl, ?_⟩
  rw [update_self]
  apply h.congr
  intro b hb
  exact update_of_ne (fun hba : b = a => ha (hba ▸ hb)) _ _

end Chain

/-! ## Taking an element out -/

variable [DecidableEq ι]

/-- Look for `x` behind `cur` and take it out of the list. -/
def unlinkAfter (next : ι → Option ι) (x : ι) : (fuel : Nat) → (cur : ι) → ι → Option ι
  | 0, _ => next
  | fuel + 1, cur =>
    match next cur with
    | none => next
    | some a => if a = x then update next cur (next x) else unlinkAfter next x fuel a

/-- Take `x` out of the list: the new base and the new fields. -/
def unlink (next : ι → Option ι) (base : Option ι) (x : ι) (fuel : Nat) : Option ι × (ι → Option ι) :=
  match base with
  | none => (none, next)
  | some a => if a = x then (next x, next) else (base, unlinkAfter next x fuel a)

section Unlink

variable {next : ι → Option ι} {x : ι}

theorem Chain.unlinkAfter {l : List ι} {cur : ι} {fuel : Nat}
    (h : Chain next (some cur) (cur :: l)) (hcur : cur ≠ x) (hfuel : l.length ≤ fuel) :
    Chain (unlinkAfter next x fuel cur) (some cur) (cur :: l.erase x) ∧
      ∀ b ∉ cur :: l, Framework.unlinkAfter next x fuel cur b = next b := by
  induction fuel generalizing cur l with
  | zero =>
    have hnil : l = [] := List.eq_nil_of_length_eq_zero (by omega)
    subst hnil
    exact ⟨h, fun _ _ => rfl⟩
  | succ fuel ih =>
    unfold Framework.unlinkAfter
    cases l with
    | nil =>
      have hnext : next cur = none := h.2
      rw [hnext]
      exact ⟨⟨rfl, hnext⟩, fun _ _ => rfl⟩
    | cons a l =>
      obtain ⟨hnext, hl⟩ := h.2
      have hnodup := h.nodup
      rw [hnext]
      by_cases hax : a = x
      · -- the field in front of `x` now leads behind it
        subst hax
        simp only [if_pos]
        rw [List.erase_cons_head]
        have hcl : cur ∉ l := fun hc =>
          (List.nodup_cons.mp hnodup).1 (List.mem_cons_of_mem _ hc)
        refine ⟨hl.push hcl, fun b hb => update_of_ne ?_ _ _⟩
        exact fun hbc => hb (hbc ▸ List.mem_cons_self ..)
      · simp only [if_neg hax]
        rw [List.erase_cons_tail (by simpa using hax)]
        obtain ⟨hchain, hframe⟩ := ih (l := l) ⟨rfl, hl⟩ hax (by simp at hfuel; omega)
        have hcur' : cur ∉ a :: l := (List.nodup_cons.mp hnodup).1
        refine ⟨⟨rfl, ?_⟩, fun b hb => hframe b fun hb' => hb (List.mem_cons_of_mem _ hb')⟩
        rw [hframe cur hcur', hnext]
        exact hchain

/-- **Unlinking** takes `x` out and changes no field outside of the list. -/
theorem Chain.unlink {base : Option ι} {l : List ι} {fuel : Nat} (h : Chain next base l)
    (hfuel : l.length ≤ fuel) :
    Chain (unlink next base x fuel).2 (unlink next base x fuel).1 (l.erase x) ∧
      ∀ b ∉ l, (Framework.unlink next base x fuel).2 b = next b := by
  unfold Framework.unlink
  cases l with
  | nil =>
    have hbase : base = none := h
    subst hbase
    exact ⟨rfl, fun _ _ => rfl⟩
  | cons a l =>
    obtain ⟨rfl, hl⟩ := h
    by_cases hax : a = x
    · subst hax
      rw [List.erase_cons_head]
      simp only [if_true]
      exact ⟨hl, fun _ _ => trivial⟩
    · simp only [if_neg hax]
      rw [List.erase_cons_tail (by simpa using hax)]
      exact Chain.unlinkAfter ⟨rfl, hl⟩ hax (by simp at hfuel; omega)

end Unlink

end Framework
