import Mathlib

/-! # Ledgers

Resources are handed out to holders. A ledger says that the marks of an allocator are right: a
resource is marked as used just when it is set aside for good or some holder has it, and no two
holders have the same one. The rules say how a ledger follows what is done to the marks and to
the holders.
-/

namespace Framework

/-- `used` marks what is `fixed` and what `holds` hands out, nothing twice. -/
structure Ledger {H R : Type*} (holds : H → R → Prop) (fixed used : R → Prop) : Prop where
  one : ∀ {h h' r}, holds h r → holds h' r → h = h'
  used : ∀ r, used r ↔ fixed r ∨ ∃ h, holds h r
  apart : ∀ {h r}, holds h r → ¬ fixed r

namespace Ledger

variable {H R : Type*} {holds holds' : H → R → Prop} {fixed used used' : R → Prop}

section

variable (l : Ledger holds fixed used)
include l

theorem used_of_holds {h : H} {r : R} (hr : holds h r) : used r :=
  (l.used r).mpr (.inr ⟨h, hr⟩)

theorem not_holds {r : R} (hr : ¬ used r) (h : H) : ¬ holds h r :=
  fun hh => hr (l.used_of_holds hh)

/-- Nothing is handed out or given back. -/
theorem congr (hh : ∀ h r, holds' h r ↔ holds h r)
    (hu : ∀ r, used' r ↔ used r) : Ledger holds' fixed used' where
  one := by
    intro h h' r hr hr'
    rw [hh] at hr hr'
    exact l.one hr hr'
  used := by
    intro r
    rw [hu, l.used]
    simp only [hh]
  apart := by
    intro h r hr
    rw [hh] at hr
    exact l.apart hr

/-- A resource that was not in use is handed out. -/
theorem alloc (h₀ : H) {r₀ : R} (hr : ¬ used r₀)
    (hh : ∀ h r, holds' h r ↔ holds h r ∨ (h = h₀ ∧ r = r₀))
    (hu : ∀ r, used' r ↔ used r ∨ r = r₀) : Ledger holds' fixed used' where
  one := by
    intro h h' r hr₁ hr₂
    rcases (hh h r).mp hr₁ with h₁ | ⟨rfl, rfl⟩
    · rcases (hh h' r).mp hr₂ with h₂ | ⟨rfl, rfl⟩
      · exact l.one h₁ h₂
      · exact absurd h₁ (l.not_holds hr h)
    · rcases (hh h' _).mp hr₂ with h₂ | ⟨rfl, -⟩
      · exact absurd h₂ (l.not_holds hr h')
      · rfl
  used := by
    intro r
    rw [hu, l.used]
    constructor
    · intro h
      rcases h with (hf | ⟨h, hh₁⟩) | rfl
      · exact .inl hf
      · exact .inr ⟨h, (hh h r).mpr (.inl hh₁)⟩
      · exact .inr ⟨h₀, (hh h₀ r).mpr (.inr ⟨rfl, rfl⟩)⟩
    · intro h
      rcases h with hf | ⟨h, hh₁⟩
      · exact .inl (.inl hf)
      · rcases (hh h r).mp hh₁ with h₁ | ⟨-, rfl⟩
        · exact .inl (.inr ⟨h, h₁⟩)
        · exact .inr rfl
  apart := by
    intro h r hr₁ hf
    rcases (hh h r).mp hr₁ with h₁ | ⟨-, rfl⟩
    · exact l.apart h₁ hf
    · exact hr ((l.used r).mpr (.inl hf))

/-- A resource is given back by whoever had it. -/
theorem free {r₀ : R} (hr : ¬ fixed r₀) (hh : ∀ h r, holds' h r ↔ holds h r ∧ r ≠ r₀)
    (hu : ∀ r, used' r ↔ used r ∧ r ≠ r₀) : Ledger holds' fixed used' where
  one := by
    intro h h' r hr₁ hr₂
    exact l.one ((hh h r).mp hr₁).1 ((hh h' r).mp hr₂).1
  used := by
    intro r
    rw [hu, l.used]
    constructor
    · rintro ⟨hf | ⟨h, hh₁⟩, hne⟩
      · exact .inl hf
      · exact .inr ⟨h, (hh h r).mpr ⟨hh₁, hne⟩⟩
    · intro h
      rcases h with hf | ⟨h, hh₁⟩
      · exact ⟨.inl hf, fun h => hr (h ▸ hf)⟩
      · obtain ⟨h₁, hne⟩ := (hh h r).mp hh₁
        exact ⟨.inr ⟨h, h₁⟩, hne⟩
  apart := by
    intro h r hr₁
    exact l.apart ((hh h r).mp hr₁).1

end

end Ledger

end Framework
