import Mathlib

/-! # Transition systems

Labelled transition systems, the states they reach, and the two induction rules every safety
argument of this development uses:

- an invariant that holds initially and is preserved by each step holds in every reachable
  state;
- a relation between two states that is reflexive, transitive and contains each single step
  holds between the ends of every run.

A system can be restricted to the steps that meet a condition on the state before the step, so
that "every run whose steps all meet the condition" is again a notion of reachability.
-/

namespace Framework

/-- A labelled transition system. -/
structure System (σ : Type*) (α : Type*) where
  init : σ → Prop
  step : σ → α → σ → Prop

namespace System

variable {σ α : Type*}

/-! ## Reachability -/

/-- States reachable from an initial state. -/
inductive Reachable (sys : System σ α) : σ → Prop where
  | init {s : σ} : sys.init s → Reachable sys s
  | step {s s' : σ} (a : α) : Reachable sys s → sys.step s a s' → Reachable sys s'

/-- A run: the actions taken, first one first, and the states at its ends. -/
inductive Run (sys : System σ α) : σ → List α → σ → Prop where
  | done (s : σ) : Run sys s [] s
  | act {s s' s'' : σ} (a : α) (rest : List α) :
      sys.step s a s' → Run sys s' rest s'' → Run sys s (a :: rest) s''

/-! ## Induction rules -/

variable {sys : System σ α}

/-- **Invariant rule**: what holds initially and is preserved by each step holds in every reachable
state. -/
theorem invariant {I : σ → Prop} (hinit : ∀ s, sys.init s → I s)
    (hstep : ∀ s a s', I s → sys.step s a s' → I s') : ∀ {s}, Reachable sys s → I s := by
  intro s h
  induction h with
  | init hs => exact hinit _ hs
  | step a _ ha ih => exact hstep _ a _ ih ha

/-- **Run rule**: an invariant together with a reflexive and transitive relation that contains each
step from an invariant state relates the two ends of every run. -/
theorem run_relation {I : σ → Prop} {R : σ → σ → Prop}
    (hinv : ∀ s a s', I s → sys.step s a s' → I s')
    (hrefl : ∀ s, R s s) (htrans : ∀ s s' s'', R s s' → R s' s'' → R s s'')
    (hstep : ∀ s a s', I s → sys.step s a s' → R s s')
    {s s' : σ} {acts : List α} (h : Run sys s acts s') (hs : I s) : I s' ∧ R s s' := by
  induction h with
  | done s => exact ⟨hs, hrefl s⟩
  | act a rest ha _ ih =>
    obtain ⟨hi, hr⟩ := ih (hinv _ a _ hs ha)
    exact ⟨hi, htrans _ _ _ (hstep _ a _ hs ha) hr⟩

/-! ## Endless runs -/

/-- **Ranking rule**: when the helpful steps of an endless run come closer to the goal, the others
keep the distance, and helpful steps come until the goal is reached, it is reached. -/
theorem eventually_of_rank {I : σ → Prop} (Goal : σ → Prop) (Helpful : α → Prop) {β : Type*}
    {lt : β → β → Prop} (hwf : WellFounded lt) (rank : σ → β)
    (hinv : ∀ s a s', I s → sys.step s a s' → I s')
    (hhelp : ∀ s a s', I s → Helpful a → sys.step s a s' → Goal s' ∨ lt (rank s') (rank s))
    (hother : ∀ s a s', I s → ¬ Helpful a → sys.step s a s' → rank s' = rank s)
    {run : Nat → σ} {act : Nat → α} (hstart : I (run 0)) (hrun : ∀ k, sys.step (run k) (act k) (run (k + 1)))
    (hfair : ∀ k, ¬ Goal (run k) → ∃ j, k ≤ j ∧ Helpful (act j)) : ∃ k, Goal (run k) := by
  have hI : ∀ k, I (run k) := by
    intro k
    induction k with
    | zero => exact hstart
    | succ k ih => exact hinv _ _ _ ih (hrun k)
  -- by induction on the rank, from every point of the run
  suffices h : ∀ b k, rank (run k) = b → ∃ j, Goal (run j) from h _ 0 rfl
  intro b
  induction b using hwf.induction with
  | h b ih =>
    have hnext : ∀ k, rank (run k) = b → Helpful (act k) → ∃ j, Goal (run j) := by
      intro k hk hnow
      rcases hhelp _ _ _ (hI k) hnow (hrun k) with h | h
      · exact ⟨k + 1, h⟩
      · exact ih _ (hk ▸ h) (k + 1) rfl
    -- up to the first helpful step the rank stays
    have hlater : ∀ d k, rank (run k) = b → Helpful (act (k + d)) → ∃ j, Goal (run j) := by
      intro d
      induction d with
      | zero => exact hnext
      | succ d ihd =>
        intro k hk hj
        by_cases hnow : Helpful (act k)
        · exact hnext k hk hnow
        · apply ihd (k + 1) ((hother _ _ _ (hI k) hnow (hrun k)).trans hk)
          rwa [show k + 1 + d = k + (d + 1) by omega]
    intro k hk
    by_cases hgoal : Goal (run k)
    · exact ⟨k, hgoal⟩
    · obtain ⟨j, hkj, hj⟩ := hfair k hgoal
      obtain ⟨d, rfl⟩ := Nat.exists_eq_add_of_le hkj
      exact hlater d k hk hj

/-! ## Systems given by a function -/

/-- The system in which an action leads to at most one state. -/
def ofNext (init : σ → Prop) (next : σ → α → Option σ) : System σ α where
  init := init
  step := fun s a s' => next s a = some s'

/-- Take the given actions one after the other. -/
def follow (next : σ → α → Option σ) : List α → σ → Option σ
  | [], s => some s
  | a :: rest, s => (next s a).bind (follow next rest)

variable {next : σ → α → Option σ} {init : σ → Prop}

theorem Reachable.follow {s' : σ} (acts : List α) :
    ∀ {s : σ}, Reachable (ofNext init next) s → follow next acts s = some s' →
      Reachable (ofNext init next) s' := by
  induction acts with
  | nil =>
    intro s hs h
    cases h
    exact hs
  | cons a rest ih =>
    intro s hs h
    obtain ⟨t, ht, hrest⟩ := Option.bind_eq_some_iff.mp h
    exact ih (.step a hs ht) hrest

/-- **Rule for given runs**: what is seen to hold after the given actions holds in a reachable state. -/
theorem exists_reachable {s : σ} (hinit : init s) (acts : List α)
    {P : σ → Prop} [DecidablePred P] (h : (follow next acts s).any (fun t => P t) = true) :
    ∃ t, Reachable (ofNext init next) t ∧ P t := by
  obtain ⟨t, ht, hP⟩ := (Option.any_eq_true _ _).mp h
  exact ⟨t, .follow acts (.init hinit) ht, of_decide_eq_true hP⟩

/-! ## Restriction -/

/-- The system whose steps are those of `sys` taken from a state that meets the condition. -/
def restrict (sys : System σ α) (C : σ → α → Prop) : System σ α where
  init := sys.init
  step := fun s a s' => C s a ∧ sys.step s a s'

theorem Reachable.of_restrict {C : σ → α → Prop} {s : σ}
    (h : Reachable (sys.restrict C) s) : Reachable sys s := by
  induction h with
  | init hs => exact .init hs
  | step a _ ha ih => exact .step a ih ha.2

/-- A restricted system given by a function is again given by one. -/
theorem restrict_ofNext (init : σ → Prop) (next : σ → α → Option σ) (C : σ → α → Prop)
    [∀ s a, Decidable (C s a)] :
    (ofNext init next).restrict C = ofNext init fun s a => if C s a then next s a else none := by
  unfold restrict ofNext
  congr 1
  funext s a s'
  by_cases h : C s a
  · simp [h]
  · simp [h]

/-- The rule for given runs whose steps meet a condition. -/
theorem exists_restricted {C : σ → α → Prop} [∀ s a, Decidable (C s a)]
    {s : σ} (hinit : init s) (acts : List α) {P : σ → Prop} [DecidablePred P]
    (h : (follow (fun s a => if C s a then next s a else none) acts s).any (fun t => P t) = true) :
    ∃ t, Reachable ((ofNext init next).restrict C) t ∧ P t := by
  rw [restrict_ofNext]
  exact exists_reachable hinit acts h

end System

end Framework
