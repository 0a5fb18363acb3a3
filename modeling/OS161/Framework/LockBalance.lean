import Mathlib

/-! # Locks taken and released by hand

Functions that take and release locks, call each other and return from the middle of their
bodies. Tests on data are open: `either` may go either way. What is followed is how many times
the calling thread has each lock.

`check` goes through a body once and finds whether every path to a `return` has released what
was taken since the entry. When it accepts the body of every function, no call changes the count
of any lock.
-/

namespace Framework

open Function

/-- Function bodies over locks `L` and functions `F`. -/
inductive LockStmt (L F : Type) where
  | skip
  | acquire (l : L)
  | release (l : L)
  | call (f : F)
  | seq (a b : LockStmt L F)
  /-- A test that may go either way. -/
  | either (a b : LockStmt L F)
  /-- A test whether the thread has the lock. -/
  | ifHeld (l : L) (a b : LockStmt L F)
  /-- `a` is done when an allocation in `f` fails. -/
  | ifFails (f : F) (a : LockStmt L F)
  /-- Any number of turns. -/
  | loop (a : LockStmt L F)
  | ret
  /-- The machine stops. -/
  | halt

namespace LockStmt

variable {L F : Type} [DecidableEq L]

instance instAppend : Append (LockStmt L F) := ⟨.seq⟩

/-- `Exec body fails a d r d'`: a thread that has the locks as in `d` does `a`, and then has them as
in `d'`; `r` says whether it has returned. Allocations fail only where `fails` allows it. -/
inductive Exec (body : F → LockStmt L F) (fails : F → Prop) :
    LockStmt L F → (L → Nat) → Bool → (L → Nat) → Prop where
  | skip {d} : Exec body fails .skip d false d
  | acquire {d} (l : L) : Exec body fails (.acquire l) d false (update d l (d l + 1))
  | release {d} (l : L) (h : 0 < d l) : Exec body fails (.release l) d false (update d l (d l - 1))
  | call {d r d'} (f : F) : Exec body fails (body f) d r d' → Exec body fails (.call f) d false d'
  | seq {a b d d' r d''} : Exec body fails a d false d' → Exec body fails b d' r d'' →
      Exec body fails (.seq a b) d r d''
  | seqRet {a b d d'} : Exec body fails a d true d' → Exec body fails (.seq a b) d true d'
  | left {a b d r d'} : Exec body fails a d r d' → Exec body fails (.either a b) d r d'
  | right {a b d r d'} : Exec body fails b d r d' → Exec body fails (.either a b) d r d'
  | held {a b d r d'} (l : L) (h : 0 < d l) : Exec body fails a d r d' → Exec body fails (.ifHeld l a b) d r d'
  | free {a b d r d'} (l : L) (h : d l = 0) : Exec body fails b d r d' → Exec body fails (.ifHeld l a b) d r d'
  | fails {a d r d'} (f : F) (h : fails f) : Exec body fails a d r d' → Exec body fails (.ifFails f a) d r d'
  | works {a d} (f : F) : Exec body fails (.ifFails f a) d false d
  | done {a d} : Exec body fails (.loop a) d false d
  | turn {a d d' r d''} : Exec body fails a d false d' → Exec body fails (.loop a) d' r d'' →
      Exec body fails (.loop a) d r d''
  | turnRet {a d d'} : Exec body fails a d true d' → Exec body fails (.loop a) d true d'
  | ret {d} : Exec body fails .ret d true d

/-- Whatever way a call of `f` goes, the caller has the locks as before. -/
def Balanced (body : F → LockStmt L F) (fails : F → Prop) (f : F) : Prop :=
  ∀ d d', Exec body fails (.call f) d false d' → d' = d

/-! ## The checker -/

section Check

variable [Fintype L]

/-- Where two paths meet, they have taken the same locks; a path that has returned does not get there. -/
def join : Option (Option (L → Nat)) → Option (Option (L → Nat)) → Option (Option (L → Nat))
  | some none, r => r
  | r, some none => r
  | some (some x), some (some y) => if x = y then some (some x) else none
  | _, _ => none

/-- What has been taken since the entry when `a` is through, given what had been taken before it:
`some none` if it always returns or stops, `none` if a path returns with a lock or releases what
it has not taken. -/
def check (fails : F → Bool) : LockStmt L F → (L → Nat) → Option (Option (L → Nat))
  | .skip, x => some (some x)
  | .acquire l, x => some (some (update x l (x l + 1)))
  | .release l, x => if 0 < x l then some (some (update x l (x l - 1))) else none
  | .call _, x => some (some x)
  | .seq a b, x =>
    match check fails a x with
    | none => none
    | some none => some none
    | some (some y) => check fails b y
  | .either a b, x => join (check fails a x) (check fails b x)
  | .ifHeld l a b, x => if 0 < x l then check fails a x else join (check fails a x) (check fails b x)
  | .ifFails f a, x => if fails f then join (check fails a x) (some (some x)) else some (some x)
  | .loop a, x => join (check fails a x) (some (some x))
  | .ret, x => if x = 0 then some none else none
  | .halt, _ => some none

/-- A body in which every path gives back what it takes. -/
def Clean (fails : F → Bool) (a : LockStmt L F) : Prop :=
  check fails a 0 = some none ∨ check fails a 0 = some (some 0)

instance decidableClean (fails : F → Bool) (a : LockStmt L F) : Decidable (a.Clean fails) := instDecidableOr

/-- What the checker says holds where a path ends: it has returned with nothing, or has taken what
was computed. -/
def Meets (base : L → Nat) (res : Option (L → Nat)) (r : Bool) (d : L → Nat) : Prop :=
  if r then d = base else ∃ y, res = some y ∧ d = base + y

omit [DecidableEq L] in
theorem join_eq {u v : Option (Option (L → Nat))} {res : Option (L → Nat)} (h : join u v = some res) :
    ∃ x y, u = some x ∧ v = some y ∧ (x = none ∨ x = res) ∧ (y = none ∨ y = res) := by
  unfold join at h
  split at h
  · exact ⟨none, res, rfl, h, .inl rfl, .inr rfl⟩
  · exact ⟨res, none, h, rfl, .inr rfl, .inl rfl⟩
  · split at h
    · rename_i hxy
      cases h
      exact ⟨_, _, rfl, congrArg (some ∘ some) hxy.symm, .inr rfl, .inr rfl⟩
    · cases h
  · cases h

omit [DecidableEq L] [Fintype L] in
theorem Meets.mono {base d : L → Nat} {x res : Option (L → Nat)} {r : Bool} (h : Meets base x r d)
    (hx : x = none ∨ x = res) : Meets base res r d := by
  rcases hx with rfl | rfl
  · unfold Meets at h ⊢
    split
    · rwa [if_pos ‹_›] at h
    · rw [if_neg ‹_›] at h
      obtain ⟨y, hy, -⟩ := h
      cases hy
  · exact h

variable {body : F → LockStmt L F} {fails : F → Prop} {may : F → Bool}

section

variable (hbody : ∀ f, (body f).Clean may) (hfails : ∀ f, fails f → may f = true)
include hbody hfails

/-- **Soundness**: along every path the checker knows what has been taken since the entry. -/
theorem check_sound {a : LockStmt L F} {d d' : L → Nat} {r : Bool} (h : Exec body fails a d r d') :
    ∀ base x res, d = base + x → check may a x = some res → Meets base res r d' := by
  intro base x res hd hc
  induction h generalizing base x res with
  | skip =>
    cases hc
    exact ⟨x, rfl, hd⟩
  | acquire l =>
    cases hc
    refine ⟨_, rfl, ?_⟩
    subst hd
    funext k
    by_cases hk : k = l
    · subst hk
      simp [Nat.add_assoc]
    · simp [hk]
  | release l hpos =>
    rw [check] at hc
    split at hc
    · rename_i hx
      cases hc
      refine ⟨_, rfl, ?_⟩
      subst hd
      funext k
      by_cases hk : k = l
      · subst hk
        simp only [update_self, Pi.add_apply]
        omega
      · simp [hk]
    · cases hc
  | @call d r d' f _ ih =>
    cases hc
    -- the callee gives back what it takes, so it ends where it has begun
    have hsame : d' = d := by
      rcases hbody f with hf | hf
      · have hm := ih d 0 _ rfl hf
        unfold Meets at hm
        split at hm
        · exact hm
        · obtain ⟨y, hy, -⟩ := hm
          cases hy
      · have hm := ih d 0 _ rfl hf
        unfold Meets at hm
        split at hm
        · exact hm
        · obtain ⟨y, hy, hd'⟩ := hm
          cases hy
          exact hd'
    exact ⟨x, rfl, hsame.trans hd⟩
  | seq _ _ iha ihb =>
    rw [check] at hc
    split at hc
    · cases hc
    · rename_i ha
      obtain ⟨y, hy, -⟩ := iha base x _ hd ha
      cases hy
    · rename_i y ha
      obtain ⟨z, hz, hd'⟩ := iha base x _ hd ha
      cases hz
      exact ihb base y res hd' hc
  | seqRet _ iha =>
    rw [check] at hc
    split at hc
    · cases hc
    · rename_i ha
      have hm : _ = base := iha base x _ hd ha
      exact hm
    · rename_i ha
      have hm : _ = base := iha base x _ hd ha
      exact hm
  | left _ ih =>
    obtain ⟨u, v, hu, -, hres, -⟩ := join_eq hc
    exact (ih base x u hd hu).mono hres
  | right _ ih =>
    obtain ⟨u, v, -, hv, -, hres⟩ := join_eq hc
    exact (ih base x v hd hv).mono hres
  | held l _ _ ih =>
    rw [check] at hc
    split at hc
    · exact ih base x res hd hc
    · obtain ⟨u, v, hu, -, hres, -⟩ := join_eq hc
      exact (ih base x u hd hu).mono hres
  | free l hzero _ ih =>
    rw [check, if_neg (by rw [hd, Pi.add_apply] at hzero; omega)] at hc
    obtain ⟨u, v, -, hv, -, hres⟩ := join_eq hc
    exact (ih base x v hd hv).mono hres
  | fails f hf _ ih =>
    rw [check, if_pos (hfails f hf)] at hc
    obtain ⟨u, v, hu, -, hres, -⟩ := join_eq hc
    exact (ih base x u hd hu).mono hres
  | works f =>
    rw [check] at hc
    split at hc
    · obtain ⟨u, v, -, hv, -, hres⟩ := join_eq hc
      cases hv
      exact Meets.mono ⟨x, rfl, hd⟩ hres
    · cases hc
      exact ⟨x, rfl, hd⟩
  | done =>
    obtain ⟨u, v, -, hv, -, hres⟩ := join_eq hc
    cases hv
    exact Meets.mono ⟨x, rfl, hd⟩ hres
  | turn _ _ iha ihl =>
    obtain ⟨u, v, hu, hv, hresu, hresv⟩ := join_eq hc
    cases hv
    -- a turn that does not return ends as it began
    obtain ⟨y, hy, hd'⟩ := iha base x u hd hu
    have hyx : y = x := by
      rcases hresu with rfl | rfl
      · cases hy
      · rcases hresv with hnone | hsome
        · cases hnone
        · rw [hy] at hsome
          cases hsome
          rfl
    rw [hyx] at hd'
    exact ihl base x res hd' hc
  | turnRet _ iha =>
    obtain ⟨u, v, hu, -, hres, -⟩ := join_eq hc
    exact (iha base x u hd hu).mono hres
  | ret =>
    rw [check] at hc
    split at hc
    · rename_i hx
      rw [hd, hx]
      rfl
    · cases hc

/-- Functions whose bodies are all clean are balanced. -/
theorem balanced_of_clean (f : F) : Balanced body fails f := by
  intro d d' h
  obtain ⟨y, hy, hd'⟩ := check_sound hbody hfails h d 0 _ rfl rfl
  cases hy
  exact hd'

end

end Check

end LockStmt

end Framework
