import Mathlib

/-! # Spinlocks and queues of sleeping threads

Two ingredients of synchronisation code, each stated as an agreement between a shared variable
and the places the threads are at:

- a spinlock names the one thread that is in the code it protects;
- the queue of a wait channel holds the threads that have gone to sleep on it and that nobody
  has taken off it since.

A thread that wakes others takes a list of them off the queue and then makes them runnable one
by one.
-/

namespace Framework

open Function

variable {ι : Type}

/-! ## Who holds a lock -/

section HeldBy

variable {l : Option ι} {f : ι → Bool} {t : ι}

/-- The lock `l` is held by the thread for which `f` says so. -/
def HeldBy (l : Option ι) (f : ι → Bool) : Prop := ∀ t, l = some t ↔ f t = true

theorem HeldBy.unique (h : HeldBy l f) {t u : ι} (ht : f t = true) (hu : f u = true) : t = u := by
  have heq := ((h t).mpr ht).symm.trans ((h u).mpr hu)
  exact Option.some.inj heq

variable [DecidableEq ι]

theorem HeldBy.keep (h : HeldBy l f) {b : Bool} (hb : b = f t) : HeldBy l (update f t b) := by
  rw [hb, update_eq_self]
  exact h

theorem HeldBy.acquire (h : HeldBy none f) : HeldBy (some t) (update f t true) := by
  intro u
  by_cases hu : u = t
  · subst hu
    simp
  · have hfree : f u ≠ true := fun hf => nomatch (h u).mpr hf
    rw [update_of_ne hu]
    simp [hfree, Ne.symm hu]

theorem HeldBy.release (h : HeldBy l f) (ht : f t = true) : HeldBy none (update f t false) := by
  intro u
  by_cases hu : u = t
  · subst hu
    simp
  · have hfree : f u ≠ true := fun hf => hu (h.unique hf ht)
    rw [update_of_ne hu]
    simp [hfree]

variable {κ : Type} {g : κ → Bool} {pc : ι → κ} {p q : κ}

/-- A thread that goes from `q` to `p` and has the lock at both places or at neither. -/
theorem HeldBy.stays (h : HeldBy l (g ∘ pc)) (hq : pc t = q) (hg : g p = g q) :
    HeldBy l (update (g ∘ pc) t (g p)) := by
  apply h.keep
  rw [hg, ← hq]
  rfl

theorem HeldBy.leaves (h : HeldBy l (g ∘ pc)) (hq : pc t = q) (hg : g q = true) :
    HeldBy none (update (g ∘ pc) t false) := by
  apply h.release
  rw [← hg, ← hq]
  rfl

/-- Two threads go on, and each has the lock as before. -/
theorem HeldBy.both (h : HeldBy l (g ∘ pc)) {a : ι} (hta : t ≠ a) (ha : g q = g (pc a)) (ht : g p = g (pc t)) :
    HeldBy l (g ∘ update (update pc a q) t p) := by
  rw [comp_update, comp_update]
  apply HeldBy.keep (h.keep ha)
  rw [update_of_ne hta]
  exact ht

end HeldBy

/-! ## The queue -/

/-- What the place of a thread means for the queue. -/
inductive Place (ι : Type) where
  | off
  /-- On the queue, not asleep yet. -/
  | queued
  | asleep
  /-- About to make the threads of the list runnable. -/
  | wakes (targets : List ι)
  deriving DecidableEq

/-- The queue and the places of the threads agree. -/
structure QueueInv (queue : List ι) (place : ι → Place ι) : Prop where
  nodup : queue.Nodup
  mem : ∀ t ∈ queue, place t = .queued ∨ place t = .asleep
  queued : ∀ t, place t = .queued → t ∈ queue
  asleep : ∀ t, place t = .asleep → t ∈ queue ∨ ∃ v l, place v = .wakes l ∧ t ∈ l
  target : ∀ v l, place v = .wakes l → l.Nodup ∧ ∀ t ∈ l, place t = .asleep ∧ t ∉ queue

/-- A thread that has nothing to do with the queue. -/
def Place.Away (p : Place ι) : Prop := p = .off ∨ p = .wakes []

section Queue

variable [DecidableEq ι] {queue front back : List ι} {place : ι → Place ι} {t u a : ι} {p q : Place ι}

omit [DecidableEq ι] in
/-- Nobody has a place yet. -/
theorem QueueInv.start : QueueInv ([] : List ι) fun _ => .off where
  nodup := List.nodup_nil
  mem := fun _ ht => nomatch ht
  queued := fun _ ht => nomatch ht
  asleep := fun _ ht => nomatch ht
  target := fun _ _ hl => nomatch hl

omit [DecidableEq ι] in
theorem Place.Away.ne_queued (h : p.Away) : p ≠ .queued := by
  rcases h with rfl | rfl <;> simp

omit [DecidableEq ι] in
theorem Place.Away.ne_asleep (h : p.Away) : p ≠ .asleep := by
  rcases h with rfl | rfl <;> simp

omit [DecidableEq ι] in
theorem Place.Away.not_target (h : p.Away) {l : List ι} (hp : p = .wakes l) : t ∉ l := by
  rcases h with rfl | rfl
  · cases hp
  · cases hp
    simp

theorem of_update (hpq : p ≠ q) (h : update place t p u = q) : u ≠ t ∧ place u = q := by
  by_cases hut : u = t
  · subst hut
    rw [update_self] at h
    exact absurd h hpq
  · rw [update_of_ne hut] at h
    exact ⟨hut, h⟩

theorem to_update (htq : place t ≠ q) (h : place u = q) : update place t p u = q := by
  have hut : u ≠ t := by
    rintro rfl
    exact htq h
  rw [update_of_ne hut]
  exact h

namespace QueueInv

/-- Moves away from the queue. -/
theorem keep (h : QueueInv queue place) (hold : (place t).Away) (hnew : p.Away) :
    QueueInv queue (update place t p) where
  nodup := h.nodup
  mem := fun u hu => (h.mem u hu).imp (to_update hold.ne_queued) (to_update hold.ne_asleep)
  queued := fun u hu => h.queued u (of_update hnew.ne_queued hu).2
  asleep := by
    intro u hu
    refine (h.asleep u (of_update hnew.ne_asleep hu).2).imp_right ?_
    intro ⟨v, l, hv, hul⟩
    have hvt : v ≠ t := by
      rintro rfl
      exact hold.not_target hv hul
    exact ⟨v, l, (update_of_ne hvt ..).trans hv, hul⟩
  target := by
    intro v l hv
    by_cases hvt : v = t
    · subst hvt
      rw [update_self] at hv
      rcases hnew with rfl | rfl
      · cases hv
      · cases hv
        exact ⟨List.nodup_nil, fun u hu => nomatch hu⟩
    · rw [update_of_ne hvt] at hv
      obtain ⟨hnodup, hall⟩ := h.target v l hv
      exact ⟨hnodup, fun u hu => ⟨to_update hold.ne_asleep (hall u hu).1, (hall u hu).2⟩⟩

theorem stays {κ : Type} {f : κ → Place ι} {pc : ι → κ} {p q : κ} (h : QueueInv queue (f ∘ pc))
    (hq : pc t = q) (hold : (f q).Away) (hnew : (f p).Away) : QueueInv queue (update (f ∘ pc) t (f p)) := by
  apply h.keep _ hnew
  rw [← hq] at hold
  exact hold

omit [DecidableEq ι] in
theorem not_mem (h : QueueInv queue place) (hold : (place t).Away) : t ∉ queue := by
  intro ht
  rcases h.mem t ht with hq | hq
  · exact hold.ne_queued hq
  · exact hold.ne_asleep hq

/-- A thread joins the queue. -/
theorem enqueue (h : QueueInv queue place) (hold : (place t).Away) :
    QueueInv (queue ++ [t]) (update place t .queued) where
  nodup := by
    rw [List.nodup_append]
    refine ⟨h.nodup, List.nodup_singleton t, ?_⟩
    intro a ha b hb
    rw [List.mem_singleton] at hb
    rintro rfl
    exact h.not_mem hold (hb ▸ ha)
  mem := by
    intro u hu
    by_cases hut : u = t
    · subst hut
      exact .inl (update_self ..)
    · rw [update_of_ne hut]
      refine h.mem u ((List.mem_append.mp hu).resolve_right fun hu => ?_)
      exact hut (List.mem_singleton.mp hu)
  queued := by
    intro u hu
    by_cases hut : u = t
    · subst hut
      exact List.mem_append_right _ (List.mem_singleton_self u)
    · rw [update_of_ne hut] at hu
      exact List.mem_append_left _ (h.queued u hu)
  asleep := by
    intro u hu
    rcases h.asleep u (of_update (by simp) hu).2 with hq | ⟨v, l, hv, hul⟩
    · exact .inl (List.mem_append_left _ hq)
    · have hvt : v ≠ t := by
        rintro rfl
        exact hold.not_target hv hul
      exact .inr ⟨v, l, (update_of_ne hvt ..).trans hv, hul⟩
  target := by
    intro v l hv
    obtain ⟨hnodup, hall⟩ := h.target v l (of_update (by simp) hv).2
    refine ⟨hnodup, fun u hu => ⟨to_update hold.ne_asleep (hall u hu).1, fun hmem => ?_⟩⟩
    rcases List.mem_append.mp hmem with hmem | hmem
    · exact (hall u hu).2 hmem
    · rw [List.mem_singleton] at hmem
      subst hmem
      exact hold.ne_asleep (hall u hu).1

/-- A thread on the queue falls asleep. -/
theorem fallAsleep (h : QueueInv queue place) (hqueued : place t = .queued) :
    QueueInv queue (update place t .asleep) where
  nodup := h.nodup
  mem := by
    intro u hu
    by_cases hut : u = t
    · subst hut
      exact .inr (update_self ..)
    · rw [update_of_ne hut]
      exact h.mem u hu
  queued := fun u hu => h.queued u (of_update (by simp) hu).2
  asleep := by
    intro u hu
    by_cases hut : u = t
    · subst hut
      exact .inl (h.queued u hqueued)
    · rw [update_of_ne hut] at hu
      refine (h.asleep u hu).imp_right ?_
      intro ⟨v, l, hv, hul⟩
      exact ⟨v, l, to_update (by rw [hqueued]; simp) hv, hul⟩
  target := by
    intro v l hv
    obtain ⟨hnodup, hall⟩ := h.target v l (of_update (by simp) hv).2
    exact ⟨hnodup, fun u hu => ⟨to_update (by rw [hqueued]; simp) (hall u hu).1, (hall u hu).2⟩⟩

omit [DecidableEq ι] in
/-- While nobody else is about to wake anybody, whoever is asleep is on the queue. -/
theorem asleep_mem (h : QueueInv queue place) (hnone : ∀ v l, place v = .wakes l → l = [])
    (hu : place u = .asleep) : u ∈ queue := by
  refine (h.asleep u hu).resolve_right ?_
  intro ⟨v, l, hv, hul⟩
  rw [hnone v l hv] at hul
  cases hul

/-- Some threads come off the front of a queue on which all are asleep. -/
theorem dequeue (h : QueueInv (front ++ back) place) (hqueued : ∀ u, place u ≠ .queued)
    (hnone : ∀ v l, place v = .wakes l → l = []) (hold : (place t).Away) :
    QueueInv back (update place t (.wakes front)) := by
  have hall : ∀ u ∈ front ++ back, place u = .asleep := fun u hu =>
    (h.mem u hu).resolve_left (hqueued u)
  have hnodup := List.nodup_append.mp h.nodup
  constructor
  case nodup => exact hnodup.2.1
  case mem =>
    intro u hu
    exact .inr (to_update hold.ne_asleep (hall u (List.mem_append_right _ hu)))
  case queued => exact fun u hu => absurd (of_update (by simp) hu).2 (hqueued u)
  case asleep =>
    intro u hu
    have hmem := h.asleep_mem hnone (of_update (by simp) hu).2
    rcases List.mem_append.mp hmem with hfront | hback
    · exact .inr ⟨t, front, update_self .., hfront⟩
    · exact .inl hback
  case target =>
    intro v l hv
    by_cases hvt : v = t
    · subst hvt
      rw [update_self] at hv
      cases hv
      refine ⟨hnodup.1, fun u hu => ⟨to_update hold.ne_asleep (hall u (List.mem_append_left _ hu)), ?_⟩⟩
      exact fun hback => hnodup.2.2 u hu u hback rfl
    · rw [update_of_ne hvt] at hv
      rw [hnone v l hv]
      exact ⟨List.nodup_nil, fun u hu => nomatch hu⟩

/-- The first of the threads taken off the queue becomes runnable. -/
theorem awaken {rest : List ι} (h : QueueInv queue place) (hwakes : place t = .wakes (a :: rest))
    (honly : ∀ v l, place v = .wakes l → v ≠ t → l = []) :
    QueueInv queue (update (update place a .off) t (.wakes rest)) := by
  obtain ⟨hnodup, hall⟩ := h.target t _ hwakes
  obtain ⟨ha, hout⟩ := hall a (List.mem_cons_self ..)
  have hat : a ≠ t := by
    rintro rfl
    rw [ha] at hwakes
    cases hwakes
  -- those on the queue and the targets left are neither `a` nor `t`
  have hnew : ∀ {u : ι}, u ≠ a → u ≠ t →
      update (update place a .off) t (.wakes rest) u = place u := by
    intro u hua hut
    rw [update_of_ne hut, update_of_ne hua]
  have hself : update (update place a .off) t (.wakes rest) a = .off := by
    rw [update_of_ne hat, update_self]
  have hold : ∀ {u : ι} {r : Place ι}, r ≠ .off → r ≠ .wakes rest →
      update (update place a .off) t (.wakes rest) u = r → place u = r := by
    intro u r hoff hrest hu
    exact (of_update hoff.symm (of_update hrest.symm hu).2).2
  constructor
  case nodup => exact h.nodup
  case mem =>
    intro u hu
    have hua : u ≠ a := fun heq => hout (heq ▸ hu)
    have hut : u ≠ t := by
      rintro rfl
      rcases h.mem u hu with hr | hr <;> rw [hwakes] at hr <;> cases hr
    rw [hnew hua hut]
    exact h.mem u hu
  case queued => exact fun u hu => h.queued u (hold (by simp) (by simp) hu)
  case asleep =>
    intro u hu
    have hua : u ≠ a := by
      rintro rfl
      rw [hself] at hu
      cases hu
    refine (h.asleep u (hold (by simp) (by simp) hu)).imp_right ?_
    intro ⟨v, l, hv, hul⟩
    have hvt : v = t := by
      by_contra hne
      rw [honly v l hv hne] at hul
      cases hul
    subst hvt
    rw [hwakes] at hv
    cases hv
    exact ⟨v, rest, update_self .., (List.mem_cons.mp hul).resolve_left hua⟩
  case target =>
    intro v l hv
    by_cases hvt : v = t
    · subst hvt
      rw [update_self] at hv
      cases hv
      refine ⟨(List.nodup_cons.mp hnodup).2, fun u hu => ?_⟩
      obtain ⟨huasleep, hunot⟩ := hall u (List.mem_cons_of_mem _ hu)
      have hua : u ≠ a := by
        rintro rfl
        exact (List.nodup_cons.mp hnodup).1 hu
      have hut : u ≠ v := by
        rintro rfl
        rw [hwakes] at huasleep
        cases huasleep
      exact ⟨(hnew hua hut).trans huasleep, hunot⟩
    · rw [update_of_ne hvt] at hv
      have hva := (of_update (by simp) hv).2
      rw [honly v l hva hvt]
      exact ⟨List.nodup_nil, fun u hu => nomatch hu⟩

end QueueInv

end Queue

end Framework
