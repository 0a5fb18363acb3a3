import OS161.Framework.Tally

/-! # A room for one group at a time

Threads of several groups enter a room. A lock protects, for each group, the number of its
members in the room; a thread goes in when it has seen, under the lock, that no other group is
there. Why it may wait longer than that is not said here.

`Step` says what a thread can do, `Inv` that the numbers are right and that only one group is in
the room.
-/

namespace Framework

open Function

namespace Room

/-- Where a thread is. -/
inductive Place where
  | out
  /-- It has the lock, and looks at the numbers. -/
  | test
  /-- It has the lock, and has seen that it may enter. -/
  | enter
  | inside
  /-- It is in the room and has the lock. -/
  | leaving
  /-- It has left the room and still has the lock. -/
  | left
  deriving DecidableEq

namespace Place

def locked : Place → Bool
  | test | enter | leaving | left => true
  | out | inside => false

def isIn : Place → Bool
  | inside | leaving => true
  | _ => false

end Place

/-- The lock of the room, and how many of each group are in it. -/
structure Door (T G : Type*) where
  lock : Option T
  count : G → Int

variable {T G : Type*} {group : T → G}

/-- What the thread `t` can do. -/
inductive Step [DecidableEq G] (group : T → G) (t : T) : Door T G → Place → Door T G → Place → Prop where
  | stay (d : Door T G) (p : Place) (hp : p ≠ .enter) : Step group t d p d p
  | acquire (d : Door T G) (h : d.lock = none) : Step group t d .out { d with lock := some t } .test
  | wait (d : Door T G) : Step group t d .test { d with lock := none } .out
  | pass (d : Door T G) (h : ∀ g, g ≠ group t → d.count g = 0) : Step group t d .test d .enter
  | enter (d : Door T G) :
      Step group t d .enter ⟨none, update d.count (group t) (d.count (group t) + 1)⟩ .inside
  | back (d : Door T G) (h : d.lock = none) : Step group t d .inside { d with lock := some t } .leaving
  | leave (d : Door T G) :
      Step group t d .leaving { d with count := update d.count (group t) (d.count (group t) - 1) } .left
  | go (d : Door T G) : Step group t d .left { d with lock := none } .out

structure Inv (group : T → G) (d : Door T G) (place : T → Place) : Prop where
  lock : ∀ t, (place t).locked = true ↔ d.lock = some t
  count : ∀ g, ∃ n : Nat, d.count g = n ∧ Tally (fun t => group t = g ∧ (place t).isIn = true) n
  alone : ∀ t u, (place t).isIn = true → (place u).isIn = true → group t = group u
  enter : ∀ t u, place t = .enter → (place u).isIn = true → group t = group u

variable {d d' : Door T G} {place : T → Place} {t : T} {p : Place}

/-- Nobody is there. -/
theorem Inv.empty (hd : d.lock = none ∧ ∀ g, d.count g = 0) (hp : ∀ t, place t = .out) : Inv group d place where
  lock := by
    intro t
    rw [hp t, hd.1]
    exact ⟨nofun, nofun⟩
  count := by
    intro g
    refine ⟨0, hd.2 g, Tally.zero ?_⟩
    intro t ⟨_, ht⟩
    rw [hp t] at ht
    exact nomatch ht
  alone := by
    intro t u ht
    rw [hp t] at ht
    exact nomatch ht
  enter := by
    intro t u ht
    rw [hp t] at ht
    exact nomatch ht

/-- When everybody is out the numbers are 0. -/
theorem Inv.count_zero (h : Inv group d place) {g : G} (hg : ∀ t, group t = g → (place t).isIn = false) :
    d.count g = 0 := by
  obtain ⟨n, hn, htally⟩ := h.count g
  have hzero := htally.eq_zero fun t ⟨ht, hin⟩ => nomatch (hg t ht).symm.trans hin
  rw [hn, hzero]
  rfl

theorem Inv.count_pos (h : Inv group d place) (ht : (place t).isIn = true) : 0 < d.count (group t) := by
  obtain ⟨n, hn, htally⟩ := h.count (group t)
  have hpos := htally.pos (t := t) ⟨rfl, ht⟩
  omega

/-- A number that is 0 says that the group is not there. -/
theorem Inv.not_in (h : Inv group d place) {g : G} (hg : d.count g = 0) (ht : group t = g) :
    (place t).isIn = false := by
  by_contra hin
  have hpos := h.count_pos (Bool.of_not_eq_false hin)
  rw [ht] at hpos
  omega

theorem Inv.holder (h : Inv group d place) (ht : (place t).locked = true) {u : T} (hu : u ≠ t) :
    (none = some u ↔ d.lock = some u) := by
  rw [(h.lock t).mp ht]
  constructor
  · exact nofun
  · intro heq
    exact absurd (Option.some.inj heq).symm hu

/-! ## One thread moves -/

section Moves

variable [DecidableEq T]

theorem locked_update {l : Option T} (h : Inv group d place) (hp : p.locked = true ↔ l = some t)
    (hl : ∀ u, u ≠ t → (l = some u ↔ d.lock = some u)) (u : T) :
    (update place t p u).locked = true ↔ l = some u := by
  by_cases hu : u = t
  · rw [hu, update_self]
    exact hp
  · rw [update_of_ne hu, h.lock u, hl u hu]

theorem isIn_update (hp : p.isIn = (place t).isIn) (u : T) :
    (update place t p u).isIn = (place u).isIn := by
  by_cases hu : u = t
  · rw [hu, update_self, hp]
  · rw [update_of_ne hu]

theorem enter_update (hp : p ≠ .enter) {u : T} (hu : update place t p u = .enter) : place u = .enter := by
  by_cases hut : u = t
  · rw [hut, update_self] at hu
    exact absurd hu hp
  · rwa [update_of_ne hut] at hu

/-- The thread moves, and is in the room as before; the lock changes hands or not. Before it enters
it has seen that the other groups are not there. -/
theorem Inv.move (h : Inv group d place) {l : Option T} (hin : p.isIn = (place t).isIn)
    (hp : p = .enter → ∀ g, g ≠ group t → d.count g = 0)
    (hlock : p.locked = true ↔ l = some t) (hl : ∀ u, u ≠ t → (l = some u ↔ d.lock = some u)) :
    Inv group { d with lock := l } (update place t p) where
  lock := locked_update h hlock hl
  count := by
    intro g
    obtain ⟨n, hn, htally⟩ := h.count g
    refine ⟨n, hn, htally.congr ?_⟩
    intro u
    rw [isIn_update hin]
  alone := by
    intro u v hu hv
    rw [isIn_update hin] at hu hv
    exact h.alone u v hu hv
  enter := by
    intro u v hu hv
    rw [isIn_update hin] at hv
    by_cases hut : u = t
    · subst hut
      rw [update_self] at hu
      by_contra hne
      have hout := h.not_in (hp hu (group v) fun heq => hne heq.symm) rfl
      exact nomatch hout.symm.trans hv
    · rw [update_of_ne hut] at hu
      exact h.enter u v hu hv

theorem Inv.acquire (h : Inv group d place) (hfree : d.lock = none) (hin : p.isIn = (place t).isIn) (hp : p ≠ .enter)
    (hlock : p.locked = true) : Inv group { d with lock := some t } (update place t p) := by
  apply h.move hin (fun heq => absurd heq hp)
  · exact ⟨fun _ => rfl, fun _ => hlock⟩
  · intro u hu
    rw [hfree]
    constructor
    · intro heq
      exact absurd (Option.some.inj heq).symm hu
    · exact nofun

theorem Inv.release (h : Inv group d place) (ht : (place t).locked = true) (hin : p.isIn = (place t).isIn)
    (hp : p ≠ .enter) (hlock : p.locked = false) : Inv group { d with lock := none } (update place t p) := by
  apply h.move hin (fun heq => absurd heq hp)
  · rw [hlock]
    exact ⟨nofun, nofun⟩
  · exact fun u hu => h.holder ht hu

variable [DecidableEq G]

/-- The number of the thread's group follows the thread, the others stay. -/
theorem Inv.counted (h : Inv group d place) {c : G → Int} (hrest : ∀ g, g ≠ group t → c g = d.count g)
    (hself : c (group t) + (place t).isIn.toNat = d.count (group t) + p.isIn.toNat) (g : G) :
    ∃ n : Nat, c g = n ∧ Tally (fun u => group u = g ∧ (update place t p u).isIn = true) n := by
  obtain ⟨n, hn, htally⟩ := h.count g
  have hsame : ∀ u, u ≠ t → (group u = g ∧ (update place t p u).isIn = true ↔ group u = g ∧ (place u).isIn = true) := by
    intro u hu
    rw [update_of_ne hu]
  by_cases hg : g = group t
  · subst hg
    obtain ⟨m, htally', hm⟩ := htally.move (a := (place t).isIn) (b := p.isIn) hsame (by simp) (by simp)
    exact ⟨m, by omega, htally'⟩
  · refine ⟨n, (hrest g hg).trans hn, htally.stay hsame ?_⟩
    exact ⟨fun hu => absurd hu.1.symm hg, fun hu => absurd hu.1.symm hg⟩

theorem Inv.goIn (h : Inv group d place) (ht : place t = .enter) :
    Inv group ⟨none, update d.count (group t) (d.count (group t) + 1)⟩
      (update place t .inside) := by
  have hlock : (place t).locked = true := by
    rw [ht]
    rfl
  -- who is in afterwards: those who were, and the thread
  have hin : ∀ u, (update place t .inside u).isIn = true → u = t ∨ (place u).isIn = true := by
    intro u hu
    by_cases hut : u = t
    · exact .inl hut
    · rw [update_of_ne hut] at hu
      exact .inr hu
  have hgroup : ∀ u, (update place t .inside u).isIn = true → group t = group u := by
    intro u hu
    rcases hin u hu with rfl | hu
    · rfl
    · exact h.enter t u ht hu
  constructor
  · apply locked_update h
    · exact ⟨nofun, nofun⟩
    · exact fun u hu => h.holder hlock hu
  · apply h.counted
    · exact fun g hg => update_of_ne hg ..
    · simp [ht, Place.isIn]
  · intro u v hu hv
    exact (hgroup u hu).symm.trans (hgroup v hv)
  · intro u v hu hv
    have hut : u ≠ t := by
      intro heq
      rw [heq, update_self] at hu
      exact nomatch hu
    rw [update_of_ne hut] at hu
    -- two threads would have the lock
    have hlu := (h.lock u).mp (by rw [hu]; rfl)
    rw [(h.lock t).mp hlock] at hlu
    exact absurd (Option.some.inj hlu).symm hut

theorem Inv.goOut (h : Inv group d place) (ht : place t = .leaving) :
    Inv group { d with count := update d.count (group t) (d.count (group t) - 1) }
      (update place t .left) := by
  have hlock : (place t).locked = true := by
    rw [ht]
    rfl
  have hin : ∀ u, (update place t .left u).isIn = true → (place u).isIn = true := by
    intro u hu
    by_cases hut : u = t
    · rw [hut, update_self] at hu
      exact nomatch hu
    · rwa [update_of_ne hut] at hu
  constructor
  · apply locked_update h
    · exact ⟨fun _ => (h.lock t).mp hlock, fun _ => rfl⟩
    · exact fun _ _ => Iff.rfl
  · apply h.counted
    · exact fun g hg => update_of_ne hg ..
    · simp [ht, Place.isIn]
  · intro u v hu hv
    exact h.alone u v (hin u hu) (hin v hv)
  · intro u v hu hv
    exact h.enter u v (enter_update (p := .left) (by decide) hu) (hin v hv)

/-- **Step rule**: a step keeps the invariant. -/
theorem Inv.step (h : Inv group d place) (hs : Step group t d (place t) d' p) :
    Inv group d' (update place t p) := by
  generalize hq : place t = q at hs
  cases hs with
  | stay _ hp =>
    apply h.move (by rw [hq]) (fun heq => absurd heq hp)
    · rw [← hq]
      exact h.lock t
    · exact fun _ _ => Iff.rfl
  | acquire hfree => exact h.acquire hfree (by rw [hq]; rfl) nofun rfl
  | wait => exact h.release (by rw [hq]; rfl) (by rw [hq]; rfl) nofun rfl
  | pass hzero =>
    have hlock := (h.lock t).mp (by rw [hq]; rfl)
    exact h.move (by rw [hq]; rfl) (fun _ => hzero) ⟨fun _ => hlock, fun _ => rfl⟩ fun _ _ => Iff.rfl
  | enter => exact h.goIn hq
  | back hfree => exact h.acquire hfree (by rw [hq]; rfl) nofun rfl
  | leave => exact h.goOut hq
  | go => exact h.release (by rw [hq]; rfl) (by rw [hq]; rfl) nofun rfl

end Moves

end Room

end Framework
