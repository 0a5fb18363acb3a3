import OS161.Framework.Tally

/-! # Slots behind a lock

Threads take one slot each from a row of slots, and put it back. A lock protects the row and a
count of the free slots; a thread that finds no free slot waits until one that puts back a slot
wakes it.

`Step` says what a thread can do. `Inv` says that every taken slot has one owner and that the
count is right, `Served` that nobody is forgotten: while somebody waits there are not more free
slots than threads on their way to one.
-/

namespace Framework

open Function

namespace Slots

/-- Where a thread is. -/
inductive Place where
  | away
  | waiting
  | woken
  /-- It has the lock, and looks at the count. -/
  | test
  /-- It looks at the slot `x`. -/
  | search (x : Nat)
  /-- It has marked the slot and not yet changed the count. -/
  | take (x : Nat)
  | own (x : Nat)
  /-- It has the lock again. -/
  | give (x : Nat)
  /-- It has changed the count and not yet cleared the slot. -/
  | clear (x : Nat)
  deriving DecidableEq

namespace Place

def locked : Place → Bool
  | test | search _ | take _ | give _ | clear _ => true
  | away | waiting | woken | own _ => false

def slot : Place → Option Nat
  | take x | own x | give x | clear x => some x
  | away | waiting | woken | test | search _ => none

/-- The count is one more than the number of free slots. -/
def pending : Place → Int
  | take _ | clear _ => 1
  | away | waiting | woken | test | search _ | own _ | give _ => 0

/-- On the way to a slot, or about to wake somebody. -/
def served : Place → Bool
  | woken | test | search _ | take _ | clear _ => true
  | away | waiting | own _ | give _ => false

end Place

structure Row (T G : Type*) where
  lock : Option T
  /-- A free slot is `none`. -/
  slots : List (Option G)
  free : Int

variable {T G : Type*} {mark : T → G}

/-- The thread `u` is woken. -/
def wake [DecidableEq T] (place : T → Place) : Option T → T → Place
  | none => place
  | some u => update place u .woken

/-- What the thread `t` can do. -/
inductive Step [DecidableEq T] (mark : T → G) (t : T) : Row T G → (T → Place) → Row T G → (T → Place) → Prop where
  | stay (r : Row T G) (place : T → Place) : Step mark t r place r place
  | acquire (r : Row T G) (place : T → Place) (h : place t = .away ∨ place t = .woken) (hfree : r.lock = none) :
      Step mark t r place { r with lock := some t } (update place t .test)
  | wait (r : Row T G) (place : T → Place) (h : place t = .test) (hnone : r.free = 0) :
      Step mark t r place { r with lock := none } (update place t .waiting)
  | look (r : Row T G) (place : T → Place) (h : place t = .test) (hsome : r.free ≠ 0) :
      Step mark t r place r (update place t (.search 0))
  | next (r : Row T G) (place : T → Place) (x : Nat) (h : place t = .search x) (hx : x + 1 < r.slots.length)
      (htaken : r.slots[x]? ≠ some none) : Step mark t r place r (update place t (.search (x + 1)))
  | mark (r : Row T G) (place : T → Place) (x : Nat) (h : place t = .search x) (hx : r.slots[x]? = some none) :
      Step mark t r place { r with slots := r.slots.set x (some (mark t)) } (update place t (.take x))
  | taken (r : Row T G) (place : T → Place) (x : Nat) (h : place t = .take x) :
      Step mark t r place { r with free := r.free - 1, lock := none } (update place t (.own x))
  | back (r : Row T G) (place : T → Place) (x : Nat) (h : place t = .own x) (hfree : r.lock = none) :
      Step mark t r place { r with lock := some t } (update place t (.give x))
  | add (r : Row T G) (place : T → Place) (x : Nat) (h : place t = .give x) :
      Step mark t r place { r with free := r.free + 1 } (update place t (.clear x))
  /-- One of those who wait is woken, if there is one. -/
  | clear (r : Row T G) (place : T → Place) (x : Nat) (w : Option T) (h : place t = .clear x)
      (hsome : ∀ u, w = some u → place u = .waiting) (hnone : w = none → ∀ u, place u ≠ .waiting) :
      Step mark t r place { r with slots := r.slots.set x none, lock := none }
        (update (wake place w) t .away)

def pending (lock : Option T) (place : T → Place) : Int :=
  match lock with
  | some t => (place t).pending
  | none => 0

structure Inv [DecidableEq G] (mark : T → G) (r : Row T G) (place : T → Place) : Prop where
  lock : ∀ t, (place t).locked = true ↔ r.lock = some t
  marked : ∀ t x, (place t).slot = some x → r.slots[x]? = some (some (mark t))
  owner : ∀ x g, r.slots[x]? = some (some g) → ∃ t, (place t).slot = some x
  unique : ∀ t u x, (place t).slot = some x → (place u).slot = some x → t = u
  free : r.free = r.slots.count none + pending r.lock place
  search : ∀ t x, place t = .search x → x < r.slots.length ∧ 0 < r.free ∧ ∀ y, y < x → r.slots[y]? ≠ some none

def Served (r : Row T G) (place : T → Place) : Prop :=
  ∃ n : Nat, Tally (fun t => (place t).served = true) n ∧ ((∃ t, place t = .waiting) → r.free ≤ n)

section Lists

variable [DecidableEq G] {l : List (Option G)} {x : Nat} {g : G}

theorem count_mark (h : l[x]? = some none) : (l.set x (some g)).count none + 1 = l.count none := by
  obtain ⟨hx, hget⟩ := List.getElem?_eq_some_iff.mp h
  have hpos : 0 < l.count none := List.count_pos_iff.mpr (hget ▸ List.getElem_mem hx)
  have hnone : (some g == (none : Option G)) = false := rfl
  rw [List.count_set hx, hget, hnone]
  simp only [beq_self_eq_true, if_true, Bool.false_eq_true, if_false]
  omega

theorem count_clear (h : l[x]? = some (some g)) : (l.set x none).count none = l.count none + 1 := by
  obtain ⟨hx, hget⟩ := List.getElem?_eq_some_iff.mp h
  have hnone : (some g == (none : Option G)) = false := rfl
  rw [List.count_set hx, hget, hnone]
  simp only [beq_self_eq_true, if_true, Bool.false_eq_true, if_false]
  omega

end Lists

/-! ## The invariant -/

variable {r r' : Row T G} {place place' : T → Place} {t : T} {p : Place} {x : Nat}

section Invariant

variable [DecidableEq G]

/-- Everybody is away and every slot is free. -/
theorem Inv.empty (hlock : r.lock = none) (hslots : ∀ s ∈ r.slots, s = none) (hfree : r.free = r.slots.length)
    (hp : ∀ t, place t = .away) : Inv mark r place where
  lock := by
    intro t
    rw [hp t, hlock]
    exact ⟨nofun, nofun⟩
  marked := by
    intro t x h
    rw [hp t] at h
    exact nomatch h
  owner := by
    intro x g h
    exact nomatch hslots _ (List.mem_iff_getElem?.mpr ⟨x, h⟩)
  unique := by
    intro t u x h
    rw [hp t] at h
    exact nomatch h
  free := by
    rw [hfree, hlock, List.count_eq_length.mpr fun s hs => (hslots s hs).symm]
    exact (Int.add_zero _).symm
  search := by
    intro t x h
    rw [hp t] at h
    exact nomatch h

section

variable (h : Inv mark r place)
include h

/-- When nobody owns a slot, all are free. -/
theorem Inv.all_free (hp : ∀ t, (place t).slot = none) : r.free = r.slots.length := by
  have hcount : r.slots.count none = r.slots.length := by
    apply List.count_eq_length.mpr
    intro s hs
    obtain ⟨x, hx⟩ := List.mem_iff_getElem?.mp hs
    cases s with
    | none => rfl
    | some g =>
      obtain ⟨t, ht⟩ := h.owner x g hx
      exact nomatch (hp t).symm.trans ht
  have hpending : pending r.lock place = 0 := by
    cases hl : r.lock with
    | none => rfl
    | some t =>
      have ht := hp t
      show (place t).pending = 0
      cases hpt : place t <;> rw [hpt] at ht <;> first | rfl | exact nomatch ht
  rw [h.free, hcount, hpending, Int.add_zero]

/-- The count is right when nobody has the lock. -/
theorem Inv.free_eq (hlock : r.lock = none) : r.free = r.slots.count none := by
  rw [h.free, hlock]
  exact Int.add_zero _

theorem Inv.pending_eq (ht : (place t).locked = true) : pending r.lock place = (place t).pending := by
  rw [(h.lock t).mp ht]
  rfl

/-- Two threads do not have the lock. -/
theorem Inv.only {u : T} (ht : (place t).locked = true) (hu : (place u).locked = true) : u = t := by
  have hl := (h.lock u).mp hu
  rw [(h.lock t).mp ht] at hl
  exact (Option.some.inj hl).symm

/-- **The search finds a slot**: it ends at a free one. -/
theorem Inv.search_ends (ht : place t = .search x)
    (hend : ¬ (x + 1 < r.slots.length ∧ r.slots[x]? ≠ some none)) : r.slots[x]? = some none := by
  by_contra hx
  obtain ⟨hlt, hpos, hbefore⟩ := h.search t x ht
  have hlocked : (place t).locked = true := by
    rw [ht]
    rfl
  have hcount := h.free
  rw [h.pending_eq hlocked, ht, Place.pending] at hcount
  have hmem : none ∈ r.slots := List.count_pos_iff.mp (by omega)
  obtain ⟨y, hy⟩ := List.mem_iff_getElem?.mp hmem
  have hylt : y < r.slots.length := (List.getElem?_eq_some_iff.mp hy).1
  -- the free slot is neither before `x` nor at `x`, and there is none after it
  have hge : ¬ y < x := fun hlt => hbefore y hlt hy
  have hne : y ≠ x := fun heq => hx (heq ▸ hy)
  exact hend ⟨by omega, hx⟩

theorem Inv.holder (ht : (place t).locked = true) {u : T} (hu : u ≠ t) :
    (none = some u ↔ r.lock = some u) := by
  rw [(h.lock t).mp ht]
  constructor
  · exact nofun
  · intro heq
    exact absurd (Option.some.inj heq).symm hu

/-- The count, when the thread has the lock. -/
theorem Inv.free_at (hp : place t = p) (hlocked : p.locked = true) :
    (place t).locked = true ∧ r.free = r.slots.count none + p.pending := by
  subst hp
  exact ⟨hlocked, by rw [h.free, h.pending_eq hlocked]⟩

end

section Moves

variable [DecidableEq T]

theorem locked_update {l : Option T} (h : Inv mark r place) (hp : p.locked = true ↔ l = some t)
    (hl : ∀ u, u ≠ t → (l = some u ↔ r.lock = some u)) (u : T) :
    (update place t p u).locked = true ↔ l = some u := by
  by_cases hu : u = t
  · rw [hu, update_self]
    exact hp
  · rw [update_of_ne hu, h.lock u, hl u hu]

theorem slot_update (hp : p.slot = (place t).slot) (u : T) :
    (update place t p u).slot = (place u).slot := by
  by_cases hu : u = t
  · rw [hu, update_self, hp]
  · rw [update_of_ne hu]

section

variable (h : Inv mark r place)
include h

/-- The thread moves with its slot; the lock and the count may change. -/
theorem Inv.move {l : Option T} {f : Int} (hslot : p.slot = (place t).slot)
    (hlock : p.locked = true ↔ l = some t) (hl : ∀ u, u ≠ t → (l = some u ↔ r.lock = some u))
    (hfree : f = r.slots.count none + pending l (update place t p))
    (hsearch : ∀ x, p = .search x → x < r.slots.length ∧ 0 < f ∧ ∀ y, y < x → r.slots[y]? ≠ some none)
    (hf : f = r.free ∨ (place t).locked = true) :
    Inv mark { r with lock := l, free := f } (update place t p) where
  lock := locked_update h hlock hl
  marked := by
    intro u x hu
    rw [slot_update hslot] at hu
    exact h.marked u x hu
  owner := by
    intro x g hx
    obtain ⟨u, hu⟩ := h.owner x g hx
    exact ⟨u, (slot_update hslot u).trans hu⟩
  unique := by
    intro u v x hu hv
    rw [slot_update hslot] at hu hv
    exact h.unique u v x hu hv
  free := hfree
  search := by
    intro u x hu
    by_cases hut : u = t
    · rw [hut, update_self] at hu
      exact hsearch x hu
    · rw [update_of_ne hut] at hu
      obtain ⟨hlt, hpos, hbefore⟩ := h.search u x hu
      rcases hf with rfl | hlocked
      · exact ⟨hlt, hpos, hbefore⟩
      · exact absurd (h.only hlocked (by rw [hu]; rfl)) hut

theorem Inv.acquire (hfree : r.lock = none) (hslot : p.slot = (place t).slot)
    (hlock : p.locked = true) (hpending : p.pending = 0) (hp : ∀ x, p ≠ .search x) :
    Inv mark { r with lock := some t } (update place t p) := by
  apply h.move hslot
  · exact ⟨fun _ => rfl, fun _ => hlock⟩
  · intro u hu
    rw [hfree]
    exact ⟨fun heq => absurd (Option.some.inj heq).symm hu, nofun⟩
  · rw [h.free_eq hfree]
    show _ = _ + (update place t p t).pending
    rw [update_self, hpending, Int.add_zero]
  · exact fun x hx => absurd hx (hp x)
  · exact .inl rfl

theorem Inv.release {f : Int} (ht : (place t).locked = true) (hslot : p.slot = (place t).slot)
    (hunlocked : p.locked = false) (hf : f = r.slots.count none) :
    Inv mark { r with lock := none, free := f } (update place t p) := by
  apply h.move hslot
  · rw [hunlocked]
    exact ⟨nofun, nofun⟩
  · exact fun u hu => h.holder ht hu
  · rw [hf]
    exact (Int.add_zero _).symm
  · intro x hx
    rw [hx] at hunlocked
    exact nomatch hunlocked
  · exact .inr ht

/-- The thread keeps the lock. -/
theorem Inv.hold {f : Int} (ht : (place t).locked = true) (hslot : p.slot = (place t).slot)
    (hlocked : p.locked = true) (hf : f = r.slots.count none + p.pending)
    (hsearch : ∀ x, p = .search x → x < r.slots.length ∧ 0 < f ∧ ∀ y, y < x → r.slots[y]? ≠ some none) :
    Inv mark { r with free := f } (update place t p) := by
  apply h.move hslot
  · exact ⟨fun _ => (h.lock t).mp ht, fun _ => hlocked⟩
  · exact fun _ _ => Iff.rfl
  · rw [hf, (h.lock t).mp ht]
    show _ = _ + (update place t p t).pending
    rw [update_self]
  · exact hsearch
  · exact .inr ht

/-- A free slot is marked. -/
theorem Inv.marking (ht : place t = .search x) (hx : r.slots[x]? = some none) :
    Inv mark { r with slots := r.slots.set x (some (mark t)) } (update place t (.take x)) := by
  have hlocked : (place t).locked = true := by
    rw [ht]
    rfl
  have hlt : x < r.slots.length := (List.getElem?_eq_some_iff.mp hx).1
  -- nobody owns the slot yet
  have hnew : ∀ u, (place u).slot ≠ some x := by
    intro u hu
    have hmark := h.marked u x hu
    rw [hx] at hmark
    exact nomatch hmark
  have hslot : ∀ u y, (update place t (.take x) u).slot = some y →
      (u = t ∧ y = x) ∨ (u ≠ t ∧ (place u).slot = some y ∧ y ≠ x) := by
    intro u y hu
    by_cases hut : u = t
    · rw [hut, update_self] at hu
      exact .inl ⟨hut, (Option.some.inj hu).symm⟩
    · rw [update_of_ne hut] at hu
      exact .inr ⟨hut, hu, fun heq => hnew u (heq ▸ hu)⟩
  constructor
  · apply locked_update h
    · exact ⟨fun _ => (h.lock t).mp hlocked, fun _ => rfl⟩
    · exact fun _ _ => Iff.rfl
  · intro u y hu
    rw [List.getElem?_set]
    rcases hslot u y hu with ⟨rfl, rfl⟩ | ⟨-, hu, hyx⟩
    · rw [if_pos rfl, if_pos hlt]
    · rw [if_neg (Ne.symm hyx)]
      exact h.marked u y hu
  · intro y g hy
    rw [List.getElem?_set] at hy
    by_cases hyx : x = y
    · subst hyx
      exact ⟨t, by rw [update_self]; rfl⟩
    · rw [if_neg hyx] at hy
      obtain ⟨u, hu⟩ := h.owner y g hy
      have hut : u ≠ t := by
        intro heq
        rw [heq, ht] at hu
        exact nomatch hu
      exact ⟨u, by rwa [update_of_ne hut]⟩
  · intro u v y hu hv
    rcases hslot u y hu with ⟨rfl, rfl⟩ | ⟨-, hu, hyx⟩
    · rcases hslot v y hv with ⟨rfl, -⟩ | ⟨-, -, hyx⟩
      · rfl
      · exact absurd rfl hyx
    · rcases hslot v y hv with ⟨-, rfl⟩ | ⟨-, hv, -⟩
      · exact absurd rfl hyx
      · exact h.unique u v y hu hv
  · have hcount := h.free
    have hmark := count_mark (g := mark t) hx
    rw [h.pending_eq hlocked, ht, Place.pending] at hcount
    show r.free = ((r.slots.set x (some (mark t))).count none : Int) + pending r.lock _
    rw [(h.lock t).mp hlocked]
    show r.free = _ + (update place t (.take x) t).pending
    rw [update_self, Place.pending]
    omega
  · intro u y hu
    have hut : u ≠ t := by
      intro heq
      rw [heq, update_self] at hu
      exact nomatch hu
    rw [update_of_ne hut] at hu
    exact absurd (h.only hlocked (by rw [hu]; rfl)) hut

end

theorem wake_slot {w : Option T} (hw : ∀ u, w = some u → place u = .waiting) (u : T) :
    (wake place w u).slot = (place u).slot ∧ (wake place w u).locked = (place u).locked := by
  cases w with
  | none => exact ⟨rfl, rfl⟩
  | some v =>
    by_cases huv : u = v
    · subst huv
      rw [wake, update_self, hw u rfl]
      exact ⟨rfl, rfl⟩
    · rw [wake, update_of_ne huv]
      exact ⟨rfl, rfl⟩

/-- A slot is cleared, and somebody may be woken. -/
theorem Inv.clearing (h : Inv mark r place) (ht : place t = .clear x) {w : Option T}
    (hw : ∀ u, w = some u → place u = .waiting) :
    Inv mark { r with slots := r.slots.set x none, lock := none } (update (wake place w) t .away) := by
  have hlocked : (place t).locked = true := by
    rw [ht]
    rfl
  have hmine : (place t).slot = some x := by
    rw [ht]
    rfl
  have hx := h.marked t x hmine
  have hlt : x < r.slots.length := (List.getElem?_eq_some_iff.mp hx).1
  have hslot : ∀ u y, (update (wake place w) t .away u).slot = some y →
      u ≠ t ∧ (place u).slot = some y ∧ y ≠ x := by
    intro u y hu
    have hut : u ≠ t := by
      intro heq
      rw [heq, update_self] at hu
      exact nomatch hu
    rw [update_of_ne hut, (wake_slot hw u).1] at hu
    exact ⟨hut, hu, fun heq => hut (h.unique u t x (heq ▸ hu) hmine)⟩
  have hunlocked : ∀ u, (update (wake place w) t .away u).locked = false := by
    intro u
    by_cases hut : u = t
    · rw [hut, update_self]
      rfl
    · rw [update_of_ne hut, (wake_slot hw u).2]
      by_contra hu
      exact hut (h.only hlocked (Bool.of_not_eq_false hu))
  constructor
  · intro u
    rw [hunlocked u]
    exact ⟨nofun, nofun⟩
  · intro u y hu
    obtain ⟨-, hu, hyx⟩ := hslot u y hu
    rw [List.getElem?_set, if_neg (Ne.symm hyx)]
    exact h.marked u y hu
  · intro y g hy
    rw [List.getElem?_set] at hy
    by_cases hyx : x = y
    · rw [if_pos hyx, if_pos hlt] at hy
      exact nomatch hy
    · rw [if_neg hyx] at hy
      obtain ⟨u, hu⟩ := h.owner y g hy
      have hut : u ≠ t := by
        intro heq
        rw [heq, hmine] at hu
        exact hyx (Option.some.inj hu)
      refine ⟨u, ?_⟩
      rwa [update_of_ne hut, (wake_slot hw u).1]
  · intro u v y hu hv
    exact h.unique u v y (hslot u y hu).2.1 (hslot v y hv).2.1
  · have hcount := h.free
    have hclear := count_clear hx
    rw [h.pending_eq hlocked, ht, Place.pending] at hcount
    show r.free = ((r.slots.set x none).count none : Int) + 0
    omega
  · intro u y hu
    have hl := hunlocked u
    rw [hu] at hl
    exact nomatch hl

/-- **Step rule**: a step keeps the invariant. -/
theorem Inv.step (h : Inv mark r place) (hs : Step mark t r place r' place') : Inv mark r' place' := by
  cases hs with
  | stay => exact h
  | acquire hp hfree =>
    have hslot : (place t).slot = none := by
      rcases hp with hp | hp <;> rw [hp] <;> rfl
    exact h.acquire hfree hslot.symm rfl rfl fun _ => nofun
  | wait hp hnone =>
    obtain ⟨hlocked, hfree⟩ := h.free_at hp rfl
    rw [Place.pending, Int.add_zero] at hfree
    exact h.release hlocked (by rw [hp]; rfl) rfl hfree
  | look hp hsome =>
    obtain ⟨hlocked, hfree⟩ := h.free_at hp rfl
    apply h.hold (p := .search 0) hlocked (by rw [hp]; rfl) rfl hfree
    intro x hx
    cases hx
    rw [Place.pending, Int.add_zero] at hfree
    have hlen : r.slots.count none ≤ r.slots.length := List.count_le_length
    exact ⟨by omega, by omega, nofun⟩
  | next x hp hx htaken =>
    obtain ⟨hlocked, hfree⟩ := h.free_at hp rfl
    obtain ⟨hlt, hpos, hbefore⟩ := h.search t x hp
    apply h.hold (p := .search (x + 1)) hlocked (by rw [hp]; rfl) rfl hfree
    intro y hy
    cases hy
    refine ⟨hx, hpos, ?_⟩
    intro z hz
    rcases Nat.lt_succ_iff_lt_or_eq.mp hz with hz | rfl
    · exact hbefore z hz
    · exact htaken
  | mark x hp hx => exact h.marking hp hx
  | taken x hp =>
    obtain ⟨hlocked, hfree⟩ := h.free_at hp rfl
    rw [Place.pending] at hfree
    exact h.release hlocked (by rw [hp]; rfl) rfl (by omega)
  | back x hp hfree => exact h.acquire hfree (by rw [hp]; rfl) rfl rfl fun _ => nofun
  | add x hp =>
    obtain ⟨hlocked, hfree⟩ := h.free_at hp rfl
    rw [Place.pending] at hfree
    apply h.hold hlocked (by rw [hp]; rfl) rfl
    · rw [Place.pending]
      omega
    · exact fun y hy => nomatch hy
  | clear x w hp hsome hnone => exact h.clearing hp hsome

end Moves

end Invariant

/-! ## Nobody is forgotten -/

section Waiting

theorem Served.empty (hp : ∀ t, place t = .away) : Served r place := by
  refine ⟨0, Tally.zero ?_, ?_⟩
  · intro t ht
    rw [hp t] at ht
    exact nomatch ht
  · intro ⟨t, ht⟩
    rw [hp t] at ht
    exact nomatch ht

/-- While somebody waits and nobody is on the way to a slot, no slot is free. -/
theorem Served.none_free (h : Served r place) (hwait : ∃ t, place t = .waiting)
    (hp : ∀ t, (place t).served = false) : r.free ≤ 0 := by
  obtain ⟨n, htally, hle⟩ := h
  have hzero := htally.eq_zero fun t ht => nomatch (hp t).symm.trans ht
  have := hle hwait
  omega

variable [DecidableEq T]

theorem waiting_update (hp : p ≠ .waiting) (hw : ∃ u, update place t p u = .waiting) :
    ∃ u, place u = .waiting := by
  obtain ⟨u, hu⟩ := hw
  by_cases hut : u = t
  · rw [hut, update_self] at hu
    exact absurd hu hp
  · rw [update_of_ne hut] at hu
    exact ⟨u, hu⟩

/-- A thread moves: the free slots and the threads on their way change alike, unless no slot is free or nobody waits. -/
theorem Served.move (h : Served r place) (hf : (∃ u, update place t p u = .waiting) → r'.free ≤ 0 ∨
      p ≠ .waiting ∧ r'.free - (p.served.toNat : Int) ≤ r.free - ((place t).served.toNat : Int)) :
    Served r' (update place t p) := by
  obtain ⟨n, htally, hle⟩ := h
  obtain ⟨m, htally', hm⟩ := htally.update (p := Place.served) t p
  refine ⟨m, htally', fun hw => ?_⟩
  rcases hf hw with hzero | ⟨hp, hf⟩
  · omega
  · have := hle (waiting_update hp hw)
    omega

/-- The thread that puts back a slot wakes one that waits. -/
theorem Served.clear (h : Served r place) (ht : place t = .clear x) {w : Option T}
    (hsome : ∀ u, w = some u → place u = .waiting) (hnone : w = none → ∀ u, place u ≠ .waiting)
    (hf : r'.free = r.free) : Served r' (update (wake place w) t .away) := by
  cases w with
  | none =>
    apply h.move
    intro hw
    obtain ⟨u, hu⟩ := waiting_update (p := .away) nofun hw
    exact absurd hu (hnone rfl u)
  | some v =>
    have hv := hsome v rfl
    have hvt : t ≠ v := by
      intro heq
      rw [← heq, ht] at hv
      exact nomatch hv
    -- first the other thread is served, then the thread itself is not any more
    have hwoken : Served { r with free := r.free + 1 } (wake place (some v)) :=
      h.move fun _ => .inr ⟨nofun, by simp [hv, Place.served]⟩
    exact hwoken.move fun _ => .inr ⟨nofun, by simp [wake, hvt, ht, hf, Place.served]⟩

/-- **Step rule** for those who wait. -/
theorem Served.step (h : Served r place) (hs : Step mark t r place r' place') : Served r' place' := by
  cases hs with
  | stay => exact h
  | acquire hp =>
    rcases hp with hp | hp
    · exact h.move fun _ => .inr ⟨nofun, by rw [hp]; exact Int.sub_le_sub_left (by decide) _⟩
    · exact h.move fun _ => .inr ⟨nofun, by simp [hp, Place.served]⟩
  | wait hp hnone => exact h.move fun _ => .inl (Int.le_of_eq hnone)
  | look hp | next x hp | mark x hp | taken x hp | back x hp | add x hp =>
    exact h.move fun _ => .inr ⟨nofun, by simp [hp, Place.served]⟩
  | clear x w hp hsome hnone => exact h.clear hp hsome hnone rfl

end Waiting

end Slots

end Framework
