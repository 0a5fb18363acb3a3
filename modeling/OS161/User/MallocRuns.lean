import OS161.Framework.TransitionSystem
import OS161.User.MallocCalls

/-! # Runs of a program with a heap

A program calls `malloc` and `free` in any order and stores to the blocks that it has, while
`sbrk` fails or extends the heap.

`free` does not take back a block of no bytes that lies at the top of the heap: its address is
`__heaptop`, which counts as out of range.
-/

namespace OS161

open Framework Kern Function

/-! ## Programs -/

/-- A program with its heap. -/
structure MallocState where
  heap : UHeap
  /-- The live pointers, each with the size that was asked for. -/
  live : Nat → Option Nat
  exited : Option MallocExit

inductive MallocAct where
  | malloc (n : Nat) (ok : SbrkOk)
  | free (x : Nat)
  /-- The program stores a word `off` bytes into the block at `x`. -/
  | store (x off : Nat) (v : UInt32)

def mallocNext (s : MallocState) (a : MallocAct) : Option MallocState :=
  if s.exited.isSome then none
  else
    match a with
    | .malloc n ok =>
      if n ≤ 2 ^ 31 then
        match OS161.malloc ok n s.heap with
        | .ok x heap => some { s with heap := heap, live := if x = 0 then s.live else update s.live x (some n) }
        | .err e _ => nomatch e
        | .panic e => some { s with exited := some e }
      else none
    | .free x =>
      if x = 0 ∨ (s.live x).isSome then
        match OS161.free x s.heap with
        | .ok _ heap => some { s with heap := heap, live := update s.live x none }
        | .err e _ => nomatch e
        | .panic e => some { s with exited := some e }
      else none
    | .store x off v =>
      if off < (s.live x).getD 0 ∧ off % 4 = 0 then
        some { s with heap := s.heap.write (x + off) v.toNat }
      else none

/-- The same with every size that `size_t` has. -/
def sizedNext (s : MallocState) : MallocAct → Option MallocState
  | .malloc n ok =>
    if s.exited.isSome ∨ 2 ^ 32 ≤ n then none
    else
      match OS161.malloc ok n s.heap with
      | .ok x heap => some { s with heap := heap, live := if x = 0 then s.live else update s.live x (some n) }
      | .err e _ => nomatch e
      | .panic e => some { s with exited := some e }
  | a => mallocNext s a

/-- Walk the headers by their size fields. -/
def UHeap.walk (s : UHeap) : Nat → Nat → Option (List Nat)
  | 0, i => if i = s.heaptop then some [] else none
  | fuel + 1, i =>
    if i < s.heaptop then (s.walk fuel (i + s.M_NEXTOFF i)).map (i :: ·)
    else if i = s.heaptop then some [] else none

/-- The heap is as its headers say, and the headers are as the live pointers say. -/
structure HeapOk (s : UHeap) (live : Nat → Option Nat) (headers : List Nat) : Prop where
  walk : s.walk (s.heaptop - s.heapbase) s.heapbase = some headers
  first : ∀ h ∈ headers.head?, s.M_PREVOFF h = 0
  prev : headers.IsChain fun h h' => s.M_PREV h' = h
  inuse : ∀ h ∈ headers, s.mh_inuse h = 1 ↔ (live (h + 8)).isSome = true
  coalesced : headers.IsChain fun h h' => ¬ (s.mh_inuse h = 0 ∧ s.mh_inuse h' = 0)
  live : ∀ x n, live x = some n → ∃ h ∈ headers, x = h + 8 ∧ 8 ∣ x ∧ n ≤ s.M_SIZE h ∧ x + s.M_SIZE h ≤ s.heaptop
  apart : ∀ h ∈ headers, ∀ h' ∈ headers, h < h' → h + 8 + s.M_SIZE h ≤ h'

section Programs

variable {s s' : MallocState} {h : UHeap} {live : Nat → Option Nat} {bs : List Blk} {m pm q : Nat}

theorem walk_tiled (htiled : Tiled Blk.len (Tag h.mem) m pm bs h.heaptop q) :
    ∀ {fuel : Nat}, bs.length ≤ fuel → h.walk fuel m = some ((placed Blk.len m bs).map Prod.fst) := by
  induction bs generalizing m pm with
  | nil =>
    intro fuel _
    obtain ⟨rfl, -⟩ := htiled
    cases fuel with
    | zero => exact if_pos rfl
    | succ fuel =>
      unfold UHeap.walk
      rw [if_neg (Nat.lt_irrefl _), if_pos rfl]
      rfl
  | cons b bs ih =>
    intro fuel hfuel
    obtain ⟨fuel, rfl⟩ : ∃ f, fuel = f + 1 := ⟨fuel - 1, by simp at hfuel; omega⟩
    have hpos := htiled.1.len_pos
    have hend := htiled.2.le
    unfold UHeap.walk
    rw [if_pos (show m < h.heaptop by omega), htiled.1.nextoff, ih htiled.2 (by simpa using hfuel)]
    rfl

theorem tag_len_pos {mem : Nat → Nat} (a p : Nat) (b : Blk) (htag : Tag mem a p b) : 0 < b.len :=
  Nat.lt_of_lt_of_le (by decide) htag.len_pos

/-- The blocks are those that the headers tell of. -/
theorem HeapInv.ok (hinv : HeapInv h live) : ∃ headers, HeapOk h live headers := by
  obtain ⟨bs, hrep, hset, hown⟩ := hinv
  obtain ⟨q, htiled⟩ := hrep.tiled
  have hlen := tiled_length_le htiled
  have hlt := hrep.top_lt
  refine ⟨(placed Blk.len h.heapbase bs).map Prod.fst, walk_tiled htiled (by omega), ?_, ?_, ?_, ?_, ?_, ?_⟩
  · -- the first header has no block before it
    intro a ha
    cases bs with
    | nil => cases ha
    | cons b bs =>
      cases ha
      unfold UHeap.M_PREVOFF
      rw [htiled.1.prevblock]
  · refine htiled.isChain_placed ?_ hset
    intro a p b c hend _ hc _
    rw [hc.prev (Nat.le_add_left _ _) (by have := hc.len_pos; omega), Nat.add_sub_cancel]
  · intro a ha
    obtain ⟨⟨a, b⟩, hb, rfl⟩ := List.mem_map.mp ha
    obtain ⟨-, -, p, htag⟩ := htiled.placed_bounds hb
    rw [htag.inuse]
    constructor
    · intro hone
      cases hbn : b.owner with
      | none => simp [hbn] at hone
      | some n =>
        rw [(hown (a + 8) n).mpr ⟨(a, b), hb, rfl, hbn⟩]
        rfl
    · intro hsome
      obtain ⟨n, hn⟩ := Option.isSome_iff_exists.mp hsome
      obtain ⟨⟨a', c⟩, hc, heq, hcn⟩ := (hown (a + 8) n).mp hn
      obtain rfl : a = a' := Nat.add_right_cancel heq
      rw [htiled.placed_unique tag_len_pos hb hc, hcn]
      rfl
  · refine htiled.isChain_placed ?_ hset
    intro a p b c _ hb hc hbc hfree
    exact hbc ⟨hb.inuse_eq_zero.mp hfree.1, hc.inuse_eq_zero.mp hfree.2⟩
  · intro x n hx
    obtain ⟨⟨a, b⟩, hb, rfl, hbn⟩ := (hown x n).mp hx
    obtain ⟨-, hend, p, htag⟩ := htiled.placed_bounds hb
    have hfits := htag.fits n hbn
    have haddr := htag.addr_dvd
    refine ⟨a, List.mem_map.mpr ⟨_, hb, rfl⟩, rfl, by omega, ?_, ?_⟩
    · rw [htag.size (by omega)]
      omega
    · rw [htag.size (by omega)]
      omega
  · intro a ha a' ha' hlt'
    obtain ⟨x, hx, rfl⟩ := List.mem_map.mp ha
    obtain ⟨y, hy, rfl⟩ := List.mem_map.mp ha'
    obtain ⟨-, hend, p, htag⟩ := htiled.placed_bounds hx
    have hpos := htag.len_pos
    have hbefore := htiled.placed_apart hx hy hlt'
    rw [htag.size (by omega)]
    omega

theorem NoHeapYet.ok (hno : NoHeapYet h live) : HeapOk h live [] where
  walk := by
    rw [hno.heaptop, hno.heapbase]
    exact if_pos hno.heaptop.symm
  first := nofun
  prev := List.isChain_nil
  inuse := nofun
  coalesced := List.isChain_nil
  live := by
    intro x n hx
    rw [hno.live x] at hx
    cases hx
  apart := nofun

theorem MallocInv.ok (hinv : MallocInv h live) : ∃ headers, HeapOk h live headers := by
  rcases hinv with hno | hinv
  · exact ⟨[], hno.ok⟩
  · exact hinv.ok

/-- A store of the program to one of its blocks. -/
theorem HeapInv.store (hinv : HeapInv h live) {x n off v : Nat} (hx : live x = some n) (hoff : off < n) :
    HeapInv (h.write (x + off) v) live := by
  obtain ⟨pre, b, post, m, pm, q, rfl, hbn, hrep, hset, hown, hpre, hb, hpost⟩ := hinv.block hx
  have hfits := hb.fits n hbn
  have hrw : Rewrote h (h.write (m + 8 + off) v) m (m + b.len) b.len := by
    refine ⟨Changed.write (by omega) (by omega), ?_⟩
    intro hne
    rw [UHeap.write_ne (by omega)]
    exact seam_word hpost hne
  have htag : Tag (h.write (m + 8 + off) v).mem m pm b :=
    hb.congr (UHeap.write_ne (by omega)) (UHeap.write_ne (by omega))
  have hmid : Tiled Blk.len (Tag (h.write (m + 8 + off) v).mem) m pm [b] (m + b.len) b.len := ⟨htag, rfl, rfl⟩
  have hrep' := hrw.heapRep hb.len_dvd hrep hpre hpost hmid
  rw [List.append_assoc, List.singleton_append] at hrep'
  exact ⟨_, hrep', hset, hown⟩

/-- No block of no bytes at the top of the heap is freed. -/
def FreeOk (s : MallocState) (a : MallocAct) : Prop := ∀ x, a = .free x → x ≠ 0 → x ≠ s.heap.heaptop

/-- What holds of the program in every state. -/
structure ProgramInv (s : MallocState) : Prop where
  heap : MallocInv s.heap s.live
  exited : ∀ e, s.exited = some e → e.noHeap = true

/-- The program ends. -/
theorem ProgramInv.exit (hinv : ProgramInv s) {e : MallocExit} (he : e.noHeap = true) :
    ProgramInv { s with exited := some e } where
  heap := hinv.heap
  exited := by
    intro e' he'
    cases he'
    exact he

/-- What a call leaves of the program. -/
theorem ProgramInv.call (hinv : ProgramInv s) {n : Nat} (hn : n ≤ 2 ^ 32 - 16) (ok : SbrkOk) :
    wp (OS161.malloc ok n) (fun x heap => (x ≠ 0 → s.live x = none) ∧ Keeps s.live s.heap heap ∧
        ProgramInv { s with heap := heap, live := if x = 0 then s.live else update s.live x (some n) })
      (fun _ _ => False) (fun e => e.noHeap = true) s.heap := by
  apply wp_imp (wp_malloc hinv.heap hn ok)
  intro x heap hx
  rcases hx with ⟨rfl, hkeeps, hheap⟩ | hgained
  · exact ⟨fun hne => (hne rfl).elim, hkeeps, hheap, hinv.exited⟩
  · refine ⟨fun _ => hgained.fresh, hgained.keeps, ?_, hinv.exited⟩
    rw [if_neg hgained.pos]
    exact .inr hgained.inv

theorem ProgramInv.malloc (hinv : ProgramInv s) {n : Nat} {ok : SbrkOk}
    (hs : sizedNext s (.malloc n ok) = some s') (hn : n ≤ 2 ^ 32 - 16) :
    ProgramInv s' ∧ Keeps s.live s.heap s'.heap := by
  unfold sizedNext at hs
  dsimp only at hs
  split at hs
  · cases hs
  · have hwp := hinv.call hn ok
    unfold wp at hwp
    cases hrun : OS161.malloc ok n s.heap with
    | ok x heap =>
      rw [hrun] at hs hwp
      cases hs
      exact ⟨hwp.2.2, hwp.2.1⟩
    | err e _ => cases e
    | panic e =>
      rw [hrun] at hs hwp
      cases hs
      exact ⟨hinv.exit hwp, Keeps.refl⟩

/-- A pointer is live only on a heap. -/
theorem MallocInv.of_live (hinv : MallocInv h live) {x n : Nat} (hx : live x = some n) : HeapInv h live := by
  rcases hinv with hno | hinv
  · rw [hno.live x] at hx
    cases hx
  · exact hinv

theorem MallocInv.live_zero (hinv : MallocInv h live) : live 0 = none := by
  rw [Option.eq_none_iff_forall_ne_some]
  intro n hn
  obtain ⟨pre, b, post, m, pm, q, hzero, -⟩ := (hinv.of_live hn).block hn
  cases hzero

theorem ProgramInv.free (hinv : ProgramInv s) {x : Nat} (hs : mallocNext s (.free x) = some s') :
    (FreeOk s (.free x) → ProgramInv s' ∧ Keeps (update s.live x none) s.heap s'.heap) ∧
      (¬ FreeOk s (.free x) → s'.exited = some .free_range ∧ s'.heap = s.heap) := by
  unfold mallocNext at hs
  split at hs
  · cases hs
  dsimp only at hs
  split at hs
  · rename_i hlive
    by_cases hzero : x = 0
    · -- `free(NULL)`
      subst hzero
      cases hs
      have hsame : update s.live 0 none = s.live := by
        rw [← hinv.heap.live_zero, update_eq_self]
      refine ⟨fun _ => ⟨⟨?_, hinv.exited⟩, Keeps.refl⟩, fun hbad => ?_⟩
      · show MallocInv s.heap (update s.live 0 none)
        rw [hsame]
        exact hinv.heap
      · refine (hbad ?_).elim
        intro y hy hne
        cases hy
        exact (hne rfl).elim
    · obtain ⟨n, hn⟩ := Option.isSome_iff_exists.mp (hlive.resolve_left hzero)
      have hheap := hinv.heap.of_live hn
      constructor
      · intro hok
        have hwp := wp_free hheap hn (hok x rfl hzero)
        obtain ⟨_, heap, hrun, hkeeps, hinv'⟩ := exists_ok_of_wp hwp
        rw [hrun] at hs
        cases hs
        exact ⟨⟨.inr hinv', hinv.exited⟩, hkeeps⟩
      · intro hbad
        have htop : x = s.heap.heaptop := by
          by_contra hne
          refine hbad ?_
          intro y hy _
          cases hy
          exact hne
        have hwp := wp_free_top hheap hn htop
        unfold wp at hwp
        cases hrun : OS161.free x s.heap with
        | ok _ heap =>
          rw [hrun] at hwp
          exact hwp.elim
        | err e _ => cases e
        | panic e =>
          rw [hrun] at hs hwp
          cases hs
          rw [hwp]
          exact ⟨rfl, rfl⟩
  · cases hs

theorem ProgramInv.store (hinv : ProgramInv s) {x off : Nat} {v : UInt32}
    (hs : mallocNext s (.store x off v) = some s') : ProgramInv s' := by
  unfold mallocNext at hs
  split at hs
  · cases hs
  dsimp only at hs
  split at hs
  · rename_i hoff
    cases hs
    refine ⟨?_, hinv.exited⟩
    cases hn : s.live x with
    | none =>
      rw [hn] at hoff
      exact (Nat.not_lt_zero _ hoff.1).elim
    | some n =>
      rw [hn] at hoff
      exact .inr ((hinv.heap.of_live hn).store hn hoff.1)
  · cases hs

end Programs

end OS161
