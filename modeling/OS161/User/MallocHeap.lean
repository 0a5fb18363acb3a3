import OS161.User.Malloc

/-! # Blocks of the heap

What `malloc` and `free` do to the blocks of a heap: each of them rewrites a few neighbours and
leaves the rest alone.
-/

namespace OS161

open Framework Kern

/-- A block of the heap, with its header. -/
structure Blk where
  len : Nat
  /-- The size that the program asked for, if the block is in use. -/
  owner : Option Nat
  deriving DecidableEq, Repr

/-- The header of a block, where the block before it has length `p`. -/
structure Tag (mem : Nat → Nat) (a p : Nat) (b : Blk) : Prop where
  addr_dvd : 8 ∣ a
  prev_dvd : 8 ∣ p
  len_dvd : 8 ∣ b.len
  len_pos : 8 ≤ b.len
  word1 : mem a = p + 2
  word2 : mem (a + 4) = b.len + (if b.owner.isSome then 4 else 0) + 2
  fits : ∀ n, b.owner = some n → n + 8 ≤ b.len

/-! ## Reading a header -/

namespace Tag

variable {s : UHeap} {a p : Nat} {b : Blk}

section

variable (h : Tag s.mem a p b)
include h

theorem prevblock : s.mh_prevblock a = p / 8 := by
  have hp := h.prev_dvd
  unfold UHeap.mh_prevblock
  rw [h.word1]
  omega

theorem nextblock : s.mh_nextblock a = b.len / 8 := by
  have hlen := h.len_dvd
  unfold UHeap.mh_nextblock
  rw [h.word2]
  split <;> omega

theorem inuse : s.mh_inuse a = if b.owner.isSome then 1 else 0 := by
  have hlen := h.len_dvd
  unfold UHeap.mh_inuse
  rw [h.word2]
  split <;> omega

theorem inuse_eq_zero : s.mh_inuse a = 0 ↔ b.owner = none := by
  rw [h.inuse]
  cases b.owner <;> simp

theorem ok : s.M_OK a := by
  have hp := h.prev_dvd
  have hlen := h.len_dvd
  unfold UHeap.M_OK UHeap.mh_magic1 UHeap.mh_magic2 MMAGIC
  rw [h.word1, h.word2]
  refine ⟨by omega, ?_⟩
  split <;> omega

theorem nextoff : s.M_NEXTOFF a = b.len := by
  have hlen := h.len_dvd
  unfold UHeap.M_NEXTOFF
  rw [h.nextblock]
  omega

theorem next (hlt : a + b.len < 2 ^ 32) : s.M_NEXT a = a + b.len := by
  unfold UHeap.M_NEXT
  rw [h.nextoff]
  exact add32_eq hlt

theorem size (hlt : b.len < 2 ^ 32) : s.M_SIZE a = b.len - 8 := by
  unfold UHeap.M_SIZE
  rw [h.nextoff]
  exact sub32_eq hlt h.len_pos

theorem prev (hle : p ≤ a) (hlt : a < 2 ^ 32) : s.M_PREV a = a - p := by
  have hp := h.prev_dvd
  have hoff : s.M_PREVOFF a = p := by
    unfold UHeap.M_PREVOFF
    rw [h.prevblock]
    omega
  unfold UHeap.M_PREV
  rw [hoff]
  exact sub32_eq hlt hle

end

variable {mem mem' : Nat → Nat}

/-- Only the words of the header matter. -/
theorem congr (h : Tag mem a p b) (h1 : mem' a = mem a) (h2 : mem' (a + 4) = mem (a + 4)) : Tag mem' a p b :=
  { h with word1 := h1.trans h.word1, word2 := h2.trans h.word2 }

/-- The header of a free block in the place of the one that was there. -/
theorem resize {l : Nat} (h : Tag mem a p b) (hl : 8 ∣ l) (hpos : 8 ≤ l) (h1 : mem' a = mem a)
    (h2 : mem' (a + 4) = l + 2) : Tag mem' a p ⟨l, none⟩ :=
  ⟨h.addr_dvd, h.prev_dvd, hl, hpos, h1.trans h.word1, h2, nofun⟩

end Tag

/-! ## Writing words -/

/-- The heap with another word at `a`. -/
def UHeap.write (s : UHeap) (a v : Nat) : UHeap := { s with mem := fun w => if w = a then v else s.mem w }

namespace UHeap

variable {s : UHeap} {a a' v v' : Nat}

@[simp] theorem write_self : (s.write a v).mem a = v := if_pos rfl

theorem write_ne {w : Nat} (h : w ≠ a) : (s.write a v).mem w = s.mem w := if_neg h

@[simp] theorem write_write : (s.write a v).write a v' = s.write a v' := by
  unfold write
  congr 1
  funext w
  by_cases hw : w = a
  · simp [hw]
  · simp [hw]

theorem write_comm (h : a ≠ a') : (s.write a v).write a' v' = (s.write a' v').write a v := by
  unfold write
  congr 1
  funext w
  by_cases hw : w = a
  · simp [hw, h]
  · simp [hw]

end UHeap

theorem setWord_run (a : Nat) (f : Nat → Nat) (s : UHeap) : setWord a f s = .ok () (s.write a (f (s.mem a))) := rfl

/-- Only words from `lo` up to `hi` have changed. -/
structure Changed (s s' : UHeap) (lo hi : Nat) : Prop where
  heapbase : s'.heapbase = s.heapbase
  heaptop : s'.heaptop = s.heaptop
  brk : s'.brk = s.brk
  mem : ∀ w, w < lo ∨ hi ≤ w → s'.mem w = s.mem w

namespace Changed

variable {s s' s'' : UHeap} {lo hi lo' hi' a v : Nat}

theorem refl : Changed s s lo hi := ⟨rfl, rfl, rfl, fun _ _ => rfl⟩

theorem trans (h : Changed s s' lo hi) (h' : Changed s' s'' lo hi) : Changed s s'' lo hi where
  heapbase := h'.heapbase.trans h.heapbase
  heaptop := h'.heaptop.trans h.heaptop
  brk := h'.brk.trans h.brk
  mem := fun w hw => (h'.mem w hw).trans (h.mem w hw)

theorem widen (h : Changed s s' lo hi) (hlo : lo' ≤ lo) (hhi : hi ≤ hi') : Changed s s' lo' hi' :=
  { h with mem := fun w hw => h.mem w (hw.imp (fun h' => by omega) (fun h' => by omega)) }

theorem write (hlo : lo ≤ a) (hhi : a < hi) : Changed s (s.write a v) lo hi where
  heapbase := rfl
  heaptop := rfl
  brk := rfl
  mem := fun w hw => UHeap.write_ne (by omega)

end Changed

variable {E : Empty → UHeap → Prop} {F : MallocExit → Prop}

theorem wp_deadbeef_loop (n : Nat) : ∀ (x : Nat) (s : UHeap),
    wp (deadbeef_loop x n) (fun _ s' => Changed s s' x (x + 4 * n)) E F s := by
  induction n with
  | zero => exact fun x s => Changed.refl
  | succ n ih =>
    intro x s
    unfold deadbeef_loop
    rw [wp_bind]
    refine wp_of_run_ok (setWord_run x _ s) ?_
    refine wp_imp (ih (x + 4) _) ?_
    intro _ s' hs'
    exact (Changed.write (Nat.le_refl _) (by omega)).trans (hs'.widen (by omega) (by omega))

theorem wp_malloc_deadbeef (x size : Nat) (s : UHeap) :
    wp (malloc_deadbeef x size) (fun _ s' => Changed s s' x (x + size)) E F s :=
  wp_imp (wp_deadbeef_loop (size / 4) x s) (fun _ _ h => h.widen (Nat.le_refl _) (by omega))

theorem set_inuse_run (mh v : Nat) (s : UHeap) : set_inuse mh v s =
    .ok () (s.write (mh + 4) (s.mem (mh + 4) / 8 * 8 + v % 2 * 4 + s.mem (mh + 4) % 4)) := rfl

theorem set_nextblock_run (mh v : Nat) (s : UHeap) : set_nextblock mh v s =
    .ok () (s.write (mh + 4) (v % 2 ^ 29 * 8 + s.mem (mh + 4) % 8)) := rfl

theorem set_prevblock_run (mh v : Nat) (s : UHeap) : set_prevblock mh v s =
    .ok () (s.write mh (v % 2 ^ 29 * 8 + s.mem mh % 8)) := rfl

theorem setWord_bind (a : Nat) (f : Nat → Nat) {α : Type} (k : Unit → MallocM α) (s : UHeap) :
    (setWord a f >>= k) s = k () (s.write a (f (s.mem a))) := rfl

/-- All fields of a header that is new are written. -/
theorem split_header_run (mh prevblock nextblock : Nat) (s : UHeap) :
    split_header mh prevblock nextblock s =
      .ok () ((s.write mh (prevblock % 2 ^ 29 * 8 + 2)).write (mh + 4) (nextblock % 2 ^ 29 * 8 + 2)) := by
  unfold split_header set_prevblock set_pad set_magic1 set_nextblock set_inuse set_magic2 setField29 setBit1
    setMagic2 MMAGIC
  simp only [setWord_bind, setWord_run, UHeap.write_self, UHeap.write_write]
  congr 3
  · omega
  · omega

theorem grow_header_run (mh prevblock nextblock : Nat) (s : UHeap) :
    grow_header mh prevblock nextblock s =
      .ok () ((s.write mh (prevblock % 2 ^ 29 * 8 + 2)).write (mh + 4) (nextblock % 2 ^ 29 * 8 + 6)) := by
  have hne : mh + 4 ≠ mh := by omega
  unfold grow_header set_prevblock set_pad set_magic1 set_nextblock set_inuse set_magic2 setField29 setBit1
    setMagic2 MMAGIC
  -- the second word is written before the first one is done
  simp only [setWord_bind, setWord_run, UHeap.write_self, UHeap.write_write, UHeap.write_comm hne, UHeap.write_ne hne.symm]
  congr 3
  · omega
  · omega

/-! ## Rewriting neighbours -/

/-- The blocks from `m` to `e` have been rewritten, and the block after them knows that the last of
them has length `q`. -/
structure Rewrote (s s' : UHeap) (m e q : Nat) : Prop where
  changed : Changed s s' m (e + 1)
  seam : e ≠ s.heaptop → s'.mem e = q + 2

section Local

variable {s : UHeap} {m pm n size : Nat} {b c : Blk}

/-- What `__malloc_split` leaves over of a free block, if it is enough for a header and data. -/
def leftover (b : Blk) (size : Nat) : Option Blk :=
  if b.len - 8 - size < 2 * MBLOCKSIZE then none else some ⟨b.len - 8 - size, none⟩

/-- The block that `__malloc_split` leaves to take. -/
def shrunk (b : Blk) (size : Nat) : Blk :=
  if b.len - 8 - size < 2 * MBLOCKSIZE then ⟨b.len, none⟩ else ⟨size + 8, none⟩

theorem shrunk_len (hfits : size + 8 ≤ b.len) : size + 8 ≤ (shrunk b size).len := by
  unfold shrunk
  split
  · exact hfits
  · exact Nat.le_refl _

theorem Blk.eq_free (hfree : b.owner = none) : b = ⟨b.len, none⟩ := by
  cases b
  cases hfree
  rfl

/-- The header word of a free block. -/
theorem Tag.word2_free (hb : Tag s.mem m pm b) (hfree : b.owner = none) : s.mem (m + 4) = b.len + 2 := by
  rw [hb.word2, hfree]
  rfl

theorem M_MKFIELD_eq {off : Nat} (hdvd : 8 ∣ off) (hlt : off < 2 ^ 32) : M_MKFIELD off % 2 ^ 29 * 8 = off := by
  unfold M_MKFIELD
  omega

/-- `mh->mh_prevblock`, where the header is there. -/
theorem wp_set_seam {e v w q : Nat} {Q : Unit → UHeap → Prop} (hseam : s.mem e = q + 2) (hq : 8 ∣ q)
    (hv : v % 2 ^ 29 * 8 = w) (h : Q () (s.write e (w + 2))) :
    wp (set_prevblock e v) Q E F s := by
  refine wp_of_run_ok (set_prevblock_run e v s) ?_
  have hword : v % 2 ^ 29 * 8 + s.mem e % 8 = w + 2 := by omega
  rw [hword]
  exact h

/-- **Splitting a free block.** -/
theorem wp_malloc_split (hb : Tag s.mem m pm b) (hfree : b.owner = none) (hlt : m + b.len < 2 ^ 32)
    (hseam : m + b.len ≠ s.heaptop → s.mem (m + b.len) = b.len + 2) (hsize : 8 ∣ size) (hfits : size + 8 ≤ b.len) :
    wp (malloc_split m size) (fun _ s' => ∃ q, 8 ∣ q ∧ Rewrote s s' m (m + b.len) q ∧
        Tiled Blk.len (Tag s'.mem) m pm (shrunk b size :: (leftover b size).toList) (m + b.len) q)
      E F s := by
  have hpos := hb.len_pos
  have hlen := hb.len_dvd
  have hm := hb.addr_dvd
  have hroom : sub32 (s.M_SIZE m) size = b.len - 8 - size := by
    rw [hb.size (by omega)]
    exact sub32_eq (by omega) (by omega)
  unfold malloc_split shrunk leftover
  rw [wp_kassert_bind (Nat.mod_eq_zero_of_dvd hsize), wp_read_bind, hroom]
  by_cases hsmall : b.len - 8 - size < 2 * MBLOCKSIZE
  · rw [if_pos hsmall, if_pos hsmall, if_pos hsmall]
    exact ⟨b.len, hlen, ⟨Changed.refl, hseam⟩, Blk.eq_free hfree ▸ hb, rfl, rfl⟩
  · rw [if_neg hsmall, if_neg hsmall, if_neg hsmall]
    have hblock : 2 * MBLOCKSIZE = 16 := rfl
    have hadd : add32 size MBLOCKSIZE = size + 8 := add32_eq (show size + 8 < 2 ^ 32 by omega)
    have hfield : M_MKFIELD (size + 8) % 2 ^ 29 * 8 = size + 8 := M_MKFIELD_eq (by omega) (by omega)
    have hrest : M_MKFIELD (b.len - 8 - size) % 2 ^ 29 * 8 = b.len - 8 - size := M_MKFIELD_eq (by omega) (by omega)
    have hword : s.mem (m + 4) % 8 = 2 := by
      rw [hb.word2_free hfree]
      omega
    -- the first header shrinks
    rw [wp_bind, hadd]
    refine wp_of_run_ok (set_nextblock_run m _ s) ?_
    rw [hfield, hword, hb.next hlt]
    have hb1 : Tag (s.write (m + 4) (size + 8 + 2)).mem m pm ⟨size + 8, none⟩ :=
      hb.resize (Nat.dvd_add hsize (Nat.dvd_refl 8)) (Nat.le_add_left _ _) (UHeap.write_ne (by omega)) UHeap.write_self
    have hnew : (s.write (m + 4) (size + 8 + 2)).M_NEXT m = m + (size + 8) :=
      hb1.next (show m + (size + 8) < 2 ^ 32 by omega)
    rw [wp_read_bind, hnew, wp_bind, wp_kassert,
      if_pos (show m + (size + 8) ≠ m + b.len by omega), wp_bind]
    -- the new header
    refine wp_of_run_ok (split_header_run _ _ _ _) ?_
    rw [hfield, hroom, hrest, wp_read_bind]
    generalize hs2 : ((s.write (m + 4) (size + 8 + 2)).write (m + (size + 8)) (size + 8 + 2)).write
      (m + (size + 8) + 4) (b.len - 8 - size + 2) = s2
    have hchanged : Changed s s2 m (m + b.len) := by
      rw [← hs2]
      exact ((Changed.write (by omega) (by omega)).trans (Changed.write (by omega) (by omega))).trans
        (Changed.write (by omega) (by omega))
    have htiled : ∀ s3 : UHeap, (∀ w, w < m + b.len → s3.mem w = s2.mem w) →
        Tiled Blk.len (Tag s3.mem) m pm [⟨size + 8, none⟩, ⟨b.len - 8 - size, none⟩] (m + b.len)
          (b.len - 8 - size) := by
      intro s3 h3
      have hfirst : Tag s3.mem m pm ⟨size + 8, none⟩ := by
        apply hb1.congr
        · rw [h3 m (by omega), ← hs2]
          simp (disch := omega) only [UHeap.write_ne]
        · rw [h3 _ (by omega), ← hs2]
          simp (disch := omega) only [UHeap.write_ne]
      have hrestdvd : 8 ∣ b.len - 8 - size := by omega
      have hrestpos : 8 ≤ b.len - 8 - size := by omega
      have hsecond : Tag s3.mem (m + (size + 8)) (size + 8) ⟨b.len - 8 - size, none⟩ := by
        refine ⟨Nat.dvd_add hm hb1.len_dvd, hb1.len_dvd, hrestdvd, hrestpos, ?_, ?_, nofun⟩
        · rw [h3 _ (by omega), ← hs2]
          simp (disch := omega) only [UHeap.write_self, UHeap.write_ne]
        · rw [h3 _ (by omega), ← hs2, UHeap.write_self]
          rfl
      have hend : m + (size + 8) + (b.len - 8 - size) = m + b.len := by omega
      exact ⟨hfirst, hsecond, hend, rfl⟩
    by_cases htop : m + b.len = s2.heaptop
    · rw [if_neg (fun hne => hne htop)]
      refine ⟨b.len - 8 - size, by omega, ⟨hchanged.widen (Nat.le_refl _) (Nat.le_succ _), ?_⟩,
        htiled s2 fun _ _ => rfl⟩
      intro hne
      exact (hne (htop.trans hchanged.heaptop)).elim
    · rw [if_pos htop]
      have hnext : s2.mh_nextblock (m + (size + 8)) % 2 ^ 29 * 8 = b.len - 8 - size := by
        obtain ⟨-, hc, -⟩ := htiled s2 fun _ _ => rfl
        rw [hc.nextblock]
        exact hrest
      have hseam2 : s2.mem (m + b.len) = b.len + 2 := by
        rw [hchanged.mem _ (.inr (Nat.le_refl _))]
        exact hseam (fun h => htop (h.trans hchanged.heaptop.symm))
      refine wp_set_seam hseam2 hlen hnext ⟨b.len - 8 - size, by omega, ⟨?_, ?_⟩, ?_⟩
      · exact (hchanged.widen (Nat.le_refl _) (Nat.le_succ _)).trans (Changed.write (by omega) (by omega))
      · exact fun _ => UHeap.write_self
      · exact htiled _ fun w hw => UHeap.write_ne (by omega)

/-- `mh->mh_inuse = 1`. -/
theorem Tag.use {l : Nat} (hb : Tag s.mem m pm ⟨l, none⟩) (hn : n + 8 ≤ l) :
    Tag (s.write (m + 4) (s.mem (m + 4) / 8 * 8 + 1 % 2 * 4 + s.mem (m + 4) % 4)).mem m pm ⟨l, some n⟩ := by
  have hlen : 8 ∣ l := hb.len_dvd
  have hword : s.mem (m + 4) = l + 2 := hb.word2_free rfl
  refine { hb with word1 := ?_, word2 := ?_, fits := ?_ }
  · rw [UHeap.write_ne (by omega), hb.word1]
  · rw [UHeap.write_self, hword]
    show _ = l + 4 + 2
    omega
  · intro k hk
    cases hk
    exact hn

/-- What stands in the place of a block that `malloc` takes. -/
def takenBlocks (b : Blk) (size n : Nat) : List Blk :=
  ⟨(shrunk b size).len, some n⟩ :: (leftover b size).toList

/-- **Taking a block.** -/
theorem wp_malloc_take (hb : Tag s.mem m pm b) (hfree : b.owner = none) (hlt : m + b.len < 2 ^ 32)
    (hseam : m + b.len ≠ s.heaptop → s.mem (m + b.len) = b.len + 2) (hsize : 8 ∣ size) (hfits : size + 8 ≤ b.len)
    (hn : n ≤ size) :
    wp (malloc_take m size) (fun x s' => x = m + 8 ∧ ∃ q, 8 ∣ q ∧ Rewrote s s' m (m + b.len) q ∧
        Tiled Blk.len (Tag s'.mem) m pm (takenBlocks b size n) (m + b.len) q) E F s := by
  unfold malloc_take
  rw [wp_bind]
  refine wp_imp (wp_malloc_split hb hfree hlt hseam hsize hfits) ?_
  intro _ s1 h1
  obtain ⟨q, hq, hrw, htag, hrest⟩ := h1
  have hlen := shrunk_len hfits
  have hend := hrest.le
  rw [wp_bind]
  refine wp_of_run_ok (set_inuse_run m 1 s1) ⟨?_, q, hq, ⟨?_, ?_⟩, ?_, ?_⟩
  · exact add32_eq (show m + 8 < 2 ^ 32 by omega)
  · exact hrw.changed.trans (Changed.write (by omega) (by omega))
  · intro hne
    rw [UHeap.write_ne (by omega)]
    exact hrw.seam hne
  · have hshrunk : (shrunk b size).owner = none := by
      unfold shrunk
      split <;> rfl
    rw [Blk.eq_free hshrunk] at htag
    exact htag.use (by omega)
  · refine hrest.congr ?_
    intro a' p' b' ha' _ htag'
    exact htag'.congr (UHeap.write_ne (by omega)) (UHeap.write_ne (by omega))

/-- **Joining two blocks**, if both are free. -/
theorem wp_malloc_trymerge (hb : Tag s.mem m pm b) (hc : Tag s.mem (m + b.len) b.len c)
    (hlt : m + b.len + c.len < 2 ^ 32)
    (hseam : m + b.len + c.len ≠ s.heaptop → s.mem (m + b.len + c.len) = c.len + 2) :
    wp (malloc_trymerge m (m + b.len))
      (fun _ s' => (b.owner = none ∧ c.owner = none ∧ Rewrote s s' m (m + b.len + c.len) (b.len + c.len) ∧
        Tag s'.mem m pm ⟨b.len + c.len, none⟩) ∨ (¬ (b.owner = none ∧ c.owner = none) ∧ s' = s))
      E F s := by
  have hbpos := hb.len_pos
  have hcpos := hc.len_pos
  have hblen := hb.len_dvd
  have hclen := hc.len_dvd
  unfold malloc_trymerge
  rw [wp_bind, wp_read, wp_bind, wp_kassert,
    if_pos (show s.mh_nextblock m = s.mh_prevblock (m + b.len) by rw [hb.nextblock, hc.prevblock]), wp_ite]
  by_cases hfree : b.owner = none ∧ c.owner = none
  · obtain ⟨hbfree, hcfree⟩ := hfree
    have hbzero := hb.inuse_eq_zero.mpr hbfree
    have hczero := hc.inuse_eq_zero.mpr hcfree
    rw [if_neg (by rw [hbzero, hczero]; simp)]
    have hsum : add32 (add32 (add32 MBLOCKSIZE (s.M_SIZE m)) MBLOCKSIZE) (s.M_SIZE (m + b.len)) = b.len + c.len := by
      rw [hb.size (by omega), hc.size (by omega), add32_eq (show 8 + (b.len - 8) < 2 ^ 32 by omega),
        add32_eq (show 8 + (b.len - 8) + 8 < 2 ^ 32 by omega),
        add32_eq (show 8 + (b.len - 8) + 8 + (c.len - 8) < 2 ^ 32 by omega)]
      omega
    have hfield : M_MKFIELD (b.len + c.len) % 2 ^ 29 * 8 = b.len + c.len := M_MKFIELD_eq (by omega) (by omega)
    have hword : s.mem (m + 4) % 8 = 2 := by
      rw [hb.word2_free hbfree]
      omega
    -- the first header grows
    rw [wp_bind, hsum]
    refine wp_of_run_ok (set_nextblock_run m _ s) ?_
    rw [hfield, hword, hc.next hlt]
    have hjoined : Tag (s.write (m + 4) (b.len + c.len + 2)).mem m pm ⟨b.len + c.len, none⟩ :=
      hb.resize (Nat.dvd_add hblen hclen) (by omega) (UHeap.write_ne (by omega)) UHeap.write_self
    have hgrown : Changed s (s.write (m + 4) (b.len + c.len + 2)) m (m + b.len) :=
      Changed.write (by omega) (by omega)
    generalize s.write (m + 4) (b.len + c.len + 2) = s1 at hjoined hgrown ⊢
    rw [wp_read_bind]
    -- then the field in the block after both, and the header that is gone
    have hlast : ∀ s2 : UHeap, Changed s1 s2 (m + b.len + c.len) (m + b.len + c.len + 1) →
        (m + b.len + c.len ≠ s.heaptop → s2.mem (m + b.len + c.len) = b.len + c.len + 2) →
        wp (malloc_deadbeef (m + b.len) MBLOCKSIZE)
          (fun _ s' => (b.owner = none ∧ c.owner = none ∧ Rewrote s s' m (m + b.len + c.len) (b.len + c.len) ∧
            Tag s'.mem m pm ⟨b.len + c.len, none⟩) ∨ (¬ (b.owner = none ∧ c.owner = none) ∧ s' = s))
          E F s2 := by
      intro s2 h2 hseam2
      refine wp_imp (wp_malloc_deadbeef _ _ s2) ?_
      intro _ s3 h3
      have hhi : m + b.len + MBLOCKSIZE ≤ m + b.len + c.len := Nat.add_le_add_left hcpos _
      refine .inl ⟨hbfree, hcfree, ⟨?_, ?_⟩, ?_⟩
      · exact ((hgrown.widen (Nat.le_refl _) (by omega)).trans (h2.widen (by omega) (Nat.le_refl _))).trans
          (h3.widen (by omega) (by omega))
      · intro hne
        rw [h3.mem _ (.inr hhi)]
        exact hseam2 hne
      · apply hjoined.congr
        · rw [h3.mem m (.inl (by omega)), h2.mem m (.inl (by omega))]
        · rw [h3.mem (m + 4) (.inl (by omega)), h2.mem (m + 4) (.inl (by omega))]
    by_cases htop : m + b.len + c.len = s1.heaptop
    · rw [if_neg (fun hne => hne htop)]
      exact hlast s1 Changed.refl fun hne => (hne (htop.trans hgrown.heaptop)).elim
    · rw [if_pos htop, wp_bind]
      have hseam1 : s1.mem (m + b.len + c.len) = c.len + 2 := by
        rw [hgrown.mem _ (.inr (Nat.le_add_right _ _))]
        exact hseam (fun h => htop (h.trans hgrown.heaptop.symm))
      have hnext : s1.mh_nextblock m % 2 ^ 29 * 8 = b.len + c.len := by
        rw [hjoined.nextblock]
        exact hfield
      exact wp_set_seam hseam1 hclen hnext (hlast _ (Changed.write (Nat.le_refl _) (by omega)) fun _ => UHeap.write_self)
  · have hused : s.mh_inuse m ≠ 0 ∨ s.mh_inuse (m + b.len) ≠ 0 := by
      rw [ne_eq, ne_eq, hb.inuse_eq_zero, hc.inuse_eq_zero]
      exact not_and_or.mp hfree
    rw [if_pos hused]
    exact .inr ⟨hfree, rfl⟩

/-- **Wiping a block.** -/
theorem wp_free_wipe (hb : Tag s.mem m pm b) (hlt : m + b.len < 2 ^ 32) :
    wp (free_wipe m) (fun _ s' => Changed s s' m (m + b.len) ∧ Tag s'.mem m pm ⟨b.len, none⟩)
      E F s := by
  have hpos := hb.len_pos
  have hlen := hb.len_dvd
  have hword : s.mem (m + 4) / 8 * 8 + 0 % 2 * 4 + s.mem (m + 4) % 4 = b.len + 2 := by
    rw [hb.word2]
    split <;> omega
  unfold free_wipe
  rw [wp_bind]
  refine wp_of_run_ok (set_inuse_run m 0 s) ?_
  rw [hword]
  have hfree : Tag (s.write (m + 4) (b.len + 2)).mem m pm ⟨b.len, none⟩ :=
    hb.resize hlen hpos (UHeap.write_ne (by omega)) UHeap.write_self
  rw [wp_bind, wp_read, hfree.size (show b.len < 2 ^ 32 by omega),
    show M_DATA m = m + 8 from add32_eq (show m + 8 < 2 ^ 32 by omega)]
  refine wp_imp (wp_malloc_deadbeef _ _ _) ?_
  intro _ s' hs'
  have hsize : m + 8 + (b.len - 8) = m + b.len := by omega
  refine ⟨(Changed.write (by omega) (by omega)).trans (hs'.widen (by omega) (Nat.le_of_eq hsize)), ?_⟩
  exact hfree.congr (hs'.mem m (.inl (by omega))) (hs'.mem (m + 4) (.inl (by omega)))

end Local

end OS161
