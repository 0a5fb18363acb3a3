import OS161.User.MallocHeap

/-! # Calls of `malloc` and `free`

What a call does to the heap as a whole and to the blocks that the program has. Between two
calls no two neighbours are free.
-/

namespace OS161

open Framework Kern Function

/-! ## The blocks of the program -/

/-- The block at `x` is in use, for a request of `n` bytes. -/
def Owns (a : Nat) (bs : List Blk) (x n : Nat) : Prop :=
  ∃ c ∈ placed Blk.len a bs, x = c.1 + 8 ∧ c.2.owner = some n

/-- The blocks in use are the live blocks of the program. -/
def Owned (live : Nat → Option Nat) (base : Nat) (bs : List Blk) : Prop :=
  ∀ x n, live x = some n ↔ Owns base bs x n

section Owns

variable {mem mem' : Nat → Nat} {a p m pm e qe z q x n : Nat} {b : Blk} {bs pre mid post : List Blk}

theorem not_owns_nil : ¬ Owns a [] x n := by
  intro h
  obtain ⟨c, hc, -⟩ := h
  cases hc

theorem owns_cons : Owns a (b :: bs) x n ↔ (x = a + 8 ∧ b.owner = some n) ∨ Owns (a + b.len) bs x n := by
  constructor
  · intro h
    obtain ⟨c, hc, hx⟩ := h
    rcases List.mem_cons.mp hc with rfl | hc
    · exact .inl hx
    · exact .inr ⟨c, hc, hx⟩
  · intro h
    rcases h with hx | ⟨c, hc, hx⟩
    · exact ⟨(a, b), List.mem_cons_self, hx⟩
    · exact ⟨c, List.mem_cons_of_mem _ hc, hx⟩

theorem owns_append (h : Tiled Blk.len (Tag mem) a p pre m pm) :
    Owns a (pre ++ post) x n ↔ Owns a pre x n ∨ Owns m post x n := by
  unfold Owns
  rw [h.placed_append]
  simp only [List.mem_append, or_and_right, exists_or]

theorem owns_middle (hpre : Tiled Blk.len (Tag mem) a p pre m pm) (hmid : Tiled Blk.len (Tag mem') m pm mid e qe) :
    Owns a (pre ++ mid ++ post) x n ↔ Owns a pre x n ∨ Owns m mid x n ∨ Owns e post x n := by
  rw [List.append_assoc, owns_append hpre, owns_append hmid]

/-- A block in use lies between the ends. -/
theorem Owns.bounds (ho : Owns a bs x n) (h : Tiled Blk.len (Tag mem) a p bs z q) :
    a + 8 ≤ x ∧ x + n ≤ z ∧ 8 ∣ x := by
  obtain ⟨c, hc, rfl, hown⟩ := ho
  obtain ⟨hlo, hhi, p', htag⟩ := h.placed_bounds hc
  have hfits := htag.fits n hown
  have haddr := htag.addr_dvd
  exact ⟨by omega, by omega, by omega⟩

/-- Free blocks are nobody's. -/
theorem not_owns_free (hfree : ∀ c ∈ bs, c.owner = none) : ¬ Owns a bs x n := by
  induction bs generalizing a with
  | nil => exact not_owns_nil
  | cons b bs ih =>
    rw [owns_cons, hfree b List.mem_cons_self]
    intro h
    rcases h with ⟨-, hn⟩ | h
    · cases hn
    · exact ih (fun c hc => hfree c (List.mem_cons_of_mem _ hc)) h

end Owns

/-! ## The whole heap -/

/-- The blocks fill the heap. -/
structure HeapRep (s : UHeap) (bs : List Blk) : Prop where
  base_pos : 0 < s.heapbase
  base_dvd : 8 ∣ s.heapbase
  top_brk : s.brk = s.heaptop
  top_lt : s.heaptop < 2 ^ 32
  tiled : ∃ q, Tiled Blk.len (Tag s.mem) s.heapbase 0 bs s.heaptop q

/-- The live blocks of the program keep their contents. -/
def Keeps (live : Nat → Option Nat) (s s' : UHeap) : Prop :=
  ∀ y n, live y = some n → ∀ w, y ≤ w → w < y + n → s'.mem w = s.mem w

theorem Keeps.refl {live : Nat → Option Nat} {s : UHeap} : Keeps live s s := fun _ _ _ _ _ _ => rfl

theorem Keeps.trans {live : Nat → Option Nat} {s s' s'' : UHeap} (h : Keeps live s s') (h' : Keeps live s' s'') :
    Keeps live s s'' :=
  fun y n hy w hlo hhi => (h' y n hy w hlo hhi).trans (h y n hy w hlo hhi)

section Whole

variable {s s' : UHeap} {live : Nat → Option Nat} {p m pm e qe q q' n size : Nat} {b : Blk}
  {E : Empty → UHeap → Prop} {F : MallocExit → Prop}
  {bs pre mid mid' post : List Blk}

/-- The field of the block after a piece of the heap. -/
theorem seam_word (h : Tiled Blk.len (Tag s.mem) e qe post s.heaptop q) (hne : e ≠ s.heaptop) :
    s.mem e = qe + 2 := by
  cases post with
  | nil => exact (hne h.1).elim
  | cons c post => exact h.1.word1

theorem tiled_end_dvd (h : Tiled Blk.len (Tag s.mem) m pm bs e qe) (hm : 8 ∣ m) (hp : 8 ∣ pm) : 8 ∣ e ∧ 8 ∣ qe := by
  induction bs generalizing m pm with
  | nil =>
    obtain ⟨rfl, rfl⟩ := h
    exact ⟨hm, hp⟩
  | cons c bs ih => exact ih h.2 (Nat.dvd_add hm h.1.len_dvd) h.1.len_dvd

/-- A piece of the heap is rewritten, the rest stays. -/
theorem Rewrote.heapRep (hrw : Rewrote s s' m e q') (hq : 8 ∣ q') (h : HeapRep s bs)
    (hpre : Tiled Blk.len (Tag s.mem) s.heapbase 0 pre m pm)
    (hpost : Tiled Blk.len (Tag s.mem) e qe post s.heaptop q) (hmid : Tiled Blk.len (Tag s'.mem) m pm mid' e q') :
    HeapRep s' (pre ++ mid' ++ post) := by
  have hch := hrw.changed
  refine ⟨hch.heapbase ▸ h.base_pos, hch.heapbase ▸ h.base_dvd, ?_, hch.heaptop ▸ h.top_lt, ?_⟩
  · rw [hch.brk, hch.heaptop]
    exact h.top_brk
  · rw [hch.heapbase, hch.heaptop]
    refine hpre.replace hpost hmid ?_ ?_ ?_ (fun _ _ _ htag => Nat.lt_of_lt_of_le (by decide) htag.len_pos)
    · -- below, no word has changed
      intro a' p' c hc htag
      have hpos := htag.len_pos
      exact htag.congr (hch.mem a' (.inl (by omega))) (hch.mem (a' + 4) (.inl (by omega)))
    · intro c hc htag
      have hpos := htag.len_pos
      refine { htag with prev_dvd := hq, word1 := hrw.seam (by omega), word2 := ?_ }
      rw [hch.mem (e + 4) (.inr (by omega)), htag.word2]
    · intro a' p' c hc htag
      exact htag.congr (hch.mem a' (.inr (by omega))) (hch.mem (a' + 4) (.inr (by omega)))

theorem Rewrote.keeps (hrw : Rewrote s s' m e q')
    (hpre : Tiled Blk.len (Tag s.mem) s.heapbase 0 pre m pm)
    (hpost : Tiled Blk.len (Tag s.mem) e qe post s.heaptop q)
    (hlive : ∀ y n, live y = some n → Owns s.heapbase pre y n ∨ Owns e post y n) : Keeps live s s' := by
  intro y n hy w hlo hhi
  rcases hlive y n hy with ho | ho
  · obtain ⟨-, hend, -⟩ := ho.bounds hpre
    exact hrw.changed.mem w (.inl (by omega))
  · obtain ⟨hstart, -, -⟩ := ho.bounds hpost
    exact hrw.changed.mem w (.inr (by omega))

/-! ## `malloc` -/

/-- The search has found a free block and taken it. -/
structure Taken (s : UHeap) (i p : Nat) (bs : List Blk) (q size n x : Nat) (s' : UHeap) : Prop where
  split : ∃ pre b post m pm qe, bs = pre ++ b :: post ∧ Tiled Blk.len (Tag s.mem) i p pre m pm ∧
    Tag s.mem m pm b ∧ b.owner = none ∧ Tiled Blk.len (Tag s.mem) (m + b.len) b.len post s.heaptop q ∧ x = m + 8 ∧
    8 ∣ qe ∧ Rewrote s s' m (m + b.len) qe ∧
    Tiled Blk.len (Tag s'.mem) m pm (takenBlocks b size n) (m + b.len) qe

theorem wp_malloc_search (hsize : 8 ∣ size) (hn : n ≤ size) (hlt : s.heaptop < 2 ^ 32) (bs : List Blk) :
    ∀ {i p fuel : Nat}, Tiled Blk.len (Tag s.mem) i p bs s.heaptop q → bs.length < fuel →
      wp (malloc_search size fuel i (p / 8))
        (fun r s' => (r = .missed s.heaptop (q / 8) ∧ s' = s) ∨ ∃ x, r = .found x ∧ Taken s i p bs q size n x s')
        E F s := by
  induction bs with
  | nil =>
    intro i p fuel h hfuel
    obtain ⟨fuel, rfl⟩ : ∃ f, fuel = f + 1 := ⟨fuel - 1, by simp at hfuel; omega⟩
    obtain ⟨rfl, rfl⟩ := h
    unfold malloc_search
    rw [wp_read_bind, if_neg (Nat.lt_irrefl _)]
    exact .inl ⟨rfl, rfl⟩
  | cons b bs ih =>
    intro i p fuel h hfuel
    obtain ⟨fuel, rfl⟩ : ∃ f, fuel = f + 1 := ⟨fuel - 1, by simp at hfuel; omega⟩
    obtain ⟨hb, hrest⟩ := h
    have hpos := hb.len_pos
    have hend := hrest.le
    unfold malloc_search
    rw [wp_read_bind, if_pos (show i < s.heaptop by omega), wp_kassert_bind hb.ok,
      wp_kassert_bind hb.prevblock, wp_ite]
    by_cases hskip : s.mh_inuse i ≠ 0 ∨ s.M_SIZE i < size
    · -- on to the next header
      rw [if_pos hskip, hb.next (by omega), hb.nextblock]
      refine wp_imp (ih hrest (by simp at hfuel; omega)) ?_
      intro r s' hr
      rcases hr with hr | ⟨x, hx, htaken⟩
      · exact .inl hr
      · obtain ⟨pre, c, post, m, pm, qe, hbs, hpre, htail⟩ := htaken.split
        refine .inr ⟨x, hx, ⟨b :: pre, c, post, m, pm, qe, ?_, ⟨hb, hpre⟩, htail⟩⟩
        rw [hbs]
        rfl
    · rw [if_neg hskip, wp_bind]
      obtain ⟨hfree, hfits⟩ := not_or.mp hskip
      have hfree := hb.inuse_eq_zero.mp (not_not.mp hfree)
      rw [hb.size (by omega)] at hfits
      refine wp_imp (wp_malloc_take hb hfree (by omega) (seam_word hrest) hsize (by omega) hn) ?_
      intro x s' hx
      obtain ⟨hx, qe, hqe, hrw, hmid⟩ := hx
      exact .inr ⟨x, rfl, ⟨[], b, bs, i, p, qe, rfl, ⟨rfl, rfl⟩, hb, hfree, hrest, hx, hqe, hrw, hmid⟩⟩

/-- The heap between two calls. -/
def HeapInv (s : UHeap) (live : Nat → Option Nat) : Prop :=
  ∃ bs, HeapRep s bs ∧ Settled (fun b => b.owner = none) bs ∧ Owned live s.heapbase bs

/-- The outcome of a successful `malloc`. -/
structure Gained (live : Nat → Option Nat) (n : Nat) (s : UHeap) (x : Nat) (s' : UHeap) : Prop where
  pos : x ≠ 0
  fresh : live x = none
  keeps : Keeps live s s'
  inv : HeapInv s' (update live x (some n))

theorem leftover_free : ∀ c ∈ (leftover b size).toList, c.owner = none := by
  intro c hc
  unfold leftover at hc
  split at hc
  · cases hc
  · rw [Option.toList_some, List.mem_singleton] at hc
    rw [hc]

variable {x : Nat}

/-- A block that nobody had is somebody's now. -/
theorem update_gain {old new : Nat → Nat → Prop} (h : ∀ y k, live y = some k ↔ old y k)
    (hx : ∀ k, ¬ old x k) (hnew : ∀ y k, new y k ↔ old y k ∨ (y = x ∧ k = n)) :
    ∀ y k, update live x (some n) y = some k ↔ new y k := by
  intro y k
  rw [hnew]
  by_cases hy : y = x
  · subst hy
    rw [update_self, Option.some.injEq]
    constructor
    · exact fun hk => .inr ⟨rfl, hk.symm⟩
    · intro hk
      rcases hk with hk | ⟨-, hk⟩
      · exact (hx k hk).elim
      · exact hk.symm
  · rw [update_of_ne hy, h]
    simp [hy]

/-- **Taking a block** of the heap. -/
theorem Taken.gained (ht : Taken s s.heapbase 0 bs q size n x s') (h : HeapRep s bs)
    (hset : Settled (fun b => b.owner = none) bs) (hown : Owned live s.heapbase bs) : Gained live n s x s' := by
  obtain ⟨pre, b, post, m, pm, qe, rfl, hpre, hb, hfree, hpost, rfl, hqe, hrw, hmid⟩ := ht.split
  have hpos := hb.len_pos
  have hone : Tiled Blk.len (Tag s.mem) m pm [b] (m + b.len) b.len := ⟨hb, rfl, rfl⟩
  have hnobody : ∀ y k, ¬ Owns m [b] y k := by
    intro y k
    refine not_owns_free ?_
    simpa using hfree
  have hold : ∀ y k, live y = some k ↔ Owns s.heapbase pre y k ∨ Owns (m + b.len) post y k := by
    intro y k
    rw [hown y k, ← List.singleton_append, ← List.append_assoc, owns_middle hpre hone]
    simp only [hnobody, false_or]
  have hfresh : ∀ k, ¬ (Owns s.heapbase pre (m + 8) k ∨ Owns (m + b.len) post (m + 8) k) := by
    intro k ho
    rcases ho with ho | ho
    · obtain ⟨-, hend, -⟩ := ho.bounds hpre
      omega
    · obtain ⟨hstart, -, -⟩ := ho.bounds hpost
      omega
  refine ⟨Nat.succ_ne_zero _, ?_, hrw.keeps hpre hpost fun y k hy => (hold y k).mp hy, ?_⟩
  · rw [Option.eq_none_iff_forall_ne_some]
    intro k hk
    exact hfresh k ((hold _ k).mp hk)
  · refine ⟨_, hrw.heapRep hqe h hpre hpost hmid, ?_, ?_⟩
    · obtain ⟨hspre, hspost, -, hhead⟩ := settled_middle.mp hset
      rw [takenBlocks, List.append_assoc, List.cons_append]
      refine settled_middle.mpr ⟨hspre, ?_, nofun, nofun⟩
      unfold leftover
      split
      · exact hspost
      · exact settled_middle.mpr ⟨List.isChain_nil, hspost, nofun, fun _ => hhead hfree⟩
    · rw [hrw.changed.heapbase]
      refine update_gain hold hfresh ?_
      intro y k
      rw [owns_middle hpre hmid, takenBlocks, owns_cons, ← or_assoc]
      have hleft : ¬ Owns (m + (shrunk b size).len) (leftover b size).toList y k := not_owns_free leftover_free
      simp only [hleft, or_false, Option.some.injEq]
      constructor
      · intro ho
        rcases ho with (ho | ⟨hy, hk⟩) | ho
        · exact .inl (.inl ho)
        · exact .inr ⟨hy, hk.symm⟩
        · exact .inl (.inr ho)
      · intro ho
        rcases ho with (ho | ho) | ⟨hy, hk⟩
        · exact .inl (.inl ho)
        · exact .inr ho
        · exact .inl (.inr ⟨hy, hk.symm⟩)

/-- **Growing the heap.** -/
theorem HeapRep.gained (h : HeapRep s bs) (hset : Settled (fun b => b.owner = none) bs)
    (hown : Owned live s.heapbase bs) (htiled : Tiled Blk.len (Tag s.mem) s.heapbase 0 bs s.heaptop q)
    (hsize : 8 ∣ size) (hn : n ≤ size) (hroom : s.heaptop + (size + 8) < 2 ^ 32) :
    Gained live n s (s.heaptop + 8) (({ s with
      brk := s.brk + (size + 8), heaptop := s.heaptop + (size + 8) }.write s.heaptop (q + 2)).write (s.heaptop + 4)
        (size + 8 + 6)) := by
  obtain ⟨hdvd, hqdvd⟩ := tiled_end_dvd htiled h.base_dvd (Nat.dvd_zero 8)
  generalize hs' : (({ s with brk := s.brk + (size + 8), heaptop := s.heaptop + (size + 8) } : UHeap).write
    s.heaptop (q + 2)).write (s.heaptop + 4) (size + 8 + 6) = s'
  have hbase : s'.heapbase = s.heapbase := by rw [← hs']; rfl
  have htop : s'.heaptop = s.heaptop + (size + 8) := by rw [← hs']; rfl
  have hbrk : s'.brk = s.brk + (size + 8) := by rw [← hs']; rfl
  have hmem : ∀ w, w < s.heaptop → s'.mem w = s.mem w := by
    intro w hw
    rw [← hs']
    simp (disch := omega) only [UHeap.write_ne]
  have hnew : Tag s'.mem s.heaptop q ⟨size + 8, some n⟩ := by
    refine ⟨hdvd, hqdvd, Nat.dvd_add hsize (Nat.dvd_refl 8), Nat.le_add_left _ _, ?_, ?_, ?_⟩
    · rw [← hs', UHeap.write_ne (by omega), UHeap.write_self]
    · rw [← hs', UHeap.write_self]
      rfl
    · intro k hk
      cases hk
      exact Nat.add_le_add_right hn 8
  have hold : Tiled Blk.len (Tag s'.mem) s.heapbase 0 bs s.heaptop q := by
    refine htiled.congr ?_
    intro a' p' c _ hc htag
    have hpos := htag.len_pos
    exact htag.congr (hmem a' (by omega)) (hmem (a' + 4) (by omega))
  have hfresh : ∀ k, ¬ Owns s.heapbase bs (s.heaptop + 8) k := by
    intro k ho
    obtain ⟨-, hend, -⟩ := ho.bounds htiled
    omega
  refine ⟨Nat.succ_ne_zero _, ?_, ?_, bs ++ [⟨size + 8, some n⟩], ⟨?_, ?_, ?_, ?_, ?_⟩, ?_, ?_⟩
  · rw [Option.eq_none_iff_forall_ne_some]
    intro k hk
    exact hfresh k ((hown _ k).mp hk)
  · intro y k hy w _ hhi
    obtain ⟨-, hend, -⟩ := ((hown y k).mp hy).bounds htiled
    exact hmem w (by omega)
  · rw [hbase]
    exact h.base_pos
  · rw [hbase]
    exact h.base_dvd
  · rw [hbrk, htop, h.top_brk]
  · rw [htop]
    exact hroom
  · rw [hbase, htop]
    exact ⟨size + 8, tiled_append.mpr ⟨_, _, hold, hnew, rfl, rfl⟩⟩
  · exact settled_middle.mpr ⟨hset, List.isChain_nil, nofun, nofun⟩
  · rw [hbase]
    refine update_gain hown hfresh ?_
    intro y k
    rw [owns_append hold, owns_cons, Option.some.injEq]
    have hnil : ¬ Owns (s.heaptop + (size + 8)) [] y k := not_owns_nil
    constructor
    · intro ho
      rcases ho with ho | ⟨hy, hk⟩ | ho
      · exact .inl ho
      · exact .inr ⟨hy, hk.symm⟩
      · exact (hnil ho).elim
    · intro ho
      rcases ho with ho | ⟨hy, hk⟩
      · exact .inl ho
      · exact .inr (.inl ⟨hy, hk.symm⟩)

theorem roundBlocks_bounds (hn : n ≤ 2 ^ 32 - 16) : 8 ∣ roundBlocks n ∧ n ≤ roundBlocks n ∧ roundBlocks n ≤ 2 ^ 32 - 16 := by
  have hadd : add32 n (MBLOCKSIZE - 1) = n + 7 := add32_eq (show n + 7 < 2 ^ 32 by omega)
  unfold roundBlocks
  rw [hadd]
  show 8 ∣ (n + 7) / 8 * 8 ∧ n ≤ (n + 7) / 8 * 8 ∧ (n + 7) / 8 * 8 ≤ 2 ^ 32 - 16
  omega

theorem tiled_length_le (h : Tiled Blk.len (Tag s.mem) m pm bs e qe) : m + bs.length ≤ e := by
  induction bs generalizing m pm with
  | nil => exact Nat.le_of_eq h.1
  | cons c bs ih =>
    have hpos := h.1.len_pos
    have hrest := ih h.2
    rw [List.length_cons]
    omega

theorem tiled_last_le (h : Tiled Blk.len (Tag s.mem) m pm bs e qe) (hp : pm ≤ m) : qe ≤ e := by
  induction bs generalizing m pm with
  | nil =>
    obtain ⟨rfl, rfl⟩ := h
    exact hp
  | cons c bs ih => exact ih h.2 (Nat.le_add_left _ _)

theorem wp_malloc_sbrk {sz : Nat} (hbrk : s.brk = s.heaptop) (hne : s.heaptop ≠ SBRK_FAILED) (ok : Bool) :
    wp (malloc_sbrk ok sz)
      (fun x s' => (x = 0 ∧ s' = s) ∨ (x = s.heaptop ∧ s.heaptop + sz < 2 ^ 32 ∧
        s' = { s with brk := s.brk + sz, heaptop := s.heaptop + sz })) E F s := by
  unfold malloc_sbrk sbrk
  rw [wp_bind, wp_read_bind]
  apply wp_if
  · intro hok
    rw [wp_modify_bind, wp_pure, hbrk, if_neg hne, wp_read_bind,
      wp_kassert_bind rfl, wp_modify_bind, wp_pure]
    have hroom : s.heaptop + sz < 2 ^ 32 := hbrk ▸ hok.2
    refine .inr ⟨rfl, hroom, ?_⟩
    rw [add32_eq hroom]
  · intro hok
    rw [wp_pure, if_pos rfl]
    exact .inl ⟨rfl, rfl⟩

theorem HeapRep.sane (h : HeapRep s bs) : s.Sane := by
  obtain ⟨q, htiled⟩ := h.tiled
  have hle := htiled.le
  have hpos := h.base_pos
  unfold UHeap.Sane
  omega

/-- **`malloc`** on a heap: it finds or makes a block, or `sbrk` fails and nothing changes. -/
theorem wp_malloc_body (h : HeapInv s live) (hn : n ≤ 2 ^ 32 - 16) (ok : Bool) :
    wp (malloc_body ok n) (fun x s' => (x = 0 ∧ s' = s) ∨ Gained live n s x s') E F s := by
  obtain ⟨bs, hrep, hset, hown⟩ := h
  obtain ⟨q, htiled⟩ := hrep.tiled
  obtain ⟨hsize, hle, hmax⟩ := roundBlocks_bounds hn
  obtain ⟨hdvd, hqdvd⟩ := tiled_end_dvd htiled hrep.base_dvd (Nat.dvd_zero 8)
  have hlen := tiled_length_le htiled
  have hpos := hrep.base_pos
  have htop := htiled.le
  unfold malloc_body
  rw [wp_read_bind, wp_kassert_bind hrep.sane, wp_bind]
  refine wp_imp (wp_malloc_search hsize hle hrep.top_lt bs htiled (by omega)) ?_
  intro r s1 hr
  rcases hr with ⟨rfl, rfl⟩ | ⟨x, rfl, htaken⟩
  · -- nothing found: the heap grows
    have hfailed : SBRK_FAILED = 2 ^ 32 - 1 := rfl
    have hadd : add32 (roundBlocks n) MBLOCKSIZE = roundBlocks n + 8 :=
      add32_eq (show roundBlocks n + 8 < 2 ^ 32 by omega)
    have hlast := tiled_last_le htiled (Nat.zero_le _)
    have hprev : q / 8 % 2 ^ 29 * 8 = q := by
      have hlt := hrep.top_lt
      omega
    have hnext : M_MKFIELD (roundBlocks n + 8) % 2 ^ 29 * 8 = roundBlocks n + 8 := M_MKFIELD_eq (by omega) (by omega)
    rw [hadd, wp_read_bind, wp_kassert_bind rfl, wp_bind]
    refine wp_imp (wp_malloc_sbrk hrep.top_brk (by omega) ok) ?_
    intro x s2 hx
    rcases hx with ⟨rfl, rfl⟩ | ⟨rfl, hroom, rfl⟩
    · exact .inl ⟨rfl, rfl⟩
    · rw [if_neg (show s1.heaptop ≠ 0 by omega), wp_bind]
      refine wp_of_run_ok (grow_header_run _ _ _ _) ?_
      rw [hprev, hnext, wp_pure]
      have hdata : M_DATA s1.heaptop = s1.heaptop + 8 := add32_eq (show s1.heaptop + 8 < 2 ^ 32 by omega)
      rw [hdata]
      exact .inr (hrep.gained hset hown htiled hsize hle hroom)
  · exact .inr (htaken.gained hrep hset hown)

/-- The state before the first `malloc`. -/
structure NoHeapYet (s : UHeap) (live : Nat → Option Nat) : Prop where
  heapbase : s.heapbase = 0
  heaptop : s.heaptop = 0
  brk_lt : s.brk < 2 ^ 32
  live : ∀ x, live x = none

/-- `__malloc_init` makes an empty heap, or `sbrk` has none to offer. -/
theorem wp_malloc_init (h : NoHeapYet s live) (ok : SbrkOk) :
    wp (malloc_init ok) (fun _ s' => HeapInv s' live) (fun _ _ => False) (fun e => e.noHeap = true) s := by
  have hempty : ∀ base : Nat, base ≠ 0 → base % 8 = 0 → base < 2 ^ 32 →
      HeapInv { s with brk := base, heapbase := base, heaptop := base } live := by
    intro base hne hmod hlt
    refine ⟨[], ⟨Nat.pos_of_ne_zero hne, Nat.dvd_of_mod_eq_zero hmod, rfl, hlt, 0, rfl, rfl⟩, List.isChain_nil, ?_⟩
    intro x n
    rw [h.live x]
    exact ⟨nofun, fun ho => (not_owns_nil ho).elim⟩
  have hblock : MBLOCKSIZE = 8 := rfl
  have hlt := h.brk_lt
  unfold malloc_init sbrk
  rw [wp_bind, wp_read_bind]
  apply wp_if
  · intro hok
    rw [wp_modify_bind, wp_pure, wp_bind, wp_kassert]
    by_cases hfailed : s.brk = SBRK_FAILED
    · rw [if_neg (fun hne => hne hfailed)]
      rfl
    · rw [if_pos hfailed, wp_bind, wp_kassert]
      by_cases hzero : s.brk = 0
      · rw [if_neg (fun hne => hne hzero)]
        rfl
      · rw [if_pos hzero, wp_modify_bind]
        by_cases halign : s.brk % MBLOCKSIZE ≠ 0
        · -- the base of the heap is moved up
          rw [if_pos halign, wp_bind, wp_read_bind, wp_ite, Nat.add_zero]
          by_cases hmore : ok.align = true ∧ s.brk + (MBLOCKSIZE - s.brk % MBLOCKSIZE) < 2 ^ 32
          · rw [if_pos hmore, wp_modify_bind, wp_pure, wp_bind, wp_kassert,
              if_pos hfailed, wp_kassert_bind rfl, wp_modify, add32_eq hmore.2]
            exact hempty (s.brk + (MBLOCKSIZE - s.brk % MBLOCKSIZE)) (by omega) (by rw [hblock]; omega) hmore.2
          · rw [if_neg hmore, wp_pure, wp_bind, wp_kassert, if_neg (fun hne => hne rfl)]
            rfl
        · rw [if_neg halign]
          exact hempty s.brk hzero (not_not.mp halign) hlt
  · intro hok
    rw [wp_pure, wp_bind, wp_kassert, if_neg (fun hne => hne rfl)]
    rfl

/-- What holds between two calls. -/
def MallocInv (s : UHeap) (live : Nat → Option Nat) : Prop := NoHeapYet s live ∨ HeapInv s live

theorem malloc_init_mem (ok : SbrkOk) :
    wp (malloc_init ok) (fun _ s' => s'.mem = s.mem) (fun _ _ => True) (fun _ => True) s := by
  unfold malloc_init sbrk
  simp only [wp_bind, wp_read, wp_ite, wp_modify, wp_pure, wp_kassert]
  split_ifs

/-- **`malloc`.** -/
theorem wp_malloc (h : MallocInv s live) (hn : n ≤ 2 ^ 32 - 16) (ok : SbrkOk) :
    wp (malloc ok n)
      (fun x s' => (x = 0 ∧ Keeps live s s' ∧ MallocInv s' live) ∨ Gained live n s x s')
      (fun _ _ => False) (fun e => e.noHeap = true) s := by
  have hbody : ∀ s1 : UHeap, s1.mem = s.mem → HeapInv s1 live → wp (malloc_body ok.grow n)
      (fun x s' => (x = 0 ∧ Keeps live s s' ∧ MallocInv s' live) ∨ Gained live n s x s')
      (fun _ _ => False) (fun e => e.noHeap = true) s1 := by
    intro s1 hmem h1
    refine wp_imp (wp_malloc_body h1 hn ok.grow) ?_
    intro x s' hx
    rcases hx with ⟨hx, rfl⟩ | hx
    · refine .inl ⟨hx, ?_, .inr h1⟩
      intro y k _ w _ _
      rw [hmem]
    · refine .inr { hx with keeps := ?_ }
      intro y k hy w hlo hhi
      rw [hx.keeps y k hy w hlo hhi, hmem]
  unfold malloc
  rw [wp_read_bind]
  rcases h with h | h
  · rw [if_pos h.heapbase, wp_bind]
    exact wp_mono (wp_and (wp_malloc_init h ok) (malloc_init_mem ok)) (fun _ s1 h1 => hbody s1 h1.2 h1.1)
      (fun _ _ hE => hE.1) (fun _ hF => hF.1)
  · obtain ⟨bs, hrep, hrest⟩ := h
    rw [if_neg (Nat.ne_of_gt hrep.base_pos)]
    exact hbody s rfl ⟨bs, hrep, hrest⟩

/-! ## `free` -/

/-- **Joining** two blocks of the heap. -/
theorem wp_trymerge_at {c : Blk} (h : HeapRep s (pre ++ b :: c :: post))
    (hown : Owned live s.heapbase (pre ++ b :: c :: post))
    (hpre : Tiled Blk.len (Tag s.mem) s.heapbase 0 pre m pm) :
    wp (malloc_trymerge m (m + b.len))
      (fun _ s' => (b.owner = none ∧ c.owner = none ∧ Keeps live s s' ∧ Rewrote s s' m (m + b.len + c.len) (b.len + c.len) ∧
          HeapRep s' (pre ++ ⟨b.len + c.len, none⟩ :: post) ∧
          Owned live s'.heapbase (pre ++ ⟨b.len + c.len, none⟩ :: post)) ∨
        (¬ (b.owner = none ∧ c.owner = none) ∧ s' = s)) E F s := by
  obtain ⟨q, htiled⟩ := h.tiled
  obtain ⟨m', pm', hpre', hb, hc, hpost⟩ := tiled_append.mp htiled
  obtain ⟨rfl, rfl⟩ := hpre.end_unique hpre'
  have hend := hpost.le
  have hlt := h.top_lt
  refine wp_imp (wp_malloc_trymerge hb hc (by omega) (seam_word hpost)) ?_
  intro _ s' hs'
  rcases hs' with ⟨hbfree, hcfree, hrw, htag⟩ | hsame
  · have hmid : Tiled Blk.len (Tag s.mem) m pm [b, c] (m + b.len + c.len) c.len := ⟨hb, hc, rfl, rfl⟩
    have hmid' : Tiled Blk.len (Tag s'.mem) m pm [⟨b.len + c.len, none⟩] (m + b.len + c.len) (b.len + c.len) :=
      ⟨htag, (Nat.add_assoc _ _ _).symm, rfl⟩
    have hnone : ∀ y k, ¬ Owns m [b, c] y k := by
      intro y k
      refine not_owns_free ?_
      simp [hbfree, hcfree]
    have hnone' : ∀ y k, ¬ Owns m [⟨b.len + c.len, none⟩] y k := by
      intro y k
      refine not_owns_free ?_
      simp
    have hlive : ∀ y k, live y = some k ↔ Owns s.heapbase pre y k ∨ Owns (m + b.len + c.len) post y k := by
      intro y k
      rw [hown y k, show pre ++ b :: c :: post = pre ++ [b, c] ++ post by simp, owns_middle hpre hmid]
      simp only [hnone, false_or]
    have hrep := hrw.heapRep htag.len_dvd h hpre hpost hmid'
    rw [List.append_assoc, List.singleton_append] at hrep
    refine .inl ⟨hbfree, hcfree, hrw.keeps hpre hpost fun y k hy => (hlive y k).mp hy, hrw, hrep, ?_⟩
    intro y k
    rw [hrw.changed.heapbase, hlive y k, ← List.singleton_append, ← List.append_assoc, owns_middle hpre hmid']
    simp only [hnone', false_or]
  · exact .inr hsame

/-- A heap in which the block at `m` has just become free and may have free neighbours. -/
structure Freed (s : UHeap) (live : Nat → Option Nat) (m : Nat) (pre : List Blk) (b : Blk) (post : List Blk) : Prop where
  rep : HeapRep s (pre ++ b :: post)
  owned : Owned live s.heapbase (pre ++ b :: post)
  place : ∃ pm, Tiled Blk.len (Tag s.mem) s.heapbase 0 pre m pm
  free : b.owner = none
  below : Settled (fun b => b.owner = none) pre
  above : Settled (fun b => b.owner = none) post

/-- After the block above: what is above now is in use. -/
theorem Freed.merge_above (h : Freed s live m pre b post) :
    wp (free_merge_above m)
      (fun _ s' => Keeps live s s' ∧ ∃ b' post', Freed s' live m pre b' post' ∧ ∀ c ∈ post'.head?, c.owner ≠ none)
      E F s := by
  obtain ⟨pm, hpre⟩ := h.place
  obtain ⟨q, htiled⟩ := h.rep.tiled
  obtain ⟨m', pm', hpre', hb, hpost⟩ := tiled_append.mp htiled
  obtain ⟨rfl, rfl⟩ := hpre.end_unique hpre'
  have hend := hpost.le
  have hlt := h.rep.top_lt
  unfold free_merge_above
  rw [wp_read_bind, wp_ite, hb.next (by omega)]
  cases post with
  | nil =>
    rw [if_neg (fun hne => hne hpost.1)]
    exact ⟨Keeps.refl, b, [], h, nofun⟩
  | cons c post =>
    have hcpos := hpost.1.len_pos
    have hcend := hpost.2.le
    rw [if_pos (show m + b.len ≠ s.heaptop by omega)]
    refine wp_imp (wp_trymerge_at h.rep h.owned hpre) ?_
    intro _ s' hs'
    obtain ⟨-, hspost, -, hhead⟩ := settled_middle.mp (show Settled _ ([] ++ c :: post) from h.above)
    rcases hs' with ⟨-, hcfree, hkeeps, hrw, hrep, hown⟩ | ⟨hnot, rfl⟩
    · refine ⟨hkeeps, _, post, ⟨hrep, hown, ?_, rfl, h.below, hspost⟩, hhead hcfree⟩
      obtain ⟨q', htiled'⟩ := hrep.tiled
      obtain ⟨m'', pm'', hpre'', -⟩ := tiled_append.mp htiled'
      rw [hrw.changed.heapbase] at hpre'' ⊢
      obtain ⟨rfl, rfl⟩ := hpre.end_unique hpre''
      exact ⟨_, hpre''⟩
    · refine ⟨Keeps.refl, b, c :: post, h, ?_⟩
      intro d hd
      cases hd
      exact fun hfree => hnot ⟨h.free, hfree⟩

/-- After the block below the heap is in order. -/
theorem Freed.merge_below (h : Freed s live m pre b post) (hhead : ∀ c ∈ post.head?, c.owner ≠ none) :
    wp (free_merge_below m)
      (fun _ s' => Keeps live s s' ∧ HeapInv s' live) E F s := by
  obtain ⟨pm, hpre⟩ := h.place
  obtain ⟨q, htiled⟩ := h.rep.tiled
  obtain ⟨m', pm', hpre', hb, hpost⟩ := tiled_append.mp htiled
  obtain ⟨rfl, rfl⟩ := hpre.end_unique hpre'
  have hend := hpost.le
  have hlt := h.rep.top_lt
  unfold free_merge_below
  rw [wp_read_bind, wp_ite]
  rcases List.eq_nil_or_concat pre with rfl | ⟨front, d, rfl⟩
  · -- at the bottom of the heap
    rw [if_neg (fun hne => hne hpre.1.symm)]
    exact ⟨Keeps.refl, _, h.rep, settled_middle.mpr ⟨h.below, h.above, fun _ => nofun, fun _ => hhead⟩, h.owned⟩
  · rw [List.concat_eq_append] at hpre h
    obtain ⟨k, pk, hfront, hd, hkm, hkp⟩ := tiled_append.mp hpre
    have hdpos := hd.len_pos
    have hbase := hfront.le
    subst hkm hkp
    rw [if_pos (show k + d.len ≠ s.heapbase by omega), hb.prev (Nat.le_add_left _ _) (by omega), Nat.add_sub_cancel]
    have hlist : front ++ [d] ++ b :: post = front ++ d :: b :: post := by simp
    have hrep := h.rep
    have hown := h.owned
    rw [hlist] at hrep hown
    obtain ⟨hsfront, -, hlast, -⟩ := settled_middle.mp (show Settled _ (front ++ d :: []) from h.below)
    refine wp_imp (wp_trymerge_at hrep hown hfront) ?_
    intro _ s' hs'
    rcases hs' with ⟨hdfree, -, hkeeps, -, hrep', hown'⟩ | ⟨hnot, rfl⟩
    · exact ⟨hkeeps, _, hrep', settled_middle.mpr ⟨hsfront, h.above, fun _ => hlast hdfree, fun _ => hhead⟩, hown'⟩
    · refine ⟨Keeps.refl, _, h.rep, settled_middle.mpr ⟨h.below, h.above, fun _ => ?_, fun _ => hhead⟩, h.owned⟩
      intro c hc
      rw [List.getLast?_concat] at hc
      cases hc
      exact fun hdfree => hnot ⟨hdfree, h.free⟩

section

variable (h : HeapInv s live) (hx : live x = some n)
include h hx

/-- The block of a live pointer. -/
theorem HeapInv.block :
    ∃ pre b post m pm q, x = m + 8 ∧ b.owner = some n ∧ HeapRep s (pre ++ b :: post) ∧
      Settled (fun b => b.owner = none) (pre ++ b :: post) ∧ Owned live s.heapbase (pre ++ b :: post) ∧
      Tiled Blk.len (Tag s.mem) s.heapbase 0 pre m pm ∧ Tag s.mem m pm b ∧
      Tiled Blk.len (Tag s.mem) (m + b.len) b.len post s.heaptop q := by
  obtain ⟨bs, hrep, hset, hown⟩ := h
  obtain ⟨q, htiled⟩ := hrep.tiled
  obtain ⟨⟨m, b⟩, hc, hxm, hbn⟩ := (hown x n).mp hx
  obtain ⟨pre, post, pm, rfl, hpre, hb, hpost⟩ := htiled.split_at hc
  exact ⟨pre, b, post, m, pm, q, hxm, hbn, hrep, hset, hown, hpre, hb, hpost⟩

/-- **`free`** of a live pointer that is not the top of the heap. -/
theorem wp_free (htop : x ≠ s.heaptop) :
    wp (free x) (fun _ s' => Keeps (update live x none) s s' ∧ HeapInv s' (update live x none))
      (fun _ _ => False) (fun _ => False) s := by
  obtain ⟨pre, b, post, m, pm, q, rfl, hbn, hrep, hset, hown, hpre, hb, hpost⟩ := h.block hx
  have hbase := hpre.le
  have hpos := hb.len_pos
  have hend := hpost.le
  have hlt := hrep.top_lt
  have hmh : sub32 (m + 8) MBLOCKSIZE = m := sub32_eq (by omega) (Nat.le_add_left _ _)
  have hused : s.mh_inuse m ≠ 0 := by
    rw [ne_eq, hb.inuse_eq_zero, hbn]
    exact nofun
  unfold free
  rw [if_neg (Nat.succ_ne_zero _), wp_bind, wp_read, wp_bind, wp_kassert, if_pos hrep.sane,
    wp_bind, wp_kassert, if_pos (by omega), hmh, wp_bind, wp_kassert, if_pos hb.ok, wp_bind,
    wp_kassert, if_pos hused, wp_bind]
  refine wp_imp (wp_free_wipe hb (by omega)) ?_
  intro _ s1 h1
  obtain ⟨hch, htag⟩ := h1
  have hrw : Rewrote s s1 m (m + b.len) b.len := by
    refine ⟨hch.widen (Nat.le_refl _) (Nat.le_succ _), ?_⟩
    intro hne
    rw [hch.mem _ (.inr (Nat.le_refl _))]
    exact seam_word hpost hne
  have hone : Tiled Blk.len (Tag s.mem) m pm [b] (m + b.len) b.len := ⟨hb, rfl, rfl⟩
  have hmid : Tiled Blk.len (Tag s1.mem) m pm [⟨b.len, none⟩] (m + b.len) b.len := ⟨htag, rfl, rfl⟩
  -- the other blocks in use are those of before
  have hothers : ∀ y k, update live (m + 8) none y = some k ↔
      Owns s.heapbase pre y k ∨ Owns (m + b.len) post y k := by
    intro y k
    by_cases hy : y = m + 8
    · subst hy
      rw [update_self]
      constructor
      · exact nofun
      · intro ho
        rcases ho with ho | ho
        · obtain ⟨-, hlast, -⟩ := ho.bounds hpre
          omega
        · obtain ⟨hfirst, -, -⟩ := ho.bounds hpost
          omega
    · have hnot : ¬ Owns m [b] y k := by
        rw [owns_cons]
        intro ho
        rcases ho with ⟨hy', -⟩ | ho
        · exact hy hy'
        · exact not_owns_nil ho
      rw [update_of_ne hy, hown y k, ← List.singleton_append, ← List.append_assoc, owns_middle hpre hone]
      simp only [hnot, false_or]
  have hrep1 := hrw.heapRep hb.len_dvd hrep hpre hpost hmid
  rw [List.append_assoc, List.singleton_append] at hrep1
  obtain ⟨hspre, hspost, -, -⟩ := settled_middle.mp hset
  have hfreed : Freed s1 (update live (m + 8) none) m pre ⟨b.len, none⟩ post := by
    refine ⟨hrep1, ?_, ?_, rfl, hspre, hspost⟩
    · intro y k
      have hnone : ¬ Owns m [⟨b.len, none⟩] y k := not_owns_free (by simp)
      rw [hothers y k, hch.heapbase, ← List.singleton_append, ← List.append_assoc, owns_middle hpre hmid]
      simp only [hnone, false_or]
    · obtain ⟨q1, htiled1⟩ := hrep1.tiled
      obtain ⟨m1, pm1, hpre1, -⟩ := tiled_append.mp htiled1
      rw [hch.heapbase] at hpre1 ⊢
      obtain ⟨rfl, rfl⟩ := hpre.end_unique hpre1
      exact ⟨_, hpre1⟩
  have hkeeps1 : Keeps (update live (m + 8) none) s s1 :=
    hrw.keeps hpre hpost fun y k hy => (hothers y k).mp hy
  rw [wp_bind]
  refine wp_imp hfreed.merge_above ?_
  intro _ s2 h2
  obtain ⟨hkeeps2, b', post', hfreed', hhead⟩ := h2
  refine wp_imp (hfreed'.merge_below hhead) ?_
  intro _ s3 h3
  exact ⟨(hkeeps1.trans hkeeps2).trans h3.1, h3.2⟩

/-- A block of no bytes at the top of the heap cannot be freed. -/
theorem wp_free_top (htop : x = s.heaptop) :
    wp (free x) (fun _ _ => False) (fun _ _ => False) (fun e => e = .free_range) s := by
  obtain ⟨pre, b, post, m, pm, q, rfl, hbn, hrep, -⟩ := h.block hx
  unfold free
  rw [if_neg (Nat.succ_ne_zero _), wp_bind, wp_read, wp_bind, wp_kassert, if_pos hrep.sane,
    wp_bind, wp_kassert, if_neg (by omega)]

end

end Whole

end OS161
