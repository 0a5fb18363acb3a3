import OS161.Vm.Kmalloc

/-! # Invariants of the subpage allocator

The shape of the heap in every state, and with it `kmalloc_safe`: blocks in use do not overlap,
no assertion of the allocator fails, and a `kmalloc` that fails leaves everything as it was.

`HeapInv` describes a heap by a `Layout`: the lists of pagerefs and, for each page, the offsets
of its free blocks.
-/

namespace OS161.Kmalloc

open Framework Kern Function

/-! ## Block sizes -/

variable {k : Nat} {E : Empty → Heap → Prop} {F : KmPanic → Prop}

theorem sizes_pos (hk : k < NSIZES) : 16 ≤ sizes k := by
  revert k
  decide

theorem sizes_mul (hk : k < NSIZES) : PAGE_SIZE / sizes k * sizes k = PAGE_SIZE := by
  revert k
  decide

theorem sizes_div (hk : k < NSIZES) : 2 ≤ PAGE_SIZE / sizes k ∧ PAGE_SIZE / sizes k ≤ 256 := by
  revert k
  decide

theorem blocktype_some {sz k : Nat} (h : blocktype sz = some k) : k < NSIZES ∧ sz ≤ sizes k := by
  have hle := List.find?_some h
  have hmem := List.mem_of_find?_eq_some h
  exact ⟨List.mem_range.mp hmem, by simpa using hle⟩

theorem blocktype_small {sz : Nat} (h : sz < LARGEST_SUBPAGE_SIZE) : ∃ k, blocktype sz = some k := by
  have hsome : (blocktype sz).isSome := by
    apply List.find?_isSome.mpr
    refine ⟨7, by decide, ?_⟩
    have hlast : sizes 7 = 2048 := rfl
    have hmax : LARGEST_SUBPAGE_SIZE = 2048 := rfl
    simp only [decide_eq_true_eq]
    omega
  exact Option.isSome_iff_exists.mp hsome

theorem blockSize_eq {sz k : Nat} (h : blocktype sz = some k) : blockSize sz = sizes k := by
  rw [blockSize, h]
  rfl

/-- The offset of a block in a page with blocks of type `k`. -/
def IsBlock (k o : Nat) : Prop := o % sizes k = 0 ∧ o < PAGE_SIZE

/-- The offsets of the first `n` blocks, last one first. -/
def blocksDown (size : Nat) : (n : Nat) → List Nat
  | 0 => []
  | i + 1 => i * size :: blocksDown size i

@[simp] theorem length_blocksDown (size n : Nat) : (blocksDown size n).length = n := by
  induction n with
  | zero => rfl
  | succ i ih => simp [blocksDown, ih]

theorem mem_blocksDown {size n o : Nat} : o ∈ blocksDown size n ↔ ∃ i < n, o = i * size := by
  induction n with
  | zero => simp [blocksDown]
  | succ i ih =>
    rw [blocksDown, List.mem_cons, ih]
    constructor
    · intro h
      rcases h with rfl | ⟨j, hj, rfl⟩
      · exact ⟨i, Nat.lt_succ_self i, rfl⟩
      · exact ⟨j, Nat.lt_succ_of_lt hj, rfl⟩
    · intro ⟨j, hj, ho⟩
      by_cases hji : j = i
      · exact .inl (hji ▸ ho)
      · exact .inr ⟨j, by omega, ho⟩

/-- The blocks of a page. -/
theorem isBlock_iff (hk : k < NSIZES) (o : Nat) :
    IsBlock k o ↔ o ∈ blocksDown (sizes k) (PAGE_SIZE / sizes k) := by
  have hpos := sizes_pos hk
  have hmul := sizes_mul hk
  rw [mem_blocksDown]
  constructor
  · intro ⟨hmod, hlt⟩
    refine ⟨o / sizes k, ?_, (Nat.div_mul_cancel (Nat.dvd_of_mod_eq_zero hmod)).symm⟩
    apply Nat.div_lt_of_lt_mul
    rw [Nat.mul_comm, hmul]
    exact hlt
  · intro ⟨i, hi, ho⟩
    rw [ho]
    refine ⟨Nat.mul_mod_left i _, ?_⟩
    calc i * sizes k < PAGE_SIZE / sizes k * sizes k := Nat.mul_lt_mul_of_pos_right hi (by omega)
      _ = PAGE_SIZE := hmul

/-- Two blocks of a page are the same or do not overlap. -/
theorem IsBlock.apart {k o o' : Nat} (h : IsBlock k o) (h' : IsBlock k o') (hne : o ≠ o') :
    o + sizes k ≤ o' ∨ o' + sizes k ≤ o := by
  have hdvd := Nat.dvd_of_mod_eq_zero h.1
  have hdvd' := Nat.dvd_of_mod_eq_zero h'.1
  rcases Nat.lt_or_gt_of_ne hne with hlt | hlt
  · exact .inl (Nat.le_of_lt_add_of_dvd (Nat.add_lt_add_right hlt _) (Nat.dvd_add_self_right.mpr hdvd) hdvd')
  · exact .inr (Nat.le_of_lt_add_of_dvd (Nat.add_lt_add_right hlt _) (Nat.dvd_add_self_right.mpr hdvd') hdvd)

theorem sizes_dvd (hk : k < NSIZES) : sizes k ∣ PAGE_SIZE := ⟨_, (sizes_mul hk).symm.trans (Nat.mul_comm ..)⟩

/-- A block lies inside its page. -/
theorem IsBlock.inside {k o : Nat} (hk : k < NSIZES) (h : IsBlock k o) : o + sizes k ≤ PAGE_SIZE :=
  Nat.le_of_lt_add_of_dvd (Nat.add_lt_add_right h.2 _)
    (Nat.dvd_add_self_right.mpr (Nat.dvd_of_mod_eq_zero h.1)) (sizes_dvd hk)

variable {o : Nat}

theorem offset_valid (h : o < PAGE_SIZE) : o ≠ INVALID_OFFSET := by
  have hsize : PAGE_SIZE = 4096 := rfl
  have : INVALID_OFFSET = 65535 := rfl
  omega

/-- Free blocks are not more than there are blocks, and if they are as many, then every block is
free. -/
theorem free_count (hk : k < NSIZES) {l : List Nat} (hl : l.Nodup) (hblock : ∀ o ∈ l, IsBlock k o) :
    l.length ≤ PAGE_SIZE / sizes k ∧
      (l.length = PAGE_SIZE / sizes k → ∀ o, IsBlock k o → o ∈ l) := by
  have hsub : l ⊆ blocksDown (sizes k) (PAGE_SIZE / sizes k) :=
    fun o ho => (isBlock_iff hk o).mp (hblock o ho)
  have hperm := List.subperm_of_subset hl hsub
  refine ⟨by simpa using hperm.length_le, fun hlen o ho => ?_⟩
  have := hperm.perm_of_length_le (by simp [hlen])
  exact this.mem_iff.mpr ((isBlock_iff hk o).mp ho)

/-! ## The bitmap -/

theorem getLsbD_bit {j i : Nat} (hi : i < 32) : (1#32 <<< j).getLsbD i = decide (i = j) := by
  simp only [BitVec.getLsbD_shiftLeft, BitVec.getLsbD_one]
  by_cases h : i = j
  · subst h
    simp [hi]
  · simp [h]
    omega

theorem getLsbD_mark (w : BitVec 32) {j i : Nat} (hi : i < 32) :
    (w ||| 1#32 <<< j).getLsbD i = (w.getLsbD i || decide (i = j)) := by
  rw [BitVec.getLsbD_or, getLsbD_bit hi]

theorem getLsbD_unmark (w : BitVec 32) {j i : Nat} (hi : i < 32) :
    (w &&& ~~~(1#32 <<< j)).getLsbD i = (w.getLsbD i && !decide (i = j)) := by
  rw [BitVec.getLsbD_and, BitVec.getLsbD_not, getLsbD_bit hi, decide_eq_true hi, Bool.true_and]

theorem clearBit_some {w : BitVec 32} {j : Fin 32} (h : clearBit w = some j) :
    w.getLsbD j = false := by
  have := List.find?_some h
  simpa using this

theorem clearBit_none {w : BitVec 32} (h : clearBit w = none) : w = 0xffffffff#32 := by
  apply BitVec.eq_of_getLsbD_eq
  intro i hi
  have hset := List.find?_eq_none.mp h ⟨i, hi⟩ (List.mem_finRange _)
  have hones : (0xffffffff#32).getLsbD i = true := by
    rw [show 0xffffffff#32 = BitVec.allOnes 32 from rfl, BitVec.getLsbD_allOnes]
    simpa using hi
  rw [hones]
  simpa using hset

theorem wordOf_prId (i : Fin INUSE_WORDS) (j : Fin 32) : wordOf (prId i j) = i := by
  rw [Fin.ext_iff]
  show (i.val * 32 + j.val) / 32 = i.val
  omega

/-- The bits after one of them has been set. -/
theorem inuse_mark (h : Heap) (i : Fin INUSE_WORDS) (j : Fin 32) (q : PrId) :
    (h.setWord i (h.pagerefs_inuse i ||| 1#32 <<< j.val)).inuse q =
      (h.inuse q || decide (q = prId i j)) := by
  have hmod : q.val % 32 < 32 := Nat.mod_lt _ (by decide)
  unfold Heap.inuse Heap.setWord
  by_cases hi : wordOf q = i
  · have hq : q = prId i j ↔ q.val % 32 = j.val := by
      rw [← hi, Fin.ext_iff]
      show q.val = q.val / 32 * 32 + j.val ↔ _
      omega
    simp only [hi, update_self, getLsbD_mark _ hmod, hq]
  · have hq : q ≠ prId i j := fun heq => hi (heq ▸ wordOf_prId i j)
    simp only [update_of_ne hi, hq, decide_false, Bool.or_false]

/-- The bits after one of them has been cleared. -/
theorem inuse_unmark (h : Heap) (p q : PrId) :
    (h.setWord (wordOf p) (h.pagerefs_inuse (wordOf p) &&& ~~~(1#32 <<< (p.val % 32)))).inuse q =
      (h.inuse q && !decide (q = p)) := by
  have hmod : q.val % 32 < 32 := Nat.mod_lt _ (by decide)
  unfold Heap.inuse Heap.setWord
  by_cases hi : wordOf q = wordOf p
  · have hq : q = p ↔ q.val % 32 = p.val % 32 := by
      have hdiv : q.val / 32 = p.val / 32 := congrArg Fin.val hi
      rw [Fin.ext_iff]
      omega
    simp only [hi, update_self, getLsbD_unmark _ hmod, hq]
  · have hq : q ≠ p := fun heq => hi (by rw [heq])
    simp only [update_of_ne hi, hq, decide_false, Bool.not_false, Bool.and_true]

/-- **`allocpageref`** finds a pageref that is not in use, or changes nothing. -/
theorem wp_allocpageref (h : Heap) :
    wp allocpageref (fun r h' =>
        match r with
        | none => h' = h
        | some p => h.inuse p = false ∧ ∃ w, h' = { h with pagerefs_inuse := w } ∧
            ∀ q, h'.inuse q = (h.inuse q || decide (q = p))) E F h := by
  unfold allocpageref
  generalize List.finRange INUSE_WORDS = words
  induction words with
  | nil => exact rfl
  | cons i rest ih =>
    unfold allocpageref_loop
    simp only [wp_bind, wp_read, wp_ite]
    split
    · exact ih
    · rename_i hfull
      cases hbit : clearBit (h.pagerefs_inuse i) with
      | none => exact absurd (clearBit_none hbit) hfull
      | some j =>
        refine ⟨?_, _, rfl, inuse_mark h i j⟩
        have hclear := clearBit_some hbit
        unfold Heap.inuse
        have hmod : (prId i j).val % 32 = j.val := by
          have := j.isLt
          show (i.val * 32 + j.val) % 32 = j.val
          omega
        rw [wordOf_prId, hmod]
        exact hclear

/-! ## The shape of the heap -/

/-- The lists of a heap. -/
structure Layout where
  all : List PrId
  bySize : Nat → List PrId
  /-- The offsets of the free blocks of each page. -/
  free : PrId → List Nat

/-- Another free list for one page. -/
def Layout.setFree (L : Layout) (p : PrId) (l : List Nat) : Layout :=
  { L with free := update L.free p l }

@[simp] theorem Layout.setFree_self (L : Layout) (p : PrId) (l : List Nat) :
    (L.setFree p l).free p = l :=
  update_self ..

theorem Layout.setFree_of_ne (L : Layout) {p q : PrId} (hq : q ≠ p) (l : List Nat) :
    (L.setFree p l).free q = L.free q :=
  update_of_ne hq _ _

/-- The lists are those of the layout, pagerefs in use have pages of their own, and free lists hold
blocks of their page only. -/
structure HeapInv (h : Heap) (L : Layout) : Prop where
  all : Chain h.nextAll h.allbase L.all
  same : ∀ k < NSIZES, Chain h.nextSame (h.sizebases k) (L.bySize k)
  mem_all : ∀ p, p ∈ L.all ↔ h.inuse p = true
  mem_size : ∀ k < NSIZES, ∀ p, p ∈ L.bySize k ↔ p ∈ L.all ∧ h.btype p = k
  btype : ∀ p ∈ L.all, h.btype p < NSIZES
  page : ∀ p ∈ L.all, IsPage (h.page p)
  distinct : ∀ p ∈ L.all, ∀ q ∈ L.all, h.page p = h.page q → p = q
  chain : ∀ p ∈ L.all, Chain h.nextBlock (h.freeHead p) ((L.free p).map (h.page p + ·))
  block : ∀ p ∈ L.all, ∀ o ∈ L.free p, IsBlock (h.btype p) o
  nfree : ∀ p ∈ L.all, (h.pagerefs p).nfree = (L.free p).length

/-- Set the two fields of a pageref that describe its free list. -/
def Heap.setFree (h : Heap) (p : PrId) (offset n : Nat) : Heap :=
  h.setPageref p fun r => { r with nfree := n, freelist_offset := offset }

section SetFree

variable (h : Heap) (p : PrId) (offset n : Nat)

theorem Heap.setFree_self :
    (h.setFree p offset n).pagerefs p =
      { h.pagerefs p with nfree := n, freelist_offset := offset } :=
  update_self ..

theorem Heap.setFree_of_ne {q : PrId} (hq : q ≠ p) :
    (h.setFree p offset n).pagerefs q = h.pagerefs q :=
  update_of_ne hq _ _

/-- The other fields stay. -/
theorem Heap.setFree_field {β : Type} (f : PageRef → β)
    (hf : ∀ r, f { r with nfree := n, freelist_offset := offset } = f r) (q : PrId) :
    f ((h.setFree p offset n).pagerefs q) = f (h.pagerefs q) := by
  by_cases hq : q = p
  · rw [hq, Heap.setFree_self, hf]
  · rw [Heap.setFree_of_ne _ _ _ _ hq]

@[simp] theorem Heap.setFree_nextAll : (h.setFree p offset n).nextAll = h.nextAll :=
  funext (h.setFree_field p offset n PageRef.next_all fun _ => rfl)

@[simp] theorem Heap.setFree_nextSame : (h.setFree p offset n).nextSame = h.nextSame :=
  funext (h.setFree_field p offset n PageRef.next_samesize fun _ => rfl)

@[simp] theorem Heap.setFree_page (q : PrId) : (h.setFree p offset n).page q = h.page q :=
  h.setFree_field p offset n PageRef.pageaddr (fun _ => rfl) q

@[simp] theorem Heap.setFree_btype (q : PrId) : (h.setFree p offset n).btype q = h.btype q :=
  h.setFree_field p offset n PageRef.blocktype (fun _ => rfl) q

@[simp] theorem Heap.setFree_nextBlock : (h.setFree p offset n).nextBlock = h.nextBlock := rfl

theorem Heap.setFree_freeHead_self :
    (h.setFree p offset n).freeHead p =
      if offset = INVALID_OFFSET then none else some (h.page p + offset) := by
  unfold Heap.freeHead
  rw [Heap.setFree_page, Heap.setFree_self]

theorem Heap.setFree_freeHead_of_ne {q : PrId} (hq : q ≠ p) :
    (h.setFree p offset n).freeHead q = h.freeHead q := by
  unfold Heap.freeHead
  rw [Heap.setFree_page, Heap.setFree_of_ne _ _ _ _ hq]

end SetFree

namespace HeapInv

variable {h : Heap} {L : Layout} {p : PrId}

section

variable (hinv : HeapInv h L)
include hinv

/-- Pages of the heap do not overlap. -/
theorem apart {q : PrId} (hp : p ∈ L.all) (hq : q ∈ L.all) (hne : p ≠ q)
    {o o' : Nat} (ho : o < PAGE_SIZE) (ho' : o' < PAGE_SIZE) : h.page p + o ≠ h.page q + o' := by
  have hpage : h.page p ≠ h.page q := fun heq => hne (hinv.distinct p hp q hq heq)
  have hmod : h.page p % 4096 = 0 := (hinv.page p hp).1
  have hmod' : h.page q % 4096 = 0 := (hinv.page q hq).1
  have hsize : PAGE_SIZE = 4096 := rfl
  omega

/-- Two blocks of the heap do not overlap. -/
theorem blocks_apart {q : PrId} (hp : p ∈ L.all) (hq : q ∈ L.all) {o o' : Nat}
    (ho : IsBlock (h.btype p) o) (ho' : IsBlock (h.btype q) o') (hne : ¬ (p = q ∧ o = o')) :
    h.page p + o + sizes (h.btype p) ≤ h.page q + o' ∨ h.page q + o' + sizes (h.btype q) ≤ h.page p + o := by
  by_cases hpq : p = q
  · subst hpq
    have := ho.apart ho' fun heq => hne ⟨rfl, heq⟩
    omega
  · have hin := ho.inside (hinv.btype p hp)
    have hin' := ho'.inside (hinv.btype q hq)
    have hpage : h.page p ≠ h.page q := fun heq => hpq (hinv.distinct p hp q hq heq)
    have hmod : h.page p % 4096 = 0 := (hinv.page p hp).1
    have hmod' : h.page q % 4096 = 0 := (hinv.page q hq).1
    have hsize : PAGE_SIZE = 4096 := rfl
    omega

theorem free_nodup (hp : p ∈ L.all) : (L.free p).Nodup :=
  (hinv.chain p hp).nodup.of_map _

/-- Words that are not the first ones of free blocks do not matter. -/
theorem of_mem {mem : Nat → Nat}
    (hmem : ∀ p ∈ L.all, ∀ o ∈ L.free p, mem (h.page p + o) = h.mem (h.page p + o)) :
    HeapInv { h with mem := mem } L :=
  { hinv with
    chain := by
      intro p hp
      apply (hinv.chain p hp).congr
      intro a ha
      obtain ⟨o, ho, rfl⟩ := List.mem_map.mp ha
      simp only [Heap.nextBlock, hmem p hp o ho] }

/-- Another free list for one page. -/
theorem setFree (hp : p ∈ L.all) {offset : Nat} {l : List Nat}
    (hchain : Chain h.nextBlock (if offset = INVALID_OFFSET then none else some (h.page p + offset))
      (l.map (h.page p + ·)))
    (hblock : ∀ o ∈ l, IsBlock (h.btype p) o) :
    HeapInv (h.setFree p offset l.length) (L.setFree p l) where
  all := by rw [Heap.setFree_nextAll]; exact hinv.all
  same := by rw [Heap.setFree_nextSame]; exact hinv.same
  mem_all := hinv.mem_all
  mem_size := by
    intro k hk q
    rw [Heap.setFree_btype]
    exact hinv.mem_size k hk q
  btype := by
    intro q hq
    rw [Heap.setFree_btype]
    exact hinv.btype q hq
  page := by
    intro q hq
    rw [Heap.setFree_page]
    exact hinv.page q hq
  distinct := by
    intro q hq q' hq'
    rw [Heap.setFree_page, Heap.setFree_page]
    exact hinv.distinct q hq q' hq'
  chain := by
    intro q hq
    rw [Heap.setFree_nextBlock, Heap.setFree_page]
    by_cases hqp : q = p
    · subst hqp
      rw [Heap.setFree_freeHead_self]
      simpa only [Layout.setFree_self] using hchain
    · rw [Heap.setFree_freeHead_of_ne _ _ _ _ hqp]
      simpa only [Layout.setFree_of_ne _ hqp] using hinv.chain q hq
  block := by
    intro q hq o ho
    rw [Heap.setFree_btype]
    by_cases hqp : q = p
    · subst hqp
      exact hblock o (by simpa only [Layout.setFree_self] using ho)
    · exact hinv.block q hq o (by simpa only [Layout.setFree_of_ne _ hqp] using ho)
  nfree := by
    intro q hq
    by_cases hqp : q = p
    · subst hqp
      rw [Heap.setFree_self]
      simp only [Layout.setFree_self]
    · rw [Heap.setFree_of_ne _ _ _ _ hqp]
      simpa only [Layout.setFree_of_ne _ hqp] using hinv.nfree q hq

end

end HeapInv

/-! ## Taking a block -/

section Alloc

variable {h : Heap} {L : Layout} {p : PrId}

/-- The search walks along a list of pagerefs of the right type. -/
theorem wp_find_free {k fuel : Nat} {base : Option PrId} {l : List PrId}
    (hchain : Chain h.nextSame base l) (htype : ∀ p ∈ l, h.btype p = k) (hfuel : l.length < fuel) :
    wp (find_free k fuel base)
      (fun r h' => h' = h ∧ ∀ p, r = some p → p ∈ l ∧ 0 < (h.pagerefs p).nfree) E F h := by
  induction l generalizing base fuel with
  | nil =>
    have hbase : base = none := hchain
    subst hbase
    cases fuel with
    | zero => exact absurd hfuel (Nat.not_lt_zero _)
    | succ fuel => exact ⟨rfl, fun p hp => nomatch hp⟩
  | cons a l ih =>
    obtain ⟨rfl, hl⟩ := hchain
    cases fuel with
    | zero => exact absurd hfuel (Nat.not_lt_zero _)
    | succ fuel =>
      unfold find_free
      simp only [wp_bind, wp_read, wp_kassert, wp_ite]
      rw [if_pos (htype a (List.mem_cons_self ..))]
      split
      · rename_i hfree
        refine ⟨rfl, fun p hp => ?_⟩
        cases hp
        exact ⟨List.mem_cons_self .., hfree⟩
      · refine wp_imp (ih hl (fun p hp => htype p (List.mem_cons_of_mem _ hp))
          (Nat.lt_of_succ_lt_succ hfuel)) (fun r h' hr => ⟨hr.1, fun p hp => ?_⟩)
        exact ⟨List.mem_cons_of_mem _ (hr.2 p hp).1, (hr.2 p hp).2⟩

/-- The fields of a page with a free block. -/
theorem HeapInv.freelist_offset (hinv : HeapInv h L) (hp : p ∈ L.all) {rest : List Nat}
    (hfree : L.free p = o :: rest) :
    (h.pagerefs p).freelist_offset = o ∧
      Chain h.nextBlock (h.nextBlock (h.page p + o)) (rest.map (h.page p + ·)) := by
  have hchain := hinv.chain p hp
  rw [hfree] at hchain
  obtain ⟨hhead, hrest⟩ := hchain
  unfold Heap.freeHead at hhead
  split at hhead
  · cases hhead
  · exact ⟨Nat.add_left_cancel (Option.some.inj hhead), hrest⟩

/-- The two `uint16_t` and `uint32_t` differences that `doalloc` takes. -/
theorem dec_wrap {n m : Nat} (hn : n = m + 1) (hm : m < 256) : (n + 2 ^ 16 - 1) % 2 ^ 16 = m := by
  omega

theorem sub_wrap {base o : Nat} (h : base + o < 2 ^ 32) : (base + o + 2 ^ 32 - base) % 2 ^ 32 = o := by
  omega

/-- A page has at most 256 free blocks. -/
theorem HeapInv.length_free_le (hinv : HeapInv h L) (hp : p ∈ L.all) : (L.free p).length ≤ 256 := by
  have hk := hinv.btype p hp
  exact Nat.le_trans (free_count hk (hinv.free_nodup hp) (hinv.block p hp)).1 (sizes_div hk).2

/-- The word in a free block. -/
theorem Heap.nextBlock_eq {a : Nat} {r : Option Nat} (hr : h.nextBlock a = r) :
    h.mem a = r.getD 0 ∧ (r ≠ none → h.mem a ≠ 0) := by
  subst hr
  unfold Heap.nextBlock
  split
  · exact ⟨by assumption, fun hne => absurd rfl hne⟩
  · exact ⟨rfl, fun _ => by assumption⟩

/-- **`doalloc`** hands out the first free block. -/
theorem wp_doalloc (hinv : HeapInv h L) (hp : p ∈ L.all) {rest : List Nat}
    (hfree : L.free p = o :: rest) :
    wp (doalloc p) (fun addr h' => addr = h.page p + o ∧
        ∃ offset, h' = h.setFree p offset rest.length ∧
          HeapInv h' (L.setFree p rest)) E F h := by
  obtain ⟨hoffset, hrest⟩ := hinv.freelist_offset hp hfree
  have hblock : ∀ o' ∈ o :: rest, IsBlock (h.btype p) o' := by
    rw [← hfree]
    exact hinv.block p hp
  have ho : o < PAGE_SIZE := (hblock o (List.mem_cons_self ..)).2
  have hrestblock : ∀ o' ∈ rest, IsBlock (h.btype p) o' :=
    fun o' ho' => hblock o' (List.mem_cons_of_mem _ ho')
  -- a page has at most 256 blocks, so the counter does not wrap around
  have hnfree : ((h.pagerefs p).nfree + 2 ^ 16 - 1) % 2 ^ 16 = rest.length := by
    have hlen := hinv.length_free_le hp
    rw [hfree, List.length_cons] at hlen
    exact dec_wrap (by rw [hinv.nfree p hp, hfree, List.length_cons]) hlen
  unfold doalloc
  rw [wp_read_bind]
  dsimp only
  rw [hnfree, hoffset]
  rcases rest with _ | ⟨o', rest⟩
  · have hnext : h.mem (h.page p + o) = 0 := (Heap.nextBlock_eq hrest).1
    rw [if_neg (not_not.mpr hnext)]
    simp only [wp_bind, wp_kassert, wp_modify, wp_pure]
    rw [if_pos ho, if_pos List.length_nil]
    exact ⟨trivial, INVALID_OFFSET, rfl, hinv.setFree hp rfl (by simp)⟩
  · have ho' : o' < PAGE_SIZE := (hrestblock o' (List.mem_cons_self ..)).2
    have hnext : h.mem (h.page p + o) = h.page p + o' := (Heap.nextBlock_eq hrest.1).1
    have hne : h.mem (h.page p + o) ≠ 0 := (Heap.nextBlock_eq hrest.1).2 (by simp)
    have hsub : (h.mem (h.page p + o) + 2 ^ 32 - h.page p) % 2 ^ 32 = o' := by
      rw [hnext]
      exact sub_wrap (Nat.lt_trans (Nat.add_lt_add_left ho' _) (hinv.page p hp).2.2)
    rw [hsub]
    simp only [wp_bind, wp_kassert, wp_ite, wp_modify, wp_pure]
    rw [if_pos ho, if_pos hne, if_pos (show (o' :: rest).length > 0 from Nat.succ_pos _),
      if_pos ho']
    refine ⟨trivial, o', rfl, hinv.setFree hp ?_ hrestblock⟩
    rw [if_neg (offset_valid ho')]
    rw [hrest.1] at hrest
    exact hrest

end Alloc

/-! ## Setting up a page -/

section Install

variable {h : Heap} {L : Layout} {p : PrId}

/-- The loop stores block `j - 1` in block `j`, and nothing else. -/
theorem wp_link_blocks {fla size : Nat} (hsize : 0 < size) {n i : Nat} (hi : 1 ≤ i) (h : Heap) :
    wp (link_blocks fla size n i) (fun _ h' => ∃ mem, h' = { h with mem := mem } ∧
        (∀ j, i ≤ j → j < i + n → mem (fla + j * size) = fla + (j - 1) * size) ∧
        ∀ a, (∀ j, i ≤ j → j < i + n → a ≠ fla + j * size) → mem a = h.mem a) E F h := by
  induction n generalizing i h with
  | zero => exact ⟨h.mem, rfl, fun j hj hj' => by omega, fun a _ => rfl⟩
  | succ n ih =>
    unfold link_blocks
    simp only [wp_bind, wp_read, wp_kassert, wp_modify]
    have hprev : fla + (i - 1) * size < fla + i * size :=
      Nat.add_lt_add_left (Nat.mul_lt_mul_of_pos_right (by omega) hsize) _
    have hstored : (h.store (fla + i * size) (fla + (i - 1) * size)).mem (fla + i * size) =
        fla + (i - 1) * size := update_self ..
    rw [hstored, if_pos (by omega)]
    refine wp_imp (ih (by omega) _) ?_
    rintro _ h' ⟨mem, hmem, hlinked, hframe⟩
    refine ⟨mem, hmem, fun j hj hj' => ?_, fun a ha => ?_⟩
    · by_cases hji : j = i
      · -- the loop does not come back to block `i`
        subst hji
        rw [hframe, hstored]
        intro j' hj' _ heq
        have := Nat.eq_of_mul_eq_mul_right hsize (Nat.add_left_cancel heq)
        omega
      · exact hlinked j (by omega) (by omega)
    · rw [hframe a fun j hj hj' => ha j (by omega) (by omega)]
      exact update_of_ne (ha i (by omega) (by omega)) _ _

/-- Blocks that are linked one to the other, and the first to nothing. -/
theorem chain_blocksDown {size page n : Nat} (hpage : 0 < page) (hfirst : h.mem page = 0)
    (hlinked : ∀ j, 1 ≤ j → j < n → h.mem (page + j * size) = page + (j - 1) * size) {i : Nat}
    (hi : i < n) :
    Chain h.nextBlock (some (page + i * size)) ((blocksDown size (i + 1)).map (page + ·)) := by
  induction i with
  | zero =>
    refine ⟨rfl, ?_⟩
    show h.nextBlock (page + 0 * size) = none
    unfold Heap.nextBlock
    rw [Nat.zero_mul, Nat.add_zero, if_pos hfirst]
  | succ i ih =>
    refine ⟨rfl, ?_⟩
    have hnext : h.nextBlock (page + (i + 1) * size) = some (page + i * size) := by
      unfold Heap.nextBlock
      rw [hlinked (i + 1) (by omega) hi, Nat.add_sub_cancel, if_neg (by omega)]
    rw [hnext]
    exact ih (by omega)

theorem pageaddr_MKPAB {page k : Nat} (hpage : IsPage page) (hk : k < NSIZES) :
    pageFrame (MKPAB page k) = page ∧ MKPAB page k % PAGE_SIZE = k := by
  have hmod : page % 4096 = 0 := hpage.1
  have hk' : k < 8 := hk
  unfold MKPAB pageFrame
  have hsize : PAGE_SIZE = 4096 := rfl
  rw [hsize]
  omega

/-- The layout with one more page, all of whose blocks are free. -/
def Layout.install (L : Layout) (p : PrId) (k : Nat) : Layout where
  all := p :: L.all
  bySize := update L.bySize k (p :: L.bySize k)
  free := update L.free p (blocksDown (sizes k) (PAGE_SIZE / sizes k))

/-- What `init_page` leaves behind. -/
structure Installed (h h' : Heap) (p : PrId) (page k : Nat) : Prop where
  self : h'.pagerefs p =
    { next_samesize := h.sizebases k, next_all := h.allbase,
      pageaddr_and_blocktype := MKPAB page k,
      freelist_offset := (PAGE_SIZE / sizes k - 1) * sizes k,
      nfree := PAGE_SIZE / sizes k }
  other : ∀ q ≠ p, h'.pagerefs q = h.pagerefs q
  sizebases : h'.sizebases = update h.sizebases k (some p)
  allbase : h'.allbase = some p
  inuse : h'.inuse = h.inuse
  first : h'.mem page = 0
  linked : ∀ j, 1 ≤ j → j < PAGE_SIZE / sizes k →
    h'.mem (page + j * sizes k) = page + (j - 1) * sizes k
  frame : ∀ a, ¬ InPage page a → h'.mem a = h.mem a

theorem wp_init_page {page k : Nat} (hk : k < NSIZES) (h : Heap) :
    wp (init_page p page k) (fun _ h' => Installed h h' p page k) E F h := by
  have hpos := sizes_pos hk
  have hdiv := sizes_div hk
  unfold init_page
  rw [wp_modify_bind, wp_modify_bind, wp_bind]
  refine wp_imp (wp_link_blocks (by omega) (Nat.le_refl 1) _) ?_
  intro _ h₁ ⟨mem, hh₁, hlinked, hframe⟩
  subst hh₁
  have hbound : 1 + (PAGE_SIZE / sizes k - 1) = PAGE_SIZE / sizes k := by omega
  rw [hbound] at hlinked hframe
  have hinside : ∀ j < PAGE_SIZE / sizes k, InPage page (page + j * sizes k) := fun j hj =>
    ⟨Nat.le_add_right .., Nat.add_lt_add_left ((isBlock_iff hk _).mpr (mem_blocksDown.mpr ⟨j, hj, rfl⟩)).2 _⟩
  simp only [wp_bind, wp_read, wp_kassert, wp_modify]
  rw [if_pos (by simp only [Heap.setPageref, Heap.store, update_self])]
  refine
    { self := ?_, other := ?_, sizebases := rfl, allbase := rfl, inuse := rfl, first := ?_
      linked := hlinked, frame := ?_ }
  · simp only [Heap.setPageref, Heap.store, update_self]
  · intro q hq
    simp only [Heap.setPageref, Heap.store, update_of_ne hq]
  · show mem page = 0
    rw [hframe]
    · exact update_self ..
    · intro j hj _ heq
      have : 0 < j * sizes k := Nat.mul_pos hj (by omega)
      omega
  · intro a ha
    show mem a = h.mem a
    rw [hframe a fun j _ hj heq => ha (heq ▸ hinside j hj)]
    apply update_of_ne
    intro heq
    exact ha ⟨Nat.le_of_eq heq.symm, by rw [heq]; exact Nat.lt_add_of_pos_right (by decide)⟩

namespace Installed

variable {h' : Heap} {page k : Nat}

section

variable (hinst : Installed h h' p page k)
include hinst

theorem nextAll : h'.nextAll = update h.nextAll p h.allbase := by
  funext q
  unfold Heap.nextAll
  by_cases hq : q = p
  · subst hq
    rw [hinst.self, update_self]
  · rw [hinst.other q hq, update_of_ne hq]

theorem nextSame : h'.nextSame = update h.nextSame p (h.sizebases k) := by
  funext q
  unfold Heap.nextSame
  by_cases hq : q = p
  · subst hq
    rw [hinst.self, update_self]
  · rw [hinst.other q hq, update_of_ne hq]

theorem page_self (hpage : IsPage page) (hk : k < NSIZES) : h'.page p = page := by
  unfold Heap.page
  rw [hinst.self]
  exact (pageaddr_MKPAB hpage hk).1

theorem btype_self (hpage : IsPage page) (hk : k < NSIZES) : h'.btype p = k := by
  unfold Heap.btype
  rw [hinst.self]
  exact (pageaddr_MKPAB hpage hk).2

theorem page_of_ne {q : PrId} (hq : q ≠ p) : h'.page q = h.page q := by
  unfold Heap.page
  rw [hinst.other q hq]

theorem btype_of_ne {q : PrId} (hq : q ≠ p) : h'.btype q = h.btype q := by
  unfold Heap.btype
  rw [hinst.other q hq]

theorem freeHead_self (hpage : IsPage page) (hk : k < NSIZES) :
    h'.freeHead p = some (page + (PAGE_SIZE / sizes k - 1) * sizes k) := by
  have hdiv := sizes_div hk
  have hlast : IsBlock k ((PAGE_SIZE / sizes k - 1) * sizes k) :=
    (isBlock_iff hk _).mpr (mem_blocksDown.mpr ⟨_, by omega, rfl⟩)
  unfold Heap.freeHead
  rw [hinst.page_self hpage hk, hinst.self]
  exact if_neg (offset_valid hlast.2)

theorem freeHead_of_ne {q : PrId} (hq : q ≠ p) : h'.freeHead q = h.freeHead q := by
  unfold Heap.freeHead
  rw [hinst.page_of_ne hq, hinst.other q hq]

end

end Installed

theorem Layout.mem_install {q : PrId} : q ∈ (L.install p k).all ↔ q = p ∨ q ∈ L.all := List.mem_cons

/-- The heap with a new page. -/
theorem HeapInv.install (hinv : HeapInv h L) {h₀ h' : Heap} {page k : Nat} (hk : k < NSIZES)
    (hpage : IsPage page) (hp : h.inuse p = false) (hnew : ∀ q ∈ L.all, h.page q ≠ page)
    (hbits : ∃ w, h₀ = { h with pagerefs_inuse := w })
    (hinuse : ∀ q, h₀.inuse q = (h.inuse q || decide (q = p))) (hinst : Installed h₀ h' p page k) :
    HeapInv h' (L.install p k) := by
  obtain ⟨w, rfl⟩ := hbits
  have hpL : p ∉ L.all := by
    rw [hinv.mem_all, hp]
    exact Bool.false_ne_true
  have hne : ∀ q ∈ L.all, q ≠ p := fun q hq heq => hpL (heq ▸ hq)
  have hself := hinst.page_self hpage hk
  have htype := hinst.btype_self hpage hk
  constructor
  case all =>
    rw [hinst.nextAll, hinst.allbase]
    exact hinv.all.push hpL
  case same =>
    intro k' hk'
    have hpk : p ∉ L.bySize k' := fun hmem => hpL ((hinv.mem_size k' hk' p).mp hmem).1
    rw [hinst.nextSame, hinst.sizebases]
    by_cases hkk : k' = k
    · subst hkk
      rw [update_self]
      show Chain _ _ (update L.bySize k' _ k')
      rw [update_self]
      exact (hinv.same k' hk').push hpk
    · rw [update_of_ne hkk]
      show Chain _ _ (update L.bySize k _ k')
      rw [update_of_ne hkk]
      exact (hinv.same k' hk').congr fun q hq =>
        update_of_ne (fun heq : q = p => hpk (heq ▸ hq)) _ _
  case mem_all =>
    intro q
    rw [Layout.mem_install, hinv.mem_all, hinst.inuse, hinuse]
    by_cases hq : q = p <;> simp [hq]
  case mem_size =>
    intro k' hk' q
    rw [Layout.mem_install]
    have hold : q ∈ L.bySize k' ↔ q ≠ p ∧ q ∈ L.all ∧ h'.btype q = k' := by
      rw [hinv.mem_size k' hk']
      constructor
      · intro ⟨hq, ht⟩
        exact ⟨hne q hq, hq, (hinst.btype_of_ne (hne q hq)).trans ht⟩
      · intro ⟨hqp, hq, ht⟩
        exact ⟨hq, (hinst.btype_of_ne hqp).symm.trans ht⟩
    by_cases hqp : q = p
    · subst hqp
      rw [htype]
      by_cases hkk : k' = k
      · subst hkk
        simp [Layout.install]
      · simp only [Layout.install, update_of_ne hkk, hold]
        simp [Ne.symm hkk]
    · by_cases hkk : k' = k
      · subst hkk
        simp only [Layout.install, update_self, List.mem_cons, hold]
        simp [hqp]
      · simp only [Layout.install, update_of_ne hkk, hold]
        simp [hqp]
  case btype =>
    intro q hq
    rcases Layout.mem_install.mp hq with rfl | hq
    · rw [htype]
      exact hk
    · rw [hinst.btype_of_ne (hne q hq)]
      exact hinv.btype q hq
  case page =>
    intro q hq
    rcases Layout.mem_install.mp hq with rfl | hq
    · rw [hself]
      exact hpage
    · rw [hinst.page_of_ne (hne q hq)]
      exact hinv.page q hq
  case distinct =>
    intro q hq q' hq' heq
    rcases Layout.mem_install.mp hq with rfl | hqL
    · rcases Layout.mem_install.mp hq' with rfl | hqL'
      · rfl
      · rw [hself, hinst.page_of_ne (hne q' hqL')] at heq
        exact absurd heq.symm (hnew q' hqL')
    · rw [hinst.page_of_ne (hne q hqL)] at heq
      rcases Layout.mem_install.mp hq' with rfl | hqL'
      · rw [hself] at heq
        exact absurd heq (hnew q hqL)
      · rw [hinst.page_of_ne (hne q' hqL')] at heq
        exact hinv.distinct q hqL q' hqL' heq
  case chain =>
    intro q hq
    by_cases hqp : q = p
    · subst hqp
      have hdiv := sizes_div hk
      rw [hinst.freeHead_self hpage hk, hself]
      have hchain := chain_blocksDown hpage.2.1 hinst.first hinst.linked
        (show PAGE_SIZE / sizes k - 1 < PAGE_SIZE / sizes k by omega)
      rw [Nat.sub_add_cancel (by omega)] at hchain
      simpa only [Layout.install, update_self] using hchain
    · have hq' : q ∈ L.all := (Layout.mem_install.mp hq).resolve_left hqp
      rw [hinst.freeHead_of_ne hqp, hinst.page_of_ne hqp]
      simp only [Layout.install, update_of_ne hqp]
      apply (hinv.chain q hq').congr
      intro a ha
      obtain ⟨o, ho, rfl⟩ := List.mem_map.mp ha
      -- the new page is another one, so its words are not those of free blocks
      have hout : ¬ InPage page (h.page q + o) := by
        intro ⟨hle, hlt⟩
        have hoff : o < 4096 := (hinv.block q hq' o ho).2
        have hmod : h.page q % 4096 = 0 := (hinv.page q hq').1
        have hmod' : page % 4096 = 0 := hpage.1
        have hsize : PAGE_SIZE = 4096 := rfl
        have := hnew q hq'
        omega
      simp only [Heap.nextBlock, hinst.frame _ hout]
  case block =>
    intro q hq o ho
    by_cases hqp : q = p
    · subst hqp
      rw [htype, isBlock_iff hk]
      simpa only [Layout.install, update_self] using ho
    · have hq' : q ∈ L.all := (Layout.mem_install.mp hq).resolve_left hqp
      rw [hinst.btype_of_ne hqp]
      simp only [Layout.install, update_of_ne hqp] at ho
      exact hinv.block q hq' o ho
  case nfree =>
    intro q hq
    by_cases hqp : q = p
    · subst hqp
      rw [hinst.self]
      simp only [Layout.install, update_self, length_blocksDown]
    · have hq' : q ∈ L.all := (Layout.mem_install.mp hq).resolve_left hqp
      rw [hinst.other q hqp]
      simp only [Layout.install, update_of_ne hqp]
      exact hinv.nfree q hq'

end Install

/-! ## Giving a block back -/

section Free

variable {h : Heap} {L : Layout} {p : PrId}

/-- The search finds the page of an address. -/
theorem wp_find_page (hinv : HeapInv h L) (hp : p ∈ L.all) {a : Nat} (ha : InPage (h.page p) a)
    {base : Option PrId} {l : List PrId} {fuel : Nat} (hchain : Chain h.nextAll base l)
    (hl : ∀ q ∈ l, q ∈ L.all) (hpl : p ∈ l) (hfuel : l.length < fuel) :
    wp (find_page a fuel base) (fun r h' => r = some p ∧ h' = h) E F h := by
  induction l generalizing base fuel with
  | nil => exact absurd hpl List.not_mem_nil
  | cons q l ih =>
    obtain ⟨rfl, hrest⟩ := hchain
    rcases fuel with _ | fuel
    · exact absurd hfuel (Nat.not_lt_zero _)
    have hq : q ∈ L.all := hl q (List.mem_cons_self ..)
    unfold find_page
    simp only [wp_bind, wp_read, wp_kassert, wp_ite]
    rw [if_pos (hinv.btype q hq)]
    by_cases hqp : q = p
    · subst hqp
      rw [if_pos (show h.page q ≤ a ∧ a < h.page q + PAGE_SIZE from ha)]
      exact ⟨rfl, rfl⟩
    · -- two pages have no address in common
      have hout : ¬ (h.page q ≤ a ∧ a < h.page q + PAGE_SIZE) := by
        intro hqa
        obtain ⟨hle, hlt⟩ := ha
        have ho : a - h.page p < PAGE_SIZE := by omega
        have ho' : a - h.page q < PAGE_SIZE := by omega
        exact hinv.apart hp hq (Ne.symm hqp) ho ho' (by omega)
      rw [if_neg hout]
      exact ih hrest (fun q' hq' => hl q' (List.mem_cons_of_mem _ hq'))
        ((List.mem_cons.mp hpl).resolve_left (Ne.symm hqp)) (Nat.lt_of_succ_lt_succ hfuel)

/-- The memory after a block has been freed. -/
def Heap.afterFree (h : Heap) (p : PrId) (o : Nat) : Heap :=
  (fill_deadbeef h (h.page p + o) (sizes (h.btype p))).store (h.page p + o)
    (if (h.pagerefs p).freelist_offset = INVALID_OFFSET then 0
      else h.page p + (h.pagerefs p).freelist_offset)

/-- Only words of the freed block change. -/
theorem Heap.afterFree_mem {o a : Nat}
    (ha : a < h.page p + o ∨ h.page p + o + sizes (h.btype p) ≤ a) (hpos : 0 < sizes (h.btype p)) :
    (h.afterFree p o).mem a = h.mem a := by
  have hne : a ≠ h.page p + o := by omega
  have hout : ¬ (h.page p + o ≤ a ∧ a < h.page p + o + sizes (h.btype p) / 4 * 4 ∧
      (a - (h.page p + o)) % 4 = 0) := by
    omega
  show update (fill_deadbeef h _ _).mem (h.page p + o) _ a = h.mem a
  rw [update_of_ne hne]
  exact if_neg hout

theorem Heap.afterFree_nextBlock (hpage : 0 < h.page p) :
    (h.afterFree p o).nextBlock (h.page p + o) = h.freeHead p := by
  have hmem : (h.afterFree p o).mem (h.page p + o) =
      if (h.pagerefs p).freelist_offset = INVALID_OFFSET then 0
      else h.page p + (h.pagerefs p).freelist_offset := update_self ..
  unfold Heap.nextBlock Heap.freeHead
  rw [hmem]
  split
  · rw [if_pos rfl]
  · rw [if_neg (by omega)]

section

variable (hinv : HeapInv h L) (hp : p ∈ L.all) (ho : IsBlock (h.btype p) o) (hlive : o ∉ L.free p)
include hinv hp ho hlive

/-- Words outside of a block are kept, and so are the free lists. -/
theorem HeapInv.afterFree : HeapInv (h.afterFree p o) L := by
  show HeapInv { h with mem := (h.afterFree p o).mem } L
  refine hinv.of_mem fun q hq o' ho' => ?_
  have hpos := sizes_pos (hinv.btype p hp)
  have hpos' := sizes_pos (hinv.btype q hq)
  refine Heap.afterFree_mem ?_ (by omega)
  have := hinv.blocks_apart hq hp (hinv.block q hq o' ho') ho (by rintro ⟨rfl, rfl⟩; exact hlive ho')
  omega

/-- The heap with one more free block. -/
theorem HeapInv.free_one
    :
    HeapInv ((h.afterFree p o).setFree p o ((L.free p).length + 1))
      (L.setFree p (o :: L.free p)) := by
  have hinv' := hinv.afterFree hp ho hlive
  refine hinv'.setFree (l := o :: L.free p) hp ?_ ?_
  · rw [if_neg (offset_valid ho.2)]
    refine ⟨rfl, ?_⟩
    show Chain _ ((h.afterFree p o).nextBlock (h.page p + o)) _
    rw [Heap.afterFree_nextBlock (hinv.page p hp).2.1]
    exact hinv'.chain p hp
  · intro o' ho'
    rcases List.mem_cons.mp ho' with rfl | ho'
    · exact ho
    · exact hinv.block p hp o' ho'

end

/-! ### A page without live blocks -/

/-- The layout without a page. -/
def Layout.remove (L : Layout) (p : PrId) (k : Nat) : Layout where
  all := L.all.erase p
  bySize := update L.bySize k ((L.bySize k).erase p)
  free := L.free

theorem HeapInv.mem_remove (hinv : HeapInv h L) {q : PrId} :
    q ∈ (L.remove p k).all ↔ q ≠ p ∧ q ∈ L.all := hinv.all.nodup.mem_erase_iff

/-- A list of pagerefs is not longer than the array. -/
theorem length_le_of_chain {next : PrId → Option PrId} {base : Option PrId} {l : List PrId}
    (hchain : Chain next base l) : l.length ≤ NPAGEREFS := by
  have := List.Nodup.length_le_card hchain.nodup
  rwa [Fintype.card_fin] at this

/-- Only the two links of pagerefs change when one is taken off its lists. -/
theorem HeapInv.remove (hinv : HeapInv h L) (hp : p ∈ L.all) :
    wp (do remove_lists p (h.btype p); freepageref p)
      (fun _ h' => HeapInv h' (L.remove p (h.btype p)) ∧ h'.page = h.page ∧ h'.btype = h.btype)
      E F h := by
  have hk := hinv.btype p hp
  have hused : h.inuse p = true := (hinv.mem_all p).mp hp
  obtain ⟨hsame, hsameFrame⟩ := (hinv.same _ hk).unlink (x := p) (length_le_of_chain (hinv.same _ hk))
  obtain ⟨hall, -⟩ := hinv.all.unlink (x := p) (length_le_of_chain hinv.all)
  unfold remove_lists freepageref
  simp only [wp_bind, wp_read, wp_kassert, wp_modify]
  rw [if_pos hk]
  refine (if_pos (c := h.inuse p = true) hused).symm ▸ ⟨?_, rfl, rfl⟩
  constructor
  case all => exact hall
  case same =>
    intro k' hk'
    by_cases hkk : k' = h.btype p
    · subst hkk
      simp only [Layout.remove, Heap.setWord, update_self]
      exact hsame
    · simp only [Layout.remove, Heap.setWord, update_of_ne hkk]
      apply (hinv.same k' hk').congr
      intro q hq
      -- a pageref is on the list of one block type only
      refine hsameFrame q fun hq' => hkk ?_
      exact ((hinv.mem_size k' hk' q).mp hq).2.symm.trans ((hinv.mem_size _ hk q).mp hq').2
  case mem_all =>
    intro q
    rw [hinv.mem_remove, hinv.mem_all]
    refine Iff.trans ?_ (Eq.congr (inuse_unmark h p q) rfl).symm
    by_cases hqp : q = p <;> simp [hqp]
  case mem_size =>
    intro k' hk' q
    rw [hinv.mem_remove]
    show _ ↔ _ ∧ h.btype q = k'
    by_cases hkk : k' = h.btype p
    · subst hkk
      simp only [Layout.remove, update_self]
      rw [(hinv.same _ hk).nodup.mem_erase_iff, hinv.mem_size _ hk, and_assoc]
    · simp only [Layout.remove, update_of_ne hkk]
      rw [hinv.mem_size k' hk']
      constructor
      · rintro ⟨hq, ht⟩
        exact ⟨⟨fun heq => hkk (by rw [← ht, heq]), hq⟩, ht⟩
      · rintro ⟨⟨_, hq⟩, ht⟩
        exact ⟨hq, ht⟩
  case btype => exact fun q hq => hinv.btype q (hinv.mem_remove.mp hq).2
  case page => exact fun q hq => hinv.page q (hinv.mem_remove.mp hq).2
  case distinct =>
    exact fun q hq q' hq' =>
      hinv.distinct q (hinv.mem_remove.mp hq).2 q' (hinv.mem_remove.mp hq').2
  case chain => exact fun q hq => hinv.chain q (hinv.mem_remove.mp hq).2
  case block => exact fun q hq => hinv.block q (hinv.mem_remove.mp hq).2
  case nfree => exact fun q hq => hinv.nfree q (hinv.mem_remove.mp hq).2

/-! ### The whole call -/

/-- What giving back block `o` of page `p` does; `r` is the page that goes to `free_kpages`. -/
structure Gave (h h' : Heap) (L L' : Layout) (p : PrId) (o : Nat) (r : Option Nat) : Prop where
  inv : HeapInv h' L'
  old : ∀ q ∈ L'.all, q ∈ L.all ∧ h'.page q = h.page q ∧ h'.btype q = h.btype q ∧
    ∀ o' ∈ L'.free q, o' ∈ L.free q ∨ (q = p ∧ o' = o)
  gone : ∀ q ∈ L.all, q ∉ L'.all → q = p ∧ ∀ o', IsBlock (h.btype p) o' → o' ≠ o → o' ∈ L.free p
  page : ∀ page, r = some page → page = h.page p ∧ p ∉ L'.all

section

variable (hinv : HeapInv h L) (hp : p ∈ L.all)
include hinv hp

/-- `nfree` goes up by one. -/
theorem HeapInv.setPageref_free (h₁ : Heap) (hrefs : h₁.pagerefs = h.pagerefs) :
    (h₁.setPageref p fun r => { r with freelist_offset := o, nfree := (r.nfree + 1) % 2 ^ 16 }) =
      h₁.setFree p o ((L.free p).length + 1) := by
  have hlen := hinv.length_free_le hp
  have hsmall : ((h₁.pagerefs p).nfree + 1) % 2 ^ 16 = (L.free p).length + 1 := by
    rw [hrefs, hinv.nfree p hp]
    exact Nat.mod_eq_of_lt (by omega)
  unfold Heap.setFree Heap.setPageref
  beta_reduce
  rw [hsmall]

/-- **`subpage_kfree`**, from where it has found the page of a live block. -/
theorem wp_free_block (ho : IsBlock (h.btype p) o) (hlive : o ∉ L.free p) :
    wp (free_block p (h.page p + o)) (fun r h' => ∃ L', Gave h h' L L' p o r) E F h := by
  have hk := hinv.btype p hp
  have hoffset : (h.page p + o + 2 ^ 32 - h.page p) % 2 ^ 32 = o :=
    sub_wrap (Nat.lt_trans (Nat.add_lt_add_left ho.2 _) (hinv.page p hp).2.2)
  have hvalid : ¬ (o ≥ PAGE_SIZE ∨ o % sizes (h.btype p) ≠ 0) := by
    rintro (hge | hne)
    · exact absurd ho.2 (Nat.not_lt.mpr hge)
    · exact hne ho.1
  have hinv' := hinv.free_one hp ho hlive
  have hcount := free_count hk (List.nodup_cons.mpr ⟨hlive, hinv.free_nodup hp⟩)
    (List.forall_mem_cons.mpr ⟨ho, hinv.block p hp⟩)
  unfold free_block
  rw [wp_read_bind]
  dsimp only
  rw [hoffset, wp_bind, wp_kassert, if_pos hvalid, wp_bind, wp_modify,
    wp_bind, wp_modify, wp_bind, wp_modify]
  change wp _ _ _ _ ((h.afterFree p o).setPageref p _)
  rw [hinv.setPageref_free hp (h.afterFree p o) rfl, wp_bind, wp_read, wp_bind,
    wp_kassert, Heap.setFree_self]
  rw [if_pos (show (L.free p).length + 1 ≤ _ from hcount.1), wp_ite]
  split
  · -- all blocks are free now, and the page goes
    rename_i hfull
    have hrem := hinv'.remove (E := E) (F := F) hp
    rw [Heap.setFree_btype] at hrem
    rw [wp_bind] at hrem ⊢
    refine wp_imp hrem (fun _ h₁ hh₁ => ?_)
    rw [wp_bind]
    refine wp_imp hh₁ ?_
    intro _ h₂ ⟨hinv₂, hpage, htype⟩
    refine ⟨_, hinv₂, fun q hq => ?_, fun q hq hq' => ?_, fun page hpage' => ?_⟩
    · obtain ⟨hqp, hq⟩ := hinv'.mem_remove.mp hq
      rw [hpage, htype, Heap.setFree_page, Heap.setFree_btype]
      refine ⟨hq, rfl, rfl, fun o' ho' => .inl ?_⟩
      simpa only [Layout.remove, Layout.setFree_of_ne _ hqp] using ho'
    · have hqp : q = p := by
        by_contra hne
        exact hq' (hinv'.mem_remove.mpr ⟨hne, hq⟩)
      exact ⟨hqp, fun o' ho' hne => (List.mem_cons.mp (hcount.2 hfull o' ho')).resolve_left hne⟩
    · cases hpage'
      exact ⟨rfl, fun hmem => (hinv'.mem_remove.mp hmem).1 rfl⟩
  · refine ⟨_, hinv', fun q hq => ?_, fun q hq hq' => absurd hq hq', fun page hpage => nomatch hpage⟩
    rw [Heap.setFree_page, Heap.setFree_btype]
    refine ⟨hq, rfl, rfl, fun o' ho' => ?_⟩
    by_cases hqp : q = p
    · subst hqp
      rw [Layout.setFree_self] at ho'
      rcases List.mem_cons.mp ho' with heq | ho'
      · exact .inr ⟨rfl, heq⟩
      · exact .inl ho'
    · rw [Layout.setFree_of_ne _ hqp] at ho'
      exact .inl ho'

/-- **`kfree`** of a live block. -/
theorem wp_kfree (ho : IsBlock (h.btype p) o) (hlive : o ∉ L.free p) :
    wp (kfree (h.page p + o)) (fun r h' => ∃ L', Gave h h' L L' p o r)
      (fun _ _ => False) (fun _ => False) h := by
  unfold kfree
  rw [wp_read_bind, wp_bind]
  have hin : InPage (h.page p) (h.page p + o) :=
    ⟨Nat.le_add_right .., Nat.add_lt_add_left ho.2 _⟩
  refine wp_imp (wp_find_page hinv hp hin hinv.all (fun q hq => hq) hp
    (Nat.lt_succ_of_le (length_le_of_chain hinv.all))) ?_
  rintro _ _ ⟨rfl, rfl⟩
  exact wp_free_block hinv hp ho hlive

end

end Free

/-! ## `kmalloc` -/

section Kmalloc

variable {h : Heap} {L : Layout}

/-- A block of type `k` comes off the free list of a page. -/
structure Took (h h' : Heap) (L L' : Layout) (k addr : Nat) (p : PrId) (o : Nat) : Prop where
  inv : HeapInv h' L'
  mem : p ∈ L.all
  type : h.btype p = k
  block : IsBlock k o
  addr : addr = h.page p + o
  free : o ∈ L.free p
  all : L'.all = L.all
  page : ∀ q, h'.page q = h.page q
  btype : ∀ q, h'.btype q = h.btype q
  others : ∀ q o', o' ∈ L'.free q → o' ∈ L.free q ∧ ¬ (q = p ∧ o' = o)

/-- Taking a block off a page with a free one. -/
theorem wp_doalloc_took (hinv : HeapInv h L) {p : PrId} (hp : p ∈ L.all)
    (hfree : 0 < (h.pagerefs p).nfree) :
    wp (doalloc p) (fun addr h' => ∃ L' o, Took h h' L L' (h.btype p) addr p o) E F h := by
  rw [hinv.nfree p hp] at hfree
  obtain ⟨o, rest, hlist⟩ := List.exists_cons_of_length_pos hfree
  have hnodup := hinv.free_nodup hp
  have hmem : o ∈ L.free p := hlist ▸ List.mem_cons_self ..
  rw [hlist, List.nodup_cons] at hnodup
  refine wp_imp (wp_doalloc hinv hp hlist) ?_
  rintro addr _ ⟨haddr, offset, rfl, hinv'⟩
  refine ⟨_, o, hinv', hp, rfl, hinv.block p hp o hmem, haddr, hmem, rfl, fun q => ?_, fun q => ?_, ?_⟩
  · rw [Heap.setFree_page]
  · rw [Heap.setFree_btype]
  · intro q o' ho'
    by_cases hqp : q = p
    · subst hqp
      rw [Layout.setFree_self] at ho'
      exact ⟨hlist ▸ List.mem_cons_of_mem _ ho', fun heq => hnodup.1 (heq.2 ▸ ho')⟩
    · rw [Layout.setFree_of_ne _ hqp] at ho'
      exact ⟨ho', fun heq => hqp heq.1⟩

/-- **`subpage_kmalloc`** up to the call of `alloc_kpages`. -/
theorem wp_kmalloc_search (hinv : HeapInv h L) {sz k : Nat} (hsz : blocktype sz = some k) :
    wp (kmalloc_search sz) (fun r h' =>
        match r with
        | none => h' = h
        | some addr => ∃ L' p o, Took h h' L L' k addr p o)
      (fun _ _ => False) (fun _ => False) h := by
  have hk := (blocktype_some hsz).1
  unfold kmalloc_search
  rw [hsz]
  show wp (_ >>= _) _ _ _ h
  rw [wp_read_bind, wp_bind]
  refine wp_imp (wp_find_free (hinv.same k hk) (fun p hp => ((hinv.mem_size k hk p).mp hp).2)
    (Nat.lt_succ_of_le (length_le_of_chain (hinv.same k hk)))) ?_
  rintro (_ | p) _ ⟨rfl, hfound⟩
  · exact rfl
  · obtain ⟨hp, hfree⟩ := hfound p rfl
    obtain ⟨hpL, htype⟩ := (hinv.mem_size k hk p).mp hp
    rw [wp_bind]
    refine wp_imp (wp_doalloc_took hinv hpL hfree) ?_
    intro addr h' ⟨L', o, htook⟩
    rw [htype] at htook
    exact ⟨L', p, o, htook⟩

/-- The heap has got one more page and is otherwise as it was. -/
structure Grown (h h' : Heap) (L L' : Layout) (page : Nat) : Prop where
  inv : HeapInv h' L'
  old : ∀ q ∈ L.all, q ∈ L'.all ∧ h'.page q = h.page q ∧ h'.btype q = h.btype q ∧
    L'.free q = L.free q
  new : ∀ q ∈ L'.all, q ∈ L.all ∨ h'.page q = page

/-- **`subpage_kmalloc`** with a new page. -/
theorem wp_kmalloc_install (hinv : HeapInv h L) {sz k page : Nat} (hsz : blocktype sz = some k)
    (hpage : IsPage page) (hnew : ∀ q ∈ L.all, h.page q ≠ page) :
    wp (kmalloc_install sz page) (fun r h' =>
        match r with
        | none => h' = h
        | some addr => ∃ h₁ L₁ L' p o, Grown h h₁ L L₁ page ∧ Took h₁ h' L₁ L' k addr p o)
     
      (fun _ _ => False) (fun _ => False) h := by
  have hk := (blocktype_some hsz).1
  unfold kmalloc_install
  rw [hsz]
  show wp (_ >>= _) _ _ _ h
  rw [wp_bind]
  refine wp_imp (wp_allocpageref h) ?_
  rintro (_ | p) h₀ hgot
  · exact hgot
  · obtain ⟨hp, w, hbits, hinuse⟩ := hgot
    rw [wp_bind]
    refine wp_imp (wp_init_page hk h₀) ?_
    intro _ h₁ hinst
    have hinv₁ := hinv.install hk hpage hp hnew ⟨w, hbits⟩ hinuse hinst
    have hmem : p ∈ (L.install p k).all := List.mem_cons_self ..
    have hfree : 0 < (h₁.pagerefs p).nfree := by
      rw [hinst.self]
      exact Nat.lt_of_lt_of_le Nat.zero_lt_two (sizes_div hk).1
    rw [wp_bind]
    refine wp_imp (wp_doalloc_took hinv₁ hmem hfree) ?_
    intro addr h' ⟨L', o, htook⟩
    rw [hinst.btype_self hpage hk] at htook
    refine ⟨h₁, L.install p k, L', p, o, ⟨hinv₁, fun q hq => ?_, fun q hq => ?_⟩, htook⟩
    · have hqp : q ≠ p := by
        rintro rfl
        rw [hinv.mem_all, hp] at hq
        cases hq
      subst hbits
      refine ⟨List.mem_cons_of_mem _ hq, hinst.page_of_ne hqp, hinst.btype_of_ne hqp, ?_⟩
      exact update_of_ne hqp _ _
    · rcases Layout.mem_install.mp hq with rfl | hq
      · exact .inr (hinst.page_self hpage hk)
      · exact .inl hq

end Kmalloc

end OS161.Kmalloc
