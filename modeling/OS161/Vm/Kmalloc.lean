import OS161.Framework.Chain
import OS161.Framework.TransitionSystem
import OS161.Vm.AddrSpace

/-! # The subpage allocator

The model of the pool-based allocator in `kern/vm/kmalloc.c`. A page is cut into blocks of one
size, and its free blocks are linked through their first words. `struct pageref` objects
describe the pages; they come from a fixed array with a bitmap, and are linked twice, by block
size and all together.

`kmalloc_spinlock` makes `subpage_kfree` one step, and `subpage_kmalloc` one step up to the
point where it gives the lock away to call `alloc_kpages`, and one step after that. Between the
steps other threads run, and the owners of blocks write to them.
-/

namespace OS161.Kmalloc

open Framework Function

/-! ## Data -/

abbrev NSIZES : Nat := 8

/-- The table `sizes`. -/
def sizes (blktype : Nat) : Nat := [16, 32, 64, 128, 256, 512, 1024, 2048].getD blktype 0

abbrev LARGEST_SUBPAGE_SIZE : Nat := 2048

/-- `PAGE_SIZE / sizeof(struct pageref)`. -/
abbrev NPAGEREFS : Nat := 256

abbrev INUSE_WORDS : Nat := 8

abbrev INVALID_OFFSET : Nat := 0xffff

/-- A pointer into the array `pagerefs`. -/
abbrev PrId : Type := Fin NPAGEREFS

/-- `struct pageref`. -/
structure PageRef where
  next_samesize : Option PrId
  next_all : Option PrId
  pageaddr_and_blocktype : Nat
  freelist_offset : Nat
  nfree : Nat

/-- `PR_PAGEADDR`. -/
def PageRef.pageaddr (pr : PageRef) : Nat := pageFrame pr.pageaddr_and_blocktype

/-- `PR_BLOCKTYPE`. -/
def PageRef.blocktype (pr : PageRef) : Nat := pr.pageaddr_and_blocktype % PAGE_SIZE

/-- `MKPAB`; the two masks have no bit in common. -/
def MKPAB (pa blk : Nat) : Nat := pageFrame pa + blk % PAGE_SIZE

/-- The static variables of the allocator, and the words of kernel memory. -/
structure Heap where
  pagerefs : PrId → PageRef
  pagerefs_inuse : Fin INUSE_WORDS → BitVec 32
  sizebases : Nat → Option PrId
  allbase : Option PrId
  mem : Nat → Nat

/-- The panics and failed assertions of the allocator. -/
inductive KmPanic where
  /-- `KASSERT(0)` in `allocpageref`. -/
  | allocpageref_word
  /-- `KASSERT((pagerefs_inuse[i] & k) != 0)` in `freepageref`. -/
  | freepageref_clear
  /-- `KASSERT(blktype>=0 && blktype<NSIZES)` in `remove_lists`. -/
  | remove_lists_blktype
  /-- "Subpage allocator cannot handle allocation of size". -/
  | blocktype_size
  /-- `KASSERT(PR_BLOCKTYPE(pr) == blktype)` in `subpage_kmalloc`. -/
  | kmalloc_blktype
  /-- `KASSERT(pr->freelist_offset < PAGE_SIZE)`. -/
  | kmalloc_offset
  /-- `KASSERT(pr->nfree > 0)`. -/
  | kmalloc_nfree_positive
  /-- `KASSERT(fla - prpage < PAGE_SIZE)`. -/
  | kmalloc_next
  /-- `KASSERT(pr->nfree == 0)`. -/
  | kmalloc_nfree_zero
  /-- `KASSERT(fl != fl->next)`. -/
  | kmalloc_self_link
  /-- `KASSERT(pr->freelist_offset == (pr->nfree-1)*sizes[blktype])`. -/
  | kmalloc_last_offset
  /-- `KASSERT(blktype>=0 && blktype<NSIZES)` in `subpage_kfree`. -/
  | kfree_blktype
  /-- "kfree: subpage free of invalid addr". -/
  | kfree_invalid_addr
  /-- `KASSERT(pr->nfree <= PAGE_SIZE / sizes[blktype])`. -/
  | kfree_nfree
  /-- `KASSERT((vaddr_t)ptr%PAGE_SIZE==0)` in `kfree`. -/
  | kfree_unaligned
  /-- A list that a loop walks along does not end. -/
  | endless_list
  deriving DecidableEq, Repr

/-- The word of `pagerefs_inuse` that has the bit of a pageref. -/
def wordOf (p : PrId) : Fin INUSE_WORDS := ⟨p.val / 32, Nat.div_lt_of_lt_mul p.isLt⟩

/-- The pageref for bit `j` of word `i`. -/
def prId (i : Fin INUSE_WORDS) (j : Fin 32) : PrId :=
  ⟨i.val * 32 + j.val, by
    have hi : i.val < 8 := i.isLt
    have hj := j.isLt
    show _ < 256
    omega⟩

/-- Code of the allocator; it returns no error numbers. -/
abbrev KmCode (α : Type) : Type := Kern Heap Empty KmPanic α

namespace Heap

def nextSame (h : Heap) (p : PrId) : Option PrId := (h.pagerefs p).next_samesize

def nextAll (h : Heap) (p : PrId) : Option PrId := (h.pagerefs p).next_all

def page (h : Heap) (p : PrId) : Nat := (h.pagerefs p).pageaddr

def btype (h : Heap) (p : PrId) : Nat := (h.pagerefs p).blocktype

/-- The bit of a pageref in `pagerefs_inuse`. -/
def inuse (h : Heap) (p : PrId) : Bool := (h.pagerefs_inuse (wordOf p)).getLsbD (p.val % 32)

/-- `fl->next`, for a free block at `a`. -/
def nextBlock (h : Heap) (a : Nat) : Option Nat := if h.mem a = 0 then none else some (h.mem a)

/-- The first free block of a page. -/
def freeHead (h : Heap) (p : PrId) : Option Nat :=
  if (h.pagerefs p).freelist_offset = INVALID_OFFSET then none
  else some (h.page p + (h.pagerefs p).freelist_offset)

def setPageref (h : Heap) (p : PrId) (f : PageRef → PageRef) : Heap :=
  { h with pagerefs := update h.pagerefs p (f (h.pagerefs p)) }

def setWord (h : Heap) (i : Fin INUSE_WORDS) (w : BitVec 32) : Heap :=
  { h with pagerefs_inuse := update h.pagerefs_inuse i w }

def store (h : Heap) (a v : Nat) : Heap := { h with mem := update h.mem a v }

end Heap

/-! ## Pagerefs -/

/-- The inner loop of `allocpageref`: the first clear bit of a word. -/
def clearBit (w : BitVec 32) : Option (Fin 32) := (List.finRange 32).find? fun j => !w.getLsbD j

/-- The outer loop of `allocpageref`. -/
def allocpageref_loop : List (Fin INUSE_WORDS) → KmCode (Option PrId)
  | [] => pure none
  | i :: rest => do
    let h ← .read
    if h.pagerefs_inuse i = 0xffffffff#32 then allocpageref_loop rest
    else
      match clearBit (h.pagerefs_inuse i) with
      | none => .halt .allocpageref_word
      | some j => do
        .modify fun h => h.setWord i (h.pagerefs_inuse i ||| 1#32 <<< j.val)
        pure (some (prId i j))

def allocpageref : KmCode (Option PrId) := allocpageref_loop (List.finRange INUSE_WORDS)

def freepageref (p : PrId) : KmCode Unit := do
  let h ← .read
  .kassert (h.inuse p = true) .freepageref_clear
  .modify fun h =>
    h.setWord (wordOf p) (h.pagerefs_inuse (wordOf p) &&& ~~~(1#32 <<< (p.val % 32)))

def remove_lists (pr : PrId) (blktype : Nat) : KmCode Unit := do
  .kassert (blktype < NSIZES) .remove_lists_blktype
  .modify fun h =>
    let r := unlink h.nextSame (h.sizebases blktype) pr NPAGEREFS
    { h with
      sizebases := update h.sizebases blktype r.1
      pagerefs := fun p => { h.pagerefs p with next_samesize := r.2 p } }
  .modify fun h =>
    let r := unlink h.nextAll h.allbase pr NPAGEREFS
    { h with
      allbase := r.1
      pagerefs := fun p => { h.pagerefs p with next_all := r.2 p } }

/-! ## `kmalloc` -/

def blocktype (sz : Nat) : Option Nat := (List.range NSIZES).find? fun i => sz ≤ sizes i

/-- The loop of `subpage_kmalloc` along `sizebases[blktype]`. -/
def find_free (blktype : Nat) : (fuel : Nat) → Option PrId → KmCode (Option PrId)
  | 0, _ => .halt .endless_list
  | _ + 1, none => pure none
  | fuel + 1, some pr => do
    let h ← .read
    .kassert (h.btype pr = blktype) .kmalloc_blktype
    if (h.pagerefs pr).nfree > 0 then pure (some pr)
    else find_free blktype fuel (h.nextSame pr)

/-- Take the first free block off a page, at `doalloc`. -/
def doalloc (pr : PrId) : KmCode Nat := do
  let h ← .read
  let prpage := h.page pr
  let fla := prpage + (h.pagerefs pr).freelist_offset
  let nfree := ((h.pagerefs pr).nfree + 2 ^ 16 - 1) % 2 ^ 16
  let next := h.mem fla
  .kassert ((h.pagerefs pr).freelist_offset < PAGE_SIZE) .kmalloc_offset
  if next ≠ 0 then do
    .kassert (nfree > 0) .kmalloc_nfree_positive
    .kassert ((next + 2 ^ 32 - prpage) % 2 ^ 32 < PAGE_SIZE) .kmalloc_next
    .modify fun h => h.setPageref pr fun r =>
      { r with nfree := nfree, freelist_offset := (next + 2 ^ 32 - prpage) % 2 ^ 32 }
    pure fla
  else do
    .kassert (nfree = 0) .kmalloc_nfree_zero
    .modify fun h => h.setPageref pr fun r =>
      { r with nfree := nfree, freelist_offset := INVALID_OFFSET }
    pure fla

/-- The loop that links the blocks of a new page, from block `i` on. -/
def link_blocks (fla size : Nat) : (n i : Nat) → KmCode Unit
  | 0, _ => pure ()
  | n + 1, i => do
    .modify fun h => h.store (fla + i * size) (fla + (i - 1) * size)
    let h ← .read
    .kassert (fla + i * size ≠ h.mem (fla + i * size)) .kmalloc_self_link
    link_blocks fla size n (i + 1)

/-- Set up a pageref for a new page. -/
def init_page (pr : PrId) (prpage blktype : Nat) : KmCode Unit := do
  let nfree := PAGE_SIZE / sizes blktype
  .modify fun h => h.setPageref pr fun r =>
    { r with pageaddr_and_blocktype := MKPAB prpage blktype, nfree := nfree }
  .modify fun h => h.store prpage 0
  link_blocks prpage (sizes blktype) (nfree - 1) 1
  -- `fl` is the last block that the loop has visited
  let offset := (nfree - 1) * sizes blktype
  .modify fun h => h.setPageref pr fun r => { r with freelist_offset := offset }
  let h ← .read
  .kassert ((h.pagerefs pr).freelist_offset = ((h.pagerefs pr).nfree - 1) * sizes blktype)
    .kmalloc_last_offset
  .modify fun h => { h.setPageref pr fun r => { r with next_samesize := h.sizebases blktype } with
    sizebases := update h.sizebases blktype (some pr) }
  .modify fun h => { h.setPageref pr fun r => { r with next_all := h.allbase } with
    allbase := some pr }

/-- `subpage_kmalloc` up to the place where it gives the lock away; the block, if there was a free
one. -/
def kmalloc_search (sz : Nat) : KmCode (Option Nat) :=
  match blocktype sz with
  | none => .halt .blocktype_size
  | some blktype => do
    let h ← .read
    let found ← find_free blktype (NPAGEREFS + 1) (h.sizebases blktype)
    match found with
    | none => pure none
    | some pr => do
      let retptr ← doalloc pr
      pure (some retptr)

/-- `subpage_kmalloc` from the place where it has got a page and the lock. -/
def kmalloc_install (sz prpage : Nat) : KmCode (Option Nat) :=
  match blocktype sz with
  | none => .halt .blocktype_size
  | some blktype => do
    let got ← allocpageref
    match got with
    | none => pure none
    | some pr => do
      init_page pr prpage blktype
      let retptr ← doalloc pr
      pure (some retptr)

/-! ## `kfree` -/

/-- The loop of `subpage_kfree` along `allbase`. -/
def find_page (ptraddr : Nat) : (fuel : Nat) → Option PrId → KmCode (Option PrId)
  | 0, _ => .halt .endless_list
  | _ + 1, none => pure none
  | fuel + 1, some pr => do
    let h ← .read
    .kassert (h.btype pr < NSIZES) .kfree_blktype
    if h.page pr ≤ ptraddr ∧ ptraddr < h.page pr + PAGE_SIZE then pure (some pr)
    else find_page ptraddr fuel (h.nextAll pr)

def fill_deadbeef (h : Heap) (ptr len : Nat) : Heap :=
  { h with mem := fun a =>
      if ptr ≤ a ∧ a < ptr + len / 4 * 4 ∧ (a - ptr) % 4 = 0 then 0xdeadbeef else h.mem a }

/-- `subpage_kfree` from the place where it has found the page: whether the whole page is free now,
and goes to `free_kpages`. -/
def free_block (pr : PrId) (ptraddr : Nat) : KmCode (Option Nat) := do
  let h ← .read
  let prpage := h.page pr
  let blktype := h.btype pr
  let offset := (ptraddr + 2 ^ 32 - prpage) % 2 ^ 32
  .kassert (¬ (offset ≥ PAGE_SIZE ∨ offset % sizes blktype ≠ 0)) .kfree_invalid_addr
  .modify fun h => fill_deadbeef h ptraddr (sizes blktype)
  .modify fun h => h.store (prpage + offset)
    (if (h.pagerefs pr).freelist_offset = INVALID_OFFSET then 0
      else prpage + (h.pagerefs pr).freelist_offset)
  .modify fun h => h.setPageref pr fun r =>
    { r with freelist_offset := offset, nfree := (r.nfree + 1) % 2 ^ 16 }
  let h ← .read
  .kassert ((h.pagerefs pr).nfree ≤ PAGE_SIZE / sizes blktype) .kfree_nfree
  if (h.pagerefs pr).nfree = PAGE_SIZE / sizes blktype then do
    remove_lists pr blktype
    freepageref pr
    pure (some prpage)
  else pure none

/-- `kfree`: the page to hand to `free_kpages`, if any. -/
def kfree (ptr : Nat) : KmCode (Option Nat) := do
  let h ← .read
  let found ← find_page ptr (NPAGEREFS + 1) h.allbase
  match found with
  | some pr => free_block pr ptr
  | none => do
    .kassert (ptr % PAGE_SIZE = 0) .kfree_unaligned
    pure (some ptr)

/-! ## Runs -/

/-- A block that has been handed out, and the size that was asked for. -/
structure Block where
  addr : Nat
  sz : Nat
  deriving DecidableEq

/-- Where a thread is. -/
inductive KmPc where
  | idle
  /-- In `alloc_kpages`, for a request of `sz` bytes. -/
  | want (sz : Nat)
  /-- About to take the lock again, with a page. -/
  | got (sz page : Nat)
  /-- In `free_kpages`. -/
  | give (page : Nat)
  deriving DecidableEq

structure KmState where
  heap : Heap
  /-- The blocks that have not been freed. -/
  live : List Block
  /-- The pages that `alloc_kpages` has handed out. -/
  owned : List Nat
  pc : Nat → KmPc

/-- What `alloc_kpages` returns: the address of a page of kernel memory. -/
def IsPage (page : Nat) : Prop := page % PAGE_SIZE = 0 ∧ 0 < page ∧ page + PAGE_SIZE < 2 ^ 32

instance instDecidableIsPage (page : Nat) : Decidable (IsPage page) :=
  inferInstanceAs (Decidable (_ ∧ _ ∧ _))

/-- The address `a` is in a page. -/
def InPage (page a : Nat) : Prop := page ≤ a ∧ a < page + PAGE_SIZE

instance instDecidableInPage (page a : Nat) : Decidable (InPage page a) :=
  inferInstanceAs (Decidable (_ ∧ _))

/-- What may write to the word at `a` outside of the allocator: the owner of a block, or anybody if
the page is not the allocator's. -/
def KmState.MayStore (s : KmState) (a : Nat) : Prop :=
  (∀ page ∈ s.owned, ¬ InPage page a) ∨ ∃ b ∈ s.live, b.addr ≤ a ∧ a < b.addr + b.sz

instance instDecidableMayStore (s : KmState) (a : Nat) : Decidable (s.MayStore a) :=
  inferInstanceAs (Decidable (_ ∨ _))

inductive KmAct where
  /-- Thread `t` calls `kmalloc(sz)` and runs until it returns or gives the lock away. -/
  | kmalloc (t sz : Nat)
  /-- `alloc_kpages` returns a page, or 0. -/
  | alloc_kpages (t : Nat) (page : Option Nat)
  /-- `kmalloc` goes on with its page. -/
  | install (t : Nat)
  /-- `free_kpages` returns. -/
  | free_kpages (t : Nat)
  /-- Thread `t` calls `kfree(ptr)`. -/
  | kfree (t ptr : Nat)
  /-- A word changes by somebody else's hand. -/
  | store (a v : Nat)
  deriving DecidableEq

namespace KmState

def setPc (s : KmState) (t : Nat) (pc : KmPc) : KmState :=
  { s with pc := update s.pc t pc }

/-- Run code under the lock. -/
def locked {α : Type} (s : KmState) (code : KmCode α) (k : α → KmState → KmState) : Option KmState :=
  match code s.heap with
  | .ok a h => some (k a { s with heap := h })
  | .err _ _ => none
  | .panic _ => none

/-- The end of `kmalloc`: a block, or on with `pc`. -/
def returns (t sz : Nat) (pc : KmPc) (r : Option Nat) (s : KmState) : KmState :=
  match r with
  | some addr => { s with live := ⟨addr, sz⟩ :: s.live }.setPc t .idle
  | none => s.setPc t pc

/-- The end of `kfree`. -/
def freed (t ptr : Nat) (r : Option Nat) (s : KmState) : KmState :=
  let s := { s with live := s.live.filter fun b => b.addr ≠ ptr }
  match r with
  | some page => s.setPc t (.give page)
  | none => s

end KmState

/-- The steps, for those that are enabled and do not panic. -/
def kmNext (s : KmState) : KmAct → Option KmState
  | .kmalloc t sz =>
    if s.pc t = .idle ∧ sz < LARGEST_SUBPAGE_SIZE then
      s.locked (kmalloc_search sz) (KmState.returns t sz (.want sz))
    else none
  | .alloc_kpages t page =>
    match s.pc t with
    | .want sz =>
      match page with
      | none => some (s.setPc t .idle)
      | some page =>
        if IsPage page ∧ page ∉ s.owned then
          some ({ s with owned := page :: s.owned }.setPc t (.got sz page))
        else none
    | _ => none
  | .install t =>
    match s.pc t with
    | .got sz page => s.locked (kmalloc_install sz page) (KmState.returns t sz (.give page))
    | _ => none
  | .free_kpages t =>
    match s.pc t with
    | .give page => some ({ s with owned := s.owned.filter (· ≠ page) }.setPc t .idle)
    | _ => none
  | .kfree t ptr =>
    if s.pc t = .idle ∧ ∃ b ∈ s.live, b.addr = ptr then s.locked (kfree ptr) (KmState.freed t ptr)
    else none
  | .store a v => if s.MayStore a then some { s with heap := s.heap.store a v } else none

/-- All runs from the state in which the allocator has no page. -/
def kmSystem : System KmState KmAct :=
  .ofNext (fun s => (∀ i, s.heap.pagerefs_inuse i = 0) ∧ (∀ k, s.heap.sizebases k = none) ∧
    s.heap.allbase = none ∧ s.live = [] ∧ s.owned = [] ∧ ∀ t, s.pc t = .idle) kmNext

/-! ## The property -/

/-- The size of the blocks that a request is served from. -/
def blockSize (sz : Nat) : Nat := sizes ((blocktype sz).getD 0)

/-- A block lies inside one heap page, is aligned to its size and large enough. -/
structure Placed (h : Heap) (b : Block) : Prop where
  page : ∃ p, h.inuse p = true ∧ h.page p ≤ b.addr ∧
    b.addr + blockSize b.sz ≤ h.page p + PAGE_SIZE
  aligned : b.addr % blockSize b.sz = 0
  room : b.sz ≤ blockSize b.sz

/-- The free list of a page and the lists that its pageref is on. -/
structure Listed (h : Heap) (live : List Block) (p : PrId) : Prop where
  free : ∃ l, Chain h.nextBlock (h.freeHead p) l ∧ l.Nodup ∧ (h.pagerefs p).nfree = l.length ∧
    ∀ a ∈ l, InPage (h.page p) a ∧ (a - h.page p) % sizes (h.btype p) = 0 ∧
      ∀ b ∈ live, b.addr ≠ a
  all : ∃ l, Chain h.nextAll h.allbase l ∧ p ∈ l
  same : ∀ k < NSIZES, ∃ l, Chain h.nextSame (h.sizebases k) l ∧ (p ∈ l ↔ k = h.btype p)
  blocktype : h.btype p < NSIZES

/-- What is to hold in every state. -/
structure KmOk (s : KmState) : Prop where
  disjoint : s.live.Pairwise fun b c =>
    b.addr + blockSize b.sz ≤ c.addr ∨ c.addr + blockSize c.sz ≤ b.addr
  placed : ∀ b ∈ s.live, Placed s.heap b
  listed : ∀ p, s.heap.inuse p = true → Listed s.heap s.live p
  /-- No assertion fails, whichever call comes next. -/
  no_panic_search : ∀ sz < LARGEST_SUBPAGE_SIZE, ∀ p, kmalloc_search sz s.heap ≠ .panic p
  no_panic_install : ∀ t sz page, s.pc t = .got sz page →
    ∀ p, kmalloc_install sz page s.heap ≠ .panic p
  no_panic_free : ∀ b ∈ s.live, ∀ p, kfree b.addr s.heap ≠ .panic p
  /-- The steps of a `kmalloc` that does not get a block change nothing. -/
  failed_search : ∀ sz < LARGEST_SUBPAGE_SIZE, ∀ h, kmalloc_search sz s.heap = .ok none h → h = s.heap
  failed_install : ∀ t sz page, s.pc t = .got sz page →
    ∀ h, kmalloc_install sz page s.heap = .ok none h → h = s.heap

end OS161.Kmalloc
