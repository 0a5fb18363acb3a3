import OS161.Framework.Tiling
import OS161.Lib.Types

/-! # The heap of a user program

The model of `user/lib/libc/stdlib/malloc.c` on a 32-bit machine. Memory is a function from the
addresses of words to their contents; a header is two words, each with a 29-bit field, a flag
and a magic number. The program ends where the source calls `err` or `errx`.

The heap is a tiling of the addresses from `__heapbase` to `__heaptop`.
-/

namespace OS161

open Framework

/-! ## Headers -/

abbrev MBLOCKSIZE : Nat := 8

abbrev MMAGIC : Nat := 2

/-- The reasons for which the program is ended. -/
inductive MallocExit where
  -- `__malloc_init`
  | init_sbrk
  | init_heap_at_zero
  | init_sbrk_align
  | init_base_moved
  -- `malloc`
  | malloc_local_data
  | malloc_magic
  | malloc_prevblock
  | malloc_ran_off
  | malloc_top_moved
  | split_size
  | split_screwed_up
  -- `free`
  | free_local_data
  | free_range
  | free_header
  | free_already
  | merge_inconsistent
  /-- Not an exit: the search of `malloc` does not come to an end. -/
  | endless
  deriving DecidableEq, Repr

/-- The program ends because of what `sbrk` said about a heap that does not exist yet. -/
def MallocExit.noHeap : MallocExit → Bool
  | .init_sbrk | .init_heap_at_zero | .init_sbrk_align => true
  | _ => false

/-- The memory of the program, its break, and the static variables. -/
structure UHeap where
  /-- The word at an address. -/
  mem : Nat → Nat
  brk : Nat
  heapbase : Nat
  heaptop : Nat

abbrev MallocM (α : Type) : Type := Kern UHeap Empty MallocExit α

namespace UHeap

variable (s : UHeap) (mh : Nat)

def mh_prevblock : Nat := s.mem mh / 8

def mh_magic1 : Nat := s.mem mh % 4

def mh_nextblock : Nat := s.mem (mh + 4) / 8

def mh_inuse : Nat := s.mem (mh + 4) / 4 % 2

def mh_magic2 : Nat := s.mem (mh + 4) % 4

def M_NEXTOFF : Nat := s.mh_nextblock mh * 8

def M_PREVOFF : Nat := s.mh_prevblock mh * 8

def M_NEXT : Nat := add32 mh (s.M_NEXTOFF mh)

def M_PREV : Nat := sub32 mh (s.M_PREVOFF mh)

def M_SIZE : Nat := sub32 (s.M_NEXTOFF mh) MBLOCKSIZE

def M_OK : Prop := s.mh_magic1 mh = MMAGIC ∧ s.mh_magic2 mh = MMAGIC

instance decidableOK : Decidable (s.M_OK mh) := inferInstanceAs (Decidable (_ ∧ _))

end UHeap

def M_DATA (mh : Nat) : Nat := add32 mh MBLOCKSIZE

def M_MKFIELD (off : Nat) : Nat := off / 8

/-- Store a word that depends on the one that is there. -/
def setWord (addr : Nat) (f : Nat → Nat) : MallocM Unit :=
  .modify fun s => { s with mem := fun w => if w = addr then f (s.mem addr) else s.mem w }

/-- Assign to the 29-bit field of a word. -/
def setField29 (addr v : Nat) : MallocM Unit := setWord addr fun w => v % 2 ^ 29 * 8 + w % 8

/-- Assign to the one-bit field of a word. -/
def setBit1 (addr v : Nat) : MallocM Unit := setWord addr fun w => w / 8 * 8 + v % 2 * 4 + w % 4

/-- Assign to the two-bit field of a word. -/
def setMagic2 (addr v : Nat) : MallocM Unit := setWord addr fun w => w / 4 * 4 + v % 4

def set_prevblock (mh v : Nat) : MallocM Unit := setField29 mh v

def set_pad (mh v : Nat) : MallocM Unit := setBit1 mh v

def set_magic1 (mh v : Nat) : MallocM Unit := setMagic2 mh v

def set_nextblock (mh v : Nat) : MallocM Unit := setField29 (mh + 4) v

def set_inuse (mh v : Nat) : MallocM Unit := setBit1 (mh + 4) v

def set_magic2 (mh v : Nat) : MallocM Unit := setMagic2 (mh + 4) v

/-! ## The code -/

/-- `(void *)-1`. -/
abbrev SBRK_FAILED : Nat := 2 ^ 32 - 1

/-- `sbrk`: it fails, or extends the heap contiguously. -/
def sbrk (ok : Bool) (size : Nat) : MallocM Nat := do
  let s ← .read
  if ok = true ∧ s.brk + size < 2 ^ 32 then do
    .modify fun s => { s with brk := s.brk + size }
    pure s.brk
  else pure SBRK_FAILED

/-- Which of the calls of `sbrk` that one call of `malloc` makes can succeed. -/
structure SbrkOk where
  initial : Bool
  align : Bool
  grow : Bool
  deriving DecidableEq, Repr

/-- `__malloc_init`, without the checks of constants. -/
def malloc_init (ok : SbrkOk) : MallocM Unit := do
  let x ← sbrk ok.initial 0
  .kassert (x ≠ SBRK_FAILED) .init_sbrk
  .kassert (x ≠ 0) .init_heap_at_zero
  .modify fun s => { s with heapbase := x, heaptop := x }
  if x % MBLOCKSIZE ≠ 0 then do
    let adjust := MBLOCKSIZE - x % MBLOCKSIZE
    let y ← sbrk ok.align adjust
    .kassert (y ≠ SBRK_FAILED) .init_sbrk_align
    .kassert (y = x) .init_base_moved
    .modify fun s => { s with heapbase := add32 x adjust, heaptop := add32 x adjust }
  else pure ()

/-- `__malloc_sbrk`. -/
def malloc_sbrk (ok : Bool) (size : Nat) : MallocM Nat := do
  let x ← sbrk ok size
  if x = SBRK_FAILED then pure 0
  else do
    let s ← .read
    .kassert (x = s.heaptop) .malloc_top_moved
    .modify fun s => { s with heaptop := add32 s.heaptop size }
    pure x

/-- The header that `__malloc_split` writes. -/
def split_header (mhnew prevblock nextblock : Nat) : MallocM Unit := do
  set_prevblock mhnew prevblock
  set_pad mhnew 0
  set_magic1 mhnew MMAGIC
  set_nextblock mhnew nextblock
  set_inuse mhnew 0
  set_magic2 mhnew MMAGIC

/-- `__malloc_split`. -/
def malloc_split (mh size : Nat) : MallocM Unit := do
  .kassert (size % MBLOCKSIZE = 0) .split_size
  let s ← .read
  if sub32 (s.M_SIZE mh) size < 2 * MBLOCKSIZE then pure ()
  else do
    let mhnext := s.M_NEXT mh
    let oldsize := s.M_SIZE mh
    set_nextblock mh (M_MKFIELD (add32 size MBLOCKSIZE))
    let s ← .read
    let mhnew := s.M_NEXT mh
    .kassert (mhnew ≠ mhnext) .split_screwed_up
    split_header mhnew (M_MKFIELD (add32 size MBLOCKSIZE)) (M_MKFIELD (sub32 oldsize size))
    let s ← .read
    if mhnext ≠ s.heaptop then set_prevblock mhnext (s.mh_nextblock mhnew) else pure ()

/-- How the search of `malloc` ends. -/
inductive Searched where
  /-- With a pointer to return. -/
  | found (x : Nat)
  /-- At the end of the heap, with the values of `i` and `rightprevblock`. -/
  | missed (i rightprevblock : Nat)
  deriving DecidableEq, Repr

/-- Take the block, in the search of `malloc`. -/
def malloc_take (mh size : Nat) : MallocM Nat := do
  malloc_split mh size
  set_inuse mh 1
  pure (M_DATA mh)

/-- The first-fit search of `malloc`, with a bound on the rounds of its loop. -/
def malloc_search (size : Nat) : Nat → Nat → Nat → MallocM Searched
  | 0, _, _ => .halt .endless
  | fuel + 1, i, rightprevblock => do
    let s ← .read
    if i < s.heaptop then do
      .kassert (s.M_OK i) .malloc_magic
      .kassert (s.mh_prevblock i = rightprevblock) .malloc_prevblock
      if s.mh_inuse i ≠ 0 ∨ s.M_SIZE i < size then
        malloc_search size fuel (s.M_NEXT i) (s.mh_nextblock i)
      else do
        let x ← malloc_take i size
        pure (.found x)
    else pure (.missed i rightprevblock)

/-- The header of a block at the top of the heap. -/
def grow_header (mh rightprevblock nextblock : Nat) : MallocM Unit := do
  set_prevblock mh rightprevblock
  set_magic1 mh MMAGIC
  set_magic2 mh MMAGIC
  set_pad mh 0
  set_inuse mh 1
  set_nextblock mh nextblock

/-- The assertion on the static variables. -/
def UHeap.Sane (s : UHeap) : Prop := ¬ (s.heapbase = 0 ∨ s.heaptop = 0 ∨ s.heapbase > s.heaptop)

instance UHeap.decidableSane (s : UHeap) : Decidable s.Sane := inferInstanceAs (Decidable (¬ _))

/-- The size rounded up to an integral number of blocks. -/
def roundBlocks (size : Nat) : Nat := add32 size (MBLOCKSIZE - 1) / MBLOCKSIZE * MBLOCKSIZE

/-- `malloc` from the rounding of the size on. -/
def malloc_body (ok : Bool) (size : Nat) : MallocM Nat := do
  let s ← .read
  .kassert s.Sane .malloc_local_data
  let size := roundBlocks size
  let r ← malloc_search size (s.heaptop - s.heapbase + 1) s.heapbase 0
  match r with
  | .found x => pure x
  | .missed i rightprevblock => do
    let s ← .read
    .kassert (i = s.heaptop) .malloc_ran_off
    let mh ← malloc_sbrk ok (add32 size MBLOCKSIZE)
    if mh = 0 then pure 0
    else do
      grow_header mh rightprevblock (M_MKFIELD (add32 size MBLOCKSIZE))
      pure (M_DATA mh)

def malloc (ok : SbrkOk) (size : Nat) : MallocM Nat := do
  let s ← .read
  if s.heapbase = 0 then malloc_init ok else pure ()
  malloc_body ok.grow size

/-- The loop of `__malloc_deadbeef`, with `n` words to go. -/
def deadbeef_loop (x : Nat) : Nat → MallocM Unit
  | 0 => pure ()
  | n + 1 => do
    setWord x fun _ => 0xdeadbeef
    deadbeef_loop (x + 4) n

/-- `__malloc_deadbeef`. -/
def malloc_deadbeef (x size : Nat) : MallocM Unit := deadbeef_loop x (size / 4)

/-- `__malloc_trymerge`. -/
def malloc_trymerge (mh mhnext : Nat) : MallocM Unit := do
  let s ← .read
  .kassert (s.mh_nextblock mh = s.mh_prevblock mhnext) .merge_inconsistent
  if s.mh_inuse mh ≠ 0 ∨ s.mh_inuse mhnext ≠ 0 then pure ()
  else do
    let mhnextnext := s.M_NEXT mhnext
    set_nextblock mh (M_MKFIELD (add32 (add32 (add32 MBLOCKSIZE (s.M_SIZE mh)) MBLOCKSIZE) (s.M_SIZE mhnext)))
    let s ← .read
    if mhnextnext ≠ s.heaptop then set_prevblock mhnextnext (s.mh_nextblock mh) else pure ()
    malloc_deadbeef mhnext MBLOCKSIZE

/-- Mark a block free and wipe it. -/
def free_wipe (mh : Nat) : MallocM Unit := do
  set_inuse mh 0
  let s ← .read
  malloc_deadbeef (M_DATA mh) (s.M_SIZE mh)

/-- Try merging with the block above, but not at the top. -/
def free_merge_above (mh : Nat) : MallocM Unit := do
  let s ← .read
  if s.M_NEXT mh ≠ s.heaptop then malloc_trymerge mh (s.M_NEXT mh) else pure ()

/-- Try merging with the block below, but not at the bottom. -/
def free_merge_below (mh : Nat) : MallocM Unit := do
  let s ← .read
  if mh ≠ s.heapbase then malloc_trymerge (s.M_PREV mh) mh else pure ()

def free (x : Nat) : MallocM Unit := do
  if x = 0 then pure ()
  else do
    let s ← .read
    .kassert s.Sane .free_local_data
    .kassert (¬ (x < s.heapbase ∨ x ≥ s.heaptop)) .free_range
    let mh := sub32 x MBLOCKSIZE
    .kassert (s.M_OK mh) .free_header
    .kassert (s.mh_inuse mh ≠ 0) .free_already
    free_wipe mh
    free_merge_above mh
    free_merge_below mh

end OS161
