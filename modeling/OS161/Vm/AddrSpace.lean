import OS161.Lib.Types

/-! # Physical memory, page tables and address spaces

The model of `kern/arch/mips/vm/ram.c`, `kern/vm/pt.c`, `kern/vm/segments.c` and
`kern/vm/addrspace.c`. Addresses and sizes are 32-bit words, kept as natural numbers with
explicit wrap-around.
-/

namespace OS161

open Framework

abbrev PAGE_SIZE : Nat := 4096

abbrev USERSTACK : Nat := 0x80000000

abbrev STACKPAGES : Nat := 12

abbrev MIPS_KSEG0 : Nat := 0x80000000

/-- `addr & PAGE_FRAME`. -/
def pageFrame (addr : Nat) : Nat := addr / PAGE_SIZE * PAGE_SIZE

/-! ## RAM -/

/-- The free part of physical memory. -/
structure Ram where
  firstpaddr : Nat
  lastpaddr : Nat
  deriving DecidableEq, Repr

def ram_bootstrap (firstfree ramsize : Nat) : Ram where
  firstpaddr := (firstfree + 2 ^ 32 - MIPS_KSEG0) % 2 ^ 32
  lastpaddr := if ramsize > 508 * 1024 * 1024 then 508 * 1024 * 1024 else ramsize

/-- `ram_stealmem`; 0 when there is not enough memory. -/
def ram_stealmem (npages : Nat) : Kern Ram Errno Panic Nat := do
  let ram ← .read
  let size := npages * PAGE_SIZE % 2 ^ 32
  if (ram.firstpaddr + size) % 2 ^ 32 > ram.lastpaddr then pure 0
  else do
    .modify fun ram => { ram with firstpaddr := (ram.firstpaddr + size) % 2 ^ 32 }
    pure ram.firstpaddr

def getppages (npages : Nat) : Kern Ram Errno Panic Nat := do
  let pa ← ram_stealmem npages
  if pa = 0 then .halt .getppages_no_memory else pure pa

def alloc_kpages (npages : Nat) : Kern Ram Errno Panic Nat := do
  let pa ← getppages npages
  if pa = 0 then pure 0 else pure (pa + MIPS_KSEG0)

/-! ## Page tables -/

/-- `struct pte`. -/
structure Pte where
  valid : Bool
  dirty : Bool
  paddr : Nat
  deriving DecidableEq, Repr

/-- `pte_create`; the other fields are not read before they are written. -/
def pte_create : Pte where
  valid := false
  dirty := false
  paddr := 0

/-- The kinds of segments. -/
inductive SegmentT where
  | CODE
  | STACK
  | DATA
  deriving DecidableEq, Repr

/-- `struct segment`. -/
structure Segment where
  vbase : Nat
  npages : Nat
  ptable : List Pte
  tsegment : SegmentT
  deriving DecidableEq, Repr

/-- `segment_prepare`: an empty page table of `npages` entries. -/
def segment_prepare : Kern Segment Errno Panic Unit := do
  let seg ← .read
  .kassert (seg.npages ≠ 0) .segment_prepare_npages
  .modify fun seg => { seg with ptable := List.replicate seg.npages pte_create }

def segment_create (tsegment : SegmentT) : Segment :=
  match tsegment with
  | .STACK =>
    { vbase := USERSTACK - STACKPAGES * PAGE_SIZE
      npages := STACKPAGES
      ptable := List.replicate STACKPAGES pte_create
      tsegment := tsegment }
  | _ => { vbase := 0, npages := 0, ptable := [], tsegment := tsegment }

/-- `segment_lookup`, with `pte_load` and `pte_reload`: the frame of the page of `vaddr`, taken from
RAM at the first use of the page. -/
def segment_lookup (vaddr : Nat) (dirty : Bool) : Kern (Ram × Segment) Errno Panic Nat := do
  let s ← .read
  let vpn := (vaddr + 2 ^ 32 - s.2.vbase) % 2 ^ 32 / PAGE_SIZE
  match s.2.ptable[vpn]? with
  | none => .halt .segment_lookup_index
  | some pte =>
    let pte := if dirty then { pte with dirty := true } else pte
    if pte.valid then do
      .modify fun s => (s.1, { s.2 with ptable := s.2.ptable.set vpn pte })
      pure (pte.paddr + (vaddr + 2 ^ 32 - s.2.vbase) % 2 ^ 32 % PAGE_SIZE)
    else do
      let paddr ← .zoom Prod.fst (fun s ram => (ram, s.2)) (getppages 1)
      .modify fun s =>
        (s.1, { s.2 with ptable := s.2.ptable.set vpn { pte with valid := true, paddr := paddr } })
      pure paddr

/-! ## Address spaces -/

/-- `struct addrspace`, without the `as_pbase` fields, which nothing sets. -/
structure AddrSpace where
  as_vbase1 : Nat
  as_npages1 : Nat
  as_vbase2 : Nat
  as_npages2 : Nat
  code : Segment
  data : Segment
  stack : Segment
  loaded : Bool
  deriving DecidableEq, Repr

def as_create : AddrSpace where
  as_vbase1 := 0
  as_npages1 := 0
  as_vbase2 := 0
  as_npages2 := 0
  code := segment_create .CODE
  data := segment_create .DATA
  stack := segment_create .STACK
  loaded := false

namespace AddrSpace

def segment (as : AddrSpace) : SegmentT → Segment
  | .CODE => as.code
  | .DATA => as.data
  | .STACK => as.stack

def setSegment (as : AddrSpace) (t : SegmentT) (seg : Segment) : AddrSpace :=
  match t with
  | .CODE => { as with code := seg }
  | .DATA => { as with data := seg }
  | .STACK => { as with stack := seg }

end AddrSpace

/-- Set up one of the segments in `as_define_region`. -/
def define_segment (t : SegmentT) (vaddr npages : Nat) : Kern AddrSpace Errno Panic Unit := do
  .modify fun as => as.setSegment t { as.segment t with npages := npages }
  .zoom (fun as => as.segment t) (fun as seg => as.setSegment t seg) segment_prepare
  .modify fun as => as.setSegment t { as.segment t with vbase := vaddr }

/-- `as_define_region`; the permission arguments are not used by the source. -/
def as_define_region (vaddr sz : Nat) : Kern AddrSpace Errno Panic Unit := do
  let sz := (sz + vaddr % PAGE_SIZE) % 2 ^ 32
  let vaddr := pageFrame vaddr
  let sz := pageFrame ((sz + PAGE_SIZE - 1) % 2 ^ 32)
  let npages := sz / PAGE_SIZE
  let as ← .read
  if as.as_vbase1 = 0 ∧ as.code.vbase = 0 then do
    .modify fun as => { as with as_vbase1 := vaddr, as_npages1 := npages }
    define_segment .CODE vaddr npages
  else if as.as_vbase2 = 0 ∧ as.data.vbase = 0 then do
    .modify fun as => { as with as_vbase2 := vaddr, as_npages2 := npages }
    define_segment .DATA vaddr npages
  else .fail .eunimp

def as_prepare_load : Kern AddrSpace Errno Panic Unit := pure ()

def as_complete_load : Kern AddrSpace Errno Panic Unit :=
  .modify fun as => { as with loaded := true }

end OS161
