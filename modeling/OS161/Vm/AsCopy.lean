import OS161.Vm.Frames

/-! # Copying an address space

The model of `as_copy` in `kern/vm/addrspace.c`. It was written for an address space whose
regions lie in one piece of physical memory each (`as_pbase1`, `as_pbase2`, `as_stackpbase`),
and it relies on `as_prepare_load` to get that memory. In this configuration the pages are in
page tables, `as_prepare_load` does nothing, and nobody sets the three fields.
-/

namespace OS161

open Framework

/-! ## The code -/

/-- `struct addrspace` with all its fields. -/
structure FullAddrSpace extends AddrSpace where
  as_pbase1 : Nat
  as_pbase2 : Nat
  as_stackpbase : Nat
  deriving DecidableEq, Repr

/-- Physical memory, and which of the coming calls of `kmalloc` succeed. -/
structure CopyState where
  kmalloc : Nat → Bool
  /-- How many calls there have been. -/
  calls : Nat
  mem : Nat → UInt8

abbrev CopyCode (α : Type) : Type := Kern CopyState Errno Panic α

/-- Whether the next call of `kmalloc` succeeds. -/
def kmalloc_next : CopyCode Bool := do
  let s ← .read
  .modify fun s => { s with calls := s.calls + 1 }
  pure (s.kmalloc s.calls)

/-- `as_create`: the structure, and the page table of the stack segment. -/
def as_create_alloc : CopyCode (Option FullAddrSpace) := do
  let ok ← kmalloc_next
  if ok then do
    let ptable ← kmalloc_next
    -- `segment_prepare` does not look at what `kmalloc` returns
    .kassert (ptable = true) .segment_prepare_null
    pure (some { as_create with as_pbase1 := 0, as_pbase2 := 0, as_stackpbase := 0 })
  else pure none

/-- `memmove` between physical addresses. -/
def memmove_phys (dst src len : Nat) : CopyCode Unit :=
  .modify fun s =>
    { s with mem := fun a => if dst ≤ a ∧ a < dst + len then s.mem (src + (a - dst)) else s.mem a }

def as_copy (old : FullAddrSpace) : CopyCode FullAddrSpace := do
  let created ← as_create_alloc
  match created with
  | none => .fail .enomem
  | some new => do
    let new := { new with
      as_vbase1 := old.as_vbase1
      as_npages1 := old.as_npages1
      as_vbase2 := old.as_vbase2
      as_npages2 := old.as_npages2 }
    -- `as_prepare_load(new)` returns 0
    .kassert (new.as_pbase1 ≠ 0) .as_copy_pbase1
    .kassert (new.as_pbase2 ≠ 0) .as_copy_pbase2
    .kassert (new.as_stackpbase ≠ 0) .as_copy_stackpbase
    memmove_phys new.as_pbase1 old.as_pbase1 (old.as_npages1 * PAGE_SIZE)
    memmove_phys new.as_pbase2 old.as_pbase2 (old.as_npages2 * PAGE_SIZE)
    memmove_phys new.as_stackpbase old.as_stackpbase (STACKPAGES * PAGE_SIZE)
    pure new

/-! ## What a copy is -/

/-- The byte at `k` of the frame `f`. -/
def frameByte (mem : Nat → UInt8) (f k : Nat) : UInt8 := mem (f + k)

/-- `new` is a private copy of `old`, made when memory was `mem`; now it is `mem'`. -/
structure PrivateCopy (mem mem' : Nat → UInt8) (old new : FullAddrSpace) : Prop where
  /-- The same segments, hence the same answers of `vm_fault`... -/
  segments : ∀ t, (new.segment t).vbase = (old.segment t).vbase ∧
    (new.segment t).npages = (old.segment t).npages
  /-- ...and the same write protection. -/
  loaded : new.loaded = old.loaded
  contents : ∀ t i f, old.frame t i = some f →
    ∃ f', new.frame t i = some f' ∧ ∀ k < PAGE_SIZE, frameByte mem' f' k = frameByte mem f k
  unchanged : ∀ t i f, old.frame t i = some f → ∀ k < PAGE_SIZE, frameByte mem' f k = frameByte mem f k
  /-- No store through one of them is seen through the other. -/
  disjoint : ∀ t i f t' i' f', old.frame t i = some f → new.frame t' i' = some f' →
    f + PAGE_SIZE ≤ f' ∨ f' + PAGE_SIZE ≤ f

/-- When memory is available, `as_copy` makes a private copy. -/
def AsCopyRight (s : CopyState) (old : FullAddrSpace) : Prop :=
  (∀ i, s.kmalloc i = true) →
    ∃ new s', as_copy old s = .ok new s' ∧ PrivateCopy s.mem s'.mem old new

/-! ## What happens -/

/-- `as_create` runs out of memory, or the assertion on `as_pbase1` stops the machine. -/
theorem as_copy_run (s : CopyState) (old : FullAddrSpace) :
    as_copy old s =
      if s.kmalloc s.calls = false then .err .enomem { s with calls := s.calls + 1 }
      else if s.kmalloc (s.calls + 1) = false then .panic .segment_prepare_null
      else .panic .as_copy_pbase1 := by
  unfold as_copy as_create_alloc kmalloc_next
  cases h0 : s.kmalloc s.calls with
  | false =>
    rw [if_pos rfl]
    simp [bind, Kern.andThen, Kern.read, Kern.modify, pure, Kern.ret, Kern.fail, h0]
  | true =>
    rw [if_neg (by simp)]
    cases h1 : s.kmalloc (s.calls + 1) with
    | false | true =>
      simp [bind, Kern.andThen, Kern.read, Kern.modify, pure, Kern.ret, Kern.kassert, Kern.halt, h0, h1]

/-- **`as_copy` never makes a copy**, whatever the address space. -/
theorem as_copy_never (s : CopyState) (old : FullAddrSpace) (hmem : ∀ i, s.kmalloc i = true) :
    ¬ AsCopyRight s old := by
  intro hright
  obtain ⟨new, s', hrun, -⟩ := hright hmem
  rw [as_copy_run, if_neg (by simp [hmem]), if_neg (by simp [hmem])] at hrun
  cases hrun

/-- Plenty of memory, all of it zero. -/
def plenty : CopyState where
  kmalloc := fun _ => true
  calls := 0
  mem := fun _ => 0

/-- A program of one code page and one data page, none of which has been touched. -/
def smallProgram : FullAddrSpace where
  as_vbase1 := 0x400000
  as_npages1 := 1
  as_vbase2 := 0x500000
  as_npages2 := 1
  code := { vbase := 0x400000, npages := 1, ptable := [pte_create], tsegment := .CODE }
  data := { vbase := 0x500000, npages := 1, ptable := [pte_create], tsegment := .DATA }
  stack := segment_create .STACK
  loaded := true
  as_pbase1 := 0
  as_pbase2 := 0
  as_stackpbase := 0

theorem as_copy_never_small : (∀ i, plenty.kmalloc i = true) ∧ ¬ AsCopyRight plenty smallProgram :=
  ⟨fun _ => rfl, as_copy_never plenty smallProgram fun _ => rfl⟩

/-- The kernel panics when a small program is copied. -/
theorem as_copy_panics :
    as_copy smallProgram plenty = .panic .as_copy_pbase1 ∧ ¬ AsCopyRight plenty smallProgram := by
  have hrun : as_copy smallProgram plenty = .panic .as_copy_pbase1 := by
    rw [as_copy_run, if_neg (by simp [plenty]), if_neg (by simp [plenty])]
  refine ⟨hrun, fun hright => ?_⟩
  obtain ⟨new, s', hok, -⟩ := hright fun _ => rfl
  rw [hrun] at hok
  cases hok

end OS161
