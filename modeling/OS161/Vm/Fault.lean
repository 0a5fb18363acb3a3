import OS161.Vm.AddrSpace

/-! # TLB faults

The model of `vm_fault` (`kern/vm/vm.c`) and `as_activate` (`kern/vm/addrspace.c`) with the TLB
of the CPU they run on.
-/

namespace OS161

open Framework Kern

abbrev NUM_TLB : Nat := 64

/-- A TLB entry: `ehi`, and the fields of `elo`. -/
structure TlbEntry where
  ehi : Nat
  paddr : Nat
  /-- `TLBLO_DIRTY`: stores through the entry are allowed. -/
  dirty : Bool
  /-- `TLBLO_VALID`. -/
  valid : Bool
  deriving DecidableEq, Repr

abbrev Tlb : Type := Fin NUM_TLB → TlbEntry

/-- The entry `TLBHI_INVALID(i)`, `TLBLO_INVALID()`. -/
def tlbInvalid (i : Fin NUM_TLB) : TlbEntry where
  ehi := MIPS_KSEG0 + i * PAGE_SIZE
  paddr := 0
  dirty := false
  valid := false

/-- The machine as `vm_fault` sees it: the current address space and the TLB of the current CPU. -/
structure FaultState where
  ram : Ram
  as : AddrSpace
  tlb : Tlb
  /-- `next_victim`. -/
  next_victim : Nat

/-- `as_activate`: invalidate every entry. -/
def as_activate : Kern FaultState Errno Panic Unit :=
  .modify fun s => { s with tlb := tlbInvalid }

inductive FaultType where
  | VM_FAULT_READ
  | VM_FAULT_WRITE
  | VM_FAULT_READONLY
  /-- Any other number. -/
  | unknown
  deriving DecidableEq, Repr

/-- How a fault that is not an error ends. -/
inductive FaultResult where
  /-- The access is repeated. -/
  | retry
  /-- `sys__exit(0)`: the process is gone. -/
  | killed
  deriving DecidableEq, Repr

/-- The assertions of `vm_fault` on the address space. -/
def AddrSpace.ready (as : AddrSpace) : Bool :=
  as.code.vbase ≠ 0 ∧ as.code.npages ≠ 0 ∧ as.data.vbase ≠ 0 ∧ as.data.npages ≠ 0 ∧
    as.stack.vbase ≠ 0 ∧ pageFrame as.code.vbase = as.code.vbase ∧
    pageFrame as.stack.vbase = as.stack.vbase

/-- The segment that `vm_fault` looks up a page address in. -/
def AddrSpace.select (as : AddrSpace) (addr : Nat) : Option SegmentT :=
  if addr ≥ as.code.vbase ∧ addr < (as.code.vbase + as.code.npages * PAGE_SIZE) % 2 ^ 32 then
    some .CODE
  else if addr ≥ as.data.vbase ∧
      addr < (as.data.vbase + as.data.npages * PAGE_SIZE) % 2 ^ 32 then
    some .DATA
  else if addr ≥ USERSTACK - STACKPAGES * PAGE_SIZE ∧ addr < USERSTACK then some .STACK
  else none

/-- The index of the first invalid TLB entry. -/
def tlb_first_invalid (tlb : Tlb) : Option (Fin NUM_TLB) :=
  (List.finRange NUM_TLB).find? fun i => (tlb i).valid = false

/-- The entry that `vm_fault` overwrites: the first invalid one, or the one that `tlb_get_rr_victim`
chooses. -/
def tlb_choose : Kern FaultState Errno Panic (Fin NUM_TLB) := do
  let s ← .read
  match tlb_first_invalid s.tlb with
  | some i => pure i
  | none => do
    .modify fun s => { s with next_victim := (s.next_victim + 1) % NUM_TLB }
    pure (Fin.ofNat NUM_TLB s.next_victim)

def tlb_write (entry : TlbEntry) (i : Fin NUM_TLB) : Kern FaultState Errno Panic Unit :=
  .modify fun s => { s with tlb := fun j => if j = i then entry else s.tlb j }

/-- `vm_fault` from the lookup of the segment on. -/
def vm_fault_page (addr : Nat) (attempting_write : Bool) : Kern FaultState Errno Panic FaultResult :=
  do
    let s ← .read
    match s.as.select addr with
    | none => .fail .efault
    | some t => do
      let readonly := decide (t = .CODE) && s.as.loaded
      let paddr ← .zoom (fun s => (s.ram, s.as.segment t))
        (fun s r => { s with ram := r.1, as := s.as.setSegment t r.2 })
        (segment_lookup addr attempting_write)
      .kassert (pageFrame paddr = paddr) .vm_fault_paddr
      let i ← tlb_choose
      tlb_write { ehi := addr, paddr := paddr, dirty := !readonly, valid := true } i
      pure .retry

/-- `vm_fault` for a process that has an address space. -/
def vm_fault (faulttype : FaultType) (faultaddress : Nat) :
    Kern FaultState Errno Panic FaultResult := do
  match faulttype with
  | .VM_FAULT_READONLY => pure .killed
  | .unknown => .fail .einval
  | .VM_FAULT_READ | .VM_FAULT_WRITE => do
    let s ← .read
    .kassert (s.as.ready = true) .vm_fault_addrspace
    vm_fault_page (pageFrame faultaddress) (decide (faulttype = .VM_FAULT_WRITE))

/-! ## How they end

One rule for each function, with what the caller is to show in each of its cases. -/

section Rules

variable {E : Errno → FaultState → Prop} {F : Panic → Prop}

theorem wp_getppages_cases {ram : Ram} {npages : Nat} {Q : Nat → Ram → Prop} {E : Errno → Ram → Prop}
    (hok : ram.firstpaddr ≠ 0 → (ram.firstpaddr + npages * PAGE_SIZE % 2 ^ 32) % 2 ^ 32 ≤ ram.lastpaddr →
      Q ram.firstpaddr { ram with firstpaddr := (ram.firstpaddr + npages * PAGE_SIZE % 2 ^ 32) % 2 ^ 32 })
    (hbad : F .getppages_no_memory) : wp (getppages npages) Q E F ram := by
  unfold getppages ram_stealmem
  simp only [wp_bind, wp_read, wp_ite, wp_pure, wp_modify, wp_halt]
  split
  · exact hbad
  · rename_i hfits
    split
    · exact hbad
    · rename_i hzero
      exact hok hzero (Nat.le_of_not_lt hfits)

/-- The entry as a lookup leaves it. -/
def Pte.touch (pte : Pte) (dirty : Bool) : Pte := if dirty then { pte with dirty := true } else pte

@[simp] theorem Pte.touch_valid (pte : Pte) (dirty : Bool) : (pte.touch dirty).valid = pte.valid := by
  cases dirty <;> rfl

@[simp] theorem Pte.touch_paddr (pte : Pte) (dirty : Bool) : (pte.touch dirty).paddr = pte.paddr := by
  cases dirty <;> rfl

@[simp] theorem Pte.touch_dirty (pte : Pte) (dirty : Bool) : (pte.touch dirty).dirty = (pte.dirty || dirty) := by
  cases dirty <;> simp [touch]

/-- The page has a frame, or gets the next one of RAM. -/
theorem wp_segment_lookup_cases {ram : Ram} {seg : Segment} {vaddr i : Nat} {dirty : Bool}
    {Q : Nat → Ram × Segment → Prop} {E : Errno → Ram × Segment → Prop}
    (hi : (vaddr + 2 ^ 32 - seg.vbase) % 2 ^ 32 / PAGE_SIZE = i)
    (hold : ∀ pte, seg.ptable[i]? = some pte → pte.valid = true →
      Q (pte.paddr + (vaddr + 2 ^ 32 - seg.vbase) % 2 ^ 32 % PAGE_SIZE)
        (ram, { seg with ptable := seg.ptable.set i (pte.touch dirty) }))
    (hnew : ∀ pte npages, npages = 1 → seg.ptable[i]? = some pte → pte.valid = false →
      wp (getppages npages) (fun paddr ram => Q paddr
        (ram, { seg with ptable := seg.ptable.set i { pte.touch dirty with valid := true, paddr := paddr } }))
        (fun _ _ => False) F ram)
    (hindex : seg.ptable[i]? = none → F .segment_lookup_index) : wp (segment_lookup vaddr dirty) Q E F (ram, seg) := by
  unfold segment_lookup
  simp only [wp_bind, wp_read, hi]
  cases hpte : seg.ptable[i]? with
  | none => exact hindex hpte
  | some pte =>
    replace hold := hold pte hpte
    replace hnew := fun npages h1 => hnew pte npages h1 hpte
    rw [← pte.touch_valid dirty] at hold hnew
    rw [← pte.touch_paddr dirty] at hold
    unfold Pte.touch at hold hnew
    dsimp only
    generalize (if dirty then ({ pte with dirty := true } : Pte) else pte) = pte' at *
    generalize h1 : 1 = npages
    rw [wp_ite]
    split
    · rename_i hvalid
      exact hold hvalid
    · rename_i hvalid
      rw [wp_bind, wp_zoom]
      exact wp_post (hnew npages h1.symm (Bool.eq_false_iff.mpr hvalid)) (fun _ _ hQ => hQ) (fun _ _ => False.elim)

/-- The slot of the TLB that `vm_fault` fills. -/
def FaultState.slot (m : FaultState) : Fin NUM_TLB :=
  (tlb_first_invalid m.tlb).getD (Fin.ofNat NUM_TLB m.next_victim)

/-- The machine after a page of segment `t` has been looked up and put into the TLB. -/
def FaultState.fill (m : FaultState) (t : SegmentT) (addr paddr : Nat) (r : Ram × Segment) : FaultState where
  ram := r.1
  as := m.as.setSegment t r.2
  tlb := fun j => if j = m.slot then
    { ehi := addr, paddr := paddr, dirty := !(decide (t = .CODE) && m.as.loaded), valid := true } else m.tlb j
  next_victim := if tlb_first_invalid m.tlb = none then (m.next_victim + 1) % NUM_TLB else m.next_victim

theorem wp_vm_fault_page_cases {m : FaultState} {addr : Nat} {w : Bool} {Q : FaultResult → FaultState → Prop}
    (hnone : m.as.select addr = none → E .efault m)
    (hpage : ∀ t, m.as.select addr = some t → wp (segment_lookup addr w)
      (fun paddr r => if pageFrame paddr = paddr then Q .retry (m.fill t addr paddr r) else F .vm_fault_paddr)
      (fun _ _ => False) F (m.ram, m.as.segment t)) : wp (vm_fault_page addr w) Q E F m := by
  unfold vm_fault_page
  rw [wp_read_bind]
  cases hs : m.as.select addr with
  | none => exact hnone hs
  | some t =>
    dsimp only
    rw [wp_bind, wp_zoom]
    refine wp_post (hpage t hs) ?_ (fun _ _ => False.elim)
    intro paddr r hr
    rw [wp_bind, wp_kassert]
    split
    · rename_i halign
      rw [if_pos halign] at hr
      unfold tlb_choose tlb_write
      simp only [wp_bind, wp_read]
      unfold FaultState.fill FaultState.slot at hr
      cases hfree : tlb_first_invalid m.tlb with
      | some i =>
        rw [hfree] at hr
        exact hr
      | none =>
        rw [hfree] at hr
        exact hr
    · rename_i halign
      rwa [if_neg halign] at hr

theorem wp_vm_fault_cases {m : FaultState} {addr : Nat} {faulttype : FaultType} {Q : FaultResult → FaultState → Prop}
    (hreadonly : faulttype = .VM_FAULT_READONLY → Q .killed m) (hunknown : faulttype = .unknown → E .einval m)
    (hpage : faulttype = .VM_FAULT_READ ∨ faulttype = .VM_FAULT_WRITE → m.as.ready = true →
      wp (vm_fault_page (pageFrame addr) (decide (faulttype = .VM_FAULT_WRITE))) Q E F m)
    (hready : m.as.ready = false → F .vm_fault_addrspace) : wp (vm_fault faulttype addr) Q E F m := by
  have hload : ∀ w, (m.as.ready = true → wp (vm_fault_page (pageFrame addr) w) Q E F m) →
      wp (do
        let s ← .read
        .kassert (s.as.ready = true) .vm_fault_addrspace
        vm_fault_page (pageFrame addr) w) Q E F m := by
    intro w hw
    rw [wp_read_bind, wp_bind, wp_kassert]
    split
    · rename_i hr
      exact hw hr
    · rename_i hr
      exact hready (Bool.eq_false_iff.mpr hr)
  cases faulttype with
  | VM_FAULT_READONLY => exact hreadonly rfl
  | unknown => exact hunknown rfl
  | VM_FAULT_READ => exact hload _ (hpage (.inl rfl))
  | VM_FAULT_WRITE => exact hload _ (hpage (.inr rfl))

end Rules

end OS161
