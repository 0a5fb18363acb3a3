import OS161.Framework.Bump
import OS161.Framework.TransitionSystem
import OS161.Vm.Fault

/-! # Frame isolation

Runs of the VM system: any number of address spaces are created, get their regions and fault
their pages in, on any number of CPUs, while the kernel allocates pages for itself.

Main result: `frame_isolation`. All frames come from the bump allocator of `ram_stealmem`, so
that frames of different pages and of kernel allocations are distinct; a page table is replaced
only as long as no page of its address space has a frame.
-/

namespace OS161

open Framework Kern

/-! ## The system -/

structure VmState where
  ram : Ram
  spaces : List AddrSpace
  /-- The TLB of each CPU. -/
  tlbs : Nat → Tlb
  next_victim : Nat
  /-- What `alloc_kpages` has handed out: physical address and page count. -/
  kallocs : List (Nat × Nat)

inductive VmAct where
  | as_create
  | as_define_region (as : Nat) (vaddr sz : UInt32)
  | as_prepare_load (as : Nat)
  | as_complete_load (as : Nat)
  | as_activate (cpu as : Nat)
  | vm_fault (cpu as : Nat) (faulttype : FaultType) (faultaddress : UInt32)
  | alloc_kpages (npages : Nat)

namespace VmState

/-- Code that works on address space `k`. -/
def onSpace {α : Type} (k : Nat) (m : Kern AddrSpace Errno Panic α) : Kern VmState Errno Panic α :=
  .zoom (fun s => s.spaces.getD k as_create) (fun s as => { s with spaces := s.spaces.set k as }) m

/-- The machine as code on `cpu` sees it when `as` is the current address space. -/
def getCpu (s : VmState) (cpu : Nat) (as : AddrSpace) : FaultState :=
  ⟨s.ram, as, s.tlbs cpu, s.next_victim⟩

/-- The system after code on `cpu`, run in address space `k`, has left the machine in `f`. -/
def putCpu (s : VmState) (cpu k : Nat) (f : FaultState) : VmState :=
  { s with
    ram := f.ram
    spaces := s.spaces.set k f.as
    tlbs := fun c => if c = cpu then f.tlb else s.tlbs c
    next_victim := f.next_victim }

/-- Code that runs on `cpu` for a process with address space `k`. -/
def onCpu {α : Type} (cpu k : Nat) (m : Kern FaultState Errno Panic α) :
    Kern VmState Errno Panic α :=
  .zoom (fun s => s.getCpu cpu (s.spaces.getD k as_create)) (fun s f => s.putCpu cpu k f) m

end VmState

/-- `alloc_kpages`, with a record of what it handed out. -/
def alloc_kpages_recorded (npages : Nat) : Kern VmState Errno Panic Unit := do
  let vaddr ← .zoom VmState.ram (fun s ram => { s with ram := ram }) (alloc_kpages npages)
  .modify fun s => { s with kallocs := s.kallocs ++ [(vaddr - MIPS_KSEG0, npages)] }

/-- Whether an action can happen: address spaces exist, and kernel requests have at most `2^19`
pages. -/
def VmAct.Enabled (s : VmState) : VmAct → Prop
  | .as_create => True
  | .as_define_region k _ _ | .as_prepare_load k | .as_complete_load k | .as_activate _ k
  | .vm_fault _ k _ _ => k < s.spaces.length
  | .alloc_kpages npages => npages ≤ 2 ^ 19

instance VmAct.decidableEnabled (s : VmState) (a : VmAct) : Decidable (a.Enabled s) := by
  cases a <;> unfold VmAct.Enabled <;> infer_instance

/-- The code of an action. -/
def VmAct.code : VmAct → Kern VmState Errno Panic Unit
  | .as_create => .modify fun s => { s with spaces := s.spaces ++ [OS161.as_create] }
  | .as_define_region k vaddr sz => VmState.onSpace k (OS161.as_define_region vaddr.toNat sz.toNat)
  | .as_prepare_load k => VmState.onSpace k OS161.as_prepare_load
  | .as_complete_load k => VmState.onSpace k OS161.as_complete_load
  | .as_activate cpu k => VmState.onCpu cpu k OS161.as_activate
  | .vm_fault cpu k faulttype faultaddress => do
    let _ ← VmState.onCpu cpu k (OS161.vm_fault faulttype faultaddress.toNat)
    pure ()
  | .alloc_kpages npages => alloc_kpages_recorded npages

def vmNext (s : VmState) (a : VmAct) : Option VmState :=
  if a.Enabled s then finalState a.code s else none

/-- The VM system of a machine with `ramsize` bytes of RAM whose kernel ends at the address
`firstfree`. -/
def vmSystem (firstfree ramsize : Nat) : System VmState VmAct :=
  .ofNext (fun s => s.ram = ram_bootstrap firstfree ramsize ∧ s.spaces = [] ∧ s.kallocs = [])
    vmNext

/-! ## Frames and their owners -/

/-- The frame of page `i` of a segment, once the page has one. -/
def Segment.frame (seg : Segment) (i : Nat) : Option Nat :=
  (seg.ptable[i]?).bind fun pte => if pte.valid then some pte.paddr else none

def AddrSpace.frame (as : AddrSpace) (t : SegmentT) (i : Nat) : Option Nat :=
  (as.segment t).frame i

/-- What a frame is in use for. -/
inductive FrameOwner where
  | page (as : Nat) (t : SegmentT) (i : Nat)
  /-- Page `j` of the `n`-th kernel allocation. -/
  | kernel (n j : Nat)
  deriving DecidableEq, Repr

def VmState.frame (s : VmState) : FrameOwner → Option Nat
  | .page k t i => (s.spaces[k]?).bind fun as => as.frame t i
  | .kernel n j =>
    (s.kallocs[n]?).bind fun (paddr, npages) =>
      if j < npages then some (paddr + j * PAGE_SIZE) else none

theorem VmState.frame_page (s : VmState) (k : Nat) (t : SegmentT) (i : Nat) :
    s.frame (.page k t i) = (s.spaces[k]?).bind fun as => as.frame t i := rfl

theorem VmState.frame_kernel (s : VmState) (n j : Nat) :
    s.frame (.kernel n j) = (s.kallocs[n]?).bind fun a =>
      if j < a.2 then some (a.1 + j * PAGE_SIZE) else none := rfl

/-- The index that `segment_lookup` uses. -/
def Segment.vpn (seg : Segment) (vaddr : Nat) : Nat :=
  (vaddr + 2 ^ 32 - seg.vbase) % 2 ^ 32 / PAGE_SIZE

/-- Frame isolation in a state of the system. -/
structure FramesOk (firstfree ramsize : Nat) (s : VmState) : Prop where
  distinct : ∀ o o' f, s.frame o = some f → s.frame o' = some f → o = o'
  aligned : ∀ o f, s.frame o = some f → PAGE_SIZE ∣ f
  inside : ∀ o f, s.frame o = some f →
    (ram_bootstrap firstfree ramsize).firstpaddr ≤ f ∧
      f + PAGE_SIZE ≤ (ram_bootstrap firstfree ramsize).lastpaddr
  /-- A page keeps its frame... -/
  kept : ∀ acts s', System.Run (vmSystem firstfree ramsize) s acts s' →
    ∀ o f, s.frame o = some f → s'.frame o = some f
  /-- ...and later faults on the page use it. -/
  used : ∀ cpu k faulttype addr s', vmNext s (.vm_fault cpu k faulttype addr) = some s' →
    faulttype = .VM_FAULT_READ ∨ faulttype = .VM_FAULT_WRITE →
    ∀ as t f, s.spaces[k]? = some as → as.select (pageFrame addr.toNat) = some t →
      as.frame t ((as.segment t).vpn (pageFrame addr.toNat)) = some f →
      ∃ j, (s'.tlbs cpu j).valid = true ∧ (s'.tlbs cpu j).ehi = pageFrame addr.toNat ∧
        (s'.tlbs cpu j).paddr = f
  /-- An accepted address is inside the page table. -/
  index : ∀ as ∈ s.spaces, as.ready = true → ∀ (addr : UInt32) t,
    as.select (pageFrame addr.toNat) = some t →
      (as.segment t).vpn (pageFrame addr.toNat) < (as.segment t).npages ∧
        (as.segment t).npages = (as.segment t).ptable.length

/-! ## The allocator -/

/-- RAM is at most 508 megabytes, and the free part starts where the kernel, in the upper half of
the virtual addresses, ends. -/
structure Ram.Bounded (ram : Ram) : Prop where
  first : ram.firstpaddr < 2 ^ 31
  last : ram.lastpaddr ≤ 508 * 1024 * 1024

theorem ram_bootstrap_bounded {firstfree : Nat} (ramsize : Nat) (hlo : MIPS_KSEG0 ≤ firstfree)
    (hhi : firstfree < 2 ^ 32) : (ram_bootstrap firstfree ramsize).Bounded where
  first := by
    unfold ram_bootstrap MIPS_KSEG0 at *
    dsimp only
    omega
  last := by
    unfold ram_bootstrap
    dsimp only
    split <;> omega

variable {F : Panic → Prop}

theorem wp_getppages {ram : Ram} {npages : Nat} (hram : ram.Bounded)
    (hn : npages * PAGE_SIZE ≤ 2 ^ 31) (hmem : F .getppages_no_memory) :
    wp (getppages npages) (fun pa ram' => pa = ram.firstpaddr ∧ pa ≠ 0 ∧
        ram.firstpaddr + npages * PAGE_SIZE ≤ ram.lastpaddr ∧
        ram' = { ram with firstpaddr := ram.firstpaddr + npages * PAGE_SIZE })
      (fun _ _ => False) F ram := by
  have hfirst := hram.first
  refine wp_getppages_cases (fun hzero hfits => ?_) hmem
  rw [Nat.mod_eq_of_lt (by omega : npages * PAGE_SIZE < 2 ^ 32), Nat.mod_eq_of_lt (by omega)] at hfits ⊢
  exact ⟨rfl, hzero, hfits, rfl⟩

/-! ## One address space -/

/-- What holds of every address space. -/
structure AsInv (as : AddrSpace) : Prop where
  tables : ∀ t, (as.segment t).ptable.length = (as.segment t).npages
  aligned : ∀ t, PAGE_SIZE ∣ (as.segment t).vbase
  stack_vbase : as.stack.vbase = USERSTACK - STACKPAGES * PAGE_SIZE
  stack_npages : as.stack.npages = STACKPAGES
  /-- Pages get frames only once both regions are defined. -/
  ready : ∀ t i f, as.frame t i = some f → as.code.vbase ≠ 0 ∧ as.data.vbase ≠ 0

theorem pageFrame_dvd (a : Nat) : PAGE_SIZE ∣ pageFrame a := Nat.dvd_mul_left _ _

theorem pageFrame_le (a : Nat) : pageFrame a ≤ a := Nat.div_mul_le_self _ _

variable {a : Nat}

theorem pageFrame_of_dvd (h : PAGE_SIZE ∣ a) : pageFrame a = a :=
  Nat.div_mul_cancel h

section Space

variable {as as' : AddrSpace} {t : SegmentT} {i : Nat}

theorem Segment.frame_replicate {seg : Segment} {n : Nat}
    (h : seg.ptable = List.replicate n pte_create) (i : Nat) : seg.frame i = none := by
  unfold Segment.frame
  rw [h, List.getElem?_replicate]
  split <;> rfl

/-- Writing one page table entry. -/
theorem Segment.frame_set {seg seg' : Segment} {pte : Pte} (hi : i < seg.ptable.length)
    (h : seg'.ptable = seg.ptable.set i pte) (j : Nat) :
    seg'.frame j =
      if j = i then (if pte.valid then some pte.paddr else none) else seg.frame j := by
  unfold Segment.frame
  rw [h, List.getElem?_set]
  by_cases hj : i = j
  · subst hj
    simp [hi]
  · simp [hj, Ne.symm hj]

theorem AddrSpace.segment_setSegment (t' : SegmentT) (seg : Segment) :
    (as.setSegment t' seg).segment t = if t = t' then seg else as.segment t := by
  cases t <;> cases t' <;> rfl

theorem as_create_frame (t : SegmentT) (i : Nat) : as_create.frame t i = none := by
  cases t with
  | CODE | DATA => exact Segment.frame_replicate (n := 0) rfl i
  | STACK => exact Segment.frame_replicate (n := STACKPAGES) rfl i

theorem AsInv.create : AsInv as_create where
  tables := fun t => by cases t <;> rfl
  aligned := fun t => by cases t <;> decide
  stack_vbase := rfl
  stack_npages := rfl
  ready := fun t i f h => by
    rw [as_create_frame] at h
    cases h

/-- The invariant is about the segments only. -/
theorem AsInv.of_segment (h : AsInv as) (hseg : ∀ t, as'.segment t = as.segment t) : AsInv as' where
  tables := fun t => by rw [hseg]; exact h.tables t
  aligned := fun t => by rw [hseg]; exact h.aligned t
  stack_vbase := by
    show (as'.segment .STACK).vbase = _
    rw [hseg]
    exact h.stack_vbase
  stack_npages := by
    show (as'.segment .STACK).npages = _
    rw [hseg]
    exact h.stack_npages
  ready := fun t i f hf => by
    show (as'.segment .CODE).vbase ≠ 0 ∧ (as'.segment .DATA).vbase ≠ 0
    unfold AddrSpace.frame at hf
    rw [hseg] at hf
    rw [hseg, hseg]
    exact h.ready t i f hf

/-- A region is defined while no page of the address space has a frame. -/
theorem AsInv.define_segment (h : AsInv as) (ht : t ≠ .STACK) (hnone : ∀ t i, as.frame t i = none)
    (vaddr npages : Nat) (halign : PAGE_SIZE ∣ vaddr) :
    wp (define_segment t vaddr npages)
      (fun _ as' => AsInv as' ∧ ∀ t i, as'.frame t i = none) (fun _ _ => False)
      (fun _ => True) as := by
  unfold OS161.define_segment segment_prepare
  simp only [wp_bind, wp_modify, wp_zoom, wp_read, wp_kassert]
  split
  · generalize has' : ((AddrSpace.setSegment _ t _ : AddrSpace)) = as'
    have hsegment : ∀ u, as'.segment u = if u = t then
        { as.segment t with
          vbase := vaddr, npages := npages, ptable := List.replicate npages pte_create }
        else as.segment u := by
      intro u
      rw [← has']
      cases t <;> cases u <;> rfl
    have hstack : as'.stack = as.stack := by
      have hs := hsegment .STACK
      rwa [if_neg (Ne.symm ht)] at hs
    have hframe : ∀ u i, as'.frame u i = none := by
      intro u i
      unfold AddrSpace.frame
      rw [hsegment u]
      by_cases hu : u = t
      · rw [if_pos hu]
        exact Segment.frame_replicate rfl i
      · rw [if_neg hu]
        exact hnone u i
    refine ⟨⟨?_, ?_, ?_, ?_, ?_⟩, hframe⟩
    · intro u
      rw [hsegment u]
      by_cases hu : u = t
      · rw [if_pos hu]
        exact List.length_replicate
      · rw [if_neg hu]
        exact h.tables u
    · intro u
      rw [hsegment u]
      by_cases hu : u = t
      · rw [if_pos hu]
        exact halign
      · rw [if_neg hu]
        exact h.aligned u
    · rw [hstack]
      exact h.stack_vbase
    · rw [hstack]
      exact h.stack_npages
    · intro u i f hf
      rw [hframe] at hf
      cases hf
  · trivial

/-- **`as_define_region`** changes no frame. -/
theorem AsInv.as_define_region (h : AsInv as) (vaddr sz : Nat) :
    wp (as_define_region vaddr sz) (fun _ as' => AsInv as' ∧ ∀ t i, as'.frame t i = as.frame t i)
      (fun _ as' => AsInv as' ∧ ∀ t i, as'.frame t i = as.frame t i) (fun _ => True) as := by
  -- an address space with an undefined region has no frames
  have hempty : as.code.vbase = 0 ∨ as.data.vbase = 0 → ∀ t i, as.frame t i = none := by
    intro hzero t i
    by_contra hsome
    obtain ⟨f, hf⟩ := Option.ne_none_iff_exists'.mp hsome
    obtain ⟨hcode, hdata⟩ := h.ready t i f hf
    rcases hzero with hzero | hzero
    · exact hcode hzero
    · exact hdata hzero
  unfold OS161.as_define_region
  simp only [wp_bind, wp_read, wp_ite, wp_modify, wp_fail]
  generalize pageFrame ((_ + PAGE_SIZE - 1) % 2 ^ 32) / PAGE_SIZE = npages
  split
  · rename_i hcode
    have hnone := hempty (.inl hcode.2)
    have h1 : ∀ u n, AsInv { as with as_vbase1 := u, as_npages1 := n } :=
      fun u n => h.of_segment fun t => by cases t <;> rfl
    refine wp_post ((h1 (pageFrame vaddr) npages).define_segment (t := .CODE) (by decide) hnone _ _
      (pageFrame_dvd _)) ?_ (fun _ _ => False.elim)
    rintro _ as' ⟨hinv, hframe⟩
    exact ⟨hinv, fun t i => by rw [hframe, hnone]⟩
  · split
    · rename_i _ hdata
      have hnone := hempty (.inr hdata.2)
      have h2 : ∀ u n, AsInv { as with as_vbase2 := u, as_npages2 := n } :=
        fun u n => h.of_segment fun t => by cases t <;> rfl
      refine wp_post ((h2 (pageFrame vaddr) npages).define_segment (t := .DATA) (by decide) hnone _ _
        (pageFrame_dvd _)) ?_ (fun _ _ => False.elim)
      rintro _ as' ⟨hinv, hframe⟩
      exact ⟨hinv, fun t i => by rw [hframe, hnone]⟩
    · exact ⟨h, fun _ _ => trivial⟩

/-- An address in the range of a segment, without the wrap-around. -/
theorem AsInv.select_range (h : AsInv as) (ha : a < 2 ^ 32) (hs : as.select a = some t) :
    (as.segment t).vbase ≤ a ∧ a - (as.segment t).vbase < (as.segment t).npages * PAGE_SIZE := by
  have hwrap : ∀ seg : Segment, a ≥ seg.vbase → a < (seg.vbase + seg.npages * PAGE_SIZE) % 2 ^ 32 →
      seg.vbase ≤ a ∧ a - seg.vbase < seg.npages * PAGE_SIZE := by
    intro seg hlo hhi
    omega
  unfold AddrSpace.select at hs
  split at hs
  · rename_i hcode
    cases hs
    exact hwrap as.code hcode.1 hcode.2
  · split at hs
    · rename_i _ hdata
      cases hs
      exact hwrap as.data hdata.1 hdata.2
    · split at hs
      · rename_i _ _ hstack
        cases hs
        show as.stack.vbase ≤ a ∧ a - as.stack.vbase < as.stack.npages * PAGE_SIZE
        rw [h.stack_vbase, h.stack_npages]
        omega
      · cases hs

theorem AsInv.vpn_lt (h : AsInv as) (ha : a < 2 ^ 32) (hs : as.select a = some t) :
    (as.segment t).vpn a < (as.segment t).npages := by
  obtain ⟨hlo, hhi⟩ := h.select_range ha hs
  unfold Segment.vpn
  rw [show (a + 2 ^ 32 - (as.segment t).vbase) % 2 ^ 32 = a - (as.segment t).vbase by omega]
  exact (Nat.div_lt_iff_lt_mul (by decide)).mpr hhi

/-- The address of a page is at the start of a page of its segment. -/
theorem AsInv.offset_zero (h : AsInv as) (ha : a < 2 ^ 32) (hpage : PAGE_SIZE ∣ a)
    (hs : as.select a = some t) : (a + 2 ^ 32 - (as.segment t).vbase) % 2 ^ 32 % PAGE_SIZE = 0 := by
  obtain ⟨hlo, -⟩ := h.select_range ha hs
  rw [show (a + 2 ^ 32 - (as.segment t).vbase) % 2 ^ 32 = a - (as.segment t).vbase by omega]
  exact Nat.mod_eq_zero_of_dvd (Nat.dvd_sub hpage (h.aligned t))

end Space

/-! ## Faults -/

/-- The effect of looking up a page: it has the frame `paddr` afterwards, which it had before or
which is the next one of RAM. -/
structure Looked (ram : Ram) (seg : Segment) (i paddr : Nat) (ram' : Ram) (seg' : Segment) :
    Prop where
  vbase : seg'.vbase = seg.vbase
  npages : seg'.npages = seg.npages
  length : seg'.ptable.length = seg.ptable.length
  here : seg'.frame i = some paddr
  others : ∀ j, j ≠ i → seg'.frame j = seg.frame j
  source : (seg.frame i = some paddr ∧ ram' = ram) ∨
    (seg.frame i = none ∧ paddr = ram.firstpaddr ∧
      ram.firstpaddr + PAGE_SIZE ≤ ram.lastpaddr ∧
      ram' = { ram with firstpaddr := ram.firstpaddr + PAGE_SIZE })

theorem wp_segment_lookup {ram : Ram} {seg : Segment} (hram : ram.Bounded)
    (hlt : seg.vpn a < seg.ptable.length) (hoff : (a + 2 ^ 32 - seg.vbase) % 2 ^ 32 % PAGE_SIZE = 0)
    (dirty : Bool) (hmem : F .getppages_no_memory) :
    wp (segment_lookup a dirty)
      (fun paddr s => Looked ram seg (seg.vpn a) paddr s.1 s.2) (fun _ _ => False) F (ram, seg) := by
  have hframe : ∀ pte, seg.ptable[seg.vpn a]? = some pte →
      seg.frame (seg.vpn a) = if pte.valid then some pte.paddr else none := by
    intro pte hpte
    simp [Segment.frame, hpte]
  apply wp_segment_lookup_cases (show _ = seg.vpn a from rfl)
  · intro pte hpte hv
    rw [hoff, Nat.add_zero]
    refine ⟨rfl, rfl, List.length_set .., ?_, ?_, .inl ⟨?_, rfl⟩⟩
    · rw [Segment.frame_set hlt rfl, if_pos rfl, pte.touch_valid, if_pos hv, pte.touch_paddr]
    · intro j hj
      rw [Segment.frame_set hlt rfl, if_neg hj]
    · rw [hframe pte hpte, if_pos hv]
  · intro pte n hn hpte hv
    have hsize : n * PAGE_SIZE = PAGE_SIZE := by rw [hn, Nat.one_mul]
    refine wp_imp (wp_getppages hram (by rw [hsize]; decide) hmem) ?_
    rintro pa ram' ⟨hpa, -, hfits, hram'⟩
    rw [hsize] at hfits hram'
    refine ⟨rfl, rfl, List.length_set .., ?_, ?_, .inr ⟨?_, hpa, hfits, hram'⟩⟩
    · rw [Segment.frame_set hlt rfl, if_pos rfl]
      rfl
    · intro j hj
      rw [Segment.frame_set hlt rfl, if_neg hj]
    · rw [hframe pte hpte, hv]
      rfl
  · intro hnone
    exact absurd hlt (Nat.not_lt.mpr (List.getElem?_eq_none_iff.mp hnone))

variable {t : SegmentT} {as : AddrSpace}

/-- The page at `addr` is looked up in its segment, and the others stay as they are. -/
theorem AsInv.wp_lookup {ram : Ram} {addr : Nat} (h : AsInv as)
    (hram : ram.Bounded) (haddr : addr < 2 ^ 32) (hpage : PAGE_SIZE ∣ addr) (hs : as.select addr = some t)
    (dirty : Bool) (hmem : F .getppages_no_memory) :
    wp (segment_lookup addr dirty)
      (fun paddr s => Looked ram (as.segment t) ((as.segment t).vpn addr) paddr s.1
          ((as.setSegment t s.2).segment t) ∧ ∀ u, u ≠ t → (as.setSegment t s.2).segment u = as.segment u)
      (fun _ _ => False) F (ram, as.segment t) := by
  have hlt : (as.segment t).vpn addr < (as.segment t).ptable.length := by
    rw [h.tables t]
    exact h.vpn_lt haddr hs
  refine wp_imp (wp_segment_lookup hram hlt (h.offset_zero haddr hpage hs) dirty hmem) fun paddr s hlooked => ⟨?_, ?_⟩
  · rw [AddrSpace.segment_setSegment, if_pos rfl]
    exact hlooked
  · intro u hu
    rw [AddrSpace.segment_setSegment, if_neg hu]

/-- The effect of a fault that loads page `addr` of segment `t` into the TLB. -/
structure Paged (s : FaultState) (addr : Nat) (t : SegmentT) (paddr : Nat) (s' : FaultState) :
    Prop where
  select : s.as.select addr = some t
  looked : Looked s.ram (s.as.segment t) ((s.as.segment t).vpn addr) paddr s'.ram
    (s'.as.segment t)
  others : ∀ u, u ≠ t → s'.as.segment u = s.as.segment u
  entry : ∃ j, (s'.tlb j).valid = true ∧ (s'.tlb j).ehi = addr ∧ (s'.tlb j).paddr = paddr

section Fault

variable {s : FaultState} {addr : Nat}

theorem wp_vm_fault_page (hram : s.ram.Bounded) (h : AsInv s.as) (haddr : addr < 2 ^ 32)
    (hpage : PAGE_SIZE ∣ addr) (attempting_write : Bool) (hmem : F .getppages_no_memory)
    (hpaddr : F .vm_fault_paddr ∨ ∀ t i paddr ram' seg',
      Looked s.ram (s.as.segment t) i paddr ram' seg' → PAGE_SIZE ∣ paddr) :
    wp (vm_fault_page addr attempting_write) (fun _ s' => ∃ t paddr, Paged s addr t paddr s')
      (fun _ s' => s' = s ∧ s.as.select addr = none) F s := by
  apply wp_vm_fault_page_cases (fun hs => ⟨rfl, hs⟩)
  intro t hs
  refine wp_imp (h.wp_lookup hram haddr hpage hs attempting_write hmem) ?_
  intro paddr r ⟨hlooked, hothers⟩
  split
  · exact ⟨t, paddr, hs, hlooked, hothers, s.slot, by simp [FaultState.fill]⟩
  · rename_i halign
    exact hpaddr.resolve_right fun hdvd => halign (pageFrame_of_dvd (hdvd _ _ _ _ _ hlooked))

/-- **`vm_fault`** loads the page, or changes nothing. -/
theorem wp_vm_fault (hram : s.ram.Bounded) (h : AsInv s.as) (haddr : addr < 2 ^ 32)
    (faulttype : FaultType) (hmem : F .getppages_no_memory)
    (hpaddr : F .vm_fault_paddr ∨ ∀ t i paddr ram' seg',
      Looked s.ram (s.as.segment t) i paddr ram' seg' → PAGE_SIZE ∣ paddr) (hready : s.as.ready = false → F .vm_fault_addrspace) :
    wp (vm_fault faulttype addr)
      (fun _ s' => (s' = s ∧ faulttype ≠ .VM_FAULT_READ ∧ faulttype ≠ .VM_FAULT_WRITE) ∨
        s.as.ready = true ∧ ∃ t paddr, Paged s (pageFrame addr) t paddr s')
      (fun _ s' => s' = s ∧ ((faulttype ≠ .VM_FAULT_READ ∧ faulttype ≠ .VM_FAULT_WRITE) ∨
        s.as.select (pageFrame addr) = none)) F s := by
  have hframe := pageFrame_le addr
  refine wp_vm_fault_cases ?_ ?_ (fun _ hr => ?_) hready
  · rintro rfl
    exact .inl ⟨rfl, by simp, by simp⟩
  · rintro rfl
    exact ⟨rfl, .inl ⟨by simp, by simp⟩⟩
  · exact wp_post (wp_vm_fault_page hram h (by omega) (pageFrame_dvd addr) _ hmem hpaddr)
      (fun _ _ hp => .inr ⟨hr, hp⟩) (fun _ _ hp => ⟨hp.1, .inr hp.2⟩)

/-- No segment moves or changes its size. -/
theorem Looked.shape {as as' : AddrSpace} {ram ram' : Ram} {i paddr : Nat}
    (h : Looked ram (as.segment t) i paddr ram' (as'.segment t))
    (hothers : ∀ u, u ≠ t → as'.segment u = as.segment u) (u : SegmentT) :
    (as'.segment u).vbase = (as.segment u).vbase ∧ (as'.segment u).npages = (as.segment u).npages ∧
      (as'.segment u).ptable.length = (as.segment u).ptable.length := by
  by_cases hu : u = t
  · subst hu
    exact ⟨h.vbase, h.npages, h.length⟩
  · rw [hothers u hu]
    exact ⟨rfl, rfl, rfl⟩

/-- Looking up a page keeps what holds of the address space. -/
theorem AsInv.look {as as' : AddrSpace} {ram ram' : Ram} {i paddr : Nat} (h : AsInv as)
    (hready : as.ready = true) (hlooked : Looked ram (as.segment t) i paddr ram' (as'.segment t))
    (hothers : ∀ u, u ≠ t → as'.segment u = as.segment u) : AsInv as' := by
  have hshape := hlooked.shape hothers
  refine ⟨?_, ?_, ?_, ?_, ?_⟩
  · intro u
    rw [(hshape u).2.1, ← h.tables u]
    exact (hshape u).2.2
  · intro u
    rw [(hshape u).1]
    exact h.aligned u
  · exact (hshape .STACK).1.trans h.stack_vbase
  · exact (hshape .STACK).2.1.trans h.stack_npages
  · intro _ _ _ _
    have hcode : as'.code.vbase = as.code.vbase := (hshape .CODE).1
    have hdata : as'.data.vbase = as.data.vbase := (hshape .DATA).1
    rw [hcode, hdata]
    simp only [AddrSpace.ready, decide_eq_true_eq] at hready
    exact ⟨hready.1, hready.2.2.1⟩

theorem Paged.asInv {s' : FaultState} {paddr : Nat}
    (hp : Paged s addr t paddr s') (h : AsInv s.as) (hready : s.as.ready = true) : AsInv s'.as :=
  h.look hready hp.looked hp.others

end Fault

/-! ## The invariant -/

/-- What holds in every reachable state of a machine that started with `ram0`. -/
structure VmInv (ram0 : Ram) (s : VmState) : Prop where
  bounded : s.ram.Bounded
  last : s.ram.lastpaddr = ram0.lastpaddr
  bump : Bump PAGE_SIZE ram0.firstpaddr s.ram.firstpaddr s.frame
  below : ∀ o f, s.frame o = some f → f + PAGE_SIZE ≤ s.ram.lastpaddr
  spaces : ∀ as ∈ s.spaces, AsInv as

/-- The effect of an action on the frames: the next `n` frames of RAM get one owner each, and
nothing else changes. -/
structure Grown (s s' : VmState) (n : Nat) : Prop where
  ram : s'.ram = { s.ram with firstpaddr := s.ram.firstpaddr + n * PAGE_SIZE }
  fits : n ≠ 0 → s.ram.firstpaddr + n * PAGE_SIZE ≤ s.ram.lastpaddr
  kept : ∀ o f, s.frame o = some f → s'.frame o = some f
  fresh : ∀ o f, s'.frame o = some f →
    s.frame o = some f ∨ ∃ j < n, f = s.ram.firstpaddr + j * PAGE_SIZE
  single : ∀ o o' f, s.frame o ≠ some f → s.frame o' ≠ some f →
    s'.frame o = some f → s'.frame o' = some f → o = o'

section Invariant

variable {ram0 : Ram} {s s' : VmState} {n : Nat}

/-- An action that touches neither RAM nor any frame. -/
theorem Grown.zero (hram : s'.ram = s.ram) (hframe : ∀ o, s'.frame o = s.frame o) :
    Grown s s' 0 where
  ram := by rw [hram, Nat.zero_mul, Nat.add_zero]
  fits := fun h => (h rfl).elim
  kept := fun o f h => (hframe o).trans h
  fresh := fun o f h => .inl ((hframe o).symm.trans h)
  single := fun o o' f hold _ h _ => (hold ((hframe o).symm.trans h)).elim

theorem VmInv.grow (h : VmInv ram0 s) (hg : Grown s s' n) (hspaces : ∀ as ∈ s'.spaces, AsInv as) :
    VmInv ram0 s' where
  bounded := by
    have hfirst := h.bounded.first
    have hlast := h.bounded.last
    rw [hg.ram]
    refine ⟨?_, hlast⟩
    by_cases hn : n = 0
    · rw [hn]
      omega
    · have hfits := hg.fits hn
      show s.ram.firstpaddr + n * PAGE_SIZE < 2 ^ 31
      omega
  last := by
    rw [hg.ram]
    exact h.last
  bump := by
    rw [hg.ram]
    exact h.bump.extend (by decide) n hg.fresh hg.single
  below := by
    intro o f hf
    rw [hg.ram]
    rcases hg.fresh o f hf with hold | ⟨j, hj, rfl⟩
    · exact h.below o f hold
    · have hfits := hg.fits (by omega)
      have hmul : (j + 1) * PAGE_SIZE ≤ n * PAGE_SIZE := Nat.mul_le_mul_right _ hj
      rw [Nat.add_mul, Nat.one_mul] at hmul
      show s.ram.firstpaddr + j * PAGE_SIZE + PAGE_SIZE ≤ s.ram.lastpaddr
      omega
  spaces := hspaces

/-! ## Actions on one address space -/

section OneSpace

variable {k : Nat} {as as' : AddrSpace}

section

variable (hk : s.spaces[k]? = some as) (hspaces : s'.spaces = s.spaces.set k as') (hkallocs : s'.kallocs = s.kallocs)
include hk hspaces hkallocs

theorem VmState.frame_set
    :
    (∀ t i, s'.frame (.page k t i) = as'.frame t i ∧ s.frame (.page k t i) = as.frame t i) ∧
      ∀ o, (∀ t i, o ≠ .page k t i) → s'.frame o = s.frame o := by
  have hlt : k < s.spaces.length := (List.getElem?_eq_some_iff.mp hk).1
  constructor
  · intro t i
    rw [VmState.frame_page, VmState.frame_page, hspaces, List.getElem?_set_self hlt, hk]
    exact ⟨rfl, rfl⟩
  · intro o ho
    cases o with
    | page k' t i =>
      have hne : k ≠ k' := by
        rintro rfl
        exact ho t i rfl
      rw [VmState.frame_page, VmState.frame_page, hspaces, List.getElem?_set_ne hne]
    | kernel m j =>
      rw [VmState.frame_kernel, VmState.frame_kernel, hkallocs]

/-- The address space changes, its frames do not. -/
theorem Grown.sameFrames (hram : s'.ram = s.ram)
    (hframe : ∀ t i, as'.frame t i = as.frame t i) : Grown s s' 0 := by
  obtain ⟨hhere, hother⟩ := VmState.frame_set hk hspaces hkallocs
  apply Grown.zero hram
  intro o
  by_cases ho : ∃ t i, o = .page k t i
  · obtain ⟨t, i, rfl⟩ := ho
    rw [(hhere t i).1, (hhere t i).2, hframe]
  · exact hother o fun t i h => ho ⟨t, i, h⟩

/-- The page `(t, i)` of the address space gets the next frame of RAM. -/
theorem Grown.onePage {i : Nat}
        (hram : s'.ram = { s.ram with firstpaddr := s.ram.firstpaddr + PAGE_SIZE })
    (hfits : s.ram.firstpaddr + PAGE_SIZE ≤ s.ram.lastpaddr) (hnone : as.frame t i = none)
    (hhere : as'.frame t i = some s.ram.firstpaddr)
    (hothers : ∀ u j, ¬ (u = t ∧ j = i) → as'.frame u j = as.frame u j) : Grown s s' 1 := by
  obtain ⟨hin, hout⟩ := VmState.frame_set hk hspaces hkallocs
  -- only the page that got the frame has changed
  have hsame : ∀ o, o ≠ .page k t i → s'.frame o = s.frame o := by
    intro o ho
    by_cases hpage : ∃ u j, o = .page k u j
    · obtain ⟨u, j, rfl⟩ := hpage
      rw [(hin u j).1, (hin u j).2]
      apply hothers
      rintro ⟨rfl, rfl⟩
      exact ho rfl
    · exact hout o fun u j h => hpage ⟨u, j, h⟩
  have hwas : s.frame (.page k t i) = none := (hin t i).2.trans hnone
  have his : s'.frame (.page k t i) = some s.ram.firstpaddr := (hin t i).1.trans hhere
  refine ⟨?_, ?_, ?_, ?_, ?_⟩
  · rw [hram, Nat.one_mul]
  · intro _
    rwa [Nat.one_mul]
  · intro o f hf
    by_cases ho : o = .page k t i
    · rw [ho, hwas] at hf
      cases hf
    · rwa [hsame o ho]
  · intro o f hf
    by_cases ho : o = .page k t i
    · rw [ho, his] at hf
      cases hf
      exact .inr ⟨0, by omega, by omega⟩
    · rw [hsame o ho] at hf
      exact .inl hf
  · intro o o' f hold hold' hf hf'
    by_cases ho : o = .page k t i
    · by_cases ho' : o' = .page k t i
      · rw [ho, ho']
      · rw [hsame o' ho'] at hf'
        exact (hold' hf').elim
    · rw [hsame o ho] at hf
      exact (hold hf).elim

end

end OneSpace

/-! ## Steps and runs -/

/-- What each action does: some frames get an owner, and the address spaces keep their invariant. -/
def Advances (s s' : VmState) : Prop :=
  (∃ n, Grown s s' n) ∧ ∀ as ∈ s'.spaces, AsInv as

theorem VmInv.as_create (h : VmInv ram0 s) :
    Advances s { s with spaces := s.spaces ++ [OS161.as_create] } := by
  constructor
  · refine ⟨0, Grown.zero rfl ?_⟩
    intro o
    cases o with
    | kernel m j => rfl
    | page k t i =>
      rw [VmState.frame_page, VmState.frame_page]
      by_cases hk : k < s.spaces.length
      · rw [List.getElem?_append_left hk]
      · -- the new address space has no frames
        have hnone : s.spaces[k]? = none := List.getElem?_eq_none (by omega)
        rw [List.getElem?_append_right (by omega), hnone]
        cases hnew : [OS161.as_create][k - s.spaces.length]? with
        | none => rfl
        | some as =>
          have has : as = OS161.as_create := by
            simpa using List.mem_of_getElem? hnew
          rw [has]
          exact as_create_frame t i
  · intro as has
    rcases List.mem_append.mp has with hold | hnew
    · exact h.spaces as hold
    · rw [List.mem_singleton.mp hnew]
      exact AsInv.create

theorem VmInv.mem_set {k : Nat} {as' : AddrSpace} (h : VmInv ram0 s) (h' : AsInv as') :
    ∀ as ∈ s.spaces.set k as', AsInv as := by
  intro as has
  rcases List.mem_or_eq_of_mem_set has with hold | rfl
  · exact h.spaces as hold
  · exact h'

/-- Code on one address space that changes no frame. -/
theorem VmInv.onSpace {k : Nat} (h : VmInv ram0 s) (hk : s.spaces[k]? = some as)
    {m : Kern AddrSpace Errno Panic Unit}
    (hm : wp m (fun _ as' => AsInv as' ∧ ∀ t i, as'.frame t i = as.frame t i)
      (fun _ as' => AsInv as' ∧ ∀ t i, as'.frame t i = as.frame t i) (fun _ => True) as) :
    wp (VmState.onSpace k m) (fun _ => Advances s) (fun _ => Advances s) (fun _ => True)
      s := by
  have hget : s.spaces.getD k OS161.as_create = as := by
    rw [List.getD_eq_getElem?_getD, hk]
    rfl
  have hadv : ∀ as', (AsInv as' ∧ ∀ t i, as'.frame t i = as.frame t i) →
      Advances s { s with spaces := s.spaces.set k as' } :=
    fun as' ha => ⟨⟨0, Grown.sameFrames hk rfl rfl rfl ha.2⟩, h.mem_set ha.1⟩
  unfold VmState.onSpace
  rw [wp_zoom, hget]
  exact wp_post hm (fun _ => hadv) (fun _ => hadv)

variable {cpu k : Nat}

theorem VmState.wp_onCpu {α : Type} (hk : s.spaces[k]? = some as)
    {m : Kern FaultState Errno Panic α} {Q : α → VmState → Prop} {E : Errno → VmState → Prop}
    :
    wp (VmState.onCpu cpu k m) Q E F s ↔
      wp m (fun a f => Q a (s.putCpu cpu k f)) (fun e f => E e (s.putCpu cpu k f)) F
        (s.getCpu cpu as) := by
  have hget : s.spaces.getD k OS161.as_create = as := by
    rw [List.getD_eq_getElem?_getD, hk]
    rfl
  unfold VmState.onCpu
  rw [wp_zoom, hget]

theorem VmInv.unfaulted {f : FaultState} (h : VmInv ram0 s)
    (hk : s.spaces[k]? = some as) (hram : f.ram = s.ram) (has : f.as = as) :
    Advances s (s.putCpu cpu k f) := by
  subst has
  exact ⟨⟨0, Grown.sameFrames hk rfl rfl hram fun _ _ => rfl⟩,
    h.mem_set (h.spaces _ (List.mem_of_getElem? hk))⟩

theorem VmInv.paged {f : FaultState} {addr paddr : Nat}
    (h : VmInv ram0 s) (hk : s.spaces[k]? = some as) (hready : as.ready = true)
    (hp : Paged (s.getCpu cpu as) addr t paddr f) : Advances s (s.putCpu cpu k f) := by
  have has : AsInv as := h.spaces _ (List.mem_of_getElem? hk)
  -- the frames of the other pages of the address space stay
  have hothers : ∀ u j, ¬ (u = t ∧ j = (as.segment t).vpn addr) →
      f.as.frame u j = as.frame u j := by
    intro u j huj
    unfold AddrSpace.frame
    by_cases hu : u = t
    · subst hu
      exact hp.looked.others j fun hj => huj ⟨rfl, hj⟩
    · rw [hp.others u hu]
      rfl
  refine ⟨?_, h.mem_set (hp.asInv has hready)⟩
  rcases hp.looked.source with ⟨hold, hram⟩ | ⟨hnone, hpaddr, hfits, hram⟩
  · refine ⟨0, Grown.sameFrames hk rfl rfl hram ?_⟩
    intro u j
    by_cases huj : u = t ∧ j = (as.segment t).vpn addr
    · obtain ⟨rfl, rfl⟩ := huj
      exact hp.looked.here.trans hold.symm
    · exact hothers u j huj
  · refine ⟨1, Grown.onePage hk rfl rfl hram hfits hnone ?_ hothers⟩
    exact hp.looked.here.trans (congrArg some hpaddr)

/-- The system after `alloc_kpages` has handed out `npages` pages. -/
def VmState.putKpages (s : VmState) (npages : Nat) : VmState :=
  { s with
    ram := { s.ram with firstpaddr := s.ram.firstpaddr + npages * PAGE_SIZE }
    kallocs := s.kallocs ++ [(s.ram.firstpaddr, npages)] }

theorem VmState.frame_putKpages_new (npages j : Nat) :
    (s.putKpages npages).frame (.kernel s.kallocs.length j) =
      if j < npages then some (s.ram.firstpaddr + j * PAGE_SIZE) else none := by
  unfold VmState.putKpages
  rw [VmState.frame_kernel, List.getElem?_append_right (Nat.le_refl _), Nat.sub_self]
  rfl

theorem VmState.frame_putKpages_other (npages : Nat) {o : FrameOwner}
    (ho : ∀ j, o ≠ .kernel s.kallocs.length j) : (s.putKpages npages).frame o = s.frame o := by
  unfold VmState.putKpages
  cases o with
  | page k t i => rfl
  | kernel m j =>
    have hm : m ≠ s.kallocs.length := by
      rintro rfl
      exact ho j rfl
    rw [VmState.frame_kernel, VmState.frame_kernel]
    by_cases hlt : m < s.kallocs.length
    · rw [List.getElem?_append_left hlt]
    · rw [List.getElem?_eq_none (by simp; omega), List.getElem?_eq_none (by omega)]

theorem Grown.kpages {npages : Nat}
    (hfits : s.ram.firstpaddr + npages * PAGE_SIZE ≤ s.ram.lastpaddr) :
    Grown s (s.putKpages npages) npages where
  ram := rfl
  fits := fun _ => hfits
  kept := by
    intro o f hf
    rw [VmState.frame_putKpages_other]
    · exact hf
    · rintro j rfl
      rw [VmState.frame_kernel, List.getElem?_eq_none (Nat.le_refl _)] at hf
      cases hf
  fresh := by
    intro o f hf
    by_cases ho : ∃ j, o = .kernel s.kallocs.length j
    · obtain ⟨j, rfl⟩ := ho
      rw [VmState.frame_putKpages_new, Option.ite_none_right_eq_some] at hf
      exact .inr ⟨j, hf.1, (Option.some.inj hf.2).symm⟩
    · rw [VmState.frame_putKpages_other npages fun j hj => ho ⟨j, hj⟩] at hf
      exact .inl hf
  single := by
    intro o o' f hold hold' hf hf'
    by_cases ho : ∃ j, o = .kernel s.kallocs.length j
    · by_cases ho' : ∃ j, o' = .kernel s.kallocs.length j
      · obtain ⟨j, rfl⟩ := ho
        obtain ⟨j', rfl⟩ := ho'
        rw [VmState.frame_putKpages_new, Option.ite_none_right_eq_some] at hf hf'
        have hj : j * PAGE_SIZE = j' * PAGE_SIZE :=
          Nat.add_left_cancel (Option.some.inj (hf.2.trans hf'.2.symm))
        rw [Nat.eq_of_mul_eq_mul_right (by decide) hj]
      · rw [VmState.frame_putKpages_other npages fun j hj => ho' ⟨j, hj⟩] at hf'
        exact (hold' hf').elim
    · rw [VmState.frame_putKpages_other npages fun j hj => ho ⟨j, hj⟩] at hf
      exact (hold hf).elim

section

variable (h : VmInv ram0 s)
include h

theorem VmInv.alloc_kpages {npages : Nat} (hn : npages ≤ 2 ^ 19) :
    wp (alloc_kpages_recorded npages) (fun _ => Advances s) (fun _ => Advances s)
      (fun _ => True) s := by
  have hsize : npages * PAGE_SIZE ≤ 2 ^ 19 * PAGE_SIZE := Nat.mul_le_mul_right _ hn
  unfold alloc_kpages_recorded OS161.alloc_kpages
  simp only [wp_bind, wp_zoom, wp_ite, wp_pure, wp_modify]
  refine wp_post (wp_getppages h.bounded (hsize.trans (by decide)) trivial) ?_
    (fun _ _ => False.elim)
  rintro pa ram' ⟨rfl, hpa, hfits, rfl⟩
  rw [if_neg hpa, Nat.add_sub_cancel]
  exact ⟨⟨npages, Grown.kpages hfits⟩, h.spaces⟩

/-- **Step lemma**. -/
theorem VmInv.step {a : VmAct} (hstep : vmNext s a = some s') : Advances s s' := by
  unfold vmNext at hstep
  split at hstep
  · rename_i hen
    refine wp_finalState ?_ hstep
    -- an enabled action finds its address space
    have hspace : ∀ k, k < s.spaces.length → ∃ as, s.spaces[k]? = some as ∧ AsInv as := by
      intro k hk
      exact ⟨_, List.getElem?_eq_getElem hk, h.spaces _ (List.getElem_mem hk)⟩
    cases a with
    | as_create => exact h.as_create
    | as_define_region k vaddr sz =>
      obtain ⟨as, hk, has⟩ := hspace k hen
      exact h.onSpace hk (has.as_define_region _ _)
    | as_prepare_load k =>
      obtain ⟨as, hk, has⟩ := hspace k hen
      exact h.onSpace hk ⟨has, fun _ _ => rfl⟩
    | as_complete_load k =>
      obtain ⟨as, hk, has⟩ := hspace k hen
      have hseg : ∀ t, AddrSpace.segment { as with loaded := true } t = as.segment t := by
        intro t
        cases t <;> rfl
      exact h.onSpace hk ⟨has.of_segment hseg, fun t i => by unfold AddrSpace.frame; rw [hseg]⟩
    | as_activate cpu k =>
      obtain ⟨as, hk, -⟩ := hspace k hen
      exact (VmState.wp_onCpu hk).mpr (h.unfaulted hk rfl rfl)
    | vm_fault cpu k faulttype addr =>
      obtain ⟨as, hk, has⟩ := hspace k hen
      simp only [VmAct.code, wp_bind, wp_pure]
      rw [VmState.wp_onCpu hk]
      refine wp_post (wp_vm_fault h.bounded has addr.toNat_lt faulttype trivial (.inl trivial) fun _ => trivial) ?_ ?_
      · rintro _ f (⟨rfl, -⟩ | ⟨hready, t, paddr, hp⟩)
        · exact h.unfaulted hk rfl rfl
        · exact h.paged hk hready hp
      · rintro _ f ⟨rfl, -⟩
        exact h.unfaulted hk rfl rfl
    | alloc_kpages npages => exact h.alloc_kpages hen
  · cases hstep

theorem VmInv.next {a : VmAct} (hstep : vmNext s a = some s') : VmInv ram0 s' := by
  obtain ⟨⟨n, hg⟩, hspaces⟩ := h.step hstep
  exact h.grow hg hspaces

/-- **Run lemma**: a page keeps its frame. -/
theorem VmInv.run_kept {firstfree ramsize : Nat} {acts : List VmAct}
    (hrun : System.Run (vmSystem firstfree ramsize) s acts s') {o : FrameOwner} {f : Nat}
    (hf : s.frame o = some f) : s'.frame o = some f := by
  have hkept := System.run_relation (I := VmInv ram0)
    (R := fun s s' => ∀ o f, s.frame o = some f → s'.frame o = some f)
    (fun _ _ _ hi hstep => hi.next hstep) (fun _ _ _ => id)
    (fun _ _ _ hr hr' o f hf => hr' o f (hr o f hf)) ?_ hrun h
  · exact hkept.2 o f hf
  · intro s a s' hi hstep
    obtain ⟨⟨n, hg⟩, -⟩ := hi.step hstep
    exact hg.kept

/-- A fault on a page that has a frame loads that frame. -/
theorem VmInv.fault_used {faulttype : FaultType} {addr : UInt32}
    (hstep : vmNext s (.vm_fault cpu k faulttype addr) = some s')
    (hft : faulttype = .VM_FAULT_READ ∨ faulttype = .VM_FAULT_WRITE)
    {f : Nat} (hk : s.spaces[k]? = some as) (hs : as.select (pageFrame addr.toNat) = some t)
    (hf : as.frame t ((as.segment t).vpn (pageFrame addr.toNat)) = some f) :
    ∃ j, (s'.tlbs cpu j).valid = true ∧ (s'.tlbs cpu j).ehi = pageFrame addr.toNat ∧
      (s'.tlbs cpu j).paddr = f := by
  have hnot : ¬ (faulttype ≠ .VM_FAULT_READ ∧ faulttype ≠ .VM_FAULT_WRITE) := by
    rintro ⟨hr, hw⟩
    rcases hft with h | h
    · exact hr h
    · exact hw h
  unfold vmNext at hstep
  split at hstep
  · refine wp_finalState (I := fun s' => ∃ j, (s'.tlbs cpu j).valid = true ∧
      (s'.tlbs cpu j).ehi = pageFrame addr.toNat ∧ (s'.tlbs cpu j).paddr = f) ?_ hstep
    simp only [VmAct.code, wp_bind, wp_pure]
    rw [VmState.wp_onCpu hk]
    have has : AsInv as := h.spaces _ (List.mem_of_getElem? hk)
    refine wp_post (wp_vm_fault h.bounded has addr.toNat_lt faulttype trivial (.inl trivial) fun _ => trivial) ?_ ?_
    · rintro _ g (⟨-, hne⟩ | ⟨-, u, paddr, hp⟩)
      · exact (hnot hne).elim
      · have hu : u = t := Option.some.inj (hp.select.symm.trans hs)
        subst hu
        -- the lookup returned the frame that the page had
        have hpaddr : paddr = f := by
          rcases hp.looked.source with ⟨hold, -⟩ | ⟨hnone, -⟩
          · exact Option.some.inj (hold.symm.trans hf)
          · cases hnone.symm.trans hf
        obtain ⟨j, hvalid, hehi, hentry⟩ := hp.entry
        refine ⟨j, ?_⟩
        simp only [VmState.putCpu, if_pos]
        exact ⟨hvalid, hehi, hentry.trans hpaddr⟩
    · rintro _ g ⟨-, hne | hnone⟩
      · exact (hnot hne).elim
      · cases hnone.symm.trans hs
  · cases hstep

end

end Invariant

/-! ## The theorem -/

section Isolation

variable {firstfree ramsize : Nat}

theorem vmInv_reachable (hlo : MIPS_KSEG0 ≤ firstfree) (hhi : firstfree < 2 ^ 32)
    (halign : PAGE_SIZE ∣ firstfree) {s : VmState}
    (h : System.Reachable (vmSystem firstfree ramsize) s) :
    VmInv (ram_bootstrap firstfree ramsize) s := by
  have hfirst : PAGE_SIZE ∣ (ram_bootstrap firstfree ramsize).firstpaddr := by
    unfold ram_bootstrap MIPS_KSEG0 PAGE_SIZE at *
    dsimp only
    omega
  refine System.invariant ?_ (fun s a s' hi hstep => hi.next hstep) h
  rintro s ⟨hram, hspaces, hkallocs⟩
  have hnone : ∀ o, s.frame o = none := by
    intro o
    cases o with
    | page k t i => rw [VmState.frame_page, hspaces]; rfl
    | kernel n j => rw [VmState.frame_kernel, hkallocs]; rfl
  refine ⟨?_, ?_, ?_, ?_, ?_⟩
  · rw [hram]
    exact ram_bootstrap_bounded ramsize hlo hhi
  · rw [hram]
  · rw [hram]
    exact Bump.empty hfirst hnone
  · intro o f hf
    rw [hnone] at hf
    cases hf
  · intro as has
    rw [hspaces] at has
    cases has

/-- **Frame isolation** holds in every state of every run. -/
theorem frame_isolation (hlo : MIPS_KSEG0 ≤ firstfree) (hhi : firstfree < 2 ^ 32)
    (halign : PAGE_SIZE ∣ firstfree) (s : VmState)
    (h : System.Reachable (vmSystem firstfree ramsize) s) : FramesOk firstfree ramsize s := by
  have hinv := vmInv_reachable hlo hhi halign h
  refine ⟨hinv.bump.injective, hinv.bump.aligned, ?_, ?_, ?_, ?_⟩
  · intro o f hf
    have hlast := hinv.last
    exact ⟨(hinv.bump.range o f hf).1, hlast ▸ hinv.below o f hf⟩
  · intro acts s' hrun o f hf
    exact hinv.run_kept hrun hf
  · intro cpu k faulttype addr s' hstep hft as t f hk hs hf
    exact hinv.fault_used hstep hft hk hs hf
  · intro as has _ addr t hs
    have hspace := hinv.spaces as has
    have hle := pageFrame_le addr.toNat
    have hlt := addr.toNat_lt
    exact ⟨hspace.vpn_lt (by omega) hs, (hspace.tables t).symm⟩

/-- Two processes fault their first code page in, around a kernel allocation. -/
theorem frame_isolation_two_processes :
    ∃ s, FramesOk 0x80020000 0x400000 s ∧ s.frame (.page 0 .CODE 0) = some 0x20000 ∧
      s.frame (.kernel 0 2) = some 0x23000 ∧ s.frame (.page 1 .CODE 0) = some 0x24000 := by
  let start : VmState :=
    { ram := ram_bootstrap 0x80020000 0x400000, spaces := [], tlbs := fun _ => tlbInvalid,
      next_victim := 0, kallocs := [] }
  obtain ⟨s, hreach, hframes⟩ : ∃ s, (vmSystem 0x80020000 0x400000).Reachable s ∧
      s.frame (.page 0 .CODE 0) = some 0x20000 ∧ s.frame (.kernel 0 2) = some 0x23000 ∧
      s.frame (.page 1 .CODE 0) = some 0x24000 :=
    System.exists_reachable (s := start) ⟨rfl, rfl, rfl⟩
      [.as_create, .as_define_region 0 0x400000 0x1000, .as_define_region 0 0x10000000 0x2000,
        .as_prepare_load 0, .vm_fault 0 0 .VM_FAULT_READ 0x400010, .alloc_kpages 3, .as_create,
        .as_define_region 1 0x400000 0x1000, .as_define_region 1 0x10000000 0x2000,
        .vm_fault 1 1 .VM_FAULT_WRITE 0x400000] (by decide +kernel)
  exact ⟨s, frame_isolation (by decide) (by decide) (by decide) s hreach, hframes⟩

end Isolation

end OS161
