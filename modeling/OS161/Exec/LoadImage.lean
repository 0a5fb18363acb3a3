import OS161.Exec.CopyInOut
import OS161.Exec.LoaderRuns
import OS161.Exec.Text
import OS161.Framework.Contents
import OS161.Framework.Paging
import OS161.Vm.TlbCoherence

/-! # What the loader leaves in memory

The model of `load_elf` (`kern/syscall/loadelf.c`) down to the bytes of physical memory:
`load_segment` reads the file through a `uio` into user memory, `uiomove` passes each piece to
`copyout` (`kern/lib/uio.c`, `kern/vm/copyinout.c`), and every store of the copy goes through
the TLB and may fault (`kern/vm/vm.c`). The file system hands the bytes of the file over in
pieces of any size.

Before each access to user memory, and between a fault and the access that is repeated after it,
the thread can be switched away, which empties the TLB, and others can take frames and write to
theirs.
-/

namespace OS161.Loader

open Framework Kern

/-! ## The machine -/

/-- What can happen between two steps of the load. -/
inductive Interference where
  /-- The thread is switched away and back. -/
  | switch
  /-- Others get `npages` pages from `getppages`, write to memory that is not of this process, and
      choose TLB entries to replace. -/
  | others (npages : Nat) (bytes : Nat → UInt8) (victim : Nat)

structure Machine where
  /-- The CPU that the process runs on, and its address space. -/
  cpu : FaultState
  /-- Physical memory. -/
  mem : Nat → UInt8
  /-- What is going to happen before each access to user memory. -/
  env : List (List Interference)
  /-- The pieces in which the file system is going to transfer files. -/
  pieces : List Nat

/-- The frames of a segment. -/
def frames (seg : Segment) : List Nat := (seg.ptable.filter (·.valid)).map (·.paddr)

/-- The address is in a frame of the address space. -/
def owned (as : AddrSpace) (paddr : Nat) : Bool :=
  (frames as.code ++ frames as.data ++ frames as.stack).any fun f => f ≤ paddr && paddr < f + PAGE_SIZE

def Interference.apply (s : Machine) : Interference → Machine
  | .switch => { s with cpu := { s.cpu with tlb := tlbInvalid } }
  | .others npages bytes victim =>
    let first := s.cpu.ram.firstpaddr + npages * PAGE_SIZE
    let ram := if first ≤ s.cpu.ram.lastpaddr then { s.cpu.ram with firstpaddr := first } else s.cpu.ram
    { s with
      cpu := { s.cpu with ram := ram, next_victim := victim }
      mem := fun p => if p < ram.firstpaddr ∧ owned s.cpu.as p = false then bytes p else s.mem p }

def interfere (s : Machine) (batch : List Interference) : Machine := batch.foldl Interference.apply s

/-- Code that works on the CPU and the address space. -/
def onCpu {α : Type} (m : Kern FaultState Errno Panic α) : Kern Machine Errno Panic α :=
  .zoom Machine.cpu (fun s cpu => { s with cpu := cpu }) m

/-! ## User memory -/

/-- `vm_fault` for an access by the kernel in `copyout`, or by the process. -/
def fault (faulttype : FaultType) (addr : Nat) : Kern Machine Errno Panic Unit := do
  match ← onCpu (.attempt (vm_fault faulttype addr)) with
  | .ok .retry => pure ()
  | .ok .killed => .halt .vm_fault_exit
  | .error _ => .fail .efault

/-- Try an access: the physical address, or nothing when there was a fault, after which it is repeated. -/
def touch (addr : Nat) (write : Bool) : Kern Machine Errno Panic (Option Nat) := do
  let s ← .read
  match tlb_match s.cpu.tlb (pageFrame addr) with
  | none => do
    fault (if write then .VM_FAULT_WRITE else .VM_FAULT_READ) addr
    pure none
  | some j =>
    if write && !(s.cpu.tlb j).dirty then do
      fault .VM_FAULT_READONLY addr
      pure none
    else pure (some ((s.cpu.tlb j).paddr + addr % PAGE_SIZE))

/-- An access, repeated until it goes through. -/
def access (addr : Nat) (write : Bool) : List (List Interference) → Kern Machine Errno Panic Nat
  | [] => do
    match ← touch addr write with
    | some paddr => pure paddr
    | none =>
      match ← touch addr write with
      | some paddr => pure paddr
      | none => .halt .kernel_fault
  | batch :: env => do
    .modify fun s => { interfere s batch with env := env }
    match ← touch addr write with
    | some paddr => pure paddr
    | none => access addr write env

def store (addr : Nat) (b : UInt8) : Kern Machine Errno Panic Unit := do
  let s ← .read
  let paddr ← access addr true s.env
  .modify fun s => { s with mem := Function.update s.mem paddr b }

def load (addr : Nat) : Kern Machine Errno Panic UInt8 := do
  let s ← .read
  let paddr ← access addr false s.env
  let s ← .read
  pure (s.mem paddr)

def memcpy (dest : Nat) : List UInt8 → Kern Machine Errno Panic Unit
  | [] => pure ()
  | b :: bytes => do
    store dest b
    memcpy (dest + 1) bytes

def copyout (src : List UInt8) (userdest : Nat) : Kern Machine Errno Panic Unit := do
  let stoplen ← .ofExcept (copycheck userdest src.length)
  if stoplen ≠ src.length then .fail .efault else memcpy userdest src

/-! ## Reading into user memory -/

/-- A `uio` with one `iovec` in user space. -/
structure UserUio where
  iov_ubase : Nat
  iov_len : Nat
  uio_offset : Nat
  uio_resid : Nat
  deriving DecidableEq, Repr

/-- The end of one turn of the loop of `uiomove`. -/
def UserUio.advance (u : UserUio) (size : Nat) : UserUio where
  iov_ubase := (u.iov_ubase + size) % 2 ^ 32
  iov_len := u.iov_len - size
  uio_offset := u.uio_offset + size
  uio_resid := (u.uio_resid + 2 ^ 32 - size) % 2 ^ 32

/-- The loop of `uiomove`; a turn moves at least one byte, so that `turns = n` are enough. -/
def uiomoveLoop : (turns : Nat) → List UInt8 → (n : Nat) → UserUio → Kern Machine Errno Panic UserUio
  | 0, _, _, u => pure u
  | turns + 1, ptr, n, u =>
    if n = 0 ∨ u.uio_resid = 0 then pure u
    else
      let size := min u.iov_len n
      if size = 0 then .halt .uiomove_ran_out_of_buffers
      else do
        copyout (ptr.take size) u.iov_ubase
        uiomoveLoop turns (ptr.drop size) (n - size) (u.advance size)

def uiomove (ptr : List UInt8) (n : Nat) (u : UserUio) : Kern Machine Errno Panic UserUio := uiomoveLoop n ptr n u

/-- The size of the next piece of a transfer of `n` bytes. -/
def nextPiece (n : Nat) : Kern Machine Errno Panic Nat := do
  let s ← .read
  match s.pieces with
  | [] => pure n
  | k :: pieces => do
    .modify fun s => { s with pieces := pieces }
    pure (min (max k 1) n)

/-- `VOP_READ`: the bytes of the file up to its end, in pieces; `turns` as above. -/
def readLoop (file : List UInt8) : (turns : Nat) → UserUio → Kern Machine Errno Panic UserUio
  | 0, u => pure u
  | turns + 1, u =>
    if min u.uio_resid (file.length - u.uio_offset) = 0 then pure u
    else do
      let n ← nextPiece (min u.uio_resid (file.length - u.uio_offset))
      let u ← uiomove (file_read file u.uio_offset n) n u
      readLoop file turns u

def VOP_READ (file : List UInt8) (u : UserUio) : Kern Machine Errno Panic UserUio := readLoop file u.uio_resid u

/-! ## `load_elf` -/

def load_segment (file : List UInt8) (ph : Phdr) : Kern Machine Errno Panic Unit := do
  let filesize := min ph.p_filesz ph.p_memsz
  let u ← VOP_READ file
    { iov_ubase := ph.p_vaddr, iov_len := ph.p_memsz, uio_offset := ph.p_offset, uio_resid := filesize }
  if u.uio_resid ≠ 0 then .fail .enoexec else pure ()

/-- One round of the second loop. -/
def load_phdr (file : List UInt8) (eh : Ehdr) (i : Nat) : Kern Machine Errno Panic Unit := do
  let ph ← .ofExcept (read_phdr file eh i)
  match ph.kind with
  | .skip => pure ()
  | .load => load_segment file ph
  | .bad => .fail .enoexec

def load_phdrs (file : List UInt8) (eh : Ehdr) : List Nat → Kern Machine Errno Panic Unit
  | [] => pure ()
  | i :: rest => do
    load_phdr file eh i
    load_phdrs file eh rest

/-- `load_elf`; `c` says how the page tables of the regions are allocated. -/
def load_elf (file : List UInt8) (c : Nat → SubpageCase) : Kern Machine Errno Panic Nat := do
  let eh ← .ofExcept (read_ehdr file)
  onCpu (define_phdrs_mem file eh c (List.range eh.e_phnum))
  load_phdrs file eh (List.range eh.e_phnum)
  onCpu (.zoom FaultState.as (fun s as => { s with as := as }) as_complete_load)
  pure eh.e_entry

/-! ## Pages and frames -/

/-- The address is that of a page of a segment. -/
def IsPage (as : AddrSpace) (page : Nat) : Prop := PAGE_SIZE ∣ page ∧ (as.select page).isSome = true

/-- The frame of a page, if it has one. -/
def frameOf (as : AddrSpace) (page : Nat) : Option Nat :=
  if PAGE_SIZE ∣ page then (as.select page).bind fun t => as.frame t ((as.segment t).vpn page) else none

/-- Where the segments are, and whether the load is complete. -/
def layout (as : AddrSpace) : (SegmentT → Nat × Nat) × Bool :=
  (fun t => ((as.segment t).vbase, (as.segment t).npages), as.loaded)

/-- The memory of a process whose segments are those of `as₀` is `img`. -/
structure Holds (as₀ : AddrSpace) (s : Machine) (img : Nat → UInt8) : Prop where
  mach : MachOk s.cpu
  ready : s.cpu.as.ready = true
  layout : layout s.cpu.as = layout as₀
  memory : Paging.Inv PAGE_SIZE 0 (IsPage as₀) (frameOf s.cpu.as) s.cpu.ram.firstpaddr s.mem img
  tlb : ∀ j, (s.cpu.tlb j).valid = true → frameOf s.cpu.as (s.cpu.tlb j).ehi = some (s.cpu.tlb j).paddr
  dirty : as₀.loaded = false → ∀ j, (s.cpu.tlb j).valid = true → (s.cpu.tlb j).dirty = true

section Frames

variable {as as' as₀ : AddrSpace} {s s' : FaultState} {page paddr : Nat} {t : SegmentT}

theorem select_layout (h : layout as' = layout as) (page : Nat) : as'.select page = as.select page := by
  have hseg := congrFun (congrArg Prod.fst h)
  exact Coherence.select_congr (fun t => congrArg Prod.fst (hseg t)) (fun t => congrArg Prod.snd (hseg t)) page

theorem isPage_layout (h : layout as' = layout as) (page : Nat) : IsPage as' page ↔ IsPage as page := by
  unfold IsPage
  rw [select_layout h]

theorem select_lt (h : as.select page = some t) : page < 2 ^ 32 := by
  unfold AddrSpace.select at h
  split at h
  · rename_i hcode
    exact Nat.lt_trans hcode.2 (Nat.mod_lt _ (by decide))
  · split at h
    · rename_i hdata
      exact Nat.lt_trans hdata.2 (Nat.mod_lt _ (by decide))
    · split at h
      · rename_i hstack
        exact Nat.lt_trans hstack.2 (by decide)
      · exact nomatch h

/-- Pages of a segment have different places in its page table. -/
theorem vpn_injective (h : AsInv as) {p q : Nat} (hp : PAGE_SIZE ∣ p) (hq : PAGE_SIZE ∣ q) (hsp : as.select p = some t)
    (hsq : as.select q = some t) (heq : (as.segment t).vpn p = (as.segment t).vpn q) : p = q := by
  have hplt := select_lt hsp
  have hqlt := select_lt hsq
  obtain ⟨hplo, -⟩ := h.select_range hplt hsp
  obtain ⟨hqlo, -⟩ := h.select_range hqlt hsq
  obtain ⟨i, hi⟩ := Nat.dvd_sub hp (h.aligned t)
  obtain ⟨j, hj⟩ := Nat.dvd_sub hq (h.aligned t)
  unfold Segment.vpn at heq
  rw [show (p + 2 ^ 32 - (as.segment t).vbase) % 2 ^ 32 = p - (as.segment t).vbase by omega,
    show (q + 2 ^ 32 - (as.segment t).vbase) % 2 ^ 32 = q - (as.segment t).vbase by omega, hi, hj,
    Nat.mul_div_cancel_left _ (by decide), Nat.mul_div_cancel_left _ (by decide)] at heq
  rw [heq] at hi
  omega

theorem frameOf_eq (hpage : PAGE_SIZE ∣ page) (ht : as.select page = some t) :
    frameOf as page = as.frame t ((as.segment t).vpn page) := by
  rw [frameOf, if_pos hpage, ht]
  rfl

theorem isPage_of_frameOf {f : Nat} (h : frameOf as page = some f) : IsPage as page := by
  unfold frameOf at h
  split at h
  · rename_i hpage
    obtain ⟨t, ht, -⟩ := Option.bind_eq_some_iff.mp h
    exact ⟨hpage, by rw [ht]; rfl⟩
  · exact nomatch h

/-- The page that is looked up has its frame, the others are as before. -/
theorem Paged.frameOf (hp : Paged s page t paddr s') (h : AsInv s.as) (hpage : PAGE_SIZE ∣ page)
    (hselect : ∀ p, s'.as.select p = s.as.select p) :
    frameOf s'.as page = some paddr ∧ ∀ q, q ≠ page → frameOf s'.as q = frameOf s.as q := by
  have hvpn : ∀ u q, (s'.as.segment u).vpn q = (s.as.segment u).vpn q := by
    intro u q
    unfold Segment.vpn
    rw [hp.vbase]
  constructor
  · rw [frameOf_eq hpage ((hselect page).trans hp.select), hvpn]
    exact hp.looked.here
  · intro q hq
    by_cases hqd : PAGE_SIZE ∣ q
    · cases hsel : s.as.select q with
      | none =>
        rw [Loader.frameOf, Loader.frameOf, hselect, hsel, Option.bind_none, Option.bind_none]
      | some u =>
        rw [frameOf_eq hqd hsel, frameOf_eq hqd ((hselect q).trans hsel), hvpn]
        unfold AddrSpace.frame
        by_cases hu : u = t
        · -- another page of the same segment
          subst hu
          apply hp.looked.others
          exact fun heq => hq (vpn_injective h hqd hpage hsel hp.select heq)
        · rw [hp.others u hu]
    · rw [Loader.frameOf, Loader.frameOf, if_neg hqd, if_neg hqd]

theorem mem_frames {seg : Segment} {i f : Nat} (h : seg.frame i = some f) : f ∈ frames seg := by
  obtain ⟨pte, hpte, hf⟩ := Option.bind_eq_some_iff.mp h
  split at hf
  · rename_i hvalid
    cases hf
    refine List.mem_map.mpr ⟨pte, List.mem_filter.mpr ⟨List.mem_of_getElem? hpte, hvalid⟩, rfl⟩
  · exact nomatch hf

/-- What is in a frame is owned. -/
theorem owned_of_frameOf {f x : Nat} (h : frameOf as page = some f) (hlo : f ≤ x) (hhi : x < f + PAGE_SIZE) :
    owned as x = true := by
  obtain ⟨hpage, -⟩ := isPage_of_frameOf h
  rw [frameOf, if_pos hpage] at h
  obtain ⟨t, -, hf⟩ := Option.bind_eq_some_iff.mp h
  have hmem : f ∈ frames as.code ++ frames as.data ++ frames as.stack := by
    have := mem_frames hf
    cases t <;> simp [AddrSpace.segment] at this ⊢ <;> tauto
  exact List.any_eq_true.mpr ⟨f, hmem, by simp [hlo, hhi]⟩

end Frames

/-! ## Interference -/

section Memory

variable {as₀ : AddrSpace} {s s' : Machine} {img : Nat → UInt8} {addr : Nat}

theorem Holds.flush (h : Holds as₀ s img) : Holds as₀ { s with cpu := { s.cpu with tlb := tlbInvalid } } img :=
  { h with
    mach := { h.mach with }
    tlb := fun _ hj => nomatch hj
    dirty := fun _ _ hj => nomatch hj }

theorem Holds.others (h : Holds as₀ s img) {ram : Ram} {mem : Nat → UInt8} {victim : Nat} (hram : RamOk ram)
    (hgrown : s.cpu.ram.firstpaddr ≤ ram.firstpaddr)
    (hmem : ∀ x, (ram.firstpaddr ≤ x ∨ owned s.cpu.as x = true) → mem x = s.mem x) :
    Holds as₀ { s with cpu := { s.cpu with ram := ram, next_victim := victim }, mem := mem } img :=
  { h with
    mach := { h.mach with ram := hram }
    memory := by
      apply h.memory.elsewhere hgrown
      intro x hx
      apply hmem
      rcases hx with hx | ⟨p, f, hf, hlo, hhi⟩
      · exact .inl hx
      · exact .inr (owned_of_frameOf hf hlo hhi) }

/-- `getppages` for others. -/
theorem ramOk_taken {ram ram' : Ram} (h : RamOk ram) (npages : Nat)
    (hram : ram' = if ram.firstpaddr + npages * PAGE_SIZE ≤ ram.lastpaddr then
      { ram with firstpaddr := ram.firstpaddr + npages * PAGE_SIZE } else ram) :
    RamOk ram' ∧ ram.firstpaddr ≤ ram'.firstpaddr := by
  have hlast := h.bounded.last
  subst hram
  split
  · rename_i hfits
    refine ⟨⟨⟨?_, hlast⟩, Nat.dvd_add h.aligned (Nat.dvd_mul_left _ _)⟩, Nat.le_add_right _ _⟩
    show ram.firstpaddr + npages * PAGE_SIZE < 2 ^ 31
    omega
  · exact ⟨h, Nat.le_refl _⟩

theorem Holds.apply (h : Holds as₀ s img) (e : Interference) : Holds as₀ (e.apply s) img := by
  cases e with
  | switch => exact h.flush
  | others npages bytes victim =>
    obtain ⟨hram, hgrown⟩ := ramOk_taken h.mach.ram npages rfl
    apply h.others hram hgrown
    intro x hx
    rw [if_neg]
    rintro ⟨hlt, hfree⟩
    rcases hx with hx | hx
    · exact Nat.not_lt.mpr hx hlt
    · exact nomatch hfree.symm.trans hx

theorem Holds.interfere (h : Holds as₀ s img) (batch : List Interference) : Holds as₀ (interfere s batch) img := by
  induction batch generalizing s with
  | nil => exact h
  | cons e rest ih => exact ih (h.apply e)

theorem Holds.env (h : Holds as₀ s img) (env : List (List Interference)) (pieces : List Nat) :
    Holds as₀ { s with env := env, pieces := pieces } img :=
  { h with }

/-! ## Faults and accesses -/

/-- A fault on a page of a segment that is not in the TLB maps it, unless there is no memory. -/
theorem wp_vm_fault_miss {m : FaultState} (h : MachOk m) (hready : m.as.ready = true)
    (hpage : IsPage m.as (pageFrame addr)) (haddr : addr < 2 ^ 32) {ft : FaultType}
    (hft : ft = .VM_FAULT_READ ∨ ft = .VM_FAULT_WRITE) :
    wp (vm_fault ft addr)
      (fun r m' => r = .retry ∧ Filled m (pageFrame addr) m' ∧ ∃ t paddr, Paged m (pageFrame addr) t paddr m')
      (fun _ _ => False) NoMemory m := by
  have hlt := Nat.lt_of_le_of_lt (pageFrame_le addr) haddr
  have hnot : m.as.ready = false → NoMemory .vm_fault_addrspace := fun hnot => nomatch hnot.symm.trans hready
  have hload : ∀ w, wp (vm_fault_page (pageFrame addr) w)
      (fun r m' => r = .retry ∧ Filled m (pageFrame addr) m' ∧ ∃ t paddr, Paged m (pageFrame addr) t paddr m')
      (fun _ _ => False) NoMemory m := by
    intro w
    refine wp_mono (wp_and (wp_vm_fault_page_fills m _ w) (wp_vm_fault_page h.ram.bounded h.inv hlt (pageFrame_dvd addr)
      w (.inl rfl) (.inr fun _ _ _ _ _ => h.looked_dvd))) ?_ ?_ (fun _ hF => hF.2)
    · exact fun _ _ hQ => ⟨hQ.1.1, hQ.1.2, hQ.2⟩
    · intro _ _ hE
      have hsome := hpage.2
      rw [hE.2.2] at hsome
      exact nomatch hsome
  rcases hft with rfl | rfl
  · exact wp_vm_fault_cases nofun nofun (fun _ _ => hload _) hnot
  · exact wp_vm_fault_cases nofun nofun (fun _ _ => hload _) hnot

/-- A fault keeps the memory of the process, and leaves the page in the TLB. -/
theorem Holds.paged (h : Holds as₀ s img) {m' : FaultState} {t : SegmentT} {page paddr : Nat}
    (hmiss : tlb_match s.cpu.tlb page = none) (hpage : PAGE_SIZE ∣ page) (hfill : Filled s.cpu page m')
    (hp : Paged s.cpu page t paddr m') : Holds as₀ { s with cpu := m' } img := by
  have hlayout : Loader.layout m'.as = Loader.layout s.cpu.as := by
    have htext := hfill.text
    simp only [AddrSpace.text, Prod.mk.injEq] at htext
    unfold Loader.layout
    rw [htext.2.2]
    congr 1
    funext u
    rw [hp.vbase, hp.npages]
  have hselect := select_layout hlayout
  obtain ⟨hhere, hothers⟩ := Paged.frameOf hp h.mach.inv hpage hselect
  have hisPage : IsPage as₀ page := (isPage_layout h.layout page).mp ⟨hpage, by rw [hp.select]; rfl⟩
  have hold : Loader.frameOf s.cpu.as page = s.cpu.as.frame t ((s.cpu.as.segment t).vpn page) :=
    frameOf_eq hpage hp.select
  -- only the slot of the page has changed
  obtain ⟨u, pa, hu, htlb⟩ := hfill.filled
  have hut : u = t := Option.some.inj (hu.symm.trans hp.select)
  have hpa : pa = paddr := by
    obtain ⟨j, hvalid, hehi, hpaddr⟩ := hp.entry
    by_cases hj : j = s.cpu.slot
    · rw [htlb j, if_pos hj] at hpaddr
      exact hpaddr
    · rw [htlb j, if_neg hj] at hvalid hehi
      exact (tlb_match_none hmiss j hvalid hehi).elim
  subst hut hpa
  constructor
  · exact h.mach.paged h.ready hp
  · exact hp.ready.trans h.ready
  · exact hlayout.trans h.layout
  · rcases hp.looked.source with ⟨hhad, hram⟩ | ⟨hnone, hnew, -, hram⟩
    · show Paging.Inv _ _ _ _ m'.ram.firstpaddr _ _
      rw [hram]
      apply h.memory.congr (fun _ => Iff.rfl)
      intro q
      by_cases hq : q = page
      · rw [hq]
        exact hhere.trans (hold.trans hhad).symm
      · exact hothers q hq
    · show Paging.Inv _ _ _ _ m'.ram.firstpaddr _ _
      rw [hram]
      exact h.memory.alloc hisPage (hold.trans hnone) (hnew ▸ hhere) hothers
  · intro j hj
    rw [htlb j] at hj ⊢
    by_cases hslot : j = s.cpu.slot
    · rw [if_pos hslot]
      exact hhere
    · rw [if_neg hslot] at hj ⊢
      have hne : (s.cpu.tlb j).ehi ≠ page := fun heq => (tlb_match_none hmiss j hj heq).elim
      rw [hothers _ hne]
      exact h.tlb j hj
  · intro hloaded j hj
    have hnot : s.cpu.as.loaded = false := (congrArg Prod.snd h.layout).trans hloaded
    rw [htlb j] at hj ⊢
    by_cases hslot : j = s.cpu.slot
    · rw [if_pos hslot, hnot, Bool.and_false]
      rfl
    · rw [if_neg hslot] at hj ⊢
      exact h.dirty hloaded j hj

section

variable (h : Holds as₀ s img) (hpage : IsPage as₀ (pageFrame addr)) (haddr : addr < 2 ^ 32)
include h hpage haddr

theorem Holds.fault (hmiss : tlb_match s.cpu.tlb (pageFrame addr) = none) (write : Bool) :
    wp (fault (if write then .VM_FAULT_WRITE else .VM_FAULT_READ) addr)
      (fun _ s' => Holds as₀ s' img ∧ tlb_match s'.cpu.tlb (pageFrame addr) ≠ none) (fun _ _ => False) NoMemory s := by
  unfold Loader.fault onCpu
  have hft : (if write then FaultType.VM_FAULT_WRITE else .VM_FAULT_READ) = .VM_FAULT_READ ∨
      (if write then FaultType.VM_FAULT_WRITE else .VM_FAULT_READ) = .VM_FAULT_WRITE := by
    cases write
    · exact .inl rfl
    · exact .inr rfl
  simp only [wp_bind, wp_zoom, wp_attempt]
  refine wp_post (wp_vm_fault_miss h.mach h.ready ((isPage_layout h.layout _).mpr hpage) haddr hft) ?_
    (fun _ _ hE => hE.elim)
  rintro r m' ⟨rfl, hfill, t, paddr, hp⟩
  refine ⟨h.paged hmiss hpage.1 hfill hp, ?_⟩
  show tlb_match m'.tlb (pageFrame addr) ≠ none
  rw [hfill.tlb_match hmiss]
  exact Option.some_ne_none _

/-- Trying an access finds the byte, or brings its page into the TLB. -/
theorem Holds.touch {write : Bool} (hw : write = true → as₀.loaded = false) :
    wp (touch addr write) (fun r s' => Holds as₀ s' img ∧
        match r with
        | some paddr => ∃ f, frameOf s'.cpu.as (pageFrame addr) = some f ∧ paddr = f + addr % PAGE_SIZE
        | none => tlb_match s.cpu.tlb (pageFrame addr) = none ∧ tlb_match s'.cpu.tlb (pageFrame addr) ≠ none)
      (fun _ _ => False) NoMemory s := by
  unfold Loader.touch
  rw [wp_read_bind]
  cases hmatch : tlb_match s.cpu.tlb (pageFrame addr) with
  | none =>
    rw [wp_bind]
    exact wp_imp (h.fault hpage haddr hmatch write) (fun _ _ hQ => ⟨hQ.1, rfl, hQ.2⟩)
  | some j =>
    obtain ⟨hvalid, hehi⟩ := tlb_match_some hmatch
    have hgo : ¬ (write && !(s.cpu.tlb j).dirty) = true := by
      cases write with
      | false => exact nofun
      | true =>
        rw [h.dirty (hw rfl) j hvalid]
        exact nofun
    have hframe := h.tlb j hvalid
    rw [hehi] at hframe
    rw [wp_ite, if_neg hgo]
    exact ⟨h, _, hframe, rfl⟩

theorem Holds.access {write : Bool}
    (hw : write = true → as₀.loaded = false) (env : List (List Interference)) :
    wp (access addr write env) (fun paddr s' => Holds as₀ s' img ∧
        ∃ f, frameOf s'.cpu.as (pageFrame addr) = some f ∧ paddr = f + addr % PAGE_SIZE)
      (fun _ _ => False) NoMemory s := by
  induction env generalizing s with
  | nil =>
    unfold Loader.access
    rw [wp_bind]
    refine wp_imp (h.touch hpage haddr hw) ?_
    rintro (_ | paddr) s' ⟨hs', hr⟩
    · -- the page is in the TLB now, and nobody interferes any more
      dsimp only
      rw [wp_bind]
      refine wp_imp (hs'.touch hpage haddr hw) ?_
      rintro (_ | paddr) s'' ⟨hs'', hr'⟩
      · exact absurd hr'.1 hr.2
      · exact ⟨hs'', hr'⟩
    · exact ⟨hs', hr⟩
  | cons batch env ih =>
    unfold Loader.access
    rw [wp_modify_bind, wp_bind]
    refine wp_imp (((h.interfere batch).env env _).touch hpage haddr hw) ?_
    rintro (_ | paddr) s' ⟨hs', hr⟩
    · exact ih hs'
    · exact ⟨hs', hr⟩

end

theorem pageFrame_add_mod (addr : Nat) : pageFrame addr + addr % PAGE_SIZE = addr :=
  Nat.div_add_mod' addr PAGE_SIZE

section

variable (h : Holds as₀ s img) (hpage : IsPage as₀ (pageFrame addr)) (haddr : addr < 2 ^ 32)
include h hpage haddr

theorem Holds.store (hloaded : as₀.loaded = false) (b : UInt8) :
    wp (store addr b) (fun _ s' => Holds as₀ s' (Function.update img addr b)) (fun _ _ => False) NoMemory s := by
  unfold Loader.store
  rw [wp_read_bind, wp_bind]
  refine wp_imp (h.access hpage haddr (fun _ => hloaded) s.env) ?_
  rintro _ s' ⟨hs', f, hf, rfl⟩
  rw [wp_modify]
  have hmem := hs'.memory.store hf (Nat.mod_lt addr (by decide)) b
  rw [pageFrame_add_mod] at hmem
  exact { hs' with memory := hmem }

theorem Holds.load :
    wp (load addr) (fun b s' => b = img addr ∧ Holds as₀ s' img) (fun _ _ => False) NoMemory s := by
  unfold Loader.load
  rw [wp_read_bind, wp_bind]
  refine wp_imp (h.access hpage haddr (fun hw => nomatch (hw : false = true)) s.env) ?_
  rintro _ s' ⟨hs', f, hf, rfl⟩
  refine ⟨?_, hs'⟩
  rw [hs'.memory.holds _ f hf _ (Nat.mod_lt addr (by decide)), pageFrame_add_mod]

end

/-! ## Copies -/

/-- The addresses from `lo` on, up to `hi`, are in segments, below the kernel. -/
structure InSegments (as : AddrSpace) (lo hi : Nat) : Prop where
  below : hi ≤ COPYTOP
  pages : ∀ a, lo ≤ a → a < hi → IsPage as (pageFrame a)

theorem InSegments.part {lo hi lo' hi' : Nat} (h : InSegments as₀ lo hi) (hlo : lo ≤ lo') (hhi : hi' ≤ hi) :
    InSegments as₀ lo' hi' where
  below := Nat.le_trans hhi h.below
  pages := fun a ha hb => h.pages a (Nat.le_trans hlo ha) (Nat.lt_of_lt_of_le hb hhi)

theorem Holds.memcpy (hloaded : as₀.loaded = false) (src : List UInt8) : ∀ {s : Machine} {img : Nat → UInt8} {dest : Nat},
    Holds as₀ s img → InSegments as₀ dest (dest + src.length) →
      wp (memcpy dest src) (fun _ s' => Holds as₀ s' (splice img dest src)) (fun _ _ => False) NoMemory s := by
  induction src with
  | nil =>
    intro s img dest h _
    rw [splice_nil]
    exact h
  | cons b bytes ih =>
    intro s img dest h hin
    rw [List.length_cons] at hin
    have hbelow : dest + (bytes.length + 1) ≤ 0x80000000 := hin.below
    unfold Loader.memcpy
    rw [wp_bind]
    refine wp_imp (h.store (hin.pages dest (Nat.le_refl _) (by omega)) (by omega) hloaded b) ?_
    intro _ s' hs'
    have hin' : InSegments as₀ (dest + 1) (dest + 1 + bytes.length) := hin.part (by omega) (by omega)
    rw [← List.singleton_append, splice_append, splice_singleton]
    exact ih hs' hin'

theorem Holds.copyout (h : Holds as₀ s img) (hloaded : as₀.loaded = false) {src : List UInt8} {dest : Nat}
    (hpos : 0 < src.length) (hin : InSegments as₀ dest (dest + src.length)) :
    wp (copyout src dest) (fun _ s' => Holds as₀ s' (splice img dest src)) (fun _ _ => False) NoMemory s := by
  unfold Loader.copyout
  rw [wp_bind, copycheck_ok hpos hin.below, wp_ofExcept_ok, wp_ite, if_neg (by simp)]
  exact Holds.memcpy hloaded src h hin

/-- A piece of a transfer into one buffer that has room for it. -/
theorem Holds.uiomove (h : Holds as₀ s img) (hloaded : as₀.loaded = false) {ptr : List UInt8} {u : UserUio}
    (hpos : 0 < ptr.length) (hlen : ptr.length ≤ u.iov_len) (hresid : ptr.length ≤ u.uio_resid)
    (hin : InSegments as₀ u.iov_ubase (u.iov_ubase + ptr.length)) :
    wp (uiomove ptr ptr.length u)
      (fun u' s' => u' = u.advance ptr.length ∧ Holds as₀ s' (splice img u.iov_ubase ptr))
      (fun _ _ => False) NoMemory s := by
  obtain ⟨n, hn⟩ := Nat.exists_eq_add_of_lt hpos
  have hsize : min u.iov_len ptr.length = ptr.length := Nat.min_eq_right hlen
  have hstop : ∀ turns u', uiomoveLoop turns (ptr.drop ptr.length) (ptr.length - ptr.length) u' = pure u' := by
    intro turns u'
    cases turns with
    | zero => rfl
    | succ turns => rw [uiomoveLoop, if_pos (.inl (Nat.sub_self _))]
  have hone : Loader.uiomove ptr ptr.length u = (do
      Loader.copyout ptr u.iov_ubase
      pure (u.advance ptr.length)) := by
    unfold Loader.uiomove
    rw [show uiomoveLoop ptr.length = uiomoveLoop (n + 1) by rw [hn, Nat.zero_add], uiomoveLoop, if_neg (by omega)]
    rw [hsize, if_neg (by omega), List.take_length, hstop]
  rw [hone, wp_bind]
  exact wp_imp (h.copyout hloaded hpos hin) (fun _ _ hQ => ⟨rfl, hQ⟩)

theorem wp_nextPiece {n : Nat} (hn : n ≠ 0) (h : Holds as₀ s img) :
    wp (nextPiece n) (fun k s' => 0 < k ∧ k ≤ n ∧ Holds as₀ s' img) (fun _ _ => False) NoMemory s := by
  unfold nextPiece
  rw [wp_read_bind]
  cases hp : s.pieces with
  | nil => exact ⟨Nat.pos_of_ne_zero hn, Nat.le_refl _, h⟩
  | cons k pieces =>
    rw [wp_modify_bind]
    refine ⟨?_, Nat.min_le_right _ _, h.env s.env pieces⟩
    omega

/-! ## Reading -/

theorem length_file_read (file : List UInt8) (offset n : Nat) :
    (file_read file offset n).length = min n (file.length - offset) := by
  unfold file_read
  rw [List.length_take, List.length_drop]

/-- Two pieces in a row. -/
theorem file_read_append (file : List UInt8) (offset : Nat) {k n : Nat} (hk : k ≤ n) :
    file_read file offset k ++ file_read file (offset + k) (n - k) = file_read file offset n := by
  unfold file_read
  rw [← List.drop_drop, ← List.take_add, Nat.add_sub_cancel' hk]

/-- The buffer has room for what is to be read. -/
structure UserUio.Ok (as : AddrSpace) (u : UserUio) : Prop where
  room : u.uio_resid ≤ u.iov_len
  place : InSegments as u.iov_ubase (u.iov_ubase + u.uio_resid)

theorem UserUio.advance_eq {u : UserUio} (h : u.Ok as₀) {k : Nat} (hk : k ≤ u.uio_resid) (hpos : 0 < k) :
    u.advance k = ⟨u.iov_ubase + k, u.iov_len - k, u.uio_offset + k, u.uio_resid - k⟩ := by
  have hlt : u.iov_ubase + u.uio_resid ≤ 0x80000000 := h.place.below
  unfold UserUio.advance
  rw [Nat.mod_eq_of_lt (by omega : u.iov_ubase + k < 2 ^ 32),
    show (u.uio_resid + 2 ^ 32 - k) % 2 ^ 32 = u.uio_resid - k by omega]

theorem UserUio.Ok.rest {u : UserUio} (h : u.Ok as₀) {k : Nat} (hk : k ≤ u.uio_resid) :
    UserUio.Ok as₀ ⟨u.iov_ubase + k, u.iov_len - k, u.uio_offset + k, u.uio_resid - k⟩ where
  room := Nat.sub_le_sub_right h.room k
  place := by
    apply h.place.part (Nat.le_add_right _ _)
    show u.iov_ubase + k + (u.uio_resid - k) ≤ _
    omega

/-- The transfer ends at the end of the file, or when all is read. -/
theorem Holds.readLoop (hloaded : as₀.loaded = false) (file : List UInt8) (turns : Nat) : ∀ {s : Machine}
    {img : Nat → UInt8} {u : UserUio}, Holds as₀ s img → u.Ok as₀ → u.uio_resid ≤ turns →
      wp (readLoop file turns u)
        (fun u' s' => u'.uio_resid = u.uio_resid - (file_read file u.uio_offset u.uio_resid).length ∧
          Holds as₀ s' (splice img u.iov_ubase (file_read file u.uio_offset u.uio_resid)))
        (fun _ _ => False) NoMemory s := by
  induction turns with
  | zero =>
    intro s img u h hu hturns
    have hzero : u.uio_resid = 0 := by omega
    rw [hzero]
    exact ⟨hzero, by rw [file_read, List.take_zero, splice_nil]; exact h⟩
  | succ turns ih =>
    intro s img u h hu hturns
    unfold Loader.readLoop
    by_cases hend : min u.uio_resid (file.length - u.uio_offset) = 0
    · have hnil : file_read file u.uio_offset u.uio_resid = [] := by
        rw [← List.length_eq_zero_iff, length_file_read, hend]
      rw [if_pos hend, hnil, splice_nil]
      exact ⟨rfl, h⟩
    · rw [if_neg hend, wp_bind]
      refine wp_imp (wp_nextPiece hend h) ?_
      rintro k s' ⟨hpos, hk, hs'⟩
      have hk' : k ≤ u.uio_resid := Nat.le_trans hk (Nat.min_le_left _ _)
      have hlen : (file_read file u.uio_offset k).length = k := by
        rw [length_file_read]
        omega
      have happend := file_read_append file u.uio_offset hk'
      -- one piece by `uiomove`, the rest by the induction hypothesis
      have hmove : wp (Loader.uiomove (file_read file u.uio_offset k) k u)
          (fun u' s'' => u' = u.advance k ∧ Holds as₀ s'' (splice img u.iov_ubase (file_read file u.uio_offset k)))
          (fun _ _ => False) NoMemory s' := by
        have hroom := hu.room
        have hm := hs'.uiomove (u := u) hloaded (hlen.symm ▸ hpos) (by omega) (by omega)
          (hu.place.part (Nat.le_refl _) (by omega))
        rwa [hlen] at hm
      rw [wp_bind]
      refine wp_imp hmove ?_
      rintro _ s'' ⟨rfl, hs''⟩
      rw [UserUio.advance_eq hu hk' hpos]
      refine wp_imp (ih hs'' (hu.rest hk') ?_) ?_
      · show u.uio_resid - k ≤ turns
        omega
      · rintro u' t ⟨hresid, himg⟩
        constructor
        · rw [hresid, ← happend, List.length_append, hlen]
          exact Nat.sub_sub _ _ _
        · rw [← happend, splice_append, hlen]
          exact himg

/-! ## Segments -/

/-- The file has all bytes that the segment claims. -/
def Complete (file : List UInt8) (ph : Phdr) : Prop := (file_read file ph.p_offset ph.p_filesz).length = ph.p_filesz

/-- The segment is not longer in the file than in memory, where it lies in the segments of `as`. -/
structure Loadable (as : AddrSpace) (ph : Phdr) : Prop where
  sizes : ph.p_filesz ≤ ph.p_memsz
  place : InSegments as ph.p_vaddr (ph.p_vaddr + ph.p_memsz)

variable {ph : Phdr}

theorem Holds.load_segment (h : Holds as₀ s img) (hloaded : as₀.loaded = false) (file : List UInt8)
    (hph : Loadable as₀ ph) :
    wp (load_segment file ph)
      (fun _ s' => Complete file ph ∧ Holds as₀ s' (splice img ph.p_vaddr (file_read file ph.p_offset ph.p_filesz)))
      (fun _ _ => ¬ Complete file ph) NoMemory s := by
  unfold Loader.load_segment VOP_READ
  dsimp only
  rw [Nat.min_eq_left hph.sizes, wp_bind]
  have hok : UserUio.Ok as₀ ⟨ph.p_vaddr, ph.p_memsz, ph.p_offset, ph.p_filesz⟩ :=
    ⟨hph.sizes, hph.place.part (Nat.le_refl _) (Nat.add_le_add_left hph.sizes _)⟩
  refine wp_post (Holds.readLoop hloaded file _ h hok (Nat.le_refl _)) ?_ (fun _ _ hE => hE.elim)
  rintro u s' ⟨hresid, hs'⟩
  have hle : (file_read file ph.p_offset ph.p_filesz).length ≤ ph.p_filesz := by
    rw [length_file_read]
    exact Nat.min_le_left _ _
  replace hresid : u.uio_resid = ph.p_filesz - (file_read file ph.p_offset ph.p_filesz).length := hresid
  rw [wp_ite]
  split
  · intro hcomplete
    rw [Complete] at hcomplete
    omega
  · refine ⟨?_, hs'⟩
    rw [Complete]
    omega

/-! ## The two loops -/

/-- The header of segment `i`, if it is one to be loaded. -/
def loadHeader (file : List UInt8) (eh : Ehdr) (i : Nat) : Option Phdr :=
  match read_phdr file eh i with
  | .ok ph => if ph.kind = .load then some ph else none
  | .error _ => none

/-- The headers of the segments to be loaded. -/
def loadHeaders (file : List UInt8) (eh : Ehdr) (l : List Nat) : List Phdr := l.filterMap (loadHeader file eh)

/-- All headers can be read, and are of the types that are known. -/
def HeadersOk (file : List UInt8) (eh : Ehdr) (l : List Nat) : Prop :=
  ∀ i ∈ l, ∃ ph, read_phdr file eh i = .ok ph ∧ ph.kind ≠ .bad

variable {file : List UInt8} {eh : Ehdr}

theorem loadHeaders_cons {i : Nat} {l : List Nat}
    (hread : read_phdr file eh i = .ok ph) (hbad : ph.kind ≠ .bad) :
    (ph.kind = .skip ∧ loadHeaders file eh (i :: l) = loadHeaders file eh l) ∨
      (ph.kind = .load ∧ loadHeaders file eh (i :: l) = ph :: loadHeaders file eh l) := by
  unfold loadHeaders
  cases hkind : ph.kind with
  | bad => exact absurd hkind hbad
  | skip =>
    have hnone : loadHeader file eh i = none := by
      rw [loadHeader, hread]
      dsimp only
      rw [if_neg (by rw [hkind]; exact nofun)]
    exact .inl ⟨rfl, List.filterMap_cons_none hnone⟩
  | load =>
    have hsome : loadHeader file eh i = some ph := by
      rw [loadHeader, hread]
      dsimp only
      rw [if_pos hkind]
    exact .inr ⟨rfl, List.filterMap_cons_some hsome⟩

/-- The image after the segments have been loaded. -/
def loadImage (file : List UInt8) : List Phdr → (Nat → UInt8) → Nat → UInt8
  | [], img => img
  | ph :: rest, img => loadImage file rest (splice img ph.p_vaddr (file_read file ph.p_offset ph.p_filesz))

theorem Holds.load_phdrs (hloaded : as₀.loaded = false) (file : List UInt8) (eh : Ehdr) (l : List Nat) :
    ∀ {s : Machine} {img : Nat → UInt8}, Holds as₀ s img → HeadersOk file eh l →
      (∀ ph ∈ loadHeaders file eh l, Loadable as₀ ph) →
      wp (load_phdrs file eh l) (fun _ s' => (∀ ph ∈ loadHeaders file eh l, Complete file ph) ∧
          Holds as₀ s' (loadImage file (loadHeaders file eh l) img))
        (fun _ _ => ∃ ph ∈ loadHeaders file eh l, ¬ Complete file ph) NoMemory s := by
  induction l with
  | nil => exact fun h _ _ => ⟨fun _ hph => (List.not_mem_nil hph).elim, h⟩
  | cons i rest ih =>
    intro s img h hok hloadable
    obtain ⟨ph, hread, hbad⟩ := hok i List.mem_cons_self
    have hrest : HeadersOk file eh rest := fun k hk => hok k (List.mem_cons_of_mem _ hk)
    unfold Loader.load_phdrs Loader.load_phdr
    simp only [wp_bind, hread, wp_ofExcept_ok]
    rcases loadHeaders_cons (l := rest) hread hbad with ⟨hkind, hl⟩ | ⟨hkind, hl⟩
    · rw [hl] at hloadable ⊢
      rw [hkind]
      exact ih h hrest hloadable
    · rw [hl] at hloadable ⊢
      rw [hkind]
      refine wp_post (h.load_segment hloaded file (hloadable ph List.mem_cons_self)) ?_ ?_
      · rintro _ s' ⟨hcomplete, hs'⟩
        refine wp_post (ih hs' hrest fun ph' hph' => hloadable ph' (List.mem_cons_of_mem _ hph')) ?_ ?_
        · rintro _ s'' ⟨hall, hs''⟩
          refine ⟨?_, hs''⟩
          intro ph' hph'
          rcases List.mem_cons.mp hph' with rfl | hph'
          · exact hcomplete
          · exact hall ph' hph'
        · rintro _ _ ⟨ph', hph', hshort⟩
          exact ⟨ph', List.mem_cons_of_mem _ hph', hshort⟩
      · intro _ _ hshort
        exact ⟨ph, List.mem_cons_self, hshort⟩

/-! ## Two segments -/

/-- A segment that a process can have. -/
structure SegmentOk (ph : Phdr) : Prop where
  sizes : ph.p_filesz ≤ ph.p_memsz
  nonempty : 0 < ph.p_memsz
  /-- Above page 0... -/
  above : PAGE_SIZE ≤ ph.p_vaddr
  /-- ...and below the stack. -/
  below : ph.p_vaddr + ph.p_memsz ≤ USERSTACK - STACKPAGES * PAGE_SIZE

/-- The address is on a page of the segment. -/
def OnPages (ph : Phdr) (addr : Nat) : Prop :=
  ∃ x, ph.p_vaddr ≤ x ∧ x < ph.p_vaddr + ph.p_memsz ∧ x / PAGE_SIZE = addr / PAGE_SIZE

/-- An executable with exactly two segments to load, `a` and `b`, on different pages. -/
structure TwoSegments (file : List UInt8) (eh : Ehdr) (a b : Phdr) : Prop where
  headers : HeadersOk file eh (List.range eh.e_phnum)
  loads : loadHeaders file eh (List.range eh.e_phnum) = [a, b]
  first : SegmentOk a
  second : SegmentOk b
  disjoint : ∀ addr, OnPages a addr → ¬ OnPages b addr

/-- The byte that the address is to have: that of the file, or 0. -/
def segmentByte (file : List UInt8) (ph : Phdr) (addr : Nat) : UInt8 :=
  if ph.p_vaddr ≤ addr ∧ addr < ph.p_vaddr + ph.p_filesz then file.getD (ph.p_offset + (addr - ph.p_vaddr)) 0 else 0

theorem TwoSegments.segment {a b ph : Phdr} (h : TwoSegments file eh a b)
    (hph : ph ∈ [a, b]) : SegmentOk ph := by
  rcases List.mem_cons.mp hph with rfl | hph
  · exact h.first
  · rw [List.mem_singleton.mp hph]
    exact h.second

theorem SegmentOk.pages (h : SegmentOk ph) :
    regionPages ph.p_vaddr ph.p_memsz = (ph.p_vaddr % PAGE_SIZE + ph.p_memsz + PAGE_SIZE - 1) / PAGE_SIZE ∧
      regionPages ph.p_vaddr ph.p_memsz ≠ 0 ∧ pageFrame ph.p_vaddr ≠ 0 := by
  obtain ⟨-, hpos, habove, hbelow⟩ := h
  have heq := regionPages_eq hbelow
  refine ⟨heq, ?_, ?_⟩
  · rw [heq]
    simp only [PAGE_SIZE]
    omega
  · simp only [pageFrame, PAGE_SIZE] at habove ⊢
    omega

/-- The address space that the first loop sets up. -/
def loadedSpace (a b : Phdr) : AddrSpace :=
  { as_create with
    as_vbase1 := pageFrame a.p_vaddr
    as_npages1 := regionPages a.p_vaddr a.p_memsz
    as_vbase2 := pageFrame b.p_vaddr
    as_npages2 := regionPages b.p_vaddr b.p_memsz
    code :=
      { vbase := pageFrame a.p_vaddr
        npages := regionPages a.p_vaddr a.p_memsz
        ptable := List.replicate (regionPages a.p_vaddr a.p_memsz) pte_create
        tsegment := .CODE }
    data :=
      { vbase := pageFrame b.p_vaddr
        npages := regionPages b.p_vaddr b.p_memsz
        ptable := List.replicate (regionPages b.p_vaddr b.p_memsz) pte_create
        tsegment := .DATA } }

/-- The regions of the headers one after the other. -/
def defineAll : List Phdr → Kern AddrSpace Errno Panic Unit
  | [] => pure ()
  | ph :: rest => do
    as_define_region ph.p_vaddr ph.p_memsz
    defineAll rest

theorem define_phdrs_eq (l : List Nat) (hok : HeadersOk file eh l) :
    define_phdrs file eh l = defineAll (loadHeaders file eh l) := by
  induction l with
  | nil => rfl
  | cons i rest ih =>
    obtain ⟨ph, hread, hbad⟩ := hok i List.mem_cons_self
    have hrest := ih fun k hk => hok k (List.mem_cons_of_mem _ hk)
    unfold define_phdrs define_phdr
    rw [hread]
    funext as
    show Kern.andThen (match ph.kind with
      | .skip => pure ()
      | .load => as_define_region ph.p_vaddr ph.p_memsz
      | .bad => .fail .enoexec) (fun _ => define_phdrs file eh rest) as = _
    rcases loadHeaders_cons (l := rest) hread hbad with ⟨hkind, hl⟩ | ⟨hkind, hl⟩
    · rw [hl, ← hrest, hkind]
      rfl
    · rw [hl, defineAll, ← hrest, hkind]
      rfl

variable {a b : Phdr}

theorem defineAll_two (ha : SegmentOk a) (hb : SegmentOk b) :
    defineAll [a, b] as_create = .ok () (loadedSpace a b) := by
  obtain ⟨-, han, hav⟩ := ha.pages
  obtain ⟨-, hbn, -⟩ := hb.pages
  have hfirst : as_define_region a.p_vaddr a.p_memsz as_create = _ :=
    (as_define_region_code a.p_vaddr a.p_memsz ⟨rfl, rfl⟩).trans (define_segment_run .CODE han)
  have hsecond : ∀ as : AddrSpace, _ → _ → as_define_region b.p_vaddr b.p_memsz as = _ :=
    fun as h1 h2 => (as_define_region_data b.p_vaddr b.p_memsz h1 h2).trans (define_segment_run .DATA hbn)
  unfold defineAll
  rw [bind_run_ok hfirst]
  unfold defineAll
  rw [bind_run_ok (hsecond _ (fun h => hav h.2) ⟨rfl, rfl⟩)]
  rfl

/-- Two segments are fit for `vm_fault`. -/
theorem regionsOk_loads (l : List Nat) : ∀ {code data : Bool}, HeadersOk file eh l →
    (∀ ph ∈ loadHeaders file eh l, SegmentOk ph) → (data = true → code = true) →
      (loadHeaders file eh l).length + code.toNat + data.toNat = 2 → regionsOk file eh l code data = true := by
  induction l with
  | nil =>
    intro code data _ _ hdata hcount
    cases code with
    | true =>
      cases data with
      | true => rfl
      | false => exact nomatch hcount
    | false =>
      cases data with
      | true => exact nomatch hdata rfl
      | false => exact nomatch hcount
  | cons i rest ih =>
    intro code data hok hseg hdata hcount
    obtain ⟨ph, hread, hbad⟩ := hok i List.mem_cons_self
    have hrest : HeadersOk file eh rest := fun k hk => hok k (List.mem_cons_of_mem _ hk)
    rw [regionsOk, hread]
    dsimp only
    rcases loadHeaders_cons (l := rest) hread hbad with ⟨hkind, hl⟩ | ⟨hkind, hl⟩
    · rw [hl] at hseg hcount
      rw [hkind]
      exact ih hrest hseg hdata hcount
    · rw [hl] at hseg hcount
      obtain ⟨-, hn, hv⟩ := (hseg ph List.mem_cons_self).pages
      have hseg' : ∀ ph' ∈ loadHeaders file eh rest, SegmentOk ph' :=
        fun ph' hph' => hseg ph' (List.mem_cons_of_mem _ hph')
      rw [List.length_cons] at hcount
      rw [hkind]
      cases code with
      | false =>
        cases data with
        | true => exact nomatch hdata rfl
        | false =>
          simp only [Bool.false_and, Bool.false_eq_true, if_false, ne_eq, hn, hv, not_false_eq_true, decide_true,
            Bool.true_and]
          exact ih hrest hseg' nofun (by simpa using hcount)
      | true =>
        cases data with
        | true =>
          simp only [Bool.toNat_true] at hcount
          omega
        | false =>
          simp only [Bool.and_false, Bool.false_eq_true, if_false, if_true, ne_eq, hn, hv, not_false_eq_true,
            decide_true, Bool.true_and]
          exact ih hrest hseg' (fun _ => rfl) (by simpa using hcount)

variable {addr : Nat}

theorem isPage_loadedSpace {a b ph : Phdr} (hph : ph ∈ [a, b]) (h : SegmentOk ph)
    (haddr : OnPages ph addr) : IsPage (loadedSpace a b) (pageFrame addr) := by
  obtain ⟨x, hlo, hhi, hx⟩ := haddr
  have hpages := h.pages.1
  have hbelow := h.below
  have hrange : pageFrame ph.p_vaddr ≤ pageFrame addr ∧
      pageFrame addr < (pageFrame ph.p_vaddr + regionPages ph.p_vaddr ph.p_memsz * PAGE_SIZE) % 2 ^ 32 := by
    rw [hpages]
    simp only [pageFrame, PAGE_SIZE, USERSTACK, STACKPAGES] at hx hbelow ⊢
    omega
  refine ⟨pageFrame_dvd addr, ?_⟩
  unfold AddrSpace.select loadedSpace
  rcases List.mem_cons.mp hph with rfl | hph
  · rw [if_pos hrange]
    rfl
  · rw [List.mem_singleton.mp hph] at hrange
    -- an address in both would be found in the first
    split
    · rfl
    · rfl

theorem loadable_loadedSpace {a b ph : Phdr} (hph : ph ∈ [a, b]) (h : SegmentOk ph) :
    Loadable (loadedSpace a b) ph where
  sizes := h.sizes
  place := by
    constructor
    · have hbelow := h.below
      simp only [COPYTOP, USERSTACK, STACKPAGES, PAGE_SIZE] at hbelow ⊢
      omega
    · intro x hlo hhi
      exact isPage_loadedSpace hph h ⟨x, hlo, hhi, rfl⟩

/-! ## The whole load -/

/-- A process that is about to load an executable: its address space is new, and memory that has
never been handed out is zero. -/
structure Fresh (s : Machine) : Prop where
  ram : RamOk s.cpu.ram
  zero : ∀ p, s.cpu.ram.firstpaddr ≤ p → s.mem p = 0
  space : s.cpu.as = as_create
  tlb : s.cpu.tlb = tlbInvalid

/-- After the first loop the process has its segments, and nothing is in them. -/
theorem Fresh.defined (h : Fresh s) (h2 : TwoSegments file eh a b) (c : Nat → SubpageCase) :
    wp (onCpu (define_phdrs_mem file eh c (List.range eh.e_phnum)))
      (fun _ s' => Holds (loadedSpace a b) s' fun _ => 0) (fun _ _ => False) NoMemory s := by
  have hseg : ∀ ph ∈ loadHeaders file eh (List.range eh.e_phnum), SegmentOk ph := by
    rw [h2.loads]
    exact fun ph hph => h2.segment hph
  have hregions : regionsOk file eh (List.range eh.e_phnum) false false = true :=
    regionsOk_loads _ h2.headers hseg nofun (by rw [h2.loads]; rfl)
  have hrun : define_phdrs file eh (List.range eh.e_phnum) s.cpu.as = .ok () (loadedSpace a b) := by
    rw [h.space, define_phdrs_eq _ h2.headers, h2.loads]
    exact defineAll_two h2.first h2.second
  have hdef : Defining false false s.cpu := ⟨h.ram, by rw [h.space]; exact Shape.create⟩
  unfold onCpu
  rw [wp_zoom]
  refine wp_mono (wp_and (wp_and (hdef.phdrs (List.range eh.e_phnum))
    (define_phdrs_mem_follows file eh c _ s.cpu)) (RamOk.define_phdrs_mem file eh c _ h.ram)) ?_ ?_ ?_
  · rintro _ m' ⟨⟨⟨code, data, hm', -⟩, hfollow⟩, hconsumed⟩
    have has : m'.as = loadedSpace a b := by
      rw [hrun] at hfollow
      injection hfollow with _ heq
      exact heq.symm
    have hnone : ∀ p, frameOf m'.as p = none := by
      intro p
      unfold frameOf
      split
      · cases hsel : m'.as.select p with
        | none => rfl
        | some t => exact hm'.shape.empty t _
      · rfl
    have hready : m'.as.ready = true := by
      obtain ⟨-, han, hav⟩ := h2.first.pages
      obtain ⟨-, hbn, hbv⟩ := h2.second.pages
      rw [has]
      exact decide_eq_true ⟨hav, han, hbv, hbn, (by decide : as_create.stack.vbase ≠ 0),
        pageFrame_of_dvd (pageFrame_dvd _), (by decide : pageFrame as_create.stack.vbase = as_create.stack.vbase)⟩
    constructor
    · exact hm'.machOk
    · exact hready
    · rw [has]
    · apply Paging.Inv.empty
      · exact fun p hp => hp.1
      · exact hnone
      · exact fun _ => rfl
      · exact fun p hp => h.zero p (Nat.le_trans hconsumed.grown hp)
    · intro j hj
      rw [hconsumed.tlb, h.tlb] at hj
      exact nomatch hj
    · intro _ j hj
      rw [hconsumed.tlb, h.tlb] at hj
      exact nomatch hj
  · rintro e m' ⟨⟨-, hfollow⟩, -⟩
    rw [hrun] at hfollow
    exact nomatch hfollow
  · rintro p ⟨⟨hp, -⟩, -⟩
    rcases hp with hp | hp
    · exact hp
    · exact nomatch hp.symm.trans hregions

/-- `as_complete_load` leaves memory as it is. -/
theorem Holds.complete {as₀ : AddrSpace} (h : Holds as₀ s img) :
    Holds { as₀ with loaded := true } { s with cpu := { s.cpu with as := { s.cpu.as with loaded := true } } } img :=
  { h with
    mach :=
      ⟨h.mach.ram, ⟨h.mach.inv.tables, h.mach.inv.aligned, h.mach.inv.stack_vbase, h.mach.inv.stack_npages,
        h.mach.inv.ready⟩, h.mach.frames⟩
    layout := congrArg (fun l => (l.1, true)) h.layout
    dirty := fun hloaded => nomatch hloaded }

/-- A whole load. -/
theorem Fresh.load_elf (h : Fresh s) (heh : read_ehdr file = .ok eh)
    (h2 : TwoSegments file eh a b) (c : Nat → SubpageCase) :
    wp (load_elf file c) (fun entry s' => entry = eh.e_entry ∧ (∀ ph ∈ [a, b], Complete file ph) ∧
        Holds { loadedSpace a b with loaded := true } s' (loadImage file [a, b] fun _ => 0))
      (fun _ _ => ∃ ph ∈ [a, b], ¬ Complete file ph) NoMemory s := by
  have hloadable : ∀ ph ∈ [a, b], Loadable (loadedSpace a b) ph :=
    fun ph hph => loadable_loadedSpace hph (h2.segment hph)
  unfold Loader.load_elf
  rw [heh, wp_bind, wp_ofExcept_ok, wp_bind]
  refine wp_post (h.defined h2 c) ?_ (fun _ _ hE => hE.elim)
  intro _ s₁ hs₁
  have hnot : (loadedSpace a b).loaded = false := rfl
  have hphdrs := Holds.load_phdrs hnot file eh (List.range eh.e_phnum) hs₁ h2.headers
  rw [h2.loads] at hphdrs
  rw [wp_bind]
  refine wp_imp (hphdrs hloadable) ?_
  rintro _ s₂ ⟨hcomplete, hs₂⟩
  exact ⟨rfl, hcomplete, hs₂.complete⟩

/-! ## What is read afterwards -/

theorem getD_file_read (file : List UInt8) {offset n k : Nat} (hk : k < n) :
    (file_read file offset n).getD k 0 = file.getD (offset + k) 0 := by
  unfold file_read
  rw [List.getD_eq_getElem?_getD, List.getD_eq_getElem?_getD, List.getElem?_take_of_lt hk, List.getElem?_drop]

/-- A segment that the file has completely, over zeros. -/
theorem splice_segment (h : Complete file ph) {img : Nat → UInt8} (hzero : img addr = 0) :
    splice img ph.p_vaddr (file_read file ph.p_offset ph.p_filesz) addr = segmentByte file ph addr := by
  rw [Complete] at h
  unfold segmentByte
  by_cases hin : ph.p_vaddr ≤ addr ∧ addr < ph.p_vaddr + ph.p_filesz
  · rw [if_pos hin, splice_inside 0 hin.1 (by omega), getD_file_read file (by omega)]
  · rw [if_neg hin, splice_outside (by omega), hzero]

/-- A segment on other pages does not change the byte. -/
theorem splice_elsewhere (hph : SegmentOk ph) {img : Nat → UInt8} (hoff : ¬ OnPages ph addr) :
    splice img ph.p_vaddr (file_read file ph.p_offset ph.p_filesz) addr = img addr := by
  apply splice_outside
  by_contra hin
  have hsizes := hph.sizes
  have hlen := length_file_read file ph.p_offset ph.p_filesz
  exact hoff ⟨addr, by omega, by omega, rfl⟩

theorem loadImage_two (h2 : TwoSegments file eh a b)
    (hcomplete : ∀ ph ∈ [a, b], Complete file ph) (hph : ph ∈ [a, b])
    (haddr : OnPages ph addr) : loadImage file [a, b] (fun _ => 0) addr = segmentByte file ph addr := by
  show splice (splice (fun _ => 0) a.p_vaddr (file_read file a.p_offset a.p_filesz)) b.p_vaddr
    (file_read file b.p_offset b.p_filesz) addr = _
  rcases List.mem_cons.mp hph with rfl | hph
  · rw [splice_elsewhere h2.second (h2.disjoint addr haddr)]
    exact splice_segment (hcomplete ph List.mem_cons_self) rfl
  · have hb := List.mem_singleton.mp hph
    subst hb
    have hother : ¬ OnPages a addr := fun ha => h2.disjoint addr ha haddr
    exact splice_segment (hcomplete ph (List.mem_cons_of_mem _ List.mem_cons_self))
      (splice_elsewhere h2.first hother)

/-! ## From boot on -/

/-- A machine that has just booted, with a process that is about to load an executable: memory above
the kernel is zero. -/
structure Booted (s : Machine) : Prop where
  ram : ∃ firstfree ramsize, MIPS_KSEG0 ≤ firstfree ∧ firstfree < 2 ^ 32 ∧ PAGE_SIZE ∣ firstfree ∧
    s.cpu.ram = ram_bootstrap firstfree ramsize
  zero : ∀ p, s.cpu.ram.firstpaddr ≤ p → s.mem p = 0
  space : s.cpu.as = as_create
  tlb : s.cpu.tlb = tlbInvalid

theorem Booted.fresh (h : Booted s) : Fresh s :=
  { h with
    ram := by
      obtain ⟨firstfree, ramsize, hlo, hhi, hdvd, hram⟩ := h.ram
      rw [hram]
      refine ⟨ram_bootstrap_bounded ramsize hlo hhi, ?_⟩
      show 4096 ∣ (firstfree + 2 ^ 32 - MIPS_KSEG0) % 2 ^ 32
      simp only [MIPS_KSEG0, PAGE_SIZE] at hlo hdvd ⊢
      omega }

theorem Fresh.apply (h : Fresh s) (e : Interference) : Fresh (e.apply s) := by
  cases e with
  | switch => exact { h with tlb := rfl }
  | others npages bytes victim =>
    obtain ⟨hram, hgrown⟩ := ramOk_taken h.ram npages rfl
    refine ⟨hram, ?_, h.space, h.tlb⟩
    -- what is handed out now is no longer above `firstpaddr`
    intro p hp
    exact (if_neg (fun hlt => Nat.not_lt.mpr hp hlt.1)).trans (h.zero p (Nat.le_trans hgrown hp))

theorem Fresh.interfere (h : Fresh s) (batch : List Interference) : Fresh (interfere s batch) := by
  induction batch generalizing s with
  | nil => exact h
  | cons e rest ih => exact ih (h.apply e)

/-- **The loader is correct.** After a load that returns 0, whatever happens to the machine, each
byte on the pages of the two segments reads as the byte of the file that belongs there, or as
zero; and the load of a file that is too short returns an error, unless memory runs out. -/
theorem load_elf_correct (hboot : Booted s) (before : List Interference) {file : List UInt8} {eh : Ehdr} {a b : Phdr}
    (heh : read_ehdr file = .ok eh) (h2 : TwoSegments file eh a b) (c : Nat → SubpageCase) :
    (∀ entry s', load_elf file c (interfere s before) = .ok entry s' → entry = eh.e_entry ∧
      ∀ ph ∈ [a, b], ∀ addr, OnPages ph addr → ∀ env,
        wp (load addr) (fun x _ => x = segmentByte file ph addr) (fun _ _ => False) NoMemory
          { s' with env := env }) ∧
      ((∃ ph ∈ [a, b], file.length < ph.p_offset + ph.p_filesz ∧ 0 < ph.p_filesz) →
        (∃ e s', load_elf file c (interfere s before) = .err e s') ∨
          ∃ p, load_elf file c (interfere s before) = .panic p ∧ NoMemory p) := by
  have hload := (hboot.fresh.interfere before).load_elf heh h2 c
  constructor
  · intro entry s' hrun
    obtain ⟨hentry, hcomplete, hs'⟩ := wp_ok hrun hload
    refine ⟨hentry, ?_⟩
    intro ph hph addr haddr env
    have hseg := h2.segment hph
    have hpage : IsPage { loadedSpace a b with loaded := true } (pageFrame addr) := isPage_loadedSpace hph hseg haddr
    have hlt : addr < 2 ^ 32 := by
      obtain ⟨x, -, hx, hpages⟩ := haddr
      have hbelow := hseg.below
      simp only [USERSTACK, STACKPAGES, PAGE_SIZE] at hbelow hpages
      omega
    refine wp_imp ((hs'.env env s'.pieces).load hpage hlt) ?_
    rintro x _ ⟨rfl, -⟩
    exact loadImage_two h2 hcomplete hph haddr
  · rintro ⟨ph, hph, hshort, hpos⟩
    have hnot : ¬ Complete file ph := by
      rw [Complete, length_file_read]
      omega
    unfold wp at hload
    cases hrun : load_elf file c (Loader.interfere s before) with
    | ok entry s' =>
      rw [hrun] at hload
      exact absurd (hload.2.1 ph hph) hnot
    | err e s' => exact .inl ⟨e, s', rfl⟩
    | panic p =>
      rw [hrun] at hload
      exact .inr ⟨p, rfl, hload⟩

end Memory

/-! ## An executable with a byte of code and two of data -/

/-- The byte of code is at `0x400000`; of the data, which starts in the middle of a page, the file has one byte. -/
def sampleElf (data : List UInt8) : List UInt8 :=
  sampleEhdr 2 ++ phdrBytes 116 0x400000 1 1 5 ++ phdrBytes 117 0x10000010 1 2 6 ++ 7 :: data

def sampleText : Phdr := ⟨1, 116, 0x400000, 1, 1, 5⟩

def sampleData : Phdr := ⟨1, 117, 0x10000010, 1, 2, 6⟩

/-- A machine of `ramsize` bytes whose kernel ends at `0x80030000`. -/
def sampleMachine (ramsize : Nat) : Machine where
  cpu := ⟨ram_bootstrap 0x80030000 ramsize, as_create, tlbInvalid, 0⟩
  mem := fun _ => 0
  env := []
  pieces := []

theorem sampleMachine_booted (ramsize : Nat) : Booted (sampleMachine ramsize) where
  ram := ⟨0x80030000, ramsize, by decide, by decide, ⟨0x80030, rfl⟩, rfl⟩
  zero := fun _ _ => rfl
  space := rfl
  tlb := rfl

theorem sampleElf_two {data : List UInt8} (hdata : data = [] ∨ data = [42]) :
    ∃ eh, read_ehdr (sampleElf data) = .ok eh ∧ eh.e_entry = 0x400000 ∧
      TwoSegments (sampleElf data) eh sampleText sampleData := by
  have hfile : read_ehdr (sampleElf data) = .ok (Ehdr.decode (sampleEhdr 2)) ∧
      read_phdr (sampleElf data) (Ehdr.decode (sampleEhdr 2)) 0 = .ok sampleText ∧
      read_phdr (sampleElf data) (Ehdr.decode (sampleEhdr 2)) 1 = .ok sampleData := by
    rcases hdata with rfl | rfl
    · decide +kernel
    · decide +kernel
  obtain ⟨hread, hfirst, hsecond⟩ := hfile
  refine ⟨_, hread, by decide +kernel, ?_⟩
  have hrange : List.range (Ehdr.decode (sampleEhdr 2)).e_phnum = [0, 1] := by decide +kernel
  constructor
  · intro i hi
    rw [hrange] at hi
    rcases List.mem_cons.mp hi with rfl | hi
    · exact ⟨_, hfirst, by decide⟩
    · rw [List.mem_singleton.mp hi]
      exact ⟨_, hsecond, by decide⟩
  · rw [hrange]
    simp only [loadHeaders, loadHeader, List.filterMap_cons, List.filterMap_nil, hfirst, hsecond]
    decide
  · exact ⟨by decide, by decide, by decide, by decide⟩
  · exact ⟨by decide, by decide, by decide, by decide⟩
  · rintro addr ⟨x, -, hx, hxa⟩ ⟨y, hy, -, hya⟩
    simp only [sampleText, sampleData, PAGE_SIZE] at hx hxa hy hya
    omega

/-- The second byte of the data, which is not in the file, reads as zero. -/
theorem load_elf_correct_sample : ∃ s', load_elf (sampleElf [42]) (fun _ => .newpage) (sampleMachine 0x100000) =
    .ok 0x400000 s' ∧ ∀ env, wp (load 0x10000011) (fun x _ => x = 0) (fun _ _ => False) NoMemory
      { s' with env := env } := by
  have hview : (load_elf (sampleElf [42]) (fun _ => .newpage) (sampleMachine 0x100000)).returned.map Prod.fst =
      some 0x400000 := by decide +kernel
  obtain ⟨⟨_, s'⟩, hret, rfl⟩ := Option.map_eq_some_iff.mp hview
  have hrun := Outcome.eq_ok hret
  obtain ⟨eh, heh, -, h2⟩ := sampleElf_two (.inr rfl)
  have hcorrect := (load_elf_correct (sampleMachine_booted 0x100000) [] heh h2 fun _ => .newpage).1 _ _ hrun
  refine ⟨s', hrun, ?_⟩
  exact hcorrect.2 sampleData (by decide) 0x10000011 ⟨0x10000011, by decide, by decide, rfl⟩

/-- **The load of a file that is too short can panic.** -/
theorem load_elf_short_panics : ∃ s file eh a b c, Booted s ∧ read_ehdr file = .ok eh ∧ TwoSegments file eh a b ∧
    (∃ ph ∈ [a, b], file.length < ph.p_offset + ph.p_filesz ∧ 0 < ph.p_filesz) ∧
      load_elf file c s = .panic .getppages_no_memory := by
  obtain ⟨eh, heh, -, h2⟩ := sampleElf_two (.inl rfl)
  refine ⟨sampleMachine 0x30000, _, eh, _, _, fun _ => .newpage, sampleMachine_booted _, heh, h2,
    ⟨sampleData, by decide, by decide +kernel, by decide⟩, ?_⟩
  exact Outcome.eq_panic (by decide +kernel)

end OS161.Loader
