import OS161.Exec.LoadElf
import OS161.Vm.Frames
import OS161.Vm.Kmalloc
import OS161.Vm.Regions

/-! # A process from its executable to its faults

The life of a process that starts from an arbitrary file: the regions of `load_elf`, the stores
of its second half one after the other, and then faults in user mode at arbitrary addresses
(`kern/syscall/loadelf.c`, `kern/vm/addrspace.c`, `kern/vm/segments.c`, `kern/vm/vm.c`).

A file that `load_elf` accepts need not leave an address space that `vm_fault` accepts.
-/

namespace OS161

open Framework Kern

/-! ## Memory for page tables -/

/-- How `subpage_kmalloc` serves a small request. -/
inductive SubpageCase where
  /-- From a page that it has. -/
  | reuse
  /-- From a new page. -/
  | newpage
  /-- There is no pageref left for the new page, so it returns NULL. -/
  | norefs
  deriving DecidableEq, Repr

/-- `sizeof(struct pte)`. -/
abbrev PTE_SIZE : Nat := 12

/-- `kmalloc(sizeof(struct pte) * npages)`, and the use of its result. -/
def kmalloc_ptable (c : SubpageCase) (npages : Nat) : Kern Ram Errno Panic Unit := do
  let sz := PTE_SIZE * npages % 2 ^ 32
  if sz ≥ Kmalloc.LARGEST_SUBPAGE_SIZE then do
    let _ ← alloc_kpages ((sz + PAGE_SIZE - 1) / PAGE_SIZE)
    pure ()
  else
    match c with
    | .reuse => pure ()
    | .newpage => do
      let _ ← alloc_kpages 1
      pure ()
    | .norefs => do
      let _ ← alloc_kpages 1
      .halt .segment_prepare_null

/-- `as_define_region` has a place for one more region. -/
def AddrSpace.hasRoom (as : AddrSpace) : Bool :=
  (as.as_vbase1 = 0 ∧ as.code.vbase = 0) ∨ (as.as_vbase2 = 0 ∧ as.data.vbase = 0)

/-- `as_define_region`, with the memory for its page table. -/
def define_region_mem (c : SubpageCase) (vaddr sz : Nat) : Kern FaultState Errno Panic Unit := do
  let s ← .read
  -- `segment_prepare` makes its assertion before it calls `kmalloc`
  if s.as.hasRoom = true ∧ regionPages vaddr sz ≠ 0 then
    .zoom FaultState.ram (fun s ram => { s with ram := ram }) (kmalloc_ptable c (regionPages vaddr sz))
  else pure ()
  .zoom FaultState.as (fun s as => { s with as := as }) (as_define_region vaddr sz)

/-- One round of the first loop of `load_elf`. -/
def define_phdr_mem (file : List UInt8) (eh : Ehdr) (c : Nat → SubpageCase) (i : Nat) :
    Kern FaultState Errno Panic Unit := do
  let ph ← .ofExcept (read_phdr file eh i)
  match ph.kind with
  | .skip => pure ()
  | .load => define_region_mem (c i) ph.p_vaddr ph.p_memsz
  | .bad => .fail .enoexec

def define_phdrs_mem (file : List UInt8) (eh : Ehdr) (c : Nat → SubpageCase) :
    List Nat → Kern FaultState Errno Panic Unit
  | [] => pure ()
  | i :: rest => do
    define_phdr_mem file eh c i
    define_phdrs_mem file eh c rest

/-- What the second loop of `load_elf` is going to do. -/
def loadOps (file : List UInt8) (eh : Ehdr) : List LoadOp :=
  (List.range eh.e_phnum).flatMap (load_phdr file eh)

/-- `load_elf` up to `as_prepare_load`. -/
def load_elf_mem (file : List UInt8) (c : Nat → SubpageCase) : Kern FaultState Errno Panic (List LoadOp) := do
  let eh ← .ofExcept (read_ehdr file)
  define_phdrs_mem file eh c (List.range eh.e_phnum)
  pure (loadOps file eh)

/-! ## The process -/

inductive ProcPhase where
  /-- A new address space, nothing loaded. -/
  | fresh
  /-- In the second half of `load_elf`. -/
  | loading (ops : List LoadOp)
  | user
  /-- An error has been returned, or the process has been terminated. -/
  | gone
  deriving DecidableEq, Repr

structure LoaderState where
  mach : FaultState
  phase : ProcPhase
  panicked : Option Panic

inductive LoaderAct where
  | load (file : List UInt8) (c : Nat → SubpageCase)
  /-- The next store of the load, or its end. -/
  | store
  /-- A fault in user mode. -/
  | fault (faulttype : FaultType) (addr : UInt32)
  /-- The process is switched away and back, which empties the TLB. -/
  | activate

/-- What the hardware finds in the TLB for a store. -/
def storeFault (tlb : Tlb) (vaddr : Nat) : Option FaultType :=
  match (List.finRange NUM_TLB).find? fun i => (tlb i).valid && decide ((tlb i).ehi = pageFrame vaddr) with
  | none => some .VM_FAULT_WRITE
  | some i => if (tlb i).dirty then none else some .VM_FAULT_READONLY

namespace LoaderState

/-- Run kernel code for the process: it panics, ends the process with an error, or goes on. -/
def exec {α : Type} (s : LoaderState) (m : Kern FaultState Errno Panic α) (k : α → ProcPhase) : LoaderState :=
  match m s.mach with
  | .ok a mach => { s with mach := mach, phase := k a }
  | .err _ mach => { s with mach := mach, phase := .gone }
  | .panic p => { s with panicked := some p }

/-- Where a fault leads, from the phase that the process was in. -/
def afterFault (phase : ProcPhase) : FaultResult → ProcPhase
  | .retry => phase
  | .killed => .gone

end LoaderState

def loaderNext (s : LoaderState) (a : LoaderAct) : Option LoaderState :=
  if s.panicked.isSome then none
  else
    match a, s.phase with
    | .load file c, .fresh => some (s.exec (load_elf_mem file c) .loading)
    | .store, .loading [] =>
      some (s.exec (.zoom FaultState.as (fun s as => { s with as := as }) as_complete_load) fun _ => .user)
    | .store, .loading (.fail _ :: _) => some { s with phase := .gone }
    | .store, .loading (.store vaddr :: ops) =>
      -- `copyout` refuses addresses of the kernel
      if vaddr ≥ MIPS_KSEG0 then some { s with phase := .gone }
      else
        match storeFault s.mach.tlb vaddr with
        | none => some { s with phase := .loading ops }
        | some faulttype =>
          -- after the fault the store is tried again
          some (s.exec (vm_fault faulttype vaddr) (LoaderState.afterFault (.loading (.store vaddr :: ops))))
    | .fault faulttype addr, .user => some (s.exec (vm_fault faulttype addr.toNat) (LoaderState.afterFault .user))
    | .activate, .loading _ => some { s with mach := { s.mach with tlb := tlbInvalid } }
    | .activate, .user => some { s with mach := { s.mach with tlb := tlbInvalid } }
    | _, _ => none

/-- The free memory starts at a page. -/
structure RamOk (ram : Ram) : Prop where
  bounded : ram.Bounded
  aligned : PAGE_SIZE ∣ ram.firstpaddr

/-- The load fails before its first store. -/
def loadRefused : List LoadOp → Bool
  | .fail _ :: _ => true
  | .store vaddr :: _ => decide (vaddr ≥ MIPS_KSEG0)
  | [] => false

/-- The rest of the program headers is fit for `vm_fault`, with `code` and `data` the regions that
have a base other than 0: no region is empty, and in the end both are there. -/
def regionsOk (file : List UInt8) (eh : Ehdr) : List Nat → Bool → Bool → Bool
  | [], code, data => (code && data) || loadRefused (loadOps file eh)
  | i :: rest, code, data =>
    match read_phdr file eh i with
    | .error _ => true
    | .ok ph =>
      match ph.kind with
      | .skip => regionsOk file eh rest code data
      | .bad => true
      | .load =>
        -- a third region is refused
        if code && data then true
        else
          decide (regionPages ph.p_vaddr ph.p_memsz ≠ 0) &&
            if code then regionsOk file eh rest true (decide (pageFrame ph.p_vaddr ≠ 0))
            else regionsOk file eh rest (decide (pageFrame ph.p_vaddr ≠ 0)) data

/-- `load_elf` refuses the file, or leaves an address space that `vm_fault` accepts. -/
def FileOk (file : List UInt8) : Prop :=
  match read_ehdr file with
  | .error _ => True
  | .ok eh => regionsOk file eh (List.range eh.e_phnum) false false = true

instance FileOk.decidable (file : List UInt8) : Decidable (FileOk file) :=
  match h : read_ehdr file with
  | .error _ => isTrue (by simp only [FileOk, h])
  | .ok eh => decidable_of_iff (regionsOk file eh (List.range eh.e_phnum) false false = true) (by simp only [FileOk, h])

/-- The panics for want of memory. -/
def NoMemory (p : Panic) : Prop := p = .getppages_no_memory ∨ p = .segment_prepare_null

/-- The file is fit to be loaded, and the step does not run out of memory. -/
def LoaderCond (s : LoaderState) (a : LoaderAct) : Prop :=
  (∀ file c, a = .load file c → FileOk file) ∧
    ∀ s' p, loaderNext s a = some s' → s'.panicked = some p → ¬ NoMemory p

/-- What a step gets done: a fault ends the process or leaves the page in the TLB, and a store of
the load is done, ends the process or can be done next. -/
def LoaderAdvances (s : LoaderState) (a : LoaderAct) (s' : LoaderState) : Prop :=
  match a with
  | .fault _ addr => s'.phase = .gone ∨ ∃ i, (s'.mach.tlb i).valid = true ∧ (s'.mach.tlb i).ehi = pageFrame addr.toNat
  | .store => s'.phase ≠ s.phase ∨ ∃ ops vaddr, s'.phase = .loading (.store vaddr :: ops) ∧
      storeFault s'.mach.tlb vaddr ≠ some .VM_FAULT_WRITE
  | _ => True

/-! ## Memory -/

section Memory

theorem RamOk.alloc_kpages {ram : Ram} (h : RamOk ram) (npages : Nat) (hn : npages * PAGE_SIZE ≤ 2 ^ 31) :
    wp (alloc_kpages npages) (fun _ ram' => RamOk ram' ∧ ram.firstpaddr ≤ ram'.firstpaddr) (fun _ _ => False)
      NoMemory ram := by
  unfold OS161.alloc_kpages
  rw [wp_bind]
  refine wp_imp (wp_getppages h.bounded hn (.inl rfl)) ?_
  rintro pa ram' ⟨-, hpa, hfits, rfl⟩
  have hlast := h.bounded.last
  rw [wp_ite, if_neg hpa]
  refine ⟨⟨⟨?_, h.bounded.last⟩, ?_⟩, Nat.le_add_right _ _⟩
  · show ram.firstpaddr + npages * PAGE_SIZE < 2 ^ 31
    omega
  · exact Nat.dvd_add h.aligned (Nat.dvd_mul_left _ _)

theorem regionPages_le (vaddr sz : Nat) : regionPages vaddr sz ≤ 2 ^ 20 := by
  have hpage : PAGE_SIZE = 4096 := rfl
  unfold regionPages pageFrame
  rw [Nat.mul_div_cancel _ (by decide), hpage]
  omega

/-- The page table of a region takes pages of RAM, or there is no memory. -/
theorem RamOk.kmalloc_ptable {ram : Ram} (h : RamOk ram) (c : SubpageCase) {npages : Nat} (hn : npages ≤ 2 ^ 20) :
    wp (kmalloc_ptable c npages) (fun _ ram' => RamOk ram' ∧ ram.firstpaddr ≤ ram'.firstpaddr) (fun _ _ => False)
      NoMemory ram := by
  have hpage : PAGE_SIZE = 4096 := rfl
  have hlarge : (PTE_SIZE * npages % 2 ^ 32 + PAGE_SIZE - 1) / PAGE_SIZE * PAGE_SIZE ≤ 2 ^ 31 := by
    have hentry : PTE_SIZE = 12 := rfl
    rw [hpage, hentry, Nat.mod_eq_of_lt (by omega)]
    omega
  have hnew : ∀ n, n = 1 → wp (OS161.alloc_kpages n) (fun _ ram' => RamOk ram' ∧ ram.firstpaddr ≤ ram'.firstpaddr)
      (fun _ _ => False) NoMemory ram := by
    intro n hn
    refine h.alloc_kpages n ?_
    rw [hn, Nat.one_mul]
    omega
  unfold OS161.kmalloc_ptable
  simp only [wp_ite]
  split
  · rw [wp_bind]
    exact h.alloc_kpages _ hlarge
  · generalize hone : 1 = one
    have hpage := hnew one hone.symm
    cases c with
    | reuse => exact ⟨h, Nat.le_refl _⟩
    | newpage =>
      rw [wp_bind]
      exact hpage
    | norefs =>
      rw [wp_bind]
      exact wp_imp hpage (fun _ _ _ => .inr rfl)

/-- The free memory only shrinks, and the TLB is not used. -/
structure Consumed (s s' : FaultState) : Prop where
  ram : RamOk s'.ram
  grown : s.ram.firstpaddr ≤ s'.ram.firstpaddr
  tlb : s'.tlb = s.tlb

theorem Consumed.refl {s : FaultState} (h : RamOk s.ram) : Consumed s s := ⟨h, Nat.le_refl _, rfl⟩

theorem Consumed.trans {s s' s'' : FaultState} (h : Consumed s s') (h' : Consumed s' s'') : Consumed s s'' :=
  ⟨h'.ram, Nat.le_trans h.grown h'.grown, h'.tlb.trans h.tlb⟩

theorem RamOk.define_region_mem {s : FaultState} (h : RamOk s.ram) (c : SubpageCase) (vaddr sz : Nat) :
    wp (define_region_mem c vaddr sz) (fun _ s' => Consumed s s') (fun _ _ => True) (fun _ => True) s := by
  have hregion : ∀ s' : FaultState, Consumed s s' →
      wp (.zoom FaultState.as (fun s as => { s with as := as }) (as_define_region vaddr sz))
        (fun _ s'' => Consumed s s'') (fun _ _ => True) (fun _ => True) s' := by
    intro s' hs'
    rw [wp_zoom]
    unfold wp
    cases as_define_region vaddr sz s'.as with
    | ok a as' => exact { hs' with }
    | err e as' => trivial
    | panic p => trivial
  unfold OS161.define_region_mem
  rw [wp_read_bind]
  split
  · rw [wp_bind, wp_zoom]
    exact wp_mono (h.kmalloc_ptable c (regionPages_le vaddr sz)) (fun _ _ hQ => hregion _ ⟨hQ.1, hQ.2, rfl⟩)
      (fun _ _ hE => hE.elim) (fun _ _ => trivial)
  · exact hregion s (.refl h)

theorem RamOk.define_phdrs_mem (file : List UInt8) (eh : Ehdr) (c : Nat → SubpageCase) (l : List Nat) :
    ∀ {s : FaultState}, RamOk s.ram → wp (define_phdrs_mem file eh c l)
      (fun _ s' => Consumed s s') (fun _ _ => True) (fun _ => True) s := by
  induction l with
  | nil => exact fun h => .refl h
  | cons i rest ih =>
    intro s h
    have hnext : ∀ s' : FaultState, Consumed s s' →
        wp (OS161.define_phdrs_mem file eh c rest) (fun _ s'' => Consumed s s'') (fun _ _ => True) (fun _ => True)
          s' := by
      intro s' hs'
      exact wp_imp (ih hs'.ram) (fun _ _ hQ => hs'.trans hQ)
    unfold OS161.define_phdrs_mem define_phdr_mem
    cases read_phdr file eh i with
    | error e => simp only [wp_bind, wp_ofExcept_error]
    | ok ph =>
      simp only [wp_bind, wp_ofExcept_ok]
      cases ph.kind with
      | skip => exact hnext s (.refl h)
      | bad => trivial
      | load =>
        exact wp_imp (h.define_region_mem (c i) ph.p_vaddr ph.p_memsz) (fun _ s' hs' => hnext s' hs')

end Memory

/-! ## The same load without its memory -/

/-- As long as there is memory, `m` does to the address space what `n` does. -/
def Follows {α : Type} (m : Kern FaultState Errno Panic α) (n : Kern AddrSpace Errno Panic α) : Prop :=
  ∀ s, wp m (fun a s' => n s.as = .ok a s'.as) (fun e s' => n s.as = .err e s'.as) (fun _ => True) s

namespace Follows

variable {α β : Type}

theorem pure (a : α) : Follows (Pure.pure a) (Pure.pure a) := fun _ => rfl

theorem fail (e : Errno) : Follows (.fail e : Kern FaultState Errno Panic α) (.fail e) := fun _ => rfl

theorem ofExcept (r : Except Errno α) : Follows (.ofExcept r) (.ofExcept r) := by
  cases r with
  | error e => exact fail e
  | ok a => exact pure a

theorem bind {m : Kern FaultState Errno Panic α} {n : Kern AddrSpace Errno Panic α}
    {f : α → Kern FaultState Errno Panic β} {g : α → Kern AddrSpace Errno Panic β} (h : Follows m n)
    (hf : ∀ a, Follows (f a) (g a)) : Follows (m >>= f) (n >>= g) := by
  intro s
  rw [wp_bind]
  refine wp_post (h s) ?_ ?_
  · intro a s' hn
    refine wp_post (hf a s') ?_ ?_
    · intro b s'' hg
      exact (bind_run_ok hn).trans hg
    · intro e s'' hg
      exact (bind_run_ok hn).trans hg
  · intro e s' hn
    exact bind_run_err hn

theorem onAs (n : Kern AddrSpace Errno Panic α) :
    Follows (.zoom FaultState.as (fun s as => { s with as := as }) n) n := by
  intro s
  rw [wp_zoom]
  unfold wp
  cases hn : n s.as with
  | ok a as' => rfl
  | err e as' => rfl
  | panic p => trivial

end Follows

theorem kmalloc_ptable_noError (c : SubpageCase) (npages : Nat) : Kern.NoError (kmalloc_ptable c npages) := by
  have halloc : ∀ n, Kern.NoError (alloc_kpages n) := by
    intro n ram
    unfold alloc_kpages
    rw [wp_bind]
    refine wp_getppages_cases (fun hzero _ => ?_) trivial
    rw [if_neg hzero]
    trivial
  unfold kmalloc_ptable
  dsimp only
  split
  · exact .bind (halloc _) fun _ => .pure ()
  · generalize 1 = n
    cases c with
    | reuse => exact .pure ()
    | newpage => exact .bind (halloc n) fun _ => .pure ()
    | norefs => exact .bind (halloc n) fun _ => .halt _

theorem define_region_mem_follows (c : SubpageCase) (vaddr sz : Nat) :
    Follows (define_region_mem c vaddr sz) (as_define_region vaddr sz) := by
  intro s
  unfold define_region_mem
  rw [wp_read_bind]
  split
  · -- the allocation leaves the address space alone
    rw [wp_bind, wp_zoom]
    exact wp_mono (kmalloc_ptable_noError c _ s.ram) (fun _ ram' _ => Follows.onAs _ { s with ram := ram' })
      (fun _ _ hE => hE.elim) (fun _ _ => trivial)
  · exact Follows.onAs _ s

theorem define_phdrs_mem_follows (file : List UInt8) (eh : Ehdr) (c : Nat → SubpageCase) (l : List Nat) :
    Follows (define_phdrs_mem file eh c l) (define_phdrs file eh l) := by
  induction l with
  | nil => exact .pure ()
  | cons i rest ih =>
    refine .bind (.bind (.ofExcept _) fun ph => ?_) fun _ => ih
    cases ph.kind with
    | skip => exact .pure ()
    | load => exact define_region_mem_follows _ _ _
    | bad => exact .fail _

/-! ## Regions -/

/-- An address space in the first loop of `load_elf`, with `code` and `data` the regions that have a
base other than 0. -/
structure Shape (as : AddrSpace) (code data : Bool) : Prop where
  inv : AsInv as
  base1 : as.as_vbase1 = as.code.vbase
  base2 : as.as_vbase2 = as.data.vbase
  code_base : code = decide (as.code.vbase ≠ 0)
  data_base : data = decide (as.data.vbase ≠ 0)
  code_pages : code = true → as.code.npages ≠ 0
  data_pages : data = true → as.data.npages ≠ 0
  empty : ∀ t i, as.frame t i = none

namespace Shape

variable {as : AddrSpace} {code data : Bool} {vaddr sz : Nat}

theorem create : Shape as_create false false where
  inv := AsInv.create
  base1 := rfl
  base2 := rfl
  code_base := rfl
  data_base := rfl
  code_pages := fun h => nomatch h
  data_pages := fun h => nomatch h
  empty := as_create_frame

/-- `vm_fault` accepts an address space with both regions. -/
theorem ready (h : Shape as true true) : as.ready = true := by
  have hcode := of_decide_eq_true h.code_base.symm
  have hdata := of_decide_eq_true h.data_base.symm
  simp only [AddrSpace.ready, decide_eq_true_eq]
  refine ⟨hcode, h.code_pages rfl, hdata, h.data_pages rfl, ?_, ?_, ?_⟩
  · rw [h.inv.stack_vbase]
    decide
  · exact pageFrame_of_dvd (h.inv.aligned .CODE)
  · exact pageFrame_of_dvd (h.inv.aligned .STACK)

/-- ... and no other. -/
theorem not_ready (h : Shape as code data) (hnot : (code && data) = false) : as.ready = false := by
  rw [← Bool.not_eq_true]
  intro hready
  simp only [AddrSpace.ready, decide_eq_true_eq] at hready
  rw [h.code_base, h.data_base, decide_eq_true hready.1, decide_eq_true hready.2.2.1] at hnot
  cases hnot

theorem hasRoom_iff (h : Shape as code data) : as.hasRoom = !(code && data) := by
  unfold AddrSpace.hasRoom
  rw [h.base1, h.base2, h.code_base, h.data_base]
  by_cases hc : as.code.vbase = 0 <;> by_cases hd : as.data.vbase = 0 <;> simp [hc, hd]

end Shape

section Regions

variable {as : AddrSpace} {code data : Bool} {vaddr sz : Nat}

/-- The flags after one more region. -/
def nextCode (code : Bool) (vaddr : Nat) : Bool := if code then true else decide (pageFrame vaddr ≠ 0)

def nextData (code data : Bool) (vaddr : Nat) : Bool := if code then decide (pageFrame vaddr ≠ 0) else data

namespace Shape

theorem code_zero (h : Shape as false data) : as.as_vbase1 = 0 ∧ as.code.vbase = 0 := by
  have hzero : as.code.vbase = 0 := by simpa using h.code_base
  exact ⟨h.base1.trans hzero, hzero⟩

theorem code_ne (h : Shape as true data) : as.code.vbase ≠ 0 := of_decide_eq_true h.code_base.symm

theorem data_zero (h : Shape as code false) : as.as_vbase2 = 0 ∧ as.data.vbase = 0 := by
  have hzero : as.data.vbase = 0 := by simpa using h.data_base
  exact ⟨h.base2.trans hzero, hzero⟩

/-- A region that is not empty gets the first place that is free. -/
theorem define (h : Shape as code data) (hroom : (code && data) = false) (hn : regionPages vaddr sz ≠ 0) :
    ∃ as', as_define_region vaddr sz as = .ok () as' ∧
      Shape as' (nextCode code vaddr) (nextData code data vaddr) := by
  cases code with
  | false =>
    have hrun := (as_define_region_code vaddr sz h.code_zero).trans (define_segment_run .CODE hn)
    have hinv := wp_ok hrun (h.inv.as_define_region vaddr sz)
    refine ⟨_, hrun, hinv.1, rfl, h.base2, rfl, h.data_base, fun _ => hn, h.data_pages, ?_⟩
    intro t i
    rw [hinv.2, h.empty]
  | true =>
    cases data with
    | true => cases hroom
    | false =>
      have hrun := (as_define_region_data vaddr sz (fun hcode => h.code_ne hcode.2)
        h.data_zero).trans (define_segment_run .DATA hn)
      have hinv := wp_ok hrun (h.inv.as_define_region vaddr sz)
      refine ⟨_, hrun, hinv.1, h.base1, rfl, (decide_eq_true h.code_ne).symm, rfl, h.code_pages, fun _ => hn, ?_⟩
      intro t i
      rw [hinv.2, h.empty]

/-- An empty region does not pass the assertion of `segment_prepare`. -/
theorem define_empty (h : Shape as code data) (hroom : (code && data) = false)
    (hn : regionPages vaddr sz = 0) : as_define_region vaddr sz as = .panic .segment_prepare_npages := by
  cases code with
  | false =>
    rw [as_define_region_code _ _ h.code_zero, hn]
    exact define_segment_empty .CODE
  | true =>
    cases data with
    | true => cases hroom
    | false =>
      rw [as_define_region_data _ _ (fun hcode => h.code_ne hcode.2) h.data_zero, hn]
      exact define_segment_empty .DATA

theorem define_full (h : Shape as true true) : as_define_region vaddr sz as = .err .eunimp as := by
  have hdata := of_decide_eq_true h.data_base.symm
  exact as_define_region_full (fun hz => h.code_ne hz.2) (fun hz => hdata hz.2)

end Shape

end Regions

/-! ## The first loop of `load_elf` -/

section Load

variable {file : List UInt8} {eh : Ehdr} {c : Nat → SubpageCase} {code data : Bool} {s : FaultState}

/-- What holds of the machine in the first loop. -/
structure Defining (code data : Bool) (s : FaultState) : Prop where
  ram : RamOk s.ram
  shape : Shape s.as code data

/-- `as_define_region` with its memory: it fails for a third region, panics for an empty one and
otherwise moves the flags on. -/
theorem Defining.region (h : Defining code data s) (k : SubpageCase) (vaddr sz : Nat) :
    wp (define_region_mem k vaddr sz)
      (fun _ s' => Defining (nextCode code vaddr) (nextData code data vaddr) s' ∧ (code && data) = false ∧
        regionPages vaddr sz ≠ 0)
      (fun _ _ => (code && data) = true)
      (fun p => NoMemory p ∨ (code && data) = false ∧ regionPages vaddr sz = 0) s := by
  unfold define_region_mem
  rw [wp_read_bind, h.shape.hasRoom_iff]
  by_cases hroom : (code && data) = false
  · rw [hroom]
    by_cases hn : regionPages vaddr sz = 0
    · -- the assertion comes first
      rw [if_neg (by simp [hn])]
      simp only [wp_zoom]
      unfold wp
      rw [h.shape.define_empty hroom hn]
      exact .inr ⟨trivial, hn⟩
    · rw [if_pos (by simp [hn])]
      simp only [wp_bind, wp_zoom]
      refine wp_mono (h.ram.kmalloc_ptable k (regionPages_le vaddr sz)) ?_ (fun _ _ hE => hE.elim)
        (fun _ hF => .inl hF)
      rintro _ ram' ⟨hram, _⟩
      obtain ⟨as', hrun, hshape⟩ := h.shape.define hroom hn
      exact wp_of_run_ok hrun ⟨⟨hram, hshape⟩, trivial, hn⟩
  · have hboth : code = true ∧ data = true := by
      simpa using hroom
    obtain ⟨rfl, rfl⟩ := hboth
    rw [if_neg (by simp)]
    simp only [wp_zoom]
    exact wp_of_run_err h.shape.define_full rfl

/-- The loop ends as `regionsOk` says. -/
theorem Defining.phdrs (l : List Nat) : ∀ {code data : Bool} {s : FaultState}, Defining code data s →
    wp (define_phdrs_mem file eh c l) (fun _ s' => ∃ code' data', Defining code' data' s' ∧
        regionsOk file eh l code data = regionsOk file eh [] code' data')
      (fun _ _ => regionsOk file eh l code data = true)
      (fun p => NoMemory p ∨ regionsOk file eh l code data = false) s := by
  induction l with
  | nil => exact fun h => ⟨_, _, h, rfl⟩
  | cons i rest ih =>
    intro code data s h
    unfold define_phdrs_mem define_phdr_mem
    rw [regionsOk]
    cases hph : read_phdr file eh i with
    | error e =>
      simp only [wp_bind, wp_ofExcept_error]
    | ok ph =>
      simp only [wp_bind, wp_ofExcept_ok]
      cases hkind : ph.kind with
      | skip => exact ih h
      | bad => exact rfl
      | load =>
        refine wp_mono (h.region (c i) ph.p_vaddr ph.p_memsz) ?_ ?_ ?_
        · rintro _ s' ⟨hs', hroom, hn⟩
          have hnext := ih hs'
          simp only [hroom, hn, Bool.false_eq_true, if_false, ne_eq, not_false_eq_true, decide_true, Bool.true_and]
          cases code with
          | false => exact hnext
          | true => exact hnext
        · intro e _ hboth
          simp only [hboth, if_true]
        · intro p hp
          rcases hp with hp | ⟨hroom, hn⟩
          · exact .inl hp
          · right
            simp [hroom, hn]

end Load

/-! ## Faults -/

/-- What holds of the machine outside `as_define_region`. -/
structure MachOk (s : FaultState) : Prop where
  ram : RamOk s.ram
  inv : AsInv s.as
  frames : ∀ t i f, s.as.frame t i = some f → PAGE_SIZE ∣ f

theorem Defining.machOk {code data : Bool} {s : FaultState} (h : Defining code data s) : MachOk s where
  ram := h.ram
  inv := h.shape.inv
  frames := fun t i f hf => by
    rw [h.shape.empty] at hf
    cases hf

section Faults

variable {s s' : FaultState} {addr paddr : Nat} {t : SegmentT}

namespace Paged

theorem vbase (hp : Paged s addr t paddr s') (u : SegmentT) : (s'.as.segment u).vbase = (s.as.segment u).vbase :=
  (hp.looked.shape hp.others u).1

theorem npages (hp : Paged s addr t paddr s') (u : SegmentT) : (s'.as.segment u).npages = (s.as.segment u).npages :=
  (hp.looked.shape hp.others u).2.1

theorem ready (hp : Paged s addr t paddr s') : s'.as.ready = s.as.ready := by
  have hcode : s'.as.code.vbase = s.as.code.vbase := hp.vbase .CODE
  have hdata : s'.as.data.vbase = s.as.data.vbase := hp.vbase .DATA
  have hstack : s'.as.stack.vbase = s.as.stack.vbase := hp.vbase .STACK
  have hcode' : s'.as.code.npages = s.as.code.npages := hp.npages .CODE
  have hdata' : s'.as.data.npages = s.as.data.npages := hp.npages .DATA
  unfold AddrSpace.ready
  rw [hcode, hdata, hstack, hcode', hdata']

end Paged

namespace MachOk

/-- The frame of a page is aligned, whether it is new or not. -/
theorem looked_dvd (h : MachOk s) {i : Nat} {ram' : Ram} {seg' : Segment}
    (hlooked : Looked s.ram (s.as.segment t) i paddr ram' seg') : PAGE_SIZE ∣ paddr := by
  rcases hlooked.source with ⟨hold, -⟩ | ⟨-, hnew, -⟩
  · exact h.frames t i paddr hold
  · rw [hnew]
    exact h.ram.aligned

/-- A fault in an address space with both regions ends the process, fails or loads the page. -/
theorem vm_fault (h : MachOk s) (hready : s.as.ready = true) (haddr : addr < 2 ^ 32) (faulttype : FaultType) :
    wp (vm_fault faulttype addr)
      (fun r s' => r = .killed ∨ ∃ t paddr, Paged s (pageFrame addr) t paddr s')
      (fun _ _ => True) NoMemory s := by
  have hlt := Nat.lt_of_le_of_lt (pageFrame_le addr) haddr
  apply wp_vm_fault_cases
  · exact fun _ => .inl rfl
  · exact fun _ => trivial
  · exact fun _ _ => wp_post (wp_vm_fault_page h.ram.bounded h.inv hlt (pageFrame_dvd addr) _ (.inl rfl)
      (.inr fun _ _ _ _ _ => h.looked_dvd)) (fun _ _ => .inr) (fun _ _ _ => trivial)
  · intro hnot
    exact nomatch hnot.symm.trans hready

theorem paged (h : MachOk s) (hready : s.as.ready = true) (hp : Paged s addr t paddr s') : MachOk s' where
  ram := by
    rcases hp.looked.source with ⟨-, hram⟩ | ⟨-, -, hfits, hram⟩
    · rw [hram]
      exact h.ram
    · have hlast := h.ram.bounded.last
      rw [hram]
      refine ⟨⟨?_, hlast⟩, Nat.dvd_add h.ram.aligned (Nat.dvd_refl _)⟩
      show s.ram.firstpaddr + PAGE_SIZE < 2 ^ 31
      omega
  inv := hp.asInv h.inv hready
  frames := by
    intro u i f hf
    unfold AddrSpace.frame at hf
    by_cases hu : u = t
    · rw [hu] at hf
      by_cases hi : i = (s.as.segment t).vpn addr
      · rw [hi, hp.looked.here] at hf
        cases hf
        exact h.looked_dvd hp.looked
      · rw [hp.looked.others i hi] at hf
        exact h.frames t i f hf
    · rw [hp.others u hu] at hf
      exact h.frames u i f hf

end MachOk

/-- After the page has been loaded there is no fault for it. -/
theorem storeFault_of_entry {tlb : Tlb} {vaddr : Nat}
    (h : ∃ j, (tlb j).valid = true ∧ (tlb j).ehi = pageFrame vaddr) :
    storeFault tlb vaddr ≠ some .VM_FAULT_WRITE := by
  obtain ⟨j, hvalid, hehi⟩ := h
  unfold storeFault
  split
  · rename_i hnone
    rw [List.find?_eq_none] at hnone
    have hj := hnone j (List.mem_finRange j)
    simp [hvalid, hehi] at hj
  · split
    · exact nofun
    · exact nofun

end Faults

/-! ## Runs -/

/-- What holds in every state of a run with fit files and enough memory. -/
structure LoaderInv (s : LoaderState) : Prop where
  noPanic : s.panicked = none
  mach : s.phase ≠ .gone → MachOk s.mach
  fresh : s.phase = .fresh → s.mach.as = as_create
  loading : ∀ ops, s.phase = .loading ops → s.mach.as.ready = true ∨ loadRefused ops = true
  user : s.phase = .user → s.mach.as.ready = true

section Runs

variable {s s' : LoaderState}

/-- The outcomes of kernel code that a process runs. -/
theorem LoaderState.exec_cases {α : Type} {m : Kern FaultState Errno Panic α} {Q : α → FaultState → Prop}
    {E : Errno → FaultState → Prop} {F : Panic → Prop} (h : wp m Q E F s.mach) (k : α → ProcPhase) :
    (∃ a mach, Q a mach ∧ s.exec m k = { s with mach := mach, phase := k a }) ∨
      (∃ e mach, E e mach ∧ s.exec m k = { s with mach := mach, phase := .gone }) ∨
      ∃ p, F p ∧ s.exec m k = { s with panicked := some p } := by
  unfold LoaderState.exec
  unfold wp at h
  cases hm : m s.mach with
  | ok a mach =>
    rw [hm] at h
    exact .inl ⟨a, mach, h, rfl⟩
  | err e mach =>
    rw [hm] at h
    exact .inr (.inl ⟨e, mach, h, rfl⟩)
  | panic p =>
    rw [hm] at h
    exact .inr (.inr ⟨p, h, rfl⟩)

theorem LoaderInv.gone {mach : FaultState} (h : LoaderInv s) : LoaderInv { s with mach := mach, phase := .gone } :=
  { h with
    mach := fun hne => (hne rfl).elim
    fresh := fun hp => nomatch hp
    loading := fun _ hp => nomatch hp
    user := fun hp => nomatch hp }

/-- A fault that comes back leaves the process as it was, with its page in the TLB. -/
theorem LoaderInv.fault (h : LoaderInv s) (hphase : s.phase ≠ .fresh) (hgone : s.phase ≠ .gone)
    (hready : s.mach.as.ready = true) {addr : Nat} (haddr : addr < 2 ^ 32) (faulttype : FaultType)
    (hs : s.exec (vm_fault faulttype addr) (LoaderState.afterFault s.phase) = s')
    (hmem : ∀ p, s'.panicked = some p → ¬ NoMemory p) :
    LoaderInv s' ∧ (s'.phase = .gone ∨
      s'.phase = s.phase ∧ ∃ j, (s'.mach.tlb j).valid = true ∧ (s'.mach.tlb j).ehi = pageFrame addr) := by
  rcases LoaderState.exec_cases ((h.mach hgone).vm_fault hready haddr faulttype)
    (LoaderState.afterFault s.phase) with ⟨r, mach, hr, hexec⟩ | ⟨e, mach, -, hexec⟩ | ⟨p, hp, hexec⟩
  · rw [← hs, hexec]
    cases r with
    | killed => exact ⟨h.gone, .inl rfl⟩
    | retry =>
      obtain ⟨t, paddr, hp⟩ := hr.resolve_left nofun
      obtain ⟨j, hvalid, hehi, -⟩ := hp.entry
      have hready' : mach.as.ready = true := hp.ready.trans hready
      refine ⟨⟨h.noPanic, ?_, ?_, ?_, ?_⟩, .inr ⟨rfl, j, hvalid, hehi⟩⟩
      · exact fun _ => (h.mach hgone).paged hready hp
      · exact fun hf => (hphase hf).elim
      · exact fun _ _ => .inl hready'
      · exact fun _ => hready'
  · rw [← hs, hexec]
    exact ⟨h.gone, .inl rfl⟩
  · rw [← hs, hexec] at hmem
    exact (hmem p rfl hp).elim

/-- What `load_elf` leaves behind, for any file. -/
theorem wp_load_elf_mem (file : List UInt8) (c : Nat → SubpageCase) {mach : FaultState}
    (h : Defining false false mach) :
    wp (load_elf_mem file c)
      (fun ops mach' => MachOk mach' ∧ (FileOk file → mach'.as.ready = true ∨ loadRefused ops = true) ∧
        (¬ FileOk file → mach'.as.ready = false))
      (fun _ _ => FileOk file) (fun p => NoMemory p ∨ ¬ FileOk file) mach := by
  unfold load_elf_mem FileOk
  cases heh : read_ehdr file with
  | error e => simp only [wp_bind, wp_ofExcept_error]
  | ok eh =>
    simp only [wp_bind, wp_ofExcept_ok, Bool.not_eq_true]
    refine wp_imp (h.phdrs (List.range eh.e_phnum)) ?_
    intro _ mach' hmach
    obtain ⟨code, data, hdef, heq⟩ := hmach
    rw [heq]
    unfold regionsOk
    refine ⟨hdef.machOk, ?_, ?_⟩
    · intro hok
      rcases (Bool.or_eq_true _ _).mp hok with hboth | href
      · left
        have hflags : code = true ∧ data = true := by simpa using hboth
        obtain ⟨rfl, rfl⟩ := hflags
        exact hdef.shape.ready
      · exact .inr href
    · intro hbad
      exact hdef.shape.not_ready (Bool.or_eq_false_iff.mp hbad).1

theorem LoaderInv.defining (h : LoaderInv s) (hfresh : s.phase = .fresh) : Defining false false s.mach where
  ram := (h.mach (by rw [hfresh]; exact nofun)).ram
  shape := by
    rw [h.fresh hfresh]
    exact Shape.create

/-- The state after one store of the load. -/
theorem LoaderInv.store (h : LoaderInv s) {ops : List LoadOp} (hphase : s.phase = .loading ops)
    (hs : loaderNext s .store = some s') (hmem : ∀ p, s'.panicked = some p → ¬ NoMemory p) :
    LoaderInv s' ∧ LoaderAdvances s .store s' := by
  have hgone : s.phase ≠ .gone := by
    rw [hphase]
    exact nofun
  have hready := h.loading ops hphase
  unfold loaderNext at hs
  rw [if_neg (by simp [h.noPanic]), hphase] at hs
  cases ops with
  | nil =>
    -- `as_complete_load`
    cases hs
    have hready := hready.resolve_right nofun
    refine ⟨⟨h.noPanic, fun _ => ?_, nofun, nofun, fun _ => hready⟩, .inl ?_⟩
    · have hok := h.mach hgone
      have hseg : ∀ t, ({ s.mach.as with loaded := true } : AddrSpace).segment t = s.mach.as.segment t := by
        intro t
        cases t <;> rfl
      refine ⟨hok.ram, hok.inv.of_segment hseg, ?_⟩
      intro t i f hf
      exact hok.frames t i f (by rw [← hf]; exact congrArg (Segment.frame · i) (hseg t).symm)
    · rw [hphase]
      exact nofun
  | cons op ops =>
    cases op with
    | fail e =>
      cases hs
      exact ⟨h.gone, .inl (by rw [hphase]; exact nofun)⟩
    | store vaddr =>
      dsimp only at hs
      by_cases hkern : vaddr ≥ MIPS_KSEG0
      · rw [if_pos hkern] at hs
        cases hs
        exact ⟨h.gone, .inl (by rw [hphase]; exact nofun)⟩
      · rw [if_neg hkern] at hs
        have hready : s.mach.as.ready = true := by
          refine hready.resolve_right ?_
          simp [loadRefused, hkern]
        cases hfault : storeFault s.mach.tlb vaddr with
        | none =>
          rw [hfault] at hs
          cases hs
          refine ⟨⟨h.noPanic, fun _ => h.mach hgone, nofun, fun _ _ => .inl hready, nofun⟩, .inl ?_⟩
          rw [hphase]
          exact fun hops => List.cons_ne_self _ _ (ProcPhase.loading.inj hops).symm
        | some faulttype =>
          rw [hfault, ← hphase] at hs
          have haddr : vaddr < 2 ^ 32 := by
            have hk : MIPS_KSEG0 = 2 ^ 31 := rfl
            omega
          obtain ⟨hinv, hres⟩ := h.fault (by rw [hphase]; exact nofun) hgone hready haddr faulttype
            (Option.some.inj hs) hmem
          refine ⟨hinv, ?_⟩
          rcases hres with hend | ⟨hsame, hentry⟩
          · left
            rw [hend]
            exact hgone.symm
          · exact .inr ⟨ops, vaddr, hsame.trans hphase, storeFault_of_entry hentry⟩

theorem LoaderInv.activate (h : LoaderInv s) : LoaderInv { s with mach := { s.mach with tlb := tlbInvalid } } :=
  { h with mach := fun hne => ⟨(h.mach hne).ram, (h.mach hne).inv, (h.mach hne).frames⟩ }

/-- The steps of a process. -/
theorem loaderNext_cases {a : LoaderAct} (hs : loaderNext s a = some s') :
    (∃ file c, a = .load file c ∧ s.phase = .fresh ∧ s' = s.exec (load_elf_mem file c) .loading) ∨
      (∃ ops, a = .store ∧ s.phase = .loading ops) ∨
      (∃ faulttype addr, a = .fault faulttype addr ∧ s.phase = .user ∧
        s' = s.exec (vm_fault faulttype addr.toNat) (LoaderState.afterFault .user)) ∨
      a = .activate ∧ s' = { s with mach := { s.mach with tlb := tlbInvalid } } := by
  unfold loaderNext at hs
  split at hs
  · cases hs
  · split at hs
    · rename_i file c hphase
      exact .inl ⟨file, c, rfl, hphase, (Option.some.inj hs).symm⟩
    · rename_i hphase
      exact .inr (.inl ⟨_, rfl, hphase⟩)
    · rename_i hphase
      exact .inr (.inl ⟨_, rfl, hphase⟩)
    · rename_i hphase
      exact .inr (.inl ⟨_, rfl, hphase⟩)
    · rename_i faulttype addr hphase
      exact .inr (.inr (.inl ⟨faulttype, addr, rfl, hphase, (Option.some.inj hs).symm⟩))
    · exact .inr (.inr (.inr ⟨rfl, (Option.some.inj hs).symm⟩))
    · exact .inr (.inr (.inr ⟨rfl, (Option.some.inj hs).symm⟩))
    · cases hs

/-- One step, under the condition. -/
theorem LoaderInv.step (h : LoaderInv s) {a : LoaderAct} (hc : LoaderCond s a) (hs : loaderNext s a = some s') :
    LoaderInv s' ∧ LoaderAdvances s a s' := by
  have hmem := fun p => hc.2 s' p hs
  rcases loaderNext_cases hs with ⟨file, c, rfl, hphase, hexec⟩ | ⟨ops, rfl, hphase⟩ |
    ⟨faulttype, addr, rfl, hphase, hexec⟩ | ⟨rfl, hnew⟩
  · have hok := hc.1 file c rfl
    rcases LoaderState.exec_cases (wp_load_elf_mem file c (h.defining hphase)) .loading with
      ⟨ops, mach, ⟨hmach, hready, -⟩, hrun⟩ | ⟨e, mach, -, hrun⟩ | ⟨p, hp, hrun⟩
    · rw [hexec, hrun]
      refine ⟨⟨h.noPanic, fun _ => hmach, nofun, ?_, nofun⟩, trivial⟩
      intro ops' hops
      cases hops
      exact hready hok
    · rw [hexec, hrun]
      exact ⟨h.gone, trivial⟩
    · rw [hexec, hrun] at hmem
      exact (hmem p rfl (hp.resolve_right (fun hn => hn hok))).elim
  · exact h.store hphase hs hmem
  · rw [← hphase] at hexec
    obtain ⟨hinv, hres⟩ := h.fault (by rw [hphase]; exact nofun) (by rw [hphase]; exact nofun) (h.user hphase)
      addr.toNat_lt faulttype hexec.symm hmem
    exact ⟨hinv, hres.imp id fun hr => hr.2⟩
  · rw [hnew]
    exact ⟨h.activate, trivial⟩

/-- The header of an executable with `phnum` program headers right after it. -/
def sampleEhdr (phnum : UInt8) : List UInt8 :=
  [0x7f, 0x45, 0x4c, 0x46, 1, 2, 1, 0, 0, 0, 0, 0, 0, 0, 0, 0, 0, 2, 0, 8, 0, 0, 0, 1, 0, 0x40, 0, 0, 0, 0, 0, 52,
    0, 0, 0, 0, 0, 0, 0, 0, 0, 52, 0, 32, 0, phnum, 0, 0, 0, 0, 0, 0]

end Runs

end OS161
