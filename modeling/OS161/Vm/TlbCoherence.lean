import OS161.Vm.Frames

/-! # TLB coherence

Runs of processes on any number of CPUs, each with its own TLB. A process faults, is switched
away and comes back on the same or another CPU, and exchanges its address space in `sys_execv`.

`vm_fault` runs with interrupts enabled until it touches the TLB, so that its thread can be
switched away between looking up the page and writing the TLB. `next_victim` is shared by all
CPUs and has no lock: its two loads and its store are separate steps.

An address space is current for a process between `curproc_setas(as)` and `curproc_setas(NULL)`.
`as_activate` does nothing for a process that has none.
-/

namespace OS161.Coherence

open Framework Kern Function

/-! ## States -/

/-- Where the thread of a process is. -/
inductive Stage where
  /-- In the kernel, without an address space: before the first `curproc_setas`, or in `sys_execv`
      (`exec`) after `curproc_setas(NULL)`. -/
  | bare (exec : Bool)
  /-- Between `curproc_setas(as)` and `as_activate()`. -/
  | installed
  | kernel
  | user
  /-- In `vm_fault`, which returns to user mode if `back`. -/
  | missing (addr : Nat) (write back : Bool)
  /-- The page has been looked up. -/
  | found (e : TlbEntry) (back : Bool)
  /-- Interrupts are off, and no TLB entry is invalid. -/
  | full (e : TlbEntry) (back : Bool)
  /-- In `tlb_get_rr_victim`, after the first load of `next_victim`. -/
  | evict (e : TlbEntry) (victim : Nat) (back : Bool)
  /-- After the second load of `next_victim`. -/
  | bump (e : TlbEntry) (victim tmp : Nat) (back : Bool)
  deriving DecidableEq

namespace Stage

/-- Where `vm_fault` goes when it returns. -/
def resume (back : Bool) : Stage := if back then .user else .kernel

/-- The process has an address space. -/
def attached : Stage → Bool
  | bare _ => false
  | _ => true

/-- The address space of the process is the one that the TLB is for. -/
def active : Stage → Bool
  | bare _ | installed => false
  | _ => true

/-- The page that is about to be mapped. -/
def pending : Stage → Option Nat
  | missing addr _ _ => some addr
  | found e _ | full e _ | evict e _ _ | bump e _ _ _ => some e.ehi
  | _ => none

/-- The thread can be switched away: it is in the kernel and has interrupts on, or waits. -/
def switchable : Stage → Bool
  | user | full _ _ | evict _ _ _ | bump _ _ _ _ => false
  | _ => true

end Stage

structure State where
  ram : Ram
  spaces : List AddrSpace
  /-- The TLB of each CPU. -/
  tlbs : Nat → Tlb
  next_victim : Nat
  /-- The address space of each process. -/
  p_addrspace : Nat → Option Nat
  /-- The process that each CPU runs; kernel threads belong to none that matters here. -/
  cur : Nat → Option Nat
  running : Nat → Bool
  stage : Nat → Stage

namespace State

def setStage (s : State) (p : Nat) (st : Stage) : State :=
  { s with stage := update s.stage p st }

def curproc_setas (s : State) (p : Nat) (as : Option Nat) : State :=
  { s with p_addrspace := update s.p_addrspace p as }

/-- `tlb_write` on a CPU. -/
def tlb_write (s : State) (cpu : Nat) (e : TlbEntry) (i : Nat) : State :=
  { s with tlbs := update s.tlbs cpu fun j => if j.val = i then e else s.tlbs cpu j }

/-- `as_activate` for the process that a CPU runs. -/
def as_activate (s : State) (cpu : Nat) : State :=
  match (s.cur cpu).bind s.p_addrspace with
  | none => s
  | some _ => { s with tlbs := update s.tlbs cpu tlbInvalid }

/-- The context switch itself: another process, or none, is current. -/
def become (s : State) (cpu : Nat) (q : Option Nat) : State :=
  { s with
    cur := update s.cur cpu q
    running := fun p => if q = some p then true else if s.cur cpu = some p then false else s.running p }

end State

/-! ## Steps -/

/-- `vm_fault` for READ and WRITE, up to the page lookup: the physical address of the page and
whether it is mapped read-only. -/
def fault_lookup (addr : Nat) (attempting_write : Bool) :
    Kern (Ram × AddrSpace) Errno Panic (Nat × Bool) := do
  let s ← .read
  .kassert (s.2.ready = true) .vm_fault_addrspace
  match s.2.select addr with
  | none => .fail .efault
  | some t => do
    let readonly := decide (t = .CODE) && s.2.loaded
    let paddr ← .zoom (fun s => (s.1, s.2.segment t)) (fun s r => (r.1, s.2.setSegment t r.2))
      (segment_lookup addr attempting_write)
    .kassert (pageFrame paddr = paddr) .vm_fault_paddr
    pure (paddr, readonly)

/-- What the thread of the current process does. -/
inductive ProcAct where
  /-- An interrupt or a system call in user mode. -/
  | trap
  /-- Back to user mode. -/
  | ret
  /-- `curproc_setas(NULL)` in `sys_execv`. -/
  | drop
  /-- `as_create` has returned NULL, and `sys_execv` returns `ENOMEM`. -/
  | fail
  /-- `curproc_setas(as)`. -/
  | install (k : Nat)
  | activate
  | as_define_region (vaddr sz : UInt32)
  | as_complete_load
  /-- A TLB miss on a READ or a WRITE. -/
  | fault (addr : UInt32) (write : Bool)
  | lookup
  | fill
  | loadVictim
  | loadAgain
  | evict
  deriving DecidableEq

/-- Code that works on address space `k`. -/
def onSpace (s : State) (k : Nat) (m : Kern AddrSpace Errno Panic Unit) : Option State :=
  (s.spaces[k]?).bind fun as => (m.finalState as).map fun as' => { s with spaces := s.spaces.set k as' }

/-- The next state of a process that has looked up a page. -/
def lookup (s : State) (p k : Nat) (addr : Nat) (write back : Bool) : Option State :=
  (s.spaces[k]?).bind fun as =>
    match fault_lookup addr write (s.ram, as) with
    | .ok (paddr, readonly) (ram, as') =>
      some ({ s with ram := ram, spaces := s.spaces.set k as' }.setStage p
        (.found { ehi := addr, paddr := paddr, dirty := !readonly, valid := true } back))
    | .err _ (ram, as') =>
      -- `EFAULT`: the process is killed, or a copy in the kernel fails
      some ({ s with ram := ram, spaces := s.spaces.set k as' }.setStage p .kernel)
    | .panic _ => none

def procNext (s : State) (cpu p : Nat) (a : ProcAct) : Option State :=
  match a, s.stage p with
  | .trap, .user => some (s.setStage p .kernel)
  | .ret, .kernel => some (s.setStage p .user)
  | .drop, .kernel => some ((s.curproc_setas p none).setStage p (.bare true))
  | .fail, .bare true => some (s.setStage p .kernel)
  | .install k, .bare _ =>
    if k < s.spaces.length then some ((s.curproc_setas p (some k)).setStage p .installed) else none
  | .activate, .installed => some ((s.as_activate cpu).setStage p .kernel)
  | .as_define_region vaddr sz, .kernel =>
    (s.p_addrspace p).bind fun k => onSpace s k (OS161.as_define_region vaddr.toNat sz.toNat)
  | .as_complete_load, .kernel => (s.p_addrspace p).bind fun k => onSpace s k OS161.as_complete_load
  | .fault addr write, st =>
    -- the hardware looks the page up in the TLB first
    if (st = .user ∨ st = .kernel) ∧
        ∀ i, (s.tlbs cpu i).valid = true → (s.tlbs cpu i).ehi ≠ pageFrame addr.toNat then
      some (s.setStage p (.missing (pageFrame addr.toNat) write (decide (st = .user))))
    else none
  | .lookup, .missing addr write back =>
    match s.p_addrspace p with
    | none => some (s.setStage p .kernel)
    | some k => lookup s p k addr write back
  | .fill, .found e back =>
    match tlb_first_invalid (s.tlbs cpu) with
    | some i => some ((s.tlb_write cpu e i).setStage p (.resume back))
    | none => some (s.setStage p (.full e back))
  | .loadVictim, .full e back => some (s.setStage p (.evict e s.next_victim back))
  | .loadAgain, .evict e v back => some (s.setStage p (.bump e v s.next_victim back))
  | .evict, .bump e v tmp back =>
    some (({ s with next_victim := (tmp + 1) % NUM_TLB }.tlb_write cpu e v).setStage p (.resume back))
  | _, _ => none

inductive Act where
  | as_create
  /-- The kernel allocates pages for itself. -/
  | getppages (npages : Nat)
  | switch (cpu : Nat) (q : Option Nat)
  | proc (cpu : Nat) (a : ProcAct)
  deriving DecidableEq

/-- The thread that a CPU runs can be switched away. -/
def canSwitch (s : State) (cpu : Nat) : Bool :=
  match s.cur cpu with
  | none => true
  | some p => (s.stage p).switchable

def next (s : State) : Act → Option State
  | .as_create => some { s with spaces := s.spaces ++ [OS161.as_create] }
  | .getppages npages =>
    if npages ≤ 2 ^ 19 then
      ((OS161.getppages npages).finalState s.ram).map fun ram => { s with ram := ram }
    else none
  | .switch cpu q =>
    -- `thread_switch` calls `as_activate` before it turns interrupts back on
    if canSwitch s cpu ∧ ∀ p ∈ q, s.running p = false then some ((s.become cpu q).as_activate cpu)
    else none
  | .proc cpu a => (s.cur cpu).bind fun p => procNext s cpu p a

/-- Nothing runs yet; what is in the TLBs does not matter. -/
structure Boot (firstfree ramsize : Nat) (s : State) : Prop where
  ram : s.ram = ram_bootstrap firstfree ramsize
  spaces : s.spaces = []
  p_addrspace : ∀ p, s.p_addrspace p = none
  cur : ∀ c, s.cur c = none
  running : ∀ p, s.running p = false
  stage : ∀ p, s.stage p = .bare false
  next_victim : s.next_victim = 0

def system (firstfree ramsize : Nat) : System State Act := .ofNext (Boot firstfree ramsize) next

/-! ## Coherence -/

/-- The page table of the segment that `vm_fault` would use maps the page to the frame. -/
def Maps (as : AddrSpace) (addr paddr : Nat) : Prop :=
  ∃ t, as.select addr = some t ∧ as.frame t ((as.segment t).vpn addr) = some paddr

/-- The address space of process `p` maps the page to the frame. -/
def State.maps (s : State) (p addr paddr : Nat) : Prop :=
  ∃ k as, s.p_addrspace p = some k ∧ s.spaces[k]? = some as ∧ Maps as addr paddr

/-- What is to hold in every state. -/
structure TlbOk (s : State) : Prop where
  unique : ∀ c p, s.cur c = some p → s.stage p = .user →
    ∀ i j, (s.tlbs c i).valid = true → (s.tlbs c j).valid = true → (s.tlbs c i).ehi = (s.tlbs c j).ehi →
      i = j
  maps : ∀ c p, s.cur c = some p → s.stage p = .user →
    ∀ i, (s.tlbs c i).valid = true → s.maps p (s.tlbs c i).ehi (s.tlbs c i).paddr
  /-- The index of a `tlb_write`. -/
  index : ∀ p e v tmp back, s.stage p = .bump e v tmp back → v < NUM_TLB

/-- The TLB of a CPU fits the mapping `m`, and a page that is about to be mapped is not in it. -/
structure Coherent (m : Nat → Nat → Prop) (tlb : Tlb) (pending : Option Nat) : Prop where
  unique : ∀ i j, (tlb i).valid = true → (tlb j).valid = true → (tlb i).ehi = (tlb j).ehi → i = j
  maps : ∀ i, (tlb i).valid = true → m (tlb i).ehi (tlb i).paddr
  absent : ∀ a, pending = some a → ∀ i, (tlb i).valid = true → (tlb i).ehi ≠ a

namespace Coherent

variable {m m' : Nat → Nat → Prop} {tlb : Tlb} {pending : Option Nat}

theorem mono (h : Coherent m tlb pending) (hm : ∀ a f, m a f → m' a f) : Coherent m' tlb pending :=
  { h with maps := fun i hi => hm _ _ (h.maps i hi) }

theorem flushed (m : Nat → Nat → Prop) (pending : Option Nat) : Coherent m tlbInvalid pending where
  unique := fun _ _ hi => nomatch hi
  maps := fun _ hi => nomatch hi
  absent := fun _ _ _ hi => nomatch hi

/-- Nothing is about to be mapped. -/
theorem forget (h : Coherent m tlb pending) : Coherent m tlb none :=
  ⟨h.unique, h.maps, fun _ ha => nomatch ha⟩

/-- The page that was missing is mapped. -/
theorem write {e : TlbEntry} (h : Coherent m tlb (some e.ehi)) (he : m e.ehi e.paddr) (v : Nat) :
    Coherent m (fun j => if j.val = v then e else tlb j) none := by
  constructor
  case unique =>
    intro i j hi hj heq
    -- the new entry is for a page that no other entry is for
    have hnew : ∀ k : Fin NUM_TLB, k.val ≠ v → (tlb k).valid = true → (tlb k).ehi ≠ e.ehi :=
      fun k _ hk => h.absent e.ehi rfl k hk
    by_cases hiv : i.val = v
    · by_cases hjv : j.val = v
      · exact Fin.ext (hiv.trans hjv.symm)
      · simp only [hiv, if_true, if_neg hjv] at hi hj heq
        exact absurd heq.symm (hnew j hjv hj)
    · by_cases hjv : j.val = v
      · simp only [hjv, if_true, if_neg hiv] at hi hj heq
        exact absurd heq (hnew i hiv hi)
      · simp only [if_neg hiv, if_neg hjv] at hi hj heq
        exact h.unique i j hi hj heq
  case maps =>
    intro i hi
    by_cases hiv : i.val = v
    · simp only [hiv, if_true]
      exact he
    · simp only [if_neg hiv] at hi ⊢
      exact h.maps i hi
  case absent => exact fun _ ha => nomatch ha

end Coherent

/-! ## Page tables only grow -/

/-- What was mapped stays mapped. -/
def Extends (as as' : AddrSpace) : Prop := ∀ a f, Maps as a f → Maps as' a f

theorem Extends.refl (as : AddrSpace) : Extends as as := fun _ _ h => h

variable {as as' : AddrSpace}

/-- `select` looks at where the segments are. -/
theorem select_congr (hvbase : ∀ t, (as'.segment t).vbase = (as.segment t).vbase)
    (hnpages : ∀ t, (as'.segment t).npages = (as.segment t).npages) (a : Nat) :
    as'.select a = as.select a := by
  have h1 : as'.code.vbase = as.code.vbase := hvbase .CODE
  have h2 : as'.code.npages = as.code.npages := hnpages .CODE
  have h3 : as'.data.vbase = as.data.vbase := hvbase .DATA
  have h4 : as'.data.npages = as.data.npages := hnpages .DATA
  unfold AddrSpace.select
  rw [h1, h2, h3, h4]

theorem Extends.of_segment (hseg : ∀ t, as'.segment t = as.segment t) : Extends as as' := by
  rintro a f ⟨t, hsel, hframe⟩
  refine ⟨t, ?_, ?_⟩
  · have hselect : as'.select a = as.select a :=
      select_congr (fun u => by rw [hseg u]) (fun u => by rw [hseg u]) a
    rw [hselect]
    exact hsel
  · unfold AddrSpace.frame
    rw [hseg]
    exact hframe

section Space

variable {as as' : AddrSpace} {ram ram' : Ram} {t : SegmentT} {addr paddr : Nat}

theorem Extends.look (hlooked : Looked ram (as.segment t) ((as.segment t).vpn addr) paddr ram' (as'.segment t))
    (hothers : ∀ u, u ≠ t → as'.segment u = as.segment u) (hsel : as.select addr = some t) :
    Extends as as' ∧ Maps as' addr paddr := by
  have hshape := hlooked.shape hothers
  have hselect := select_congr (fun u => (hshape u).1) (fun u => (hshape u).2.1)
  have hvpn : ∀ u a, (as'.segment u).vpn a = (as.segment u).vpn a := by
    intro u a
    unfold Segment.vpn
    rw [(hshape u).1]
  constructor
  · rintro a f ⟨u, hu, hframe⟩
    refine ⟨u, (hselect a).trans hu, ?_⟩
    rw [hvpn]
    unfold AddrSpace.frame at hframe ⊢
    by_cases hut : u = t
    · subst hut
      by_cases hi : (as.segment u).vpn a = (as.segment u).vpn addr
      · -- the page looked up had this frame already
        rw [hi] at hframe ⊢
        rw [hlooked.here]
        rcases hlooked.source with ⟨hold, -⟩ | ⟨hnone, -⟩
        · exact hold.symm.trans hframe
        · rw [hnone] at hframe
          cases hframe
      · rw [hlooked.others _ hi]
        exact hframe
    · rw [hothers u hut]
      exact hframe
  · refine ⟨t, (hselect addr).trans hsel, ?_⟩
    rw [hvpn]
    exact hlooked.here

/-- **`fault_lookup`** maps the page, or changes nothing. -/
theorem wp_fault_lookup (hram : ram.Bounded) (h : AsInv as) (haddr : addr < 2 ^ 32)
    (hpage : PAGE_SIZE ∣ addr) (w : Bool) :
    wp (fault_lookup addr w)
      (fun r s => s.1.Bounded ∧ AsInv s.2 ∧ Extends as s.2 ∧ Maps s.2 addr r.1)
      (fun _ s => s = (ram, as)) (fun _ => True) (ram, as) := by
  unfold fault_lookup
  simp only [wp_bind, wp_read, wp_kassert]
  split
  · rename_i hready
    cases hsel : as.select addr with
    | none => rfl
    | some t =>
      dsimp only
      simp only [wp_bind, wp_zoom]
      refine wp_post (h.wp_lookup hram haddr hpage hsel w trivial) ?_ (fun _ _ => False.elim)
      rintro paddr r ⟨hlooked, hothers⟩
      rw [wp_kassert]
      split
      · obtain ⟨hext, hmaps⟩ := Extends.look hlooked hothers hsel
        refine ⟨?_, h.look hready hlooked hothers, hext, hmaps⟩
        show r.1.Bounded
        rcases hlooked.source with ⟨-, hsame⟩ | ⟨-, -, hfits, hnext⟩
        · rw [hsame]
          exact hram
        · have hlast := hram.last
          rw [hnext]
          exact ⟨show ram.firstpaddr + PAGE_SIZE < 2 ^ 31 by omega, hlast⟩
      · trivial
  · trivial

/-- `as_define_region` fails on an address space that has frames. -/
theorem Extends.as_define_region (h : AsInv as) {vaddr sz : Nat}
    (hs : (as_define_region vaddr sz).finalState as = some as') : AsInv as' ∧ Extends as as' := by
  have hinv : AsInv as' := by
    refine wp_finalState (I := AsInv) (wp_post (h.as_define_region vaddr sz) ?_ ?_) hs
    · exact fun _ _ hp => hp.1
    · exact fun _ _ hp => hp.1
  refine ⟨hinv, ?_⟩
  rintro a f ⟨t, hsel, hframe⟩
  obtain ⟨hcode, hdata⟩ := h.ready t _ f hframe
  have hsame : as' = as := by
    refine wp_finalState (I := fun as' => as' = as) ?_ hs
    unfold OS161.as_define_region
    simp only [wp_bind, wp_read, wp_ite]
    rw [if_neg fun hc => hcode hc.2, if_neg fun hd => hdata hd.2]
    rfl
  rw [hsame]
  exact ⟨t, hsel, hframe⟩

theorem Extends.as_complete_load (h : AsInv as)
    (hs : finalState OS161.as_complete_load as = some as') : AsInv as' ∧ Extends as as' := by
  cases hs
  have hseg : ∀ t, ({ as with loaded := true } : AddrSpace).segment t = as.segment t := by
    intro t
    cases t <;> rfl
  exact ⟨h.of_segment hseg, Extends.of_segment hseg⟩

end Space

/-! ## The invariant -/

/-- What the place of a process says about its own mapping. -/
def StageOk (m : Nat → Nat → Prop) : Stage → Prop
  | .missing addr _ _ => addr < 2 ^ 32 ∧ PAGE_SIZE ∣ addr
  | .found e _ | .full e _ => m e.ehi e.paddr
  | .evict e v _ | .bump e v _ _ => m e.ehi e.paddr ∧ v < NUM_TLB
  | _ => True

variable {st : Stage}

theorem StageOk.mono {m m' : Nat → Nat → Prop} (h : StageOk m st) (hm : ∀ a f, m a f → m' a f) :
    StageOk m' st := by
  cases st with
  | found e back => exact hm _ _ h
  | full e back => exact hm _ _ h
  | evict e v back => exact ⟨hm _ _ h.1, h.2⟩
  | bump e v tmp back => exact ⟨hm _ _ h.1, h.2⟩
  | missing addr w back => exact h
  | _ => trivial

structure Inv (s : State) : Prop where
  ram : s.ram.Bounded
  spaces : ∀ as ∈ s.spaces, AsInv as
  attached : ∀ p k, s.p_addrspace p = some k → k < s.spaces.length
  running : ∀ c p, s.cur c = some p → s.running p = true
  single : ∀ c c' p, s.cur c = some p → s.cur c' = some p → c = c'
  has : ∀ p, (s.stage p).attached = true → ∃ k, s.p_addrspace p = some k
  stage : ∀ p, StageOk (s.maps p) (s.stage p)
  coherent : ∀ c p, s.cur c = some p → (s.stage p).active = true →
    Coherent (s.maps p) (s.tlbs c) (s.stage p).pending
  victim : s.next_victim < NUM_TLB

namespace Inv

variable {s s' : State} {cpu p : Nat}

/-- RAM is used up and page tables grow. -/
theorem extend (h : Inv s) {ram : Ram} {spaces : List AddrSpace} (hram : ram.Bounded)
    (hspaces : ∀ as ∈ spaces, AsInv as)
    (hext : ∀ (k : Nat) as, s.spaces[k]? = some as → ∃ as', spaces[k]? = some as' ∧ Extends as as') :
    Inv { s with ram := ram, spaces := spaces } := by
  have hmaps : ∀ p a f, s.maps p a f → State.maps { s with ram := ram, spaces := spaces } p a f := by
    rintro p a f ⟨k, as, hk, has, hm⟩
    obtain ⟨as', has', hextends⟩ := hext k as has
    exact ⟨k, as', hk, has', hextends a f hm⟩
  constructor
  case ram => exact hram
  case spaces => exact hspaces
  case attached =>
    intro p k hk
    obtain ⟨as', has', -⟩ := hext k _ (List.getElem?_eq_getElem (h.attached p k hk))
    exact (List.getElem?_eq_some_iff.mp has').1
  case running => exact h.running
  case single => exact h.single
  case has => exact h.has
  case stage => exact fun p => (h.stage p).mono (hmaps p)
  case coherent => exact fun c p hc hact => (h.coherent c p hc hact).mono (hmaps p)
  case victim => exact h.victim

/-- One address space grows. -/
theorem extendOne (h : Inv s) {k : Nat} {ram : Ram} (has : s.spaces[k]? = some as)
    (hram : ram.Bounded) (hinv : AsInv as') (hext : Extends as as') :
    Inv { s with ram := ram, spaces := s.spaces.set k as' } := by
  have hlt := (List.getElem?_eq_some_iff.mp has).1
  apply h.extend hram
  · intro as'' hmem
    rcases List.mem_or_eq_of_mem_set hmem with hmem | rfl
    · exact h.spaces as'' hmem
    · exact hinv
  · intro j b hb
    by_cases hj : k = j
    · subst hj
      rw [has] at hb
      cases hb
      exact ⟨as', List.getElem?_set_self hlt, hext⟩
    · exact ⟨b, (List.getElem?_set_ne hj).trans hb, Extends.refl b⟩

/-- A step of process `p` on `cpu`, which is what it does to the process, to the TLB of that CPU and
to `next_victim`. -/
theorem move (h : Inv s) (st : Stage) (hcur : s.cur cpu = some p)
    (hsame : s'.ram = s.ram ∧ s'.spaces = s.spaces ∧ s'.cur = s.cur ∧ s'.running = s.running)
    (hstage : s'.stage = update s.stage p st)
    (hspace : ∀ q, q ≠ p → s'.p_addrspace q = s.p_addrspace q)
    (hbound : ∀ k, s'.p_addrspace p = some k → k < s.spaces.length)
    (hhas : st.attached = true → ∃ k, s'.p_addrspace p = some k)
    (htlbs : ∀ c, c ≠ cpu → s'.tlbs c = s.tlbs c) (hok : StageOk (s'.maps p) st)
    (hcoherent : st.active = true → Coherent (s'.maps p) (s'.tlbs cpu) st.pending)
    (hvictim : s'.next_victim < NUM_TLB) : Inv s' := by
  obtain ⟨hram, hspaces, hcurs, hruns⟩ := hsame
  have hmaps : ∀ q, q ≠ p → s'.maps q = s.maps q := by
    intro q hq
    funext a f
    unfold State.maps
    rw [hspaces, hspace q hq]
  constructor
  case ram =>
    rw [hram]
    exact h.ram
  case spaces =>
    rw [hspaces]
    exact h.spaces
  case attached =>
    intro q k hk
    rw [hspaces]
    by_cases hq : q = p
    · subst hq
      exact hbound k hk
    · rw [hspace q hq] at hk
      exact h.attached q k hk
  case running =>
    rw [hcurs, hruns]
    exact h.running
  case single =>
    rw [hcurs]
    exact h.single
  case has =>
    rw [hstage]
    refine (Function.forall_update_iff _ fun q (st : Stage) =>
      st.attached = true → ∃ k, s'.p_addrspace q = some k).mpr ⟨hhas, fun q hq => ?_⟩
    rw [hspace q hq]
    exact h.has q
  case stage =>
    rw [hstage]
    refine (Function.forall_update_iff _ fun q st => StageOk (s'.maps q) st).mpr ⟨hok, fun q hq => ?_⟩
    rw [hmaps q hq]
    exact h.stage q
  case coherent =>
    intro c q hc hact
    rw [hcurs] at hc
    rw [hstage] at hact ⊢
    by_cases hqp : q = p
    · subst hqp
      rw [update_self] at hact ⊢
      rw [h.single c cpu q hc hcur]
      exact hcoherent hact
    · -- another process is on another CPU
      have hne : c ≠ cpu := by
        rintro rfl
        rw [hcur] at hc
        exact hqp (Option.some.inj hc).symm
      rw [update_of_ne hqp] at hact ⊢
      rw [hmaps q hqp, htlbs c hne]
      exact h.coherent c q hc hact
  case victim => exact hvictim

section

variable (h : Inv s) (hcur : s.cur cpu = some p)
include h hcur

/-- A step that changes only where the process is. -/
theorem walk (hhas : st.attached = true → (s.stage p).attached = true) (hok : StageOk (s.maps p) st)
    (hcoherent : st.active = true → Coherent (s.maps p) (s.tlbs cpu) st.pending) :
    Inv (s.setStage p st) := by
  refine h.move st hcur ⟨rfl, rfl, rfl, rfl⟩ rfl (fun _ _ => rfl) (h.attached p) ?_ (fun _ _ => rfl)
    hok hcoherent h.victim
  exact fun hst => h.has p (hhas hst)

/-- A step of a process that is about to map a page, on to the next place in `vm_fault`. -/
theorem walkOn {st st' : Stage} (hst : s.stage p = st)
    (hactive : st.active = true) (hattached : st.attached = true) (hpending : st'.pending = st.pending)
    (hok : StageOk (s.maps p) st') : Inv (s.setStage p st') := by
  subst hst
  refine h.walk hcur (fun _ => hattached) hok fun _ => ?_
  rw [hpending]
  exact h.coherent cpu p hcur hactive

section

variable (hst : s.stage p = st) (hactive : st.active = true) (hattached : st.attached = true)
include hst hactive hattached

/-- The page is mapped, and `vm_fault` returns. -/
theorem map {e : TlbEntry} {back : Bool}
        (hpending : st.pending = some e.ehi) (he : s.maps p e.ehi e.paddr) {i victim : Nat}
    (hvictim : victim < NUM_TLB) :
    Inv (({ s with next_victim := victim }.tlb_write cpu e i).setStage p (.resume back)) := by
  subst hst
  have hco := h.coherent cpu p hcur hactive
  rw [hpending] at hco
  refine h.move (.resume back) hcur ⟨rfl, rfl, rfl, rfl⟩ rfl (fun _ _ => rfl) (h.attached p)
    (fun _ => h.has p hattached) (fun c hc => update_of_ne hc ..) ?_ (fun _ => ?_) hvictim
  · cases back <;> trivial
  · have hnone : (Stage.resume back).pending = none := by cases back <;> rfl
    rw [hnone]
    show Coherent (s.maps p) (update s.tlbs cpu _ cpu) none
    rw [update_self]
    exact hco.write he i

/-- The process leaves `vm_fault` without a page. -/
theorem giveUp : Inv (s.setStage p .kernel) := by
  subst hst
  exact h.walk hcur (fun _ => hattached) trivial fun _ => (h.coherent cpu p hcur hactive).forget

end

/-! ### Steps of a process -/

theorem lookup {k addr : Nat} {write back : Bool}
    (hst : s.stage p = .missing addr write back) (hk : s.p_addrspace p = some k)
    (hs : Coherence.lookup s p k addr write back = some s') : Inv s' := by
  have hok := h.stage p
  rw [hst] at hok
  unfold Coherence.lookup at hs
  obtain ⟨as, has, hs⟩ := Option.bind_eq_some_iff.mp hs
  have hlt := (List.getElem?_eq_some_iff.mp has).1
  have hwp := wp_fault_lookup h.ram (h.spaces as (List.mem_of_getElem? has)) hok.1 hok.2 write
  cases hrun : fault_lookup addr write (s.ram, as) with
  | ok r m =>
    obtain ⟨hram, hinv, hext, hmaps⟩ := wp_ok hrun hwp
    rw [hrun] at hs
    cases hs
    have hgrown := h.extendOne has hram hinv hext
    refine hgrown.walkOn hcur hst rfl rfl rfl ?_
    exact ⟨k, m.2, hk, List.getElem?_set_self hlt, hmaps⟩
  | err e m =>
    have hsame := wp_err hrun hwp
    rw [hrun, hsame] at hs
    cases hs
    have hgrown := h.extendOne has h.ram (h.spaces as (List.mem_of_getElem? has)) (Extends.refl as)
    exact hgrown.giveUp hcur hst rfl rfl
  | panic q =>
    rw [hrun] at hs
    cases hs

end

theorem onSpace (h : Inv s) {k : Nat} {m : Kern AddrSpace Errno Panic Unit}
    (hm : ∀ as as', AsInv as → m.finalState as = some as' → AsInv as' ∧ Extends as as')
    (hs : Coherence.onSpace s k m = some s') : Inv s' := by
  unfold Coherence.onSpace at hs
  obtain ⟨as, has, hs⟩ := Option.bind_eq_some_iff.mp hs
  obtain ⟨as', hfinal, rfl⟩ := Option.map_eq_some_iff.mp hs
  obtain ⟨hinv, hext⟩ := hm as as' (h.spaces as (List.mem_of_getElem? has)) hfinal
  exact h.extendOne has h.ram hinv hext

end Inv

/-- What a step of the current process can be. -/
inductive ProcMove (s : State) (cpu p : Nat) : ProcAct → State → Prop where
  | trap (hst : s.stage p = .user) : ProcMove s cpu p .trap (s.setStage p .kernel)
  | ret (hst : s.stage p = .kernel) : ProcMove s cpu p .ret (s.setStage p .user)
  | drop (hst : s.stage p = .kernel) :
      ProcMove s cpu p .drop ((s.curproc_setas p none).setStage p (.bare true))
  | fail (hst : s.stage p = .bare true) : ProcMove s cpu p .fail (s.setStage p .kernel)
  | install (k : Nat) (exec : Bool) (hst : s.stage p = .bare exec) (hk : k < s.spaces.length) :
      ProcMove s cpu p (.install k) ((s.curproc_setas p (some k)).setStage p .installed)
  | activate (hst : s.stage p = .installed) :
      ProcMove s cpu p .activate ((s.as_activate cpu).setStage p .kernel)
  | as_define_region (k : Nat) (vaddr sz : UInt32) (s' : State)
      (hs : onSpace s k (OS161.as_define_region vaddr.toNat sz.toNat) = some s') :
      ProcMove s cpu p (.as_define_region vaddr sz) s'
  | as_complete_load (k : Nat) (s' : State) (hs : onSpace s k OS161.as_complete_load = some s') :
      ProcMove s cpu p .as_complete_load s'
  | fault (addr : UInt32) (write : Bool) (hst : s.stage p = .user ∨ s.stage p = .kernel)
      (hmiss : ∀ i, (s.tlbs cpu i).valid = true → (s.tlbs cpu i).ehi ≠ pageFrame addr.toNat) (back : Bool) :
      ProcMove s cpu p (.fault addr write) (s.setStage p (.missing (pageFrame addr.toNat) write back))
  | nospace (addr : Nat) (write back : Bool) (hst : s.stage p = .missing addr write back) :
      ProcMove s cpu p .lookup (s.setStage p .kernel)
  | lookup (k addr : Nat) (write back : Bool) (s' : State) (hst : s.stage p = .missing addr write back)
      (hk : s.p_addrspace p = some k) (hs : Coherence.lookup s p k addr write back = some s') :
      ProcMove s cpu p .lookup s'
  | fillFree (e : TlbEntry) (back : Bool) (i : Nat) (hst : s.stage p = .found e back) :
      ProcMove s cpu p .fill ((s.tlb_write cpu e i).setStage p (.resume back))
  | fillFull (e : TlbEntry) (back : Bool) (hst : s.stage p = .found e back) :
      ProcMove s cpu p .fill (s.setStage p (.full e back))
  | loadVictim (e : TlbEntry) (back : Bool) (hst : s.stage p = .full e back) :
      ProcMove s cpu p .loadVictim (s.setStage p (.evict e s.next_victim back))
  | loadAgain (e : TlbEntry) (v : Nat) (back : Bool) (hst : s.stage p = .evict e v back) :
      ProcMove s cpu p .loadAgain (s.setStage p (.bump e v s.next_victim back))
  | evict (e : TlbEntry) (v tmp : Nat) (back : Bool) (hst : s.stage p = .bump e v tmp back) :
      ProcMove s cpu p .evict
        (({ s with next_victim := (tmp + 1) % NUM_TLB }.tlb_write cpu e v).setStage p (.resume back))

theorem procNext_move {s s' : State} {cpu p : Nat} {a : ProcAct} (hs : procNext s cpu p a = some s') :
    ProcMove s cpu p a s' := by
  unfold procNext at hs
  -- for each action but `fault` one stage is left, in which it is possible
  cases a with
  | trap | ret | drop | activate | loadVictim | loadAgain | evict =>
    cases hst : s.stage p <;> simp only [hst, reduceCtorEq, Option.some.injEq] at hs
    subst hs
    constructor
    exact hst
  | fail =>
    cases hst : s.stage p with
    | bare exec =>
      rw [hst] at hs
      cases exec with
      | true => exact Option.some.inj hs ▸ .fail hst
      | false => cases hs
    | _ => simp only [hst, reduceCtorEq] at hs
  | install k =>
    cases hst : s.stage p <;> simp only [hst, reduceCtorEq] at hs
    rename_i exec
    split at hs
    · rename_i hk
      cases hs
      exact .install k exec hst hk
    · cases hs
  | as_define_region vaddr sz =>
    cases hst : s.stage p <;> simp only [hst, reduceCtorEq] at hs
    obtain ⟨k, -, hs⟩ := Option.bind_eq_some_iff.mp hs
    exact .as_define_region k vaddr sz s' hs
  | as_complete_load =>
    cases hst : s.stage p <;> simp only [hst, reduceCtorEq] at hs
    obtain ⟨k, -, hs⟩ := Option.bind_eq_some_iff.mp hs
    exact .as_complete_load k s' hs
  | fault addr write =>
    by_cases hmiss : (s.stage p = .user ∨ s.stage p = .kernel) ∧
        ∀ i, (s.tlbs cpu i).valid = true → (s.tlbs cpu i).ehi ≠ pageFrame addr.toNat
    · simp only [if_pos hmiss, Option.some.injEq] at hs
      exact hs ▸ .fault addr write hmiss.1 hmiss.2 _
    · simp only [if_neg hmiss, reduceCtorEq] at hs
  | lookup =>
    cases hst : s.stage p <;> simp only [hst, reduceCtorEq] at hs
    rename_i addr write back
    cases hk : s.p_addrspace p with
    | none =>
      simp only [hk, Option.some.injEq] at hs
      exact hs ▸ .nospace addr write back hst
    | some k =>
      simp only [hk] at hs
      exact .lookup k addr write back s' hst hk hs
  | fill =>
    cases hst : s.stage p <;> simp only [hst, reduceCtorEq] at hs
    rename_i e back
    cases hi : tlb_first_invalid (s.tlbs cpu) with
    | none =>
      simp only [hi, Option.some.injEq] at hs
      exact hs ▸ .fillFull e back hst
    | some i =>
      simp only [hi, Option.some.injEq] at hs
      exact hs ▸ .fillFree e back i hst

namespace Inv

variable {s s' : State} {cpu p : Nat}

/-- **Every step of a process keeps the invariant**, unless `as_create` fails. -/
theorem proc (h : Inv s) {a : ProcAct} (hcur : s.cur cpu = some p) (ha : a ≠ .fail)
    (hs : ProcMove s cpu p a s') : Inv s' := by
  have hok := h.stage p
  cases hs with
  | trap hst | ret hst => exact h.walkOn hcur hst rfl rfl rfl trivial
  | drop hst =>
    refine h.move (.bare true) hcur ⟨rfl, rfl, rfl, rfl⟩ rfl (fun q hq => update_of_ne hq ..)
      (fun k hk => ?_) (fun hat => nomatch hat) (fun _ _ => rfl) trivial (fun hact => nomatch hact) h.victim
    rw [show State.p_addrspace _ p = none from update_self ..] at hk
    cases hk
  | fail hst => exact absurd rfl ha
  | install k exec hst hk =>
    refine h.move .installed hcur ⟨rfl, rfl, rfl, rfl⟩ rfl (fun q hq => update_of_ne hq ..)
      (fun j hj => ?_) (fun _ => ⟨k, update_self ..⟩) (fun _ _ => rfl) trivial
      (fun hact => nomatch hact) h.victim
    rw [show State.p_addrspace _ p = some k from update_self ..] at hj
    cases hj
    exact hk
  | activate hst =>
    -- the process has an address space, so the TLB is flushed
    obtain ⟨k, hk⟩ := h.has p (by rw [hst]; rfl)
    have hflush : s.as_activate cpu = { s with tlbs := update s.tlbs cpu tlbInvalid } := by
      unfold State.as_activate
      rw [hcur, Option.bind_some, hk]
    rw [hflush]
    refine h.move .kernel hcur ⟨rfl, rfl, rfl, rfl⟩ rfl (fun _ _ => rfl) (h.attached p)
      (fun _ => ⟨k, hk⟩) (fun c hc => update_of_ne hc ..) trivial (fun _ => ?_) h.victim
    show Coherent _ (update s.tlbs cpu tlbInvalid cpu) none
    rw [update_self]
    exact Coherent.flushed _ _
  | as_define_region k vaddr sz _ hs => exact h.onSpace (fun _ _ hinv hf => Extends.as_define_region hinv hf) hs
  | as_complete_load k _ hs => exact h.onSpace (fun _ _ hinv hf => Extends.as_complete_load hinv hf) hs
  | fault addr write hst hmiss back =>
    have hactive : (s.stage p).active = true ∧ (s.stage p).attached = true := by
      rcases hst with hst | hst <;> rw [hst] <;> exact ⟨rfl, rfl⟩
    refine h.walk hcur (fun _ => hactive.2) ⟨?_, pageFrame_dvd _⟩ fun _ => ?_
    · have hlt := addr.toNat_lt
      have hle := pageFrame_le addr.toNat
      omega
    · have hforget := (h.coherent cpu p hcur hactive.1).forget
      refine ⟨hforget.unique, hforget.maps, fun a heq i hi => ?_⟩
      cases heq
      exact hmiss i hi
  | nospace addr write back hst => exact h.giveUp hcur hst rfl rfl
  | lookup k addr write back _ hst hk hs => exact h.lookup hcur hst hk hs
  | fillFree e back i hst =>
    rw [hst] at hok
    exact h.map hcur hst rfl rfl rfl hok h.victim
  | fillFull e back hst | loadAgain e v back hst =>
    rw [hst] at hok
    exact h.walkOn hcur hst rfl rfl rfl hok
  | loadVictim e back hst =>
    rw [hst] at hok
    exact h.walkOn hcur hst rfl rfl rfl ⟨hok, h.victim⟩
  | evict e v tmp back hst =>
    rw [hst] at hok
    exact h.map hcur hst rfl rfl rfl hok.1 (Nat.mod_lt _ (by decide))

/-! ### Context switches -/

/-- The thread of another process, or of none, takes over the CPU. -/
theorem switch (h : Inv s) {q : Option Nat} (hq : ∀ p ∈ q, s.running p = false) :
    Inv ((s.become cpu q).as_activate cpu) := by
  -- nothing but the TLB of this CPU depends on `as_activate`
  have hsame : ∀ t : State, ∃ tlbs, t.as_activate cpu = { t with tlbs := tlbs } ∧
      (∀ c, c ≠ cpu → tlbs c = t.tlbs c) ∧
      ∀ p k, t.cur cpu = some p → t.p_addrspace p = some k → tlbs cpu = tlbInvalid := by
    intro t
    unfold State.as_activate
    cases hb : (t.cur cpu).bind t.p_addrspace with
    | none =>
      refine ⟨t.tlbs, rfl, fun _ _ => rfl, fun p k hp hk => ?_⟩
      rw [hp, Option.bind_some, hk] at hb
      cases hb
    | some k =>
      exact ⟨_, rfl, fun c hc => update_of_ne hc .., fun _ _ _ _ => update_self ..⟩
  obtain ⟨tlbs, heq, hothers, hflush⟩ := hsame (s.become cpu q)
  rw [heq]
  -- who is current elsewhere was current there before
  have hcur : ∀ c, c ≠ cpu → (s.become cpu q).cur c = s.cur c := fun c hc => update_of_ne hc ..
  have hhere : (s.become cpu q).cur cpu = q := update_self ..
  constructor
  case ram => exact h.ram
  case spaces => exact h.spaces
  case attached => exact h.attached
  case running =>
    intro c p hc
    show (if q = some p then true else if s.cur cpu = some p then false else s.running p) = true
    by_cases hcc : c = cpu
    · subst hcc
      rw [if_pos (hhere.symm.trans hc)]
    · have hc' := (hcur c hcc).symm.trans hc
      by_cases hqp : q = some p
      · rw [if_pos hqp]
      · have hne : s.cur cpu ≠ some p := fun heq => hcc (h.single c cpu p hc' heq)
        rw [if_neg hqp, if_neg hne]
        exact h.running c p hc'
  case single =>
    -- the new process was not running anywhere
    have hnew : ∀ c p, c ≠ cpu → q = some p → s.cur c ≠ some p := by
      intro c p _ hqp hc
      have hrun := h.running c p hc
      rw [hq p hqp] at hrun
      cases hrun
    intro c c' p hc hc'
    by_cases hcc : c = cpu
    · subst hcc
      by_contra hne
      exact hnew c' p (Ne.symm hne) (hhere.symm.trans hc) ((hcur c' (Ne.symm hne)).symm.trans hc')
    · by_cases hcc' : c' = cpu
      · subst hcc'
        exact absurd ((hcur c hcc).symm.trans hc) (hnew c p hcc (hhere.symm.trans hc'))
      · exact h.single c c' p ((hcur c hcc).symm.trans hc) ((hcur c' hcc').symm.trans hc')
  case has => exact h.has
  case stage => exact h.stage
  case coherent =>
    intro c p hc hact
    by_cases hcc : c = cpu
    · subst hcc
      have hattached : (s.stage p).attached = true := by
        revert hact
        show (s.stage p).active = true → _
        cases s.stage p <;> simp [Stage.active, Stage.attached]
      obtain ⟨k, hk⟩ := h.has p hattached
      show Coherent _ (tlbs c) _
      rw [hflush p k hc hk]
      exact Coherent.flushed _ _
    · show Coherent _ (tlbs c) _
      rw [hothers c hcc]
      exact h.coherent c p ((hcur c hcc).symm.trans hc) hact
  case victim => exact h.victim

end Inv

/-! ## Runs -/

/-- The condition on a run: in `sys_execv`, `as_create` does not fail. -/
def Discipline (_ : State) : Act → Prop
  | .proc _ .fail => False
  | _ => True

namespace Inv

variable {s s' : State}

theorem boot {firstfree ramsize : Nat} (hlo : MIPS_KSEG0 ≤ firstfree) (hhi : firstfree < 2 ^ 32)
    (h : Boot firstfree ramsize s) : Inv s where
  ram := by
    rw [h.ram]
    exact ram_bootstrap_bounded ramsize hlo hhi
  spaces := by
    rw [h.spaces]
    exact fun _ has => nomatch has
  attached := by
    intro p k hk
    rw [h.p_addrspace p] at hk
    cases hk
  running := by
    intro c p hc
    rw [h.cur c] at hc
    cases hc
  single := by
    intro c c' p hc
    rw [h.cur c] at hc
    cases hc
  has := by
    intro p hp
    rw [h.stage p] at hp
    cases hp
  stage := by
    intro p
    rw [h.stage p]
    trivial
  coherent := by
    intro c p hc
    rw [h.cur c] at hc
    cases hc
  victim := by
    rw [h.next_victim]
    decide

theorem step (h : Inv s) {a : Act} (hdisc : Discipline s a) (hs : next s a = some s') : Inv s' := by
  cases a with
  | as_create =>
    cases hs
    refine h.extend h.ram (fun as has => ?_) (fun k as hk => ?_)
    · rcases List.mem_append.mp has with has | has
      · exact h.spaces as has
      · rw [List.mem_singleton.mp has]
        exact AsInv.create
    · have hlt := (List.getElem?_eq_some_iff.mp hk).1
      exact ⟨as, (List.getElem?_append_left hlt).trans hk, Extends.refl as⟩
  | getppages npages =>
    simp only [next] at hs
    split at hs
    · rename_i hn
      obtain ⟨ram, hfinal, rfl⟩ := Option.map_eq_some_iff.mp hs
      have hbounded : ram.Bounded := by
        have hsize : npages * PAGE_SIZE ≤ 2 ^ 31 := by
          have hpage : PAGE_SIZE = 4096 := rfl
          rw [hpage]
          omega
        refine wp_finalState (I := Ram.Bounded) (wp_post (wp_getppages h.ram hsize trivial) ?_
          (fun _ _ => False.elim)) hfinal
        rintro pa ram' ⟨-, -, hfits, rfl⟩
        have hlast := h.ram.last
        exact ⟨show s.ram.firstpaddr + npages * PAGE_SIZE < 2 ^ 31 by omega, hlast⟩
      exact h.extend hbounded h.spaces (fun k as hk => ⟨as, hk, Extends.refl as⟩)
    · cases hs
  | switch cpu q =>
    simp only [next] at hs
    split at hs
    · rename_i hcan
      cases hs
      exact h.switch hcan.2
    · cases hs
  | proc cpu a =>
    obtain ⟨p, hcur, hs⟩ := Option.bind_eq_some_iff.mp hs
    refine h.proc hcur ?_ (procNext_move hs)
    rintro rfl
    exact hdisc

theorem ok (h : Inv s) : TlbOk s where
  unique := by
    intro c p hc hst
    exact (h.coherent c p hc (by rw [hst]; rfl)).unique
  maps := by
    intro c p hc hst
    exact (h.coherent c p hc (by rw [hst]; rfl)).maps
  index := by
    intro p e v tmp back hst
    have hok := h.stage p
    rw [hst] at hok
    exact hok.2

end Inv

/-- **TLB coherence.** In every state of every run in which `as_create` does not fail in
`sys_execv`, the TLB of a CPU that is in user mode has at most one entry for a page, each entry
agrees with the page tables of the current process, and `tlb_write` gets an index below
`NUM_TLB`. -/
theorem tlb_coherent {firstfree ramsize : Nat} (hlo : MIPS_KSEG0 ≤ firstfree) (hhi : firstfree < 2 ^ 32)
    {s : State} (h : ((system firstfree ramsize).restrict Discipline).Reachable s) : TlbOk s := by
  have hinv : Inv s := by
    refine System.invariant (I := Inv) ?_ ?_ h
    · exact fun s hs => Inv.boot hlo hhi hs
    · intro s a s' hinv ⟨hdisc, hs⟩
      exact hinv.step hdisc hs
  exact hinv.ok

/-- The machine at boot, with invalid TLBs. -/
def booted : State where
  ram := ram_bootstrap 0x80040000 0x200000
  spaces := []
  tlbs := fun _ => tlbInvalid
  next_victim := 0
  p_addrspace := fun _ => none
  cur := fun _ => none
  running := fun _ => false
  stage := fun _ => .bare false

theorem booted_boot : Boot 0x80040000 0x200000 booted := ⟨rfl, rfl, fun _ => rfl, fun _ => rfl, fun _ => rfl, fun _ => rfl, rfl⟩

/-- Process 0 gets a program of two pages and touches one of them in user mode. -/
def touchPage : List Act :=
  [.as_create, .switch 0 (some 0), .proc 0 (.install 0), .proc 0 .activate,
    .proc 0 (.as_define_region 0x400000 4096), .proc 0 (.as_define_region 0x500000 4096),
    .proc 0 .as_complete_load, .proc 0 .ret, .proc 0 (.fault 0x400010 false), .proc 0 .lookup, .proc 0 .fill]

/-- Then it calls `execv`, and `as_create` fails. -/
def failedExecv : List Act :=
  touchPage ++ [.proc 0 .trap, .proc 0 .drop, .proc 0 .fail, .proc 0 .ret]

instance discipline_decidable (s : State) : ∀ a, Decidable (Discipline s a)
  | .proc _ .fail => isFalse fun h => h
  | .proc _ .trap | .proc _ .ret | .proc _ .drop | .proc _ (.install _) | .proc _ .activate
  | .proc _ (.as_define_region _ _) | .proc _ .as_complete_load | .proc _ (.fault _ _) | .proc _ .lookup
  | .proc _ .fill | .proc _ .loadVictim | .proc _ .loadAgain | .proc _ .evict | .as_create
  | .getppages _ | .switch _ _ => isTrue trivial

theorem tlb_coherent_touch :
    ∃ s, ((system 0x80040000 0x200000).restrict Discipline).Reachable s ∧ s.cur 0 = some 0 ∧
      s.stage 0 = .user ∧ (s.tlbs 0 0).valid = true ∧ TlbOk s := by
  obtain ⟨s, hreach, h1, h2, h3⟩ : ∃ s, ((system 0x80040000 0x200000).restrict Discipline).Reachable s ∧
      s.cur 0 = some 0 ∧ s.stage 0 = .user ∧ (s.tlbs 0 0).valid = true :=
    System.exists_restricted booted_boot touchPage (by decide)
  exact ⟨s, hreach, h1, h2, h3, tlb_coherent (by decide) (by decide) hreach⟩

/-- A process without an address space is in user mode, with the entries of its old one in the
TLB. -/
theorem tlb_stale_after_execv :
    ∃ s, (system 0x80040000 0x200000).Reachable s ∧ s.cur 0 = some 0 ∧ s.stage 0 = .user ∧
      s.p_addrspace 0 = none ∧ (s.tlbs 0 0).valid = true ∧ ¬ TlbOk s := by
  obtain ⟨s, hreach, h1, h2, h3, h4⟩ : ∃ s, (system 0x80040000 0x200000).Reachable s ∧ s.cur 0 = some 0 ∧
      s.stage 0 = .user ∧ s.p_addrspace 0 = none ∧ (s.tlbs 0 0).valid = true :=
    System.exists_reachable booted_boot failedExecv (by decide)
  refine ⟨s, hreach, h1, h2, h3, h4, fun hok => ?_⟩
  obtain ⟨k, as, hk, -⟩ := hok.maps 0 0 h1 h2 0 h4
  rw [h3] at hk
  cases hk

end OS161.Coherence
