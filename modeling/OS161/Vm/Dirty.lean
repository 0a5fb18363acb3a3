import OS161.Framework.TransitionSystem
import OS161.Vm.Fault
import OS161.Vm.Regions

/-! # Dirty pages

Loads and stores in one address space, by user code and by the kernel's copies, through the TLB.
A store that finds a writable entry changes the page without the kernel; one that misses goes to
`vm_fault` and is repeated. `pte_create` sets `valid` only, so that the field `dirty` of a new
page table is what its memory held before.

`written` is not part of the kernel: it says which pages have been stored to.
-/

namespace OS161.Dirty

open Framework Kern Function

/-- An address space, the TLB it runs with, and the pages that have been stored to. -/
structure State where
  machine : FaultState
  written : Nat → Bool
  /-- The process has been ended by a store to a read-only page. -/
  killed : Bool

/-! ## Accesses -/

/-- The TLB entry that the hardware finds for a page. -/
def tlbHit (tlb : Tlb) (page : Nat) : Option TlbEntry :=
  ((List.finRange NUM_TLB).find? fun i => (tlb i).valid && decide ((tlb i).ehi = page)).map tlb

/-- An access to a page through a TLB entry. -/
def hit (s : State) (page : Nat) (e : TlbEntry) (write : Bool) : State :=
  if write then
    -- `TLB Modify`: `vm_fault` is called with `VM_FAULT_READONLY` and exits
    if e.dirty then { s with written := update s.written page true } else { s with killed := true }
  else s

/-- A load or a store; after a miss it is repeated. -/
def access (s : State) (addr : Nat) (write : Bool) : Option State :=
  match tlbHit s.machine.tlb (pageFrame addr) with
  | some e => some (hit s (pageFrame addr) e write)
  | none =>
    match vm_fault (if write then .VM_FAULT_WRITE else .VM_FAULT_READ) addr s.machine with
    | .ok _ m => (tlbHit m.tlb (pageFrame addr)).map fun e => hit { s with machine := m } (pageFrame addr) e write
    | .err _ m => some { s with machine := m }
    | .panic _ => none

inductive Act where
  | access (addr : UInt32) (write : Bool)
  /-- A context switch, or the start of a program. -/
  | as_activate
  | as_complete_load
  /-- Memory is taken for something else. -/
  | getppages (npages : Nat)

/-- Run code on the machine. -/
def onMachine (s : State) (m : Kern FaultState Errno Panic Unit) : Option State :=
  (m.finalState s.machine).map fun m' => { s with machine := m' }

def next (s : State) (a : Act) : Option State :=
  if s.killed then none
  else
    match a with
    | .access addr write => access s addr.toNat write
    | .as_activate => onMachine s OS161.as_activate
    | .as_complete_load =>
      onMachine s (.zoom FaultState.as (fun m as => { m with as := as }) OS161.as_complete_load)
    | .getppages npages =>
      ((OS161.getppages npages).finalState s.machine.ram).map fun ram =>
        { s with machine := { s.machine with ram := ram } }

/-! ## New address spaces -/

/-- What the memory of each page table holds in the place of `dirty`, before `pte_create`. -/
abbrev Garbage : Type := SegmentT → Nat → Bool

/-- A page table whose entries have kept the old contents of their memory. -/
def soilSegment (seg : Segment) (g : Nat → Bool) : Segment :=
  { seg with ptable := seg.ptable.mapIdx fun i pte => { pte with dirty := g i } }

def soil (as : AddrSpace) (g : Garbage) : AddrSpace :=
  { as with
    code := soilSegment as.code (g .CODE)
    data := soilSegment as.data (g .DATA)
    stack := soilSegment as.stack (g .STACK) }

/-- The address space has its two regions, and no page has been used. -/
structure Start (g : Garbage) (s : State) : Prop where
  space : ∃ (v₁ n₁ v₂ n₂ : UInt32) (as₁ as₂ : AddrSpace),
    as_define_region v₁.toNat n₁.toNat as_create = .ok () as₁ ∧
      as_define_region v₂.toNat n₂.toNat as₁ = .ok () as₂ ∧ s.machine.as = soil as₂ g
  tlb : s.machine.tlb = tlbInvalid
  written : ∀ page, s.written page = false
  alive : s.killed = false

def system (g : Garbage) : System State Act := .ofNext (Start g) next

/-! ## What should hold -/

/-- The page table entry of a page. -/
def entry (as : AddrSpace) (page : Nat) : Option Pte :=
  (as.select page).bind fun t =>
    (as.segment t).ptable[(page + 2 ^ 32 - (as.segment t).vbase) % 2 ^ 32 / PAGE_SIZE]?

/-- A 32-bit address of a page. -/
def IsPage (page : Nat) : Prop := page < 2 ^ 32 ∧ PAGE_SIZE ∣ page

/-- A store that goes through a TLB entry, without the kernel, is to a page that is marked already. -/
def Marked (s : State) : Act → Prop
  | .access addr true =>
    ∀ e, tlbHit s.machine.tlb (pageFrame addr.toNat) = some e → e.dirty = true →
      ∀ pte, entry s.machine.as (pageFrame addr.toNat) = some pte → pte.dirty = true
  | _ => True

/-! ## Looking up a page -/

theorem isPage_pageFrame (addr : UInt32) : IsPage (pageFrame addr.toNat) := by
  have hlt := addr.toNat_lt
  have hle : pageFrame addr.toNat ≤ addr.toNat := Nat.div_mul_le_self _ _
  exact ⟨by omega, Nat.dvd_mul_left _ _⟩

/-- Where a page is in its page table. -/
def index (seg : Segment) (page : Nat) : Nat := (page + 2 ^ 32 - seg.vbase) % 2 ^ 32 / PAGE_SIZE

variable {page : Nat}

theorem entry_eq {as : AddrSpace} {t : SegmentT} (ht : as.select page = some t) :
    entry as page = (as.segment t).ptable[index (as.segment t) page]? := by
  unfold entry
  rw [ht]
  rfl

/-- The effect of a fault on `page`. -/
structure Filled (m : FaultState) (page : Nat) (write : Bool) (m' : FaultState) : Prop where
  tables : ∃ t pte pte', m.as.select page = some t ∧ entry m.as page = some pte ∧
    m'.as = m.as.setSegment t
      { m.as.segment t with ptable := (m.as.segment t).ptable.set (index (m.as.segment t) page) pte' } ∧
    pte'.valid = true ∧ pte'.dirty = (pte.dirty || write)
  tlb : ∃ e j, e.ehi = page ∧ e.valid = true ∧ m'.tlb = fun i => if i = j then e else m.tlb i

theorem wp_vm_fault_page_filled (page : Nat) (write : Bool) (m : FaultState) :
    wp (vm_fault_page page write) (fun _ m' => Filled m page write m') (fun _ m' => m' = m)
      (fun _ => True) m := by
  apply wp_vm_fault_page_cases (fun _ => rfl)
  intro t ht
  have hfill : ∀ paddr ram pte pte', (m.as.segment t).ptable[index (m.as.segment t) page]? = some pte →
      pte'.valid = true → pte'.dirty = (pte.dirty || write) →
      if pageFrame paddr = paddr then Filled m page write (m.fill t page paddr
        (ram, { m.as.segment t with ptable := (m.as.segment t).ptable.set (index (m.as.segment t) page) pte' }))
      else True := by
    intro paddr ram pte pte' hpte hvalid hdirty
    split
    · exact ⟨⟨t, pte, pte', ht, (entry_eq ht).trans hpte, rfl, hvalid, hdirty⟩, _, m.slot, rfl, rfl, rfl⟩
    · trivial
  apply wp_segment_lookup_cases rfl
  · intro pte hpte hvalid
    exact hfill _ _ pte _ hpte ((pte.touch_valid write).trans hvalid) (pte.touch_dirty write)
  · intro pte npages _ hpte _
    exact wp_getppages_cases (fun _ _ => hfill _ _ pte _ hpte rfl (pte.touch_dirty write)) trivial
  · exact fun _ => trivial

theorem wp_vm_fault_filled (addr : Nat) (write : Bool) (m : FaultState) :
    wp (vm_fault (if write then .VM_FAULT_WRITE else .VM_FAULT_READ) addr)
      (fun _ m' => Filled m (pageFrame addr) write m') (fun _ m' => m' = m) (fun _ => True) m := by
  cases write with
  | true => exact wp_vm_fault_cases nofun nofun (fun _ _ => wp_vm_fault_page_filled _ _ m) (fun _ => trivial)
  | false => exact wp_vm_fault_cases nofun nofun (fun _ _ => wp_vm_fault_page_filled _ _ m) (fun _ => trivial)

/-! ## Page tables -/

/-- Entries of a page table do not change where the segments are. -/
theorem select_setSegment (as : AddrSpace) (t : SegmentT) (ptable : List Pte) (page : Nat) :
    (as.setSegment t { as.segment t with ptable := ptable }).select page = as.select page := by
  cases t <;> rfl

theorem segment_setSegment (as : AddrSpace) (t u : SegmentT) (seg : Segment) :
    (as.setSegment t seg).segment u = if u = t then seg else as.segment u := by
  cases t <;> cases u <;> rfl

/-- Segments start at the address of a page. -/
def Aligned (as : AddrSpace) : Prop := ∀ t, IsPage (as.segment t).vbase

theorem index_injective {seg : Segment} {p q : Nat} (hseg : IsPage seg.vbase) (hp : IsPage p) (hq : IsPage q)
    (h : index seg p = index seg q) : p = q := by
  obtain ⟨hb, b, hb'⟩ := hseg
  obtain ⟨hp, x, hx⟩ := hp
  obtain ⟨hq, y, hy⟩ := hq
  simp only [index, PAGE_SIZE] at *
  omega

/-- A fault changes the entry of its page only. -/
theorem entry_set {as as' : AddrSpace} {t : SegmentT} {pte pte' : Pte} (hal : Aligned as)
    (hpage : IsPage page) (ht : as.select page = some t) (hpte : entry as page = some pte)
    (has : as' = as.setSegment t
      { as.segment t with ptable := (as.segment t).ptable.set (index (as.segment t) page) pte' })
    {q : Nat} (hq : IsPage q) : entry as' q = if q = page then some pte' else entry as q := by
  have hsel : as'.select q = as.select q := by rw [has, select_setSegment]
  cases hu : as.select q with
  | none =>
    have hne : q ≠ page := by
      intro h
      rw [h, ht] at hu
      cases hu
    rw [if_neg hne]
    unfold entry
    rw [hsel, hu, Option.bind_none, Option.bind_none]
  | some u =>
    rw [entry_eq (hsel.trans hu), entry_eq hu]
    rw [entry_eq ht] at hpte
    by_cases hut : u = t
    · subst hut
      have hseg : as'.segment u =
          { as.segment u with ptable := (as.segment u).ptable.set (index (as.segment u) page) pte' } := by
        rw [has, segment_setSegment, if_pos rfl]
      have hindex : index (as'.segment u) q = index (as.segment u) q := by
        rw [hseg]
        simp only [index]
      have htable : (as'.segment u).ptable = (as.segment u).ptable.set (index (as.segment u) page) pte' := by
        rw [hseg]
      rw [hindex, htable, List.getElem?_set]
      by_cases hqp : q = page
      · subst hqp
        rw [if_pos rfl, if_pos rfl, if_pos (List.getElem?_eq_some_iff.mp hpte).1]
      · rw [if_neg hqp, if_neg fun h => hqp (index_injective (hal u) hpage hq h).symm]
    · -- the page of another segment
      have hne : q ≠ page := by
        intro h
        rw [h, ht] at hu
        exact hut (Option.some.inj hu).symm
      rw [if_neg hne, has, segment_setSegment, if_neg hut]

/-! ## The invariant -/

/-- What holds as long as the process lives. -/
structure Inv (s : State) : Prop where
  aligned : Aligned s.machine.as
  valid : ∀ page pte, IsPage page → entry s.machine.as page = some pte → pte.valid = true →
    (pte.dirty = true ↔ s.written page = true)
  /-- A page without a frame is clean. -/
  unused : ∀ page pte, IsPage page → entry s.machine.as page = some pte → pte.valid = false →
    pte.dirty = false ∧ s.written page = false
  tlb : ∀ i, (s.machine.tlb i).valid = true → IsPage (s.machine.tlb i).ehi ∧
    ∃ pte, entry s.machine.as (s.machine.tlb i).ehi = some pte ∧ pte.valid = true

/-- The invariant after the entry of one page, or the page itself, has changed. -/
theorem Inv.change {s : State} (h : Inv s) {m : FaultState} {written : Nat → Bool} {pte : Pte}
    (hal : Aligned m.as) (hpte : entry m.as page = some pte) (hvalid : pte.valid = true)
    (hmark : pte.dirty = true ↔ written page = true)
    (hothers : ∀ q, IsPage q → q ≠ page → entry m.as q = entry s.machine.as q)
    (hwritten : ∀ q, q ≠ page → written q = s.written q)
    (htlb : ∀ i, (m.tlb i).valid = true → IsPage (m.tlb i).ehi ∧
      ∃ pte, entry m.as (m.tlb i).ehi = some pte ∧ pte.valid = true) (killed : Bool) :
    Inv ⟨m, written, killed⟩ := by
  refine ⟨hal, ?_, ?_, htlb⟩
  · intro q p hq hp hv
    by_cases hqp : q = page
    · subst hqp
      obtain rfl : pte = p := Option.some.inj (hpte.symm.trans hp)
      exact hmark
    · rw [hothers q hq hqp] at hp
      show p.dirty = true ↔ written q = true
      rw [hwritten q hqp]
      exact h.valid q p hq hp hv
  · intro q p hq hp hv
    by_cases hqp : q = page
    · subst hqp
      obtain rfl : pte = p := Option.some.inj (hpte.symm.trans hp)
      rw [hvalid] at hv
      cases hv
    · rw [hothers q hq hqp] at hp
      show p.dirty = false ∧ written q = false
      rw [hwritten q hqp]
      exact h.unused q p hq hp hv

theorem tlbHit_some {tlb : Tlb} {e : TlbEntry} (h : tlbHit tlb page = some e) :
    ∃ i, tlb i = e ∧ (tlb i).valid = true ∧ (tlb i).ehi = page := by
  obtain ⟨i, hi, rfl⟩ := Option.map_eq_some_iff.mp h
  have hprop := List.find?_some hi
  simp only [Bool.and_eq_true, decide_eq_true_eq] at hprop
  exact ⟨i, rfl, hprop⟩

/-- A fault, before the access is repeated: the page is valid, and marked if it is to be stored to. -/
theorem Inv.filled {s : State} (h : Inv s) {write : Bool} {m : FaultState} (hpage : IsPage page)
    (hf : Filled s.machine page write m) :
    Aligned m.as ∧ (∃ pte, entry m.as page = some pte ∧ pte.valid = true ∧ (write = true → pte.dirty = true) ∧
        (write = false → (pte.dirty = true ↔ s.written page = true))) ∧
      (∀ q, IsPage q → q ≠ page → entry m.as q = entry s.machine.as q) ∧
      ∀ i, (m.tlb i).valid = true → IsPage (m.tlb i).ehi ∧
        ∃ pte, entry m.as (m.tlb i).ehi = some pte ∧ pte.valid = true := by
  obtain ⟨⟨t, pte, pte', ht, hpte, has, hvalid, hdirty⟩, e, j, hehi, hev, htlb⟩ := hf
  have hentry : ∀ q, IsPage q → entry m.as q = if q = page then some pte' else entry s.machine.as q :=
    fun q hq => entry_set h.aligned hpage ht hpte has hq
  have hhere : entry m.as page = some pte' := by rw [hentry page hpage, if_pos rfl]
  refine ⟨?_, ⟨pte', hhere, hvalid, ?_, ?_⟩, ?_, ?_⟩
  · intro u
    rw [has, segment_setSegment]
    by_cases hu : u = t
    · rw [if_pos hu]
      exact h.aligned t
    · rw [if_neg hu]
      exact h.aligned u
  · intro hw
    rw [hdirty, hw, Bool.or_true]
  · intro hw
    rw [hdirty, hw, Bool.or_false]
    by_cases hv : pte.valid = true
    · exact h.valid page pte hpage hpte hv
    · -- the page has just got its frame
      obtain ⟨hd, hwr⟩ := h.unused page pte hpage hpte (by simpa using hv)
      rw [hd, hwr]
  · intro q hq hne
    rw [hentry q hq, if_neg hne]
  · intro i hi
    rw [htlb] at hi ⊢
    dsimp only at hi ⊢
    by_cases hij : i = j
    · rw [if_pos hij, hehi]
      exact ⟨hpage, pte', hhere, hvalid⟩
    · rw [if_neg hij] at hi ⊢
      obtain ⟨hp, p, hentry', hpv⟩ := h.tlb i hi
      refine ⟨hp, ?_⟩
      rw [hentry _ hp]
      by_cases hsame : (s.machine.tlb i).ehi = page
      · rw [if_pos hsame]
        exact ⟨pte', rfl, hvalid⟩
      · rw [if_neg hsame]
        exact ⟨p, hentry', hpv⟩

/-- **An access** keeps the invariant, unless it is a store that the kernel does not see to a page
that is not marked. -/
theorem Inv.access {s s' : State} {addr : UInt32} {write : Bool} (h : Inv s)
    (hmarked : Marked s (.access addr write)) (hs : Dirty.access s addr.toNat write = some s')
    (halive : s'.killed = false) : Inv s' := by
  have hpage := isPage_pageFrame addr
  unfold Dirty.access at hs
  cases hhit : tlbHit s.machine.tlb (pageFrame addr.toNat) with
  | some e =>
    rw [hhit] at hs
    cases hs
    obtain ⟨i, hi, hv, hehi⟩ := tlbHit_some hhit
    obtain ⟨-, pte, hpte, hvalid⟩ := h.tlb i hv
    rw [hehi] at hpte
    cases write with
    | false => exact h
    | true =>
      by_cases hd : e.dirty = true
      · have hmark := hmarked e hhit hd pte hpte
        simp only [hit, hd, if_true]
        exact h.change h.aligned hpte hvalid (by simp [hmark]) (fun _ _ _ => rfl)
          (fun q hq => update_of_ne hq _ _) h.tlb _
      · -- a read-only page: the process is gone
        simp [hit, hd] at halive
  | none =>
    rw [hhit] at hs
    have hwp := wp_vm_fault_filled addr.toNat write s.machine
    cases hrun : vm_fault (if write then .VM_FAULT_WRITE else .VM_FAULT_READ) addr.toNat s.machine with
    | ok r m =>
      rw [hrun] at hs
      obtain ⟨e, he, rfl⟩ := Option.map_eq_some_iff.mp hs
      have hfilled : Filled s.machine (pageFrame addr.toNat) write m :=
        wp_ok (Q := fun _ m' => Filled s.machine (pageFrame addr.toNat) write m') hrun hwp
      obtain ⟨hal, ⟨pte, hpte, hvalid, hw, hr⟩, hothers, htlb⟩ := h.filled hpage hfilled
      cases write with
      | false => exact h.change hal hpte hvalid (hr rfl) hothers (fun _ _ => rfl) htlb _
      | true =>
        by_cases hd : e.dirty = true
        · simp only [hit, hd, if_true]
          exact h.change hal hpte hvalid (by simp [hw rfl]) hothers (fun q hq => update_of_ne hq _ _)
            htlb _
        · simp [hit, hd] at halive
    | err e m =>
      rw [hrun, wp_err hrun hwp] at hs
      cases hs
      exact h
    | panic p =>
      rw [hrun] at hs
      cases hs

/-- **One step.** -/
theorem Inv.step {s s' : State} {a : Act} (h : Inv s) (hmarked : Marked s a) (hs : next s a = some s')
    (halive : s'.killed = false) : Inv s' := by
  unfold next at hs
  split at hs
  · cases hs
  · cases a with
    | access addr write => exact h.access hmarked hs halive
    | as_activate =>
      cases hs
      exact { h with tlb := fun _ hi => nomatch hi }
    | as_complete_load =>
      cases hs
      exact { h with }
    | getppages npages =>
      obtain ⟨ram, -, rfl⟩ := Option.map_eq_some_iff.mp hs
      exact { h with }

/-! ## New page tables -/

/-- No page has been used. -/
def Fresh (as : AddrSpace) : Prop :=
  ∀ t, IsPage (as.segment t).vbase ∧ ∀ pte ∈ (as.segment t).ptable, pte.valid = false

theorem fresh_create : Fresh as_create := by
  intro t
  cases t with
  | CODE | DATA => exact ⟨⟨by decide, by decide⟩, fun _ h => nomatch h⟩
  | STACK =>
    refine ⟨⟨by decide, by decide⟩, fun pte h => ?_⟩
    rw [List.eq_of_mem_replicate h]
    rfl

theorem fresh_regionOf (r : RegionRequest) (t : SegmentT) :
    IsPage (regionOf r t).vbase ∧ ∀ pte ∈ (regionOf r t).ptable, pte.valid = false := by
  refine ⟨isPage_pageFrame r.1, fun pte h => ?_⟩
  rw [List.eq_of_mem_replicate h]
  rfl

theorem Fresh.define {as as' : AddrSpace} (h : Fresh as) (r : RegionRequest)
    (hs : as_define_region r.vaddr r.sz as = .ok () as') : Fresh as' := by
  by_cases h1 : as.as_vbase1 = 0 ∧ as.code.vbase = 0
  · rw [define_first r h1] at hs
    split at hs
    · cases hs
    · cases hs
      intro t
      cases t with
      | CODE => exact fresh_regionOf r _
      | DATA => exact h .DATA
      | STACK => exact h .STACK
  · by_cases h2 : as.as_vbase2 = 0 ∧ as.data.vbase = 0
    · rw [define_second r h1 h2] at hs
      split at hs
      · cases hs
      · cases hs
        intro t
        cases t with
        | CODE => exact h .CODE
        | DATA => exact fresh_regionOf r _
        | STACK => exact h .STACK
    · rw [as_define_region_full h1 h2] at hs
      cases hs

theorem segment_soil (as : AddrSpace) (g : Garbage) (t : SegmentT) :
    (soil as g).segment t = soilSegment (as.segment t) (g t) := by
  cases t <;> rfl

/-- In clean memory every entry of a new page table is clean. -/
theorem Inv.start {s : State} (h : Start (fun _ _ => false) s) : Inv s := by
  obtain ⟨⟨v₁, n₁, v₂, n₂, as₁, as₂, h1, h2, has⟩, htlb, hwritten, -⟩ := h
  have hfresh : Fresh as₂ := (fresh_create.define (v₁, n₁) h1).define (v₂, n₂) h2
  have hentry : ∀ page pte, entry s.machine.as page = some pte → pte.valid = false ∧ pte.dirty = false := by
    intro page pte hpte
    cases ht : s.machine.as.select page with
    | none =>
      unfold entry at hpte
      rw [ht, Option.bind_none] at hpte
      cases hpte
    | some t =>
      rw [entry_eq ht, has, segment_soil] at hpte
      obtain ⟨p, hp, rfl⟩ : ∃ p ∈ (as₂.segment t).ptable, ({ p with dirty := false } : Pte) = pte := by
        obtain ⟨i, hi, hget⟩ := List.mem_mapIdx.mp (List.mem_of_getElem? hpte)
        exact ⟨_, List.getElem_mem hi, hget⟩
      exact ⟨(hfresh t).2 p hp, rfl⟩
  refine ⟨?_, ?_, ?_, ?_⟩
  · intro t
    rw [has, segment_soil]
    exact (hfresh t).1
  · intro page pte _ hpte hv
    rw [(hentry page pte hpte).1] at hv
    cases hv
  · intro page pte _ hpte _
    exact ⟨(hentry page pte hpte).2, hwritten page⟩
  · intro i hi
    rw [htlb] at hi
    cases hi

/-! ## Runs -/

/-- A page of code and a page of data. -/
def codeRequest : RegionRequest := (0x400000, 4096)

def dataRequest : RegionRequest := (0x500000, 4096)

/-- An address space with the first region, and with both. -/
def withCode : AddrSpace :=
  { as_create with
    as_vbase1 := pageFrame codeRequest.vaddr
    as_npages1 := codeRequest.npages
    code := regionOf codeRequest .CODE }

def withData : AddrSpace :=
  { withCode with
    as_vbase2 := pageFrame dataRequest.vaddr
    as_npages2 := dataRequest.npages
    data := regionOf dataRequest .DATA }

/-- A program before its first access. -/
def loaded : State where
  machine :=
    { ram := ram_bootstrap 0x80040000 0x200000
      as := soil withData fun _ _ => false
      tlb := tlbInvalid
      next_victim := 0 }
  written := fun _ => false
  killed := false

end OS161.Dirty
