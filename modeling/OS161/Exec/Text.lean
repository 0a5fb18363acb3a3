import OS161.Exec.LoadElf
import OS161.Framework.TransitionSystem
import OS161.Vm.Fault

/-! # Immutability of the code segment

A process from `load_elf` to the end of its run in user mode, on the CPU it runs on.
`runprogram` and `sys_execv` activate the new address space, load the executable, copy the
arguments to the user stack and enter user mode; the thread may be switched away and back, which
activates the address space again, between any two accesses to user memory.

`as_complete_load` makes later faults on code pages read-only, but leaves the TLB as it is: a
code page that the kernel has stored to during the load may still have a writable entry when
user mode is entered.

Main results:

- `text_writable_after_load`: an executable for which this happens;
- `text_immutable_when_flushed`: in runs in which no such entry is left when user mode is
  entered, the code segment is never written.
-/

namespace OS161

open Framework Kern

/-! ## Accesses to user memory -/

abbrev USERSPACETOP : Nat := 0x80000000

/-- The TLB entry that maps a page. -/
def tlb_match (tlb : Tlb) (page : Nat) : Option (Fin NUM_TLB) :=
  (List.finRange NUM_TLB).find? fun j => (tlb j).valid && (tlb j).ehi == page

/-- The fault, if any, that an access through the TLB raises. -/
def mmu (tlb : Tlb) (addr : Nat) (write : Bool) : Option FaultType :=
  match tlb_match tlb (pageFrame addr) with
  | none => some (if write then .VM_FAULT_WRITE else .VM_FAULT_READ)
  | some j => if write && !(tlb j).dirty then some .VM_FAULT_READONLY else none

/-! ## The system -/

/-- Where the process is. -/
inductive Phase where
  /-- In `load_elf`, with these operations to come. -/
  | loading (todo : List LoadOp)
  /-- In the kernel, after `load_elf`. -/
  | kernel
  | user
  /-- Killed, or its load has failed. -/
  | dead
  deriving DecidableEq, Repr

structure TextState where
  m : FaultState
  phase : Phase
  /-- Whether the slot was filled for a code page before `as_complete_load`; this and the next field
      record history and are not part of the machine. -/
  early : Fin NUM_TLB → Bool
  /-- The addresses stored to in user mode. -/
  stores : List Nat

inductive TextAct where
  /-- The thread is switched away and back. -/
  | switch
  /-- The next operation of `load_elf`. -/
  | load
  | as_complete_load
  /-- The kernel accesses user memory after `load_elf`. -/
  | kernelAccess (addr : Nat) (write : Bool)
  | enter_new_process
  | userAccess (addr : Nat) (write : Bool)
  deriving DecidableEq, Repr

/-- How an access to user memory ends. -/
inductive Access where
  | done
  /-- The fault has been handled and the access is repeated. -/
  | retry
  | killed
  deriving DecidableEq, Repr

/-- Record what `vm_fault` has filled a slot for. -/
def note_fault (before : FaultState) (addr : Nat) : FaultResult → Kern TextState Errno Panic Access
  | .killed => pure .killed
  | .retry => do
    let code := decide (before.as.select (pageFrame addr) = some .CODE ∧ before.as.loaded = false)
    .modify fun s => { s with early := fun j => if j = before.slot then code else s.early j }
    pure .retry

def access (addr : Nat) (write : Bool) : Kern TextState Errno Panic Access := do
  let s ← .read
  match mmu s.m.tlb addr write with
  | none => pure .done
  | some faulttype => do
    let r ← .zoom TextState.m (fun s m => { s with m := m }) (vm_fault faulttype addr)
    note_fault s.m addr r

/-- Go on after an access: in `onDone` once it is done, in `onErr` when `vm_fault` has returned an
error. -/
def resume (out : Outcome TextState Errno Panic Access) (onDone onErr : TextState → TextState) :
    Option TextState :=
  match out with
  | .ok .done s => some (onDone s)
  | .ok .retry s => some s
  | .ok .killed s => some { s with phase := .dead }
  | .err _ s => some (onErr s)
  | .panic _ => none

def TextState.dead (s : TextState) : TextState := { s with phase := .dead }

/-- One operation of the second loop of `load_elf`. -/
def loadNext (s : TextState) : List LoadOp → Option TextState
  | [] => none
  | .fail _ :: _ => some s.dead
  | .store addr :: rest =>
    if addr ≥ USERSPACETOP then some s.dead
    else resume (access addr true s) (fun s' => { s' with phase := .loading rest }) TextState.dead

def textNext (s : TextState) (a : TextAct) : Option TextState :=
  match a, s.phase with
  | .switch, _ =>
    some { s with m := { s.m with tlb := tlbInvalid }, early := fun _ => false }
  | .load, .loading todo => loadNext s todo
  | .as_complete_load, .loading [] =>
    some { s with m := { s.m with as := { s.m.as with loaded := true } }, phase := .kernel }
  | .kernelAccess addr write, .kernel =>
    -- the results of copyout and copyoutstr are not looked at
    if addr ≥ USERSPACETOP then some s else resume (access addr write s) id id
  | .enter_new_process, .kernel => some { s with phase := .user }
  | .userAccess addr write, .user =>
    if addr ≥ USERSPACETOP then some s.dead
    else resume (access addr write s)
      (fun s' => if write then { s' with stores := addr :: s'.stores } else s') TextState.dead
  | _, _ => none

/-- The start of the run: `load_elf` has set up the address space. -/
def textInit (file : List UInt8) (s : TextState) : Prop :=
  (∃ todo entry, load_elf file as_create = .ok (todo, entry) s.m.as ∧ s.phase = .loading todo) ∧
    s.m.tlb = tlbInvalid ∧ (∀ j, s.early j = false) ∧ s.stores = []

/-- The run of a process that executes `file`. -/
def textSystem (file : List UInt8) : System TextState TextAct := .ofNext (textInit file) textNext

/-! ## The property -/

/-- A page of the code segment. -/
def AddrSpace.codePage (as : AddrSpace) (page : Nat) : Prop :=
  as.code.vbase ≤ page ∧ page < as.code.vbase + as.code.npages * PAGE_SIZE

/-- Slot `j` holds a valid entry for a code page with `TLBLO_DIRTY` set. -/
def FaultState.Writable (m : FaultState) (j : Fin NUM_TLB) : Prop :=
  (m.tlb j).valid = true ∧ (m.tlb j).dirty = true ∧ m.as.codePage (m.tlb j).ehi

/-- In user mode the code segment has no writable entry, no store to it has gone through, and a
store to it kills the process, at the first attempt or when it is repeated after the page has
been loaded. -/
structure TextOk (s : TextState) : Prop where
  entries : s.phase = .user → ∀ j, ¬ s.m.Writable j
  stores : ∀ addr ∈ s.stores, ¬ s.m.as.codePage (pageFrame addr)
  kills : s.phase = .user → ∀ addr s', s.m.as.codePage (pageFrame addr) →
    textNext s (.userAccess addr true) = some s' →
      s'.phase = .dead ∨
        (s'.phase = .user ∧ textNext s' (.userAccess addr true) = some s'.dead)

/-! ## What an access does -/

section Effects

/-- The part of an address space that decides which pages are code. -/
def AddrSpace.text (as : AddrSpace) : Nat × Nat × Bool :=
  (as.code.vbase, as.code.npages, as.loaded)

/-- A fault that returns has filled one slot. -/
structure Filled (m : FaultState) (page : Nat) (m' : FaultState) : Prop where
  text : m'.as.text = m.as.text
  filled : ∃ t paddr, m.as.select page = some t ∧
    ∀ j, m'.tlb j =
      if j = m.slot then
        { ehi := page, paddr := paddr, dirty := !(decide (t = .CODE) && m.as.loaded),
          valid := true }
      else m.tlb j

theorem AddrSpace.text_setSegment (as : AddrSpace) (t : SegmentT) {seg : Segment}
    (hvbase : seg.vbase = (as.segment t).vbase) (hnpages : seg.npages = (as.segment t).npages) :
    (as.setSegment t seg).text = as.text := by
  cases t with
  | CODE =>
    show (seg.vbase, seg.npages, as.loaded) = _
    rw [hvbase, hnpages]
    rfl
  | DATA => rfl
  | STACK => rfl

theorem wp_vm_fault_page_fills (m : FaultState) (page : Nat) (write : Bool) :
    wp (vm_fault_page page write) (fun r m' => r = .retry ∧ Filled m page m')
      (fun _ m' => m' = m) (fun _ => True) m := by
  apply wp_vm_fault_page_cases (fun _ => rfl)
  intro t hs
  have hfill : ∀ paddr ram ptable, if pageFrame paddr = paddr then
      FaultResult.retry = .retry ∧ Filled m page (m.fill t page paddr (ram, { m.as.segment t with ptable := ptable }))
      else True := by
    intro paddr ram ptable
    split
    · exact ⟨rfl, m.as.text_setSegment t rfl rfl, t, paddr, hs, fun _ => rfl⟩
    · trivial
  apply wp_segment_lookup_cases rfl
  · exact fun _ _ _ => hfill _ _ _
  · exact fun _ _ _ _ _ => wp_getppages_cases (fun _ _ => hfill _ _ _) trivial
  · exact fun _ => trivial

theorem wp_vm_fault_fills (m : FaultState) (addr : Nat) (faulttype : FaultType) :
    wp (vm_fault faulttype addr)
      (fun r m' => (r = .killed ∧ faulttype = .VM_FAULT_READONLY ∧ m' = m) ∨
        (r = .retry ∧ faulttype ≠ .VM_FAULT_READONLY ∧ Filled m (pageFrame addr) m'))
      (fun _ m' => m' = m) (fun _ => True) m := by
  apply wp_vm_fault_cases
  · exact fun h => .inl ⟨rfl, h, rfl⟩
  · exact fun _ => rfl
  · intro htype _
    have hnot : faulttype ≠ .VM_FAULT_READONLY := by rcases htype with rfl | rfl <;> exact nofun
    exact wp_imp (wp_vm_fault_page_fills m _ _) (fun _ _ h => .inr ⟨h.1, hnot, h.2⟩)
  · exact fun _ => trivial

/-- The effect of an access that faults and is repeated. -/
structure Refilled (s : TextState) (page : Nat) (s' : TextState) : Prop where
  filled : Filled s.m page s'.m
  early : ∀ j, s'.early j =
    if j = s.m.slot then decide (s.m.as.select page = some .CODE ∧ s.m.as.loaded = false)
    else s.early j
  phase : s'.phase = s.phase
  stores : s'.stores = s.stores

/-- **Effect of an access**. -/
theorem wp_access (s : TextState) (addr : Nat) (write : Bool) :
    wp (access addr write) (fun r s' => match r with
        | .done => s' = s ∧ mmu s.m.tlb addr write = none
        | .killed => s' = s
        | .retry => tlb_match s.m.tlb (pageFrame addr) = none ∧ Refilled s (pageFrame addr) s')
      (fun _ s' => s' = s) (fun _ => True) s := by
  unfold access
  simp only [wp_bind, wp_read]
  cases hmmu : mmu s.m.tlb addr write with
  | none => exact ⟨rfl, rfl⟩
  | some faulttype =>
    dsimp only
    rw [wp_bind, wp_zoom]
    refine wp_post (wp_vm_fault_fills s.m addr faulttype) ?_ ?_
    · rintro _ m' (⟨rfl, -, rfl⟩ | ⟨rfl, hnot, hfilled⟩)
      · exact rfl
      · -- a fault that is not about a read-only entry is a miss
        have hmiss : tlb_match s.m.tlb (pageFrame addr) = none := by
          unfold mmu at hmmu
          split at hmmu
          · assumption
          · split at hmmu
            · exact (hnot (Option.some.inj hmmu).symm).elim
            · cases hmmu
        exact ⟨hmiss, hfilled, fun j => rfl, rfl, rfl⟩
    · rintro _ m' rfl
      exact rfl

end Effects

/-! ## The invariant -/

/-- The end of the code segment is an address: `vtop1` does not wrap around. -/
def AddrSpace.TextFits (as : AddrSpace) : Prop :=
  as.code.vbase + as.code.npages * PAGE_SIZE < 2 ^ 32

/-- The condition on the steps of a run: when user mode is entered, no slot of the TLB still has
what it was filled with for a code page before `as_complete_load`, and the code segment does not
wrap around. -/
def FlushedEntry (s : TextState) (a : TextAct) : Prop :=
  a = .enter_new_process → (∀ j, s.early j = false) ∧ s.m.as.TextFits

variable {page : Nat}

theorem AddrSpace.codePage_of_select {as : AddrSpace}
    (h : as.select page = some .CODE) : as.codePage page := by
  unfold AddrSpace.select at h
  split at h
  · rename_i hcode
    exact ⟨hcode.1, Nat.lt_of_lt_of_le hcode.2 (Nat.mod_le _ _)⟩
  · split at h
    · cases h
    · split at h <;> cases h

theorem AddrSpace.select_of_codePage {as : AddrSpace} (hfits : as.TextFits)
    (h : as.codePage page) : as.select page = some .CODE := by
  unfold AddrSpace.select
  rw [Nat.mod_eq_of_lt hfits, if_pos ⟨h.1, h.2⟩]

theorem AddrSpace.codePage_congr {as as' : AddrSpace} (h : as'.text = as.text) (page : Nat) :
    as'.codePage page ↔ as.codePage page := by
  simp only [AddrSpace.text, Prod.mk.injEq] at h
  unfold AddrSpace.codePage
  rw [h.1, h.2.1]

theorem AddrSpace.textFits_congr {as as' : AddrSpace} (h : as'.text = as.text) :
    as'.TextFits ↔ as.TextFits := by
  simp only [AddrSpace.text, Prod.mk.injEq] at h
  unfold AddrSpace.TextFits
  rw [h.1, h.2.1]

/-- What holds in every state of every run. -/
structure TextInv (s : TextState) : Prop where
  /-- Writable entries of code pages are early ones... -/
  entries : s.m.as.TextFits → ∀ j, s.m.Writable j → s.early j = true
  /-- ...and early ones are writable. -/
  early : ∀ j, s.early j = true → s.m.Writable j
  loading : ∀ todo, s.phase = .loading todo → s.m.as.loaded = false
  loaded : s.phase = .kernel ∨ s.phase = .user → s.m.as.loaded = true

/-- What holds in runs whose steps meet the condition. -/
structure FlushedInv (s : TextState) : Prop extends TextInv s where
  user : s.phase = .user → (∀ j, s.early j = false) ∧ s.m.as.TextFits
  stores : ∀ addr ∈ s.stores, ¬ s.m.as.codePage (pageFrame addr)

section Invariant

variable {s s' : TextState}

theorem Filled.writable {m m' : FaultState} (h : Filled m page m') (j : Fin NUM_TLB) :
    m'.Writable j ↔
      if j = m.slot then (m.as.select page = some .CODE → m.as.loaded = false) ∧ m.as.codePage page
      else m.Writable j := by
  obtain ⟨t, paddr, hselect, htlb⟩ := h.filled
  unfold FaultState.Writable
  rw [AddrSpace.codePage_congr h.text, htlb j, hselect]
  by_cases hj : j = m.slot
  · simp [hj, imp_iff_not_or]
  · simp [hj]

theorem Refilled.inv (hr : Refilled s page s') (h : TextInv s) : TextInv s' := by
  have htext := hr.filled.text
  have hloaded : s'.m.as.loaded = s.m.as.loaded := by
    simp only [AddrSpace.text, Prod.mk.injEq] at htext
    exact htext.2.2
  refine ⟨?_, ?_, ?_, ?_⟩
  · intro hfits j hw
    rw [AddrSpace.textFits_congr htext] at hfits
    rw [hr.filled.writable] at hw
    rw [hr.early]
    by_cases hj : j = s.m.slot
    · rw [if_pos hj] at hw ⊢
      have hselect := AddrSpace.select_of_codePage hfits hw.2
      exact decide_eq_true ⟨hselect, hw.1 hselect⟩
    · rw [if_neg hj] at hw ⊢
      exact h.entries hfits j hw
  · intro j hearly
    rw [hr.early] at hearly
    rw [hr.filled.writable]
    by_cases hj : j = s.m.slot
    · rw [if_pos hj] at hearly ⊢
      obtain ⟨hselect, hnot⟩ := of_decide_eq_true hearly
      exact ⟨fun _ => hnot, AddrSpace.codePage_of_select hselect⟩
    · rw [if_neg hj] at hearly ⊢
      exact h.early j hearly
  · intro todo hphase
    rw [hloaded]
    exact h.loading todo (hr.phase ▸ hphase)
  · intro hphase
    rw [hloaded]
    rw [hr.phase] at hphase
    exact h.loaded hphase

/-- The invariant does not depend on what is left to load, nor on the phase of a dead process. -/
theorem TextInv.of_phase (h : TextInv s) {phase : Phase}
    (hloading : ∀ todo, phase = .loading todo → s.m.as.loaded = false)
    (hloaded : phase = .kernel ∨ phase = .user → s.m.as.loaded = true) (stores : List Nat) :
    TextInv { s with phase := phase, stores := stores } :=
  { h with
    loading := hloading
    loaded := hloaded }

theorem tlb_match_some {tlb : Tlb} {j : Fin NUM_TLB} (h : tlb_match tlb page = some j) :
    (tlb j).valid = true ∧ (tlb j).ehi = page := by
  have hj := List.find?_some h
  simpa using hj

theorem tlb_match_none {tlb : Tlb} (h : tlb_match tlb page = none) (j : Fin NUM_TLB)
    (hvalid : (tlb j).valid = true) (hehi : (tlb j).ehi = page) : False := by
  have hj := List.find?_eq_none.mp h j (List.mem_finRange j)
  simp [hvalid, hehi] at hj

/-- How a step can be taken after an access. -/
theorem resume_cases {addr : Nat} {write : Bool} {onDone onErr : TextState → TextState}
    (h : resume (access addr write s) onDone onErr = some s') :
    (mmu s.m.tlb addr write = none ∧ s' = onDone s) ∨
      (tlb_match s.m.tlb (pageFrame addr) = none ∧ Refilled s (pageFrame addr) s') ∨
      s' = s.dead ∨ s' = onErr s := by
  have hwp := wp_access s addr write
  unfold resume at h
  cases hrun : access addr write s with
  | ok r t =>
    have heffect := wp_ok hrun hwp
    rw [hrun] at h
    cases r with
    | done =>
      obtain ⟨rfl, hmmu⟩ := heffect
      exact .inl ⟨hmmu, (Option.some.inj h).symm⟩
    | retry =>
      cases h
      exact .inr (.inl heffect)
    | killed =>
      cases heffect
      exact .inr (.inr (.inl (Option.some.inj h).symm))
  | err e t =>
    have heffect := wp_err hrun hwp
    rw [hrun] at h
    cases heffect
    exact .inr (.inr (.inr (Option.some.inj h).symm))
  | panic p =>
    rw [hrun] at h
    cases h

theorem TextInv.load (h : TextInv s) {todo : List LoadOp} (hphase : s.phase = .loading todo)
    (hstep : loadNext s todo = some s') :
    TextInv s' ∧ s'.phase ≠ .user ∧ s'.stores = s.stores ∧ s'.m.as.text = s.m.as.text := by
  have hdead : TextInv s.dead := h.of_phase (by simp) (by simp) s.stores
  have hloading := h.loading todo hphase
  unfold loadNext at hstep
  split at hstep
  · cases hstep
  · cases hstep
    exact ⟨hdead, by simp [TextState.dead], rfl, rfl⟩
  · split at hstep
    · cases hstep
      exact ⟨hdead, by simp [TextState.dead], rfl, rfl⟩
    · rcases resume_cases hstep with ⟨-, rfl⟩ | ⟨-, hr⟩ | rfl | rfl
      · exact ⟨h.of_phase (fun _ _ => hloading) (by simp) s.stores, by simp, rfl, rfl⟩
      · exact ⟨hr.inv h, by simp [hr.phase, hphase], hr.stores, hr.filled.text⟩
      · exact ⟨hdead, by simp [TextState.dead], rfl, rfl⟩
      · exact ⟨hdead, by simp [TextState.dead], rfl, rfl⟩

/-- A store to a code page does not go through while no entry is early. -/
theorem TextInv.store_faults (h : TextInv s) (hearly : ∀ j, s.early j = false)
    (hfits : s.m.as.TextFits) {addr : Nat} (hcode : s.m.as.codePage (pageFrame addr)) :
    mmu s.m.tlb addr true ≠ none := by
  unfold mmu
  cases hmatch : tlb_match s.m.tlb (pageFrame addr) with
  | none => simp
  | some j =>
    obtain ⟨hvalid, hehi⟩ := tlb_match_some hmatch
    by_cases hdirty : (s.m.tlb j).dirty = true
    · have hw : s.m.Writable j := ⟨hvalid, hdirty, hehi ▸ hcode⟩
      have := h.entries hfits j hw
      rw [hearly j] at this
      cases this
    · simp [hdirty]

theorem Refilled.flushed (hr : Refilled s page s') (h : FlushedInv s) : FlushedInv s' where
  toTextInv := hr.inv h.toTextInv
  user := by
    intro hphase
    rw [hr.phase] at hphase
    have hloaded := h.loaded (.inr hphase)
    obtain ⟨hearly, hfits⟩ := h.user hphase
    refine ⟨?_, (AddrSpace.textFits_congr hr.filled.text).mpr hfits⟩
    intro j
    rw [hr.early]
    by_cases hj : j = s.m.slot
    · rw [if_pos hj, hloaded]
      simp
    · rw [if_neg hj]
      exact hearly j
  stores := by
    intro addr haddr
    rw [hr.stores] at haddr
    rw [AddrSpace.codePage_congr hr.filled.text]
    exact h.stores addr haddr

theorem FlushedInv.dead (h : FlushedInv s) : FlushedInv s.dead :=
  { h with
    toTextInv := h.of_phase (by simp) (by simp) s.stores
    user := by simp [TextState.dead] }

/-- **Step lemma**. -/
theorem FlushedInv.step (h : FlushedInv s) {a : TextAct} (hc : FlushedEntry s a)
    (hstep : textNext s a = some s') : FlushedInv s' := by
  unfold textNext at hstep
  split at hstep
  · -- the TLB is empty after a switch
    cases hstep
    refine ⟨⟨?_, by simp, h.loading, h.loaded⟩, fun hu => ⟨fun _ => rfl, (h.user hu).2⟩, h.stores⟩
    intro _ j hw
    cases hw.1
  · rename_i todo hphase
    obtain ⟨hinv, hnot, hstores, htext⟩ := h.toTextInv.load hphase hstep
    refine ⟨hinv, fun hu => (hnot hu).elim, ?_⟩
    intro addr haddr
    rw [AddrSpace.codePage_congr htext]
    exact h.stores addr (hstores ▸ haddr)
  · cases hstep
    exact ⟨⟨h.entries, h.early, by simp, fun _ => rfl⟩, by simp, h.stores⟩
  · split at hstep
    · cases hstep
      exact h
    · rcases resume_cases hstep with ⟨-, rfl⟩ | ⟨-, hr⟩ | rfl | rfl
      · exact h
      · exact hr.flushed h
      · exact h.dead
      · exact h
  · rename_i hphase
    cases hstep
    exact ⟨⟨h.entries, h.early, by simp, fun _ => h.loaded (.inl hphase)⟩, fun _ => hc rfl,
      h.stores⟩
  · rename_i addr write hphase
    split at hstep
    · cases hstep
      exact h.dead
    · rcases resume_cases hstep with ⟨hmmu, rfl⟩ | ⟨-, hr⟩ | rfl | rfl
      · by_cases hw : write = true
        · subst hw
          refine ⟨h.of_phase (by simp [hphase]) (fun _ => h.loaded (.inr hphase)) _,
            fun _ => h.user hphase, ?_⟩
          intro addr' haddr hcode
          rcases List.mem_cons.mp haddr with rfl | hold
          · obtain ⟨hearly, hfits⟩ := h.user hphase
            exact h.store_faults hearly hfits hcode hmmu
          · exact h.stores addr' hold hcode
        · rw [if_neg hw]
          exact h
      · exact hr.flushed h
      · exact h.dead
      · exact h.dead
  · cases hstep

/-- The TLB maps a page that was missing to the slot filled for it. -/
theorem Filled.tlb_match {m m' : FaultState} (h : Filled m page m')
    (hmiss : OS161.tlb_match m.tlb page = none) : OS161.tlb_match m'.tlb page = some m.slot := by
  obtain ⟨t, paddr, -, htlb⟩ := h.filled
  cases hmatch : OS161.tlb_match m'.tlb page with
  | none =>
    have hslot := tlb_match_none hmatch m.slot
    rw [htlb, if_pos rfl] at hslot
    exact (hslot rfl rfl).elim
  | some j =>
    obtain ⟨hvalid, hehi⟩ := tlb_match_some hmatch
    by_cases hj : j = m.slot
    · rw [hj]
    · rw [htlb, if_neg hj] at hvalid hehi
      exact (tlb_match_none hmiss j hvalid hehi).elim

theorem FlushedInv.kills (h : FlushedInv s) (hphase : s.phase = .user) {addr : Nat}
    (hcode : s.m.as.codePage (pageFrame addr))
    (hstep : textNext s (.userAccess addr true) = some s') :
    s'.phase = .dead ∨ (s'.phase = .user ∧ textNext s' (.userAccess addr true) = some s'.dead) := by
  obtain ⟨hearly, hfits⟩ := h.user hphase
  simp only [textNext, hphase] at hstep
  split at hstep
  · cases hstep
    exact .inl rfl
  · rename_i haddr
    rcases resume_cases hstep with ⟨hmmu, -⟩ | ⟨hmiss, hr⟩ | rfl | rfl
    · exact (h.store_faults hearly hfits hcode hmmu).elim
    · -- the page now has a read-only entry
      right
      have hphase' : s'.phase = .user := hr.phase.trans hphase
      refine ⟨hphase', ?_⟩
      have hmatch := hr.filled.tlb_match hmiss
      obtain ⟨t, paddr, hselect, htlb⟩ := hr.filled.filled
      have ht : t = .CODE :=
        Option.some.inj (hselect.symm.trans (AddrSpace.select_of_codePage hfits hcode))
      have hdirty : (s'.m.tlb s.m.slot).dirty = false := by
        rw [htlb, if_pos rfl, ht, h.loaded (.inr hphase)]
        rfl
      have hmmu : mmu s'.m.tlb addr true = some .VM_FAULT_READONLY := by
        unfold mmu
        rw [hmatch]
        simp [hdirty]
      have hkilled : access addr true s' = .ok .killed s' := by
        unfold access
        rw [read_bind_run, hmmu]
        rfl
      simp only [textNext, hphase', if_neg haddr, hkilled]
      rfl
    · exact .inl rfl
    · exact .inl rfl

end Invariant

/-! ## The theorems -/

theorem flushedInv_init {file : List UInt8} {s : TextState} (h : textInit file s) :
    FlushedInv s := by
  obtain ⟨⟨todo, entry, hload, hphase⟩, htlb, hearly, hstores⟩ := h
  have hloaded : s.m.as.loaded = false :=
    wp_ok (Q := fun _ as => as.loaded = false) hload (load_elf_loaded file rfl)
  refine ⟨⟨?_, ?_, fun _ _ => hloaded, by simp [hphase]⟩, by simp [hphase], by simp [hstores]⟩
  · intro _ j hw
    have hvalid := hw.1
    rw [htlb] at hvalid
    cases hvalid
  · intro j hj
    rw [hearly j] at hj
    cases hj

/-- **Text immutability** in every state of every run in which user mode is entered without entries
left over from the load. -/
theorem text_immutable_when_flushed (file : List UInt8) (s : TextState)
    (h : System.Reachable ((textSystem file).restrict FlushedEntry) s) : TextOk s := by
  have hinv : FlushedInv s :=
    System.invariant (fun _ => flushedInv_init) (fun _ _ _ hi hstep => hi.step hstep.1 hstep.2) h
  refine ⟨?_, hinv.stores, fun hphase addr s' => hinv.kills hphase⟩
  intro hphase j hw
  obtain ⟨hearly, hfits⟩ := hinv.user hphase
  have hj := hinv.entries hfits j hw
  rw [hearly j] at hj
  cases hj

/-! ## An executable whose data starts in its last code page -/

/-- A program header. -/
def phdrBytes (offset vaddr filesz memsz flags : Nat) : List UInt8 :=
  beBytes 4 1 ++ beBytes 4 offset ++ beBytes 4 vaddr ++ beBytes 4 0 ++ beBytes 4 filesz ++
    beBytes 4 memsz ++ beBytes 4 flags ++ beBytes 4 0x1000

/-- Four bytes of code at `0x400000` and four bytes of data at `0x400100`. -/
def sharedPageElf : List UInt8 :=
  [0x7f, 0x45, 0x4c, 0x46, 1, 2, 1, 0, 0, 0, 0, 0, 0, 0, 0, 0] ++ beBytes 2 2 ++ beBytes 2 8 ++
    beBytes 4 1 ++ beBytes 4 0x400000 ++ beBytes 4 52 ++ beBytes 4 0 ++ beBytes 4 0 ++
    beBytes 2 52 ++ beBytes 2 32 ++ beBytes 2 2 ++ beBytes 2 0 ++ beBytes 2 0 ++ beBytes 2 0 ++
    phdrBytes 116 0x400000 4 4 5 ++ phdrBytes 120 0x400100 4 4 6 ++
    [0x08, 0x10, 0, 0, 0, 0, 0, 42]

/-- The address space that `load_elf` sets up for it. -/
def sharedPageSpace : AddrSpace where
  as_vbase1 := 0x400000
  as_npages1 := 1
  as_vbase2 := 0x400000
  as_npages2 := 1
  code := { vbase := 0x400000, npages := 1, ptable := [pte_create], tsegment := .CODE }
  data := { vbase := 0x400000, npages := 1, ptable := [pte_create], tsegment := .DATA }
  stack := segment_create .STACK
  loaded := false

def sharedPageLoad : List LoadOp :=
  [.store 0x400000, .store 0x400001, .store 0x400002, .store 0x400003, .store 0x400100,
    .store 0x400101, .store 0x400102, .store 0x400103]

def sharedPageStart : TextState where
  m := { ram := ⟨0x20000, 0x400000⟩, as := sharedPageSpace, tlb := tlbInvalid, next_victim := 0 }
  phase := .loading sharedPageLoad
  early := fun _ => false
  stores := []

theorem sharedPageStart_init : textInit sharedPageElf sharedPageStart := by
  have hload : load_elf sharedPageElf as_create =
      .ok (sharedPageLoad, 0x400000) sharedPageSpace := by decide +kernel
  exact ⟨⟨sharedPageLoad, 0x400000, hload, rfl⟩, rfl, fun _ => rfl, rfl⟩

/-- **The code segment is written in user mode**. The thread is switched away for the disk before
each part is copied; the last part is data that lies in the code page. -/
theorem text_writable_after_load :
    ∃ s, System.Reachable (textSystem sharedPageElf) s ∧ s.phase = .user ∧ s.m.Writable 0 ∧
      s.stores = [0x400000] ∧ ¬ TextOk s := by
  obtain ⟨s, hreach, hphase, hentry, hvbase, hnpages, hstores⟩ : ∃ s, (textSystem sharedPageElf).Reachable s ∧
      s.phase = .user ∧ s.m.tlb 0 = { ehi := 0x400000, paddr := 0x20000, dirty := true, valid := true } ∧
      s.m.as.code.vbase = 0x400000 ∧ s.m.as.code.npages = 1 ∧ s.stores = [0x400000] :=
    System.exists_reachable sharedPageStart_init
      [.switch, .load, .load, .load, .load, .load, .switch, .load, .load, .load, .load, .load,
        .as_complete_load, .kernelAccess 0x7ffffffc true, .kernelAccess 0x7ffffffc true,
        .enter_new_process, .userAccess 0x400000 true] (by decide +kernel)
  have hw : s.m.Writable 0 := by
    unfold FaultState.Writable AddrSpace.codePage
    rw [hentry, hvbase, hnpages]
    decide
  exact ⟨s, hreach, hphase, hw, hstores, fun hok => hok.entries hphase 0 hw⟩

instance FlushedEntry.decidable (s : TextState) (a : TextAct) : Decidable (FlushedEntry s a) := by
  unfold FlushedEntry AddrSpace.TextFits
  infer_instance

/-- With a switch after the load, the same executable enters user mode with its code segment
    protected. -/
theorem text_immutable_when_flushed_switch :
    ∃ s, System.Reachable ((textSystem sharedPageElf).restrict FlushedEntry) s ∧
      s.phase = .user ∧ TextOk s := by
  obtain ⟨s, hreach, hphase⟩ : ∃ s, ((textSystem sharedPageElf).restrict FlushedEntry).Reachable s ∧ s.phase = .user :=
    System.exists_restricted sharedPageStart_init
      [.load, .load, .load, .load, .load, .load, .load, .load, .load, .as_complete_load, .switch,
        .enter_new_process, .userAccess 0x400000 false] (by decide +kernel)
  exact ⟨s, hreach, hphase, text_immutable_when_flushed sharedPageElf s hreach⟩

end OS161
