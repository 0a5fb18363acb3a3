import OS161.Framework.TransitionSystem

/-! # Interprocessor interrupts and TLB shootdown

`ipi_tlbshootdown` leaves a mapping in a buffer of the target CPU, which
`interprocessor_interrupt` empties there (`kern/thread/thread.c`, `kern/include/cpu.h`). When
the buffer is full the counter becomes `TLBSHOOTDOWN_ALL`, and the whole TLB is to be flushed.

Each of the functions runs with `c_ipi_lock` of the target held from its first access to its
last, so each is one step here.
-/

namespace OS161

open Framework Function

/-! ## Model -/

inductive IpiCode where
  | IPI_PANIC
  | IPI_OFFLINE
  | IPI_UNIDLE
  | IPI_TLBSHOOTDOWN
  deriving DecidableEq, Repr

def IpiCode.toNat : IpiCode → Nat
  | .IPI_PANIC => 0
  | .IPI_OFFLINE => 1
  | .IPI_UNIDLE => 2
  | .IPI_TLBSHOOTDOWN => 3

def TLBSHOOTDOWN_MAX : Nat := 16

def TLBSHOOTDOWN_ALL : Int := -1

/-- `struct tlbshootdown`. -/
structure TlbShootdown where
  ts_addrspace : Nat
  ts_vaddr : Nat
  deriving DecidableEq, Repr

/-- The fields of `struct cpu` under `c_ipi_lock`; of `c_shootdown` only the cells below
`TLBSHOOTDOWN_MAX` exist. -/
structure IpiCpu where
  c_ipi_pending : BitVec 32
  c_shootdown : Nat → TlbShootdown
  c_numshootdown : Int
  /-- In `cpu_halt`, with the lock held. -/
  halted : Bool

/-- A call made by `interprocessor_interrupt`. -/
inductive ShootdownCall where
  | vm_tlbshootdown (mapping : TlbShootdown)
  | vm_tlbshootdown_all
  deriving DecidableEq, Repr

namespace IpiCpu

/-- As `cpu_create` leaves it. -/
def create : IpiCpu where
  c_ipi_pending := 0
  c_shootdown := fun _ => ⟨0, 0⟩
  c_numshootdown := 0
  halted := false

/-- `bits & (1U << code)`. -/
def Pending (c : IpiCpu) (code : IpiCode) : Prop := c.c_ipi_pending &&& BitVec.twoPow 32 code.toNat ≠ 0

instance instDecidablePending (c : IpiCpu) (code : IpiCode) : Decidable (c.Pending code) :=
  inferInstanceAs (Decidable (_ ≠ _))

def ipi_send (c : IpiCpu) (code : IpiCode) : IpiCpu :=
  { c with c_ipi_pending := c.c_ipi_pending ||| BitVec.twoPow 32 code.toNat }

/-- `c_shootdown[n] = *mapping`, and whether the cell exists. -/
def store (c : IpiCpu) (n : Int) (mapping : TlbShootdown) : Bool × IpiCpu :=
  if 0 ≤ n ∧ n < TLBSHOOTDOWN_MAX then
    (true, { c with c_shootdown := update c.c_shootdown n.toNat mapping })
  else
    -- the fields that such a store overwrites in C are not followed any further
    (false, c)

/-- The use of the buffer in `ipi_tlbshootdown`. -/
def addShootdown (c : IpiCpu) (mapping : TlbShootdown) : Bool × IpiCpu :=
  if c.c_numshootdown = TLBSHOOTDOWN_MAX then
    (true, { c with c_numshootdown := TLBSHOOTDOWN_ALL })
  else
    ((c.store c.c_numshootdown mapping).1,
      { (c.store c.c_numshootdown mapping).2 with c_numshootdown := c.c_numshootdown + 1 })

/-- `ipi_tlbshootdown`, and whether its store stays in the array. -/
def ipi_tlbshootdown (c : IpiCpu) (mapping : TlbShootdown) : Bool × IpiCpu :=
  ((c.addShootdown mapping).1, (c.addShootdown mapping).2.ipi_send .IPI_TLBSHOOTDOWN)

/-- `interprocessor_interrupt`: the calls it makes, and the CPU after it. -/
def interprocessor_interrupt (c : IpiCpu) : List ShootdownCall × IpiCpu :=
  if c.Pending .IPI_PANIC then ([], { c with halted := true })
  else if c.Pending .IPI_OFFLINE then ([], { c with halted := true })
  else if c.Pending .IPI_TLBSHOOTDOWN then
    let calls :=
      if c.c_numshootdown = TLBSHOOTDOWN_ALL then [.vm_tlbshootdown_all]
      else (List.range c.c_numshootdown.toNat).map fun i => .vm_tlbshootdown (c.c_shootdown i)
    (calls, { c with c_numshootdown := 0, c_ipi_pending := 0 })
  else ([], { c with c_ipi_pending := 0 })

end IpiCpu

/-- The CPUs, and what has been asked of each. -/
structure IpiState (C : Type) where
  cpu : C → IpiCpu
  /-- The mappings requested since the last interrupt, the oldest first. -/
  requested : C → List TlbShootdown
  /-- The number of stores outside `c_shootdown`. -/
  stray : Nat

/-- What the CPUs do to one another. -/
inductive IpiAct (C : Type) where
  | ipi_tlbshootdown (source target : C) (mapping : TlbShootdown)
  /-- `thread_make_runnable` sends `IPI_UNIDLE` to the CPU of the thread. -/
  | ipi_send_unidle (source target : C)
  | interprocessor_interrupt (cpu : C)

section System

variable {C : Type} [DecidableEq C]

def ipiNext (s : IpiState C) : IpiAct C → Option (IpiState C)
  | .ipi_tlbshootdown _ target mapping =>
    -- a halted CPU keeps its lock
    if (s.cpu target).halted then none
    else
      let r := (s.cpu target).ipi_tlbshootdown mapping
      some
        { cpu := update s.cpu target r.2
          requested := update s.requested target (s.requested target ++ [mapping])
          stray := s.stray + if r.1 then 0 else 1 }
  | .ipi_send_unidle _ target =>
    if (s.cpu target).halted then none
    else some { s with cpu := update s.cpu target ((s.cpu target).ipi_send .IPI_UNIDLE) }
  | .interprocessor_interrupt cpu =>
    if (s.cpu cpu).halted then none
    else some
      { s with
        cpu := update s.cpu cpu (s.cpu cpu).interprocessor_interrupt.2
        requested := update s.requested cpu [] }

def IpiState.create : IpiState C where
  cpu := fun _ => .create
  requested := fun _ => []
  stray := 0

variable (C) in
def ipiSystem : System (IpiState C) (IpiAct C) := .ofNext (· = .create) ipiNext

/-- A mapping is invalidated by one of the calls. -/
def Covers (calls : List ShootdownCall) (mapping : TlbShootdown) : Prop :=
  .vm_tlbshootdown mapping ∈ calls ∨ .vm_tlbshootdown_all ∈ calls

/-- No store has gone outside an array, and the interrupt that a CPU takes next covers all that has
been asked of it. -/
structure NoneLost (s : IpiState C) : Prop where
  inside : s.stray = 0
  covered : ∀ c, ∀ m ∈ s.requested c, Covers (s.cpu c).interprocessor_interrupt.1 m

/-- The target has at most `TLBSHOOTDOWN_MAX` requests to attend to when one more is made. -/
def ShootdownRoom (s : IpiState C) : IpiAct C → Prop
  | .ipi_tlbshootdown _ target _ => (s.requested target).length ≤ TLBSHOOTDOWN_MAX
  | _ => True

/-! ## The buffer of one CPU -/

namespace IpiCpu

variable {c : IpiCpu} {q : List TlbShootdown} {m : TlbShootdown}

theorem pending_iff {code : IpiCode} : c.Pending code ↔ c.c_ipi_pending.getLsbD code.toNat = true := by
  have hlt : code.toNat < 32 := by cases code <;> decide
  unfold Pending
  rw [BitVec.and_twoPow]
  by_cases h : c.c_ipi_pending.getLsbD code.toNat = true
  · simp only [h, if_true, iff_true]
    intro hzero
    have hbit : (BitVec.twoPow 32 code.toNat).getLsbD code.toNat = true := by simp [hlt]
    rw [hzero] at hbit
    simp at hbit
  · simp [h]

theorem pending_send {code sent : IpiCode} : (c.ipi_send sent).Pending code ↔ c.Pending code ∨ code = sent := by
  rw [pending_iff, pending_iff]
  cases code <;> cases sent <;> simp [ipi_send, IpiCode.toNat]

/-- The buffer holds the requests `q`, or stands for all mappings when there are more than fit. -/
structure BufferInv (c : IpiCpu) (q : List TlbShootdown) : Prop where
  running : c.halted = false
  alive : ¬ c.Pending .IPI_PANIC ∧ ¬ c.Pending .IPI_OFFLINE
  pending : q ≠ [] → c.Pending .IPI_TLBSHOOTDOWN
  count : c.c_numshootdown = if q.length ≤ TLBSHOOTDOWN_MAX then (q.length : Int) else TLBSHOOTDOWN_ALL
  cells : q.length ≤ TLBSHOOTDOWN_MAX → ∀ i (h : i < q.length), c.c_shootdown i = q.get ⟨i, h⟩

theorem BufferInv.create : create.BufferInv [] where
  running := rfl
  alive := by decide
  pending := fun h => absurd rfl h
  count := rfl
  cells := by
    intro _ i h
    simp at h

/-- Sending another interrupt, apart from those that stop the CPU, keeps the buffer. -/
theorem BufferInv.send (h : c.BufferInv q) (code : IpiCode) (hp : code ≠ .IPI_PANIC) (ho : code ≠ .IPI_OFFLINE) :
    (c.ipi_send code).BufferInv q :=
  { h with
    alive := by
      rw [pending_send, pending_send]
      constructor
      · exact fun hor => hor.elim h.alive.1 fun heq => hp heq.symm
      · exact fun hor => hor.elim h.alive.2 fun heq => ho heq.symm
    pending := fun hq => pending_send.mpr (.inl (h.pending hq)) }

/-- With room in the array the mapping goes to the next cell. -/
theorem addShootdown_cell (hn : c.c_numshootdown = q.length) (hlt : q.length < TLBSHOOTDOWN_MAX) :
    c.addShootdown m = (true, { c with
      c_shootdown := update c.c_shootdown q.length m, c_numshootdown := q.length + 1 }) := by
  have hstore : c.store q.length m =
      (true, { c with c_shootdown := update c.c_shootdown q.length m }) := by
    unfold store
    rw [if_pos ⟨by omega, by omega⟩]
    rfl
  unfold addShootdown
  rw [hn, hstore, if_neg (by omega)]

/-- The requests with the new one at their end, when all of them are in cells. -/
theorem cells_append {f : Nat → TlbShootdown} (hcells : ∀ i (h : i < q.length), f i = q.get ⟨i, h⟩) :
    ∀ i (h : i < (q ++ [m]).length), update f q.length m i = (q ++ [m]).get ⟨i, h⟩ := by
  intro i hi
  by_cases hlast : i = q.length
  · subst hlast
    simp
  · have hold : i < q.length := by
      rw [List.length_append, List.length_singleton] at hi
      omega
    rw [update_of_ne hlast, hcells i hold]
    simp [List.getElem_append_left hold]

/-- A request to a CPU with room is not lost. -/
theorem BufferInv.request (h : c.BufferInv q) (hroom : q.length ≤ TLBSHOOTDOWN_MAX) (m : TlbShootdown) :
    (c.ipi_tlbshootdown m).1 = true ∧ (c.ipi_tlbshootdown m).2.BufferInv (q ++ [m]) := by
  have hn : c.c_numshootdown = q.length := by rw [h.count, if_pos hroom]
  have halive := (h.send .IPI_TLBSHOOTDOWN (by decide) (by decide)).alive
  unfold ipi_tlbshootdown
  by_cases hfull : q.length = TLBSHOOTDOWN_MAX
  · -- the counter goes over to `TLBSHOOTDOWN_ALL`
    have hover : ¬ (q ++ [m]).length ≤ TLBSHOOTDOWN_MAX := by
      rw [List.length_append, hfull, List.length_singleton]
      omega
    have hadd : c.addShootdown m = (true, { c with c_numshootdown := TLBSHOOTDOWN_ALL }) := by
      unfold addShootdown
      rw [if_pos (by rw [hn, hfull])]
    rw [hadd]
    refine ⟨rfl, h.running, halive, fun _ => pending_send.mpr (.inr rfl), ?_, fun hle => absurd hle hover⟩
    rw [if_neg hover]
    rfl
  · have hlt : q.length < TLBSHOOTDOWN_MAX := by omega
    have hfits : (q ++ [m]).length ≤ TLBSHOOTDOWN_MAX := by
      rw [List.length_append, List.length_singleton]
      omega
    rw [addShootdown_cell hn hlt]
    refine ⟨rfl, h.running, halive, fun _ => pending_send.mpr (.inr rfl), ?_,
      fun _ => cells_append (h.cells hroom)⟩
    rw [if_pos hfits, List.length_append]
    rfl

/-- The next request after the counter has gone over to `TLBSHOOTDOWN_ALL` is stored in front of the
array. -/
theorem BufferInv.overrun (h : c.BufferInv q) (hover : TLBSHOOTDOWN_MAX < q.length) (m : TlbShootdown) :
    (c.ipi_tlbshootdown m).1 = false := by
  have hn : c.c_numshootdown = TLBSHOOTDOWN_ALL := by rw [h.count, if_neg (by omega)]
  unfold ipi_tlbshootdown addShootdown store
  rw [hn]
  rfl

/-- An interrupt covers what the buffer stands for. -/
theorem BufferInv.covers (h : c.BufferInv q) (hm : m ∈ q) : Covers c.interprocessor_interrupt.1 m := by
  have hp := h.pending (List.ne_nil_of_mem hm)
  unfold interprocessor_interrupt
  rw [if_neg h.alive.1, if_neg h.alive.2, if_pos hp]
  by_cases hroom : q.length ≤ TLBSHOOTDOWN_MAX
  · obtain ⟨i, hi⟩ := List.get_of_mem hm
    have hn : c.c_numshootdown = q.length := by rw [h.count, if_pos hroom]
    have hne : c.c_numshootdown ≠ TLBSHOOTDOWN_ALL := by
      rw [hn]
      unfold TLBSHOOTDOWN_ALL
      omega
    left
    rw [if_neg hne]
    refine List.mem_map.mpr ⟨i, ?_, ?_⟩
    · rw [List.mem_range, hn]
      exact i.isLt
    · rw [h.cells hroom i i.isLt]
      exact congrArg _ hi
  · right
    rw [if_pos (by rw [h.count, if_neg hroom])]
    exact List.mem_singleton_self _

/-- An interrupt empties the buffer. -/
theorem BufferInv.interrupt (h : c.BufferInv q) : c.interprocessor_interrupt.2.BufferInv [] := by
  have hclear : ∀ d : IpiCpu, d.c_ipi_pending = 0 → ∀ code, ¬ d.Pending code := by
    intro d hd code
    rw [pending_iff, hd]
    simp
  unfold interprocessor_interrupt
  rw [if_neg h.alive.1, if_neg h.alive.2]
  by_cases hp : c.Pending .IPI_TLBSHOOTDOWN
  · rw [if_pos hp]
    exact ⟨h.running, ⟨hclear _ rfl _, hclear _ rfl _⟩, fun hq => absurd rfl hq, rfl, by simp⟩
  · rw [if_neg hp]
    -- nothing has been asked for, so the counter is zero already
    have hq : q = [] := by
      by_contra hq
      exact hp (h.pending hq)
    subst hq
    exact ⟨h.running, ⟨hclear _ rfl _, hclear _ rfl _⟩, fun hq => absurd rfl hq, h.count, by simp⟩

end IpiCpu

/-! ## Runs -/

/-- The invariant of all CPUs. -/
structure IpiInv (s : IpiState C) : Prop where
  inside : s.stray = 0
  buffer : ∀ c, (s.cpu c).BufferInv (s.requested c)

omit [DecidableEq C] in
theorem IpiInv.noneLost {s : IpiState C} (h : IpiInv s) : NoneLost s :=
  { h with covered := fun c _ hm => (h.buffer c).covers hm }

omit [DecidableEq C] in
theorem IpiInv.create : IpiInv (.create : IpiState C) where
  inside := rfl
  buffer := fun _ => .create

/-- A change of one CPU and of its requests. -/
theorem buffer_update {s : IpiState C} (h : IpiInv s) (c : C) {d : IpiCpu} {q : List TlbShootdown}
    (hd : d.BufferInv q) : ∀ c', (update s.cpu c d c').BufferInv (update s.requested c q c') := by
  intro c'
  by_cases hc : c' = c
  · subst hc
    rw [update_self, update_self]
    exact hd
  · rw [update_of_ne hc, update_of_ne hc]
    exact h.buffer c'

theorem ipiNext_inv {s s' : IpiState C} {a : IpiAct C} (h : IpiInv s) (hroom : ShootdownRoom s a)
    (hstep : ipiNext s a = some s') : IpiInv s' := by
  cases a with
  | ipi_tlbshootdown source target m =>
    obtain ⟨hin, hbuf⟩ := (h.buffer target).request hroom m
    simp only [ipiNext, (h.buffer target).running, Bool.false_eq_true, if_false, hin, if_true] at hstep
    cases hstep
    exact ⟨h.inside, buffer_update h target hbuf⟩
  | ipi_send_unidle source target =>
    simp only [ipiNext, (h.buffer target).running, Bool.false_eq_true, if_false] at hstep
    cases hstep
    have hbuf := buffer_update h target ((h.buffer target).send .IPI_UNIDLE (by decide) (by decide))
    rw [update_eq_self] at hbuf
    exact ⟨h.inside, hbuf⟩
  | interprocessor_interrupt c =>
    simp only [ipiNext, (h.buffer c).running, Bool.false_eq_true, if_false] at hstep
    cases hstep
    exact ⟨h.inside, buffer_update h c (h.buffer c).interrupt⟩

theorem ipi_reachable {s : IpiState C} (h : ((ipiSystem C).restrict ShootdownRoom).Reachable s) : IpiInv s := by
  refine System.invariant ?_ ?_ h
  · intro s hs
    rw [show s = .create from hs]
    exact .create
  · exact fun s a s' hinv hstep => ipiNext_inv hinv hstep.1 hstep.2

/-- **Shootdown requests.** While a CPU is asked for at most one mapping more than its buffer holds
between two interrupts, no request is lost and no store leaves the buffer; and a request beyond
that is stored outside it. -/
theorem shootdowns_covered {s : IpiState C} (h : ((ipiSystem C).restrict ShootdownRoom).Reachable s) :
    NoneLost s ∧ ∀ a s', ¬ ShootdownRoom s a → ipiNext s a = some s' → ¬ NoneLost s' := by
  have hinv := ipi_reachable h
  refine ⟨hinv.noneLost, ?_⟩
  intro a s' hroom hstep hlost
  cases a with
  | ipi_tlbshootdown source target m =>
    have hout := (hinv.buffer target).overrun (Nat.lt_of_not_le hroom) m
    simp only [ipiNext, (hinv.buffer target).running, Bool.false_eq_true, if_false, hout] at hstep
    cases hstep
    have hstray := hlost.inside
    simp at hstray
  | ipi_send_unidle source target => exact hroom trivial
  | interprocessor_interrupt c => exact hroom trivial

/-- A request for one page of an address space. -/
def oneRequest : IpiAct Bool := .ipi_tlbshootdown false true ⟨1, 0x1000⟩

theorem shootdowns_covered_one : ∃ s, ipiNext .create oneRequest = some s ∧ s.requested true = [⟨1, 0x1000⟩] ∧
    (NoneLost s ∧ ∀ a s', ¬ ShootdownRoom s a → ipiNext s a = some s' → ¬ NoneLost s') := by
  obtain ⟨s, hs, hreq⟩ : ∃ s, ipiNext .create oneRequest = some s ∧ s.requested true = [⟨1, 0x1000⟩] :=
    ⟨_, rfl, rfl⟩
  exact ⟨s, hs, hreq, shootdowns_covered (.step oneRequest (.init rfl) ⟨Nat.zero_le _, hs⟩)⟩

/-- Of eighteen requests with no interrupt between them the last is stored outside the array, and
the interrupt after it invalidates nothing. -/
theorem shootdown_overrun : ∃ s, (ipiSystem Bool).Reachable s ∧ ¬ NoneLost s ∧ s.stray = 1 ∧
    s.requested true = List.replicate 18 ⟨1, 0x1000⟩ ∧ (s.cpu true).interprocessor_interrupt.1 = [] := by
  obtain ⟨s, hs⟩ : ∃ s, System.follow ipiNext (List.replicate 18 oneRequest) .create = some s := ⟨_, rfl⟩
  have hreach : (ipiSystem Bool).Reachable s := System.Reachable.follow _ (.init rfl) hs
  cases hs
  refine ⟨_, hreach, ?_, rfl, rfl, rfl⟩
  intro hlost
  exact absurd hlost.inside (by decide)

end System

end OS161
