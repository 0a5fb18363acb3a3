import OS161.Dev.Lhd
import OS161.Framework.Tally
import OS161.Framework.TransitionSystem

/-! # Disk requests of several threads

The model of `lhd_io` and `lhd_irq` (`kern/dev/lamebus/lhd.c`) for any number of threads. A
thread takes one step at each call of `P` and `V`, at each access to the card and at each
`uiomove`; the drive completes an operation, and the interrupt handler runs, at any time in
between.

The state also records every operation that was started and every one that was completed, and
each thread records what it has found at the end of its operations. Nothing reads these records.

`uiomove` into user memory can meet a read-only page. `vm_fault` then ends the process
(`kern/vm/vm.c`), whatever the thread is in the middle of.
-/

namespace OS161.LhdRequests

open Framework Function

/-! ## Requests -/

/-- What `lhd_io` is called with. -/
structure Request where
  uio : Uio
  /-- For a read into user memory: how many bytes can be stored before a store is to a read-only
      page; `none` when there is no such page. -/
  uio_readonly : Option Nat

namespace Request

/-- The local variables of `lhd_io`. -/
def sector (r : Request) : Nat := (r.uio.uio_offset.tdiv BLOCKSIZE % 2 ^ 32).toNat

def sectoff (r : Request) : Int := r.uio.uio_offset.tmod BLOCKSIZE

def len (r : Request) : Nat := r.uio.uio_resid / BLOCKSIZE

def lenoff (r : Request) : Nat := r.uio.uio_resid % BLOCKSIZE

/-- The checks that `lhd_io` begins with. -/
def check (d_blocks : Nat) (r : Request) : Option Errno :=
  if r.sectoff ≠ 0 ∨ r.lenoff ≠ 0 then some .einval
  else if (r.sector + r.len) % 2 ^ 32 > d_blocks then some .einval
  else none

/-- Whether one of the next `size` bytes is in a read-only page, with no fault of another kind before it. -/
def kills (r : Request) (size : Nat) : Bool :=
  match r.uio.uio_rw, r.uio.uio_segflg, r.uio_readonly with
  | .UIO_READ, .UIO_USERSPACE, some k | .UIO_READ, .UIO_USERISPACE, some k =>
    decide (k < size) && r.uio.uio_valid.all fun v => k < v
  | _, _, _ => false

/-- How `uiomove` between the on-card buffer and the request ends, and the bytes moved. -/
inductive MoveResult where
  | moved (bytes : List UInt8) (r : Request)
  | failed (e : Errno) (bytes : List UInt8) (r : Request)
  | killed
  | panicked

def move (r : Request) (ptr : List UInt8) : MoveResult :=
  if r.kills BLOCKSIZE then .killed
  else
    match uiomove ptr BLOCKSIZE r.uio with
    | .ok bytes u => .moved bytes ⟨u, r.uio_readonly.map (· - bytes.length)⟩
    | .err e u => .failed e (u.moved.drop r.uio.moved.length) ⟨u, r.uio_readonly⟩
    | .panic _ => .panicked

/-- With no read-only page, nobody is terminated. -/
theorem move_writable (r : Request) (h : r.uio_readonly = none) (ptr : List UInt8) :
    match r.move ptr with
    | .moved _ r' | .failed _ _ r' => r'.uio_readonly = none
    | .killed => False
    | .panicked => True := by
  have hkills : r.kills BLOCKSIZE = false := by
    unfold kills
    rw [h]
    split <;> simp_all
  unfold move
  rw [if_neg (by rw [hkills]; decide)]
  cases uiomove ptr BLOCKSIZE r.uio with
  | ok bytes u => rw [h]; rfl
  | err e u => exact h
  | panic p => trivial

end Request

/-! ## State -/

/-- The places in `lhd_io` between which a thread can be stopped. -/
inductive Pc where
  /-- Not in `lhd_io`. -/
  | idle
  /-- Before `P(lh_clear)`. -/
  | clear
  /-- Before the `uiomove` of a write. -/
  | fill
  /-- Before the sector register is written. -/
  | sect
  /-- Before the status register is written. -/
  | start
  /-- Before `P(lh_done)`. -/
  | wait
  /-- Before `lh_result` is read. -/
  | result
  /-- Before the `uiomove` of a read. -/
  | drain
  /-- Before `V(lh_clear)`. -/
  | release (result : Option Errno)
  /-- The process has been terminated in `uiomove`. -/
  | killed
  deriving DecidableEq

/-- Between `P(lh_clear)` and `V(lh_clear)`. -/
def Pc.inside : Pc → Bool
  | .fill | .sect | .start | .wait | .result | .drain | .release _ => true
  | .idle | .clear | .killed => false

/-- An operation as it ended, for the drive or in the eyes of a thread. -/
structure Record where
  rw : UioRw
  sect : Nat
  result : Option Errno
  /-- What was written, or what a read has found. -/
  data : Option Block

structure Thread where
  pc : Pc
  /-- The argument of the call as it was made... -/
  request : Request
  /-- ...and as it is now. -/
  uio : Request
  i : Nat
  /-- What it has put into the buffer in this round. -/
  filled : Option Block
  /-- The operations it has waited for. -/
  seen : List Record
  /-- What its last call has returned. -/
  returned : Option (Option Errno)

def Thread.rw (x : Thread) : UioRw := x.request.uio.uio_rw

/-- The sector of this round. -/
def Thread.sect (x : Thread) : Nat := (x.request.sector + x.i) % 2 ^ 32

structure Sem (T : Type) where
  sem_count : Nat
  sem_wchan : List T

/-- An operation of the drive, and who has started it for which request. -/
structure Op (T : Type) where
  thread : T
  request : Request
  rw : UioRw
  sect : Nat

/-- `LHD_REG_STAT`. -/
inductive LhdStat where
  | LHD_IDLE
  | LHD_WORKING
  | done (report : LhdReport)
  deriving DecidableEq

/-- The card, and what the interrupt handler leaves for `lhd_io`. -/
structure Card (T : Type) where
  stat : LhdStat
  sectreg : Nat
  lh_buf : Block
  sector : Nat → Block
  lh_result : Option Errno
  /-- Operations started and not completed. -/
  outstanding : List (Op T)
  /-- All operations started, and all completed. -/
  started : List (Op T)
  log : List (Op T × Record)

structure State (T : Type) where
  lh_clear : Sem T
  lh_done : Sem T
  card : Card T
  th : T → Thread
  panicked : Bool

inductive Act (T : Type) where
  | call (t : T) (r : Request)
  | step (t : T)
  /-- The drive completes an operation, perhaps with a media error. -/
  | complete (media : Bool)
  | lhd_irq

section Model

variable {T : Type} [DecidableEq T]

/-! ## Semaphores -/

/-- `V`: count up and wake one thread. -/
def Sem.V (sem : Sem T) : Sem T := ⟨sem.sem_count + 1, sem.sem_wchan.tail⟩

/-- `P`: go to sleep, or count down, and whether the thread goes on. -/
def Sem.P (sem : Sem T) (t : T) : Bool × Sem T :=
  if sem.sem_count = 0 then (false, { sem with sem_wchan := sem.sem_wchan ++ [t] })
  else (true, { sem with sem_count := sem.sem_count - 1 })

/-! ## Steps -/

def State.set (s : State T) (t : T) (x : Thread) : State T := { s with th := update s.th t x }

/-- A call of `lhd_io`: its checks. -/
def call (d_blocks : Nat) (s : State T) (t : T) (r : Request) : State T :=
  match r.check d_blocks with
  | some e => s.set t { s.th t with request := r, uio := r, returned := some (some e) }
  | none =>
    if r.len = 0 then s.set t { s.th t with request := r, uio := r, returned := some none }
    else s.set t { s.th t with pc := .clear, request := r, uio := r, i := 0, filled := none }

/-- Write the status register. -/
def Card.start (c : Card T) (t : T) (x : Thread) : Card T :=
  let op : Op T := ⟨t, x.request, x.rw, c.sectreg⟩
  { c with stat := .LHD_WORKING, outstanding := c.outstanding ++ [op], started := c.started ++ [op] }

/-- The next step of a thread `t` that is at a place in `lhd_io`, with the local variables `x`. -/
def place (s : State T) (t : T) (x : Thread) : Pc → Option (State T)
  | .idle | .killed => none
  | .clear =>
    match s.lh_clear.P t with
    | (false, sem) => some { s with lh_clear := sem }
    | (true, sem) => some ({ s with lh_clear := sem }.set t { x with pc := .fill })
  | .fill =>
    match x.rw with
    | .UIO_READ => some (s.set t { x with pc := .sect })
    | .UIO_WRITE =>
      match x.uio.move [] with
      | .moved bytes r =>
        some ({ s with card := { s.card with lh_buf := s.card.lh_buf.overwrite 0 bytes } }.set t
          { x with pc := .sect, uio := r, filled := some (s.card.lh_buf.overwrite 0 bytes) })
      | .failed e bytes r =>
        some ({ s with card := { s.card with lh_buf := s.card.lh_buf.overwrite 0 bytes } }.set t
          { x with pc := .release (some e), uio := r })
      | .killed => some (s.set t { x with pc := .killed })
      | .panicked => some { s with panicked := true }
  | .sect => some ({ s with card := { s.card with sectreg := x.sect } }.set t { x with pc := .start })
  | .start => some ({ s with card := s.card.start t x }.set t { x with pc := .wait })
  | .wait =>
    match s.lh_done.P t with
    | (false, sem) => some { s with lh_done := sem }
    | (true, sem) => some ({ s with lh_done := sem }.set t { x with pc := .result })
  | .result =>
    if x.rw = .UIO_READ ∧ s.card.lh_result = none then some (s.set t { x with pc := .drain })
    else
      some (s.set t { x with
        pc := .release s.card.lh_result
        seen := x.seen ++ [⟨x.rw, x.sect, s.card.lh_result, x.filled⟩] })
  | .drain =>
    match x.uio.move s.card.lh_buf.toList with
    | .moved _ r =>
      some (s.set t { x with
        pc := .release none, uio := r, seen := x.seen ++ [⟨.UIO_READ, x.sect, none, some s.card.lh_buf⟩] })
    | .failed e _ r =>
      some (s.set t { x with
        pc := .release (some e), uio := r, seen := x.seen ++ [⟨.UIO_READ, x.sect, none, some s.card.lh_buf⟩] })
    | .killed => some (s.set t { x with pc := .killed })
    | .panicked => some { s with panicked := true }
  | .release (some e) =>
    some ({ s with lh_clear := s.lh_clear.V }.set t { x with pc := .idle, returned := some (some e) })
  | .release none =>
    if x.i + 1 < x.request.len then
      some ({ s with lh_clear := s.lh_clear.V }.set t { x with pc := .clear, i := x.i + 1, filled := none })
    else some ({ s with lh_clear := s.lh_clear.V }.set t { x with pc := .idle, returned := some none })

/-- The next step of a thread that is not asleep. -/
def threadNext (s : State T) (t : T) : Option (State T) :=
  if t ∈ s.lh_clear.sem_wchan ∨ t ∈ s.lh_done.sem_wchan then none else place s t (s.th t) (s.th t).pc

/-- The report for an operation. -/
def Op.report (d_blocks : Nat) (op : Op T) (media : Bool) : LhdReport :=
  if d_blocks ≤ op.sect then .LHD_INVSECT else if media then .LHD_MEDIA else .LHD_OK

/-- The drive completes an operation: on `LHD_OK` it has transferred the sector. -/
def Card.complete (d_blocks : Nat) (c : Card T) (op : Op T) (media : Bool) : Card T :=
  let report := op.report d_blocks media
  let c := { c with stat := .done report, outstanding := c.outstanding.tail }
  match op.rw with
  | .UIO_WRITE =>
    { c with
      sector := if report = .LHD_OK then update c.sector op.sect c.lh_buf else c.sector
      log := c.log ++ [(op, ⟨.UIO_WRITE, op.sect, lhd_code_to_errno report, some c.lh_buf⟩)] }
  | .UIO_READ =>
    if report = .LHD_OK then
      { c with
        lh_buf := c.sector op.sect
        log := c.log ++ [(op, ⟨.UIO_READ, op.sect, none, some (c.sector op.sect)⟩)] }
    else { c with log := c.log ++ [(op, ⟨.UIO_READ, op.sect, lhd_code_to_errno report, none⟩)] }

def lhd_irq (s : State T) : State T :=
  match s.card.stat with
  | .LHD_IDLE | .LHD_WORKING => s
  | .done report =>
    { s with
      card := { s.card with stat := .LHD_IDLE, lh_result := lhd_code_to_errno report }
      lh_done := s.lh_done.V }

def next (d_blocks : Nat) (s : State T) (a : Act T) : Option (State T) :=
  if s.panicked then none
  else
    match a with
    | .call t r => if (s.th t).pc = .idle then some (call d_blocks s t r) else none
    | .step t => threadNext s t
    | .complete media =>
      match s.card.stat, s.card.outstanding with
      | .LHD_WORKING, op :: _ => some { s with card := s.card.complete d_blocks op media }
      | _, _ => none
    | .lhd_irq => some (lhd_irq s)

/-- As `config_lhd` leaves the driver; nobody is using the drive. -/
structure Booted (s : State T) : Prop where
  lh_clear : s.lh_clear = ⟨1, []⟩
  lh_done : s.lh_done = ⟨0, []⟩
  stat : s.card.stat = .LHD_IDLE
  outstanding : s.card.outstanding = []
  started : s.card.started = []
  log : s.card.log = []
  threads : ∀ t, (s.th t).pc = .idle ∧ (s.th t).seen = []

def lhdSystem (T : Type) [DecidableEq T] (d_blocks : Nat) : System (State T) (Act T) :=
  .ofNext Booted (next d_blocks)

end Model

/-! ## What is to hold -/

section Spec

variable {T : Type} [DecidableEq T]

/-- What the drive has recorded of the operations of a thread. -/
def Card.answers (c : Card T) (t : T) : List Record := (c.log.filter fun e => e.1.thread = t).map Prod.snd

def State.Inside (s : State T) (t : T) : Prop := (s.th t).pc.inside = true

/-- A call does not read into a read-only page. -/
def Writable (_ : State T) : Act T → Prop
  | .call _ r => r.uio_readonly = none
  | _ => True

end Spec

/-! ## Stages of a request -/

section Stages

variable {T : Type} [DecidableEq T] {c c' : Card T} {done done' : Nat} {t u : T} {x : Thread}

/-- The drive is not working, and nothing is left from an operation. -/
structure Quiet (c : Card T) (done : Nat) : Prop where
  stat : c.stat = .LHD_IDLE
  outstanding : c.outstanding = []
  done : done = 0

def Thread.op (t : T) (x : Thread) : Op T := ⟨t, x.request, x.rw, x.sect⟩

/-- A write has its data in the buffer. -/
def Loaded (c : Card T) (x : Thread) : Prop :=
  match x.rw with
  | .UIO_WRITE => x.filled = some c.lh_buf
  | .UIO_READ => x.filled = none

/-- The drive has answered `x` with the record. -/
structure Answer (c : Card T) (t : T) (x : Thread) (ans : Record) : Prop where
  outstanding : c.outstanding = []
  answers : c.answers t = x.seen ++ [ans]
  rw : ans.rw = x.rw
  sect : ans.sect = x.sect
  write : x.rw = .UIO_WRITE → ans.data = x.filled
  read : x.rw = .UIO_READ → x.filled = none ∧ ans.data = if ans.result = none then some c.lh_buf else none

/-- The answer is still there when the place of the thread changes. -/
theorem Answer.at {ans : Record} (h : Answer c t x ans) (pc : Pc) : Answer c t { x with pc := pc } ans :=
  { h with }

/-- The card while a thread is at some place in `lhd_io`. -/
def Stage (c : Card T) (done : Nat) (t : T) (x : Thread) : Pc → Prop
  | .idle => c.answers t = x.seen
  | .clear => c.answers t = x.seen ∧ x.filled = none
  | .fill => Quiet c done ∧ c.answers t = x.seen ∧ x.filled = none
  | .sect => Quiet c done ∧ c.answers t = x.seen ∧ Loaded c x
  | .start => Quiet c done ∧ c.answers t = x.seen ∧ Loaded c x ∧ c.sectreg = x.sect
  | .wait =>
    -- the drive is working, or the interrupt handler has not run yet, or it has
    (c.stat = .LHD_WORKING ∧ c.outstanding = [x.op t] ∧ done = 0 ∧ c.answers t = x.seen ∧ Loaded c x) ∨
      ∃ ans, Answer c t x ans ∧
        ((∃ report, c.stat = .done report ∧ done = 0 ∧ ans.result = lhd_code_to_errno report) ∨
          c.stat = .LHD_IDLE ∧ done = 1 ∧ ans.result = c.lh_result)
  | .result => ∃ ans, Answer c t x ans ∧ c.stat = .LHD_IDLE ∧ done = 0 ∧ ans.result = c.lh_result
  | .drain =>
    ∃ ans, Answer c t x ans ∧ c.stat = .LHD_IDLE ∧ done = 0 ∧ ans.result = none ∧ x.rw = .UIO_READ
  | .release _ => Quiet c done ∧ c.answers t = x.seen
  | .killed => Quiet c done

/-- A thread that has been terminated inside keeps the card. -/
def Pc.holds (pc : Pc) : Bool := pc.inside || pc = .killed

def State.Holding (s : State T) (t : T) : Prop := (s.th t).pc.holds = true

variable {pc : Pc}

/-- A thread that is outside does not depend on the card. -/
theorem Stage.outside (hpc : pc.holds = false) (hans : c'.answers t = c.answers t) (h : Stage c done t x pc) :
    Stage c' done' t x pc := by
  cases pc with
  | idle => exact hans.trans h
  | clear => exact ⟨hans.trans h.1, h.2⟩
  | _ => exact nomatch hpc

structure Inv (s : State T) : Prop where
  exclusive : ∃ k, Tally s.Holding k ∧ s.lh_clear.sem_count + k = 1
  stages : ∀ t, Stage s.card s.lh_done.sem_count t (s.th t) (s.th t).pc
  quiet : (∀ t, ¬ s.Holding t) → Quiet s.card s.lh_done.sem_count
  completed : s.card.started = s.card.log.map Prod.fst ++ s.card.outstanding

theorem Booted.inv {s : State T} (h : Booted s) : Inv s where
  exclusive := by
    refine ⟨0, .zero fun t hin => ?_, by rw [h.lh_clear]⟩
    rw [State.Holding, (h.threads t).1] at hin
    exact nomatch hin
  stages := by
    intro t
    obtain ⟨hpc, hseen⟩ := h.threads t
    rw [hpc]
    show s.card.answers t = (s.th t).seen
    rw [Card.answers, h.log, hseen]
    rfl
  quiet := fun _ => { h with done := by rw [h.lh_done] }
  completed := by rw [h.started, h.log, h.outstanding]; rfl

variable {s s' : State T}

theorem Inv.stage (h : Inv s) (hpc : (s.th t).pc = pc) : Stage s.card s.lh_done.sem_count t (s.th t) pc :=
  hpc ▸ h.stages t

omit [DecidableEq T] in
theorem holding_at (hpc : (s.th t).pc = pc) (hholds : pc.holds = true) : s.Holding t := by
  rw [State.Holding, hpc]
  exact hholds

/-- A thread alone in the critical section. -/
theorem Inv.alone (h : Inv s) (ht : s.Holding t) (hu : s.Holding u) : u = t := by
  obtain ⟨k, htally, hk⟩ := h.exclusive
  exact htally.unique (by omega) hu ht

/-- What one thread does to itself and to the card. -/
theorem Inv.moved (h : Inv s) (hth : s'.th = update s.th t x)
    (hclear : s'.lh_clear.sem_count + x.pc.holds.toNat = s.lh_clear.sem_count + (s.th t).pc.holds.toNat)
    (hstage : Stage s'.card s'.lh_done.sem_count t x x.pc)
    (hothers : ∀ u, u ≠ t → Stage s'.card s'.lh_done.sem_count u (s.th u) (s.th u).pc)
    (hquiet : (∀ u, u ≠ t → ¬ s.Holding u) → x.pc.holds = false → Quiet s'.card s'.lh_done.sem_count)
    (hcompleted : s'.card.started = s'.card.log.map Prod.fst ++ s'.card.outstanding) : Inv s' := by
  have hself : s'.th t = x := by rw [hth, update_self]
  have hother : ∀ u, u ≠ t → s'.th u = s.th u := fun u hu => by rw [hth, update_of_ne hu]
  constructor
  · obtain ⟨k, htally, hk⟩ := h.exclusive
    obtain ⟨k', htally', hk'⟩ := htally.update (p := fun x : Thread => x.pc.holds) t x
    rw [← hth] at htally'
    exact ⟨k', htally', by omega⟩
  · intro u
    by_cases hu : u = t
    · rw [hu, hself]
      exact hstage
    · rw [hother u hu]
      exact hothers u hu
  · intro hnone
    apply hquiet
    · intro u hu hin
      apply hnone u
      rwa [State.Holding, hother u hu]
    · have ht := hnone t
      rw [State.Holding, hself] at ht
      exact eq_false_of_ne_true ht
  · exact hcompleted

/-- What the thread in the critical section, the drive or the interrupt handler does for its operation. -/
theorem Inv.inside (h : Inv s) (ht : s.Holding t) (hth : s'.th = update s.th t x) (hx : x.pc.holds = true)
    (hclear : s'.lh_clear.sem_count = s.lh_clear.sem_count)
    (hothers : ∀ u, u ≠ t → s'.card.answers u = s.card.answers u)
    (hstage : Stage s'.card s'.lh_done.sem_count t x x.pc)
    (hcompleted : s'.card.started = s'.card.log.map Prod.fst ++ s'.card.outstanding) : Inv s' := by
  refine h.moved hth ?_ hstage ?_ (fun _ hf => absurd (hx.symm.trans hf) nofun) hcompleted
  · rw [hclear, hx, show (s.th t).pc.holds = true from ht]
  · intro u hu
    have hout : (s.th u).pc.holds = false := eq_false_of_ne_true fun hin => hu (h.alone ht hin)
    exact (h.stages u).outside hout (hothers u hu)

/-- What a thread does outside of the critical section. -/
theorem Inv.outside (h : Inv s) (ht : (s.th t).pc.holds = false) (hx : x.pc.holds = false)
    (hstage : Stage s.card s.lh_done.sem_count t x x.pc) : Inv (s.set t x) := by
  refine h.moved rfl (by rw [ht, hx]; rfl) hstage (fun u _ => h.stages u) ?_ h.completed
  intro hnone _
  refine h.quiet fun u hin => ?_
  by_cases hu : u = t
  · rw [hu, State.Holding, ht] at hin
    exact nomatch hin
  · exact hnone u hu hin

/-- Nobody moves. -/
theorem Inv.same (h : Inv s) (hth : s'.th = s.th) (hclear : s'.lh_clear.sem_count = s.lh_clear.sem_count)
    (hcard : s'.card = s.card) (hdone : s'.lh_done.sem_count = s.lh_done.sem_count) : Inv s' where
  exclusive := by
    rw [hclear]
    unfold State.Holding
    rw [hth]
    exact h.exclusive
  stages := by
    rw [hth, hcard, hdone]
    exact h.stages
  quiet := by
    unfold State.Holding
    rw [hth, hcard, hdone]
    exact h.quiet
  completed := by
    rw [hcard]
    exact h.completed

/-! ## Steps of a thread -/

theorem Card.answers_append {ans : Record} (hc : c'.log = c.log ++ [(x.op t, ans)]) :
    c'.answers t = c.answers t ++ [ans] ∧ ∀ u, u ≠ t → c'.answers u = c.answers u := by
  unfold Card.answers
  rw [hc]
  constructor
  · rw [List.filter_append, List.map_append]
    simp [Thread.op]
  · intro u hu
    rw [List.filter_append, List.map_append]
    simp [Thread.op, Ne.symm hu]

/-- A step within the critical section that leaves the log of the card and the semaphores alone. -/
theorem Inv.move (h : Inv s) (ht : s.Holding t) (c : Card T) (x : Thread) (hx : x.pc.holds = true)
    (hlog : c.log = s.card.log) (hstage : Stage c s.lh_done.sem_count t x x.pc)
    (hcompleted : c.started = c.log.map Prod.fst ++ c.outstanding) :
    Inv ({ s with card := c }.set t x) := by
  refine h.inside ht rfl hx rfl ?_ hstage hcompleted
  intro u _
  show c.answers u = s.card.answers u
  rw [Card.answers, Card.answers, hlog]

/-- What a step leaves of the local variables of its thread. -/
structure Kept (x y : Thread) : Prop where
  request : y.request = x.request
  round : x.i < x.request.len → y.i < y.request.len
  writable : x.uio.uio_readonly = none → y.uio.uio_readonly = none ∧ y.pc ≠ .killed

/-- What a step of a thread can do: to the local variables, to the buffer, which only a write before
its operation touches, and to the list of the operations started, which grows at one place. -/
structure Placed (s : State T) (t : T) (x : Thread) (pc : Pc) (s' : State T) : Prop where
  kept : ∃ y, s'.th = update s.th t y ∧ Kept x y
  buffer : s'.card.lh_buf ≠ s.card.lh_buf → pc = .fill
  started : s'.card.started = s.card.started ∨
    pc = .start ∧ s'.card.started = s.card.started ++ [⟨t, x.request, x.rw, s.card.sectreg⟩]

/-- A step that leaves the card alone. -/
theorem Placed.of_card {y : Thread} (hth : s'.th = update s.th t y) (hkept : Kept x y) (hcard : s'.card = s.card) :
    Placed s t x pc s' :=
  ⟨⟨y, hth, hkept⟩, fun hne => absurd (by rw [hcard]) hne, .inl (by rw [hcard])⟩

section

variable (h : Inv s)
include h

/-- The step is not taken, or only changes a semaphore. -/
theorem Inv.asleep (hpc : (s.th t).pc = pc) (hne : pc ≠ .killed) (hth : s'.th = s.th)
    (hclear : s'.lh_clear.sem_count = s.lh_clear.sem_count) (hcard : s'.card = s.card)
    (hdone : s'.lh_done.sem_count = s.lh_done.sem_count) : Inv s' ∧ Placed s t (s.th t) pc s' :=
  ⟨h.same hth hclear hcard hdone,
    .of_card (y := s.th t) (by rw [hth, update_eq_self]) ⟨rfl, id, fun hw => ⟨hw, hpc ▸ hne⟩⟩ hcard⟩

theorem Inv.step_clear (hpc : (s.th t).pc = .clear) (hstep : place s t (s.th t) .clear = some s') :
    Inv s' ∧ Placed s t (s.th t) .clear s' := by
  have hstage := h.stage hpc
  unfold place at hstep
  dsimp only [Sem.P] at hstep
  by_cases hcount : s.lh_clear.sem_count = 0
  · -- it goes to sleep
    rw [if_pos hcount] at hstep
    cases hstep
    exact h.asleep hpc nofun rfl rfl rfl rfl
  · rw [if_neg hcount] at hstep
    cases hstep
    obtain ⟨k, htally, hk⟩ := h.exclusive
    have hzero : k = 0 := by omega
    have hnone : ∀ u, ¬ s.Holding u := fun u hu => Nat.not_lt_zero _ (hzero ▸ htally.pos hu)
    refine ⟨?_, .of_card rfl ⟨rfl, id, fun hw => ⟨hw, nofun⟩⟩ rfl⟩
    refine h.moved rfl ?_ ⟨h.quiet hnone, hstage⟩ (fun u _ => h.stages u) (fun _ => nofun) h.completed
    rw [hpc]
    show s.lh_clear.sem_count - 1 + 1 = s.lh_clear.sem_count
    omega

theorem Inv.step_fill (hpc : (s.th t).pc = .fill) (hstep : place s t (s.th t) .fill = some s') :
    Inv s' ∧ Placed s t (s.th t) .fill s' := by
  obtain ⟨hquiet, hans, hfilled⟩ := h.stage hpc
  have hin := holding_at hpc rfl
  have hmove := fun hw => (s.th t).uio.move_writable hw []
  unfold place at hstep
  cases hrw : (s.th t).rw with
  | UIO_READ =>
    rw [hrw] at hstep
    cases hstep
    refine ⟨h.move hin s.card _ rfl rfl ⟨hquiet, hans, ?_⟩ h.completed,
      .of_card rfl ⟨rfl, id, fun hw => ⟨hw, nofun⟩⟩ rfl⟩
    show match (s.th t).rw with
      | .UIO_WRITE => _
      | .UIO_READ => _
    rw [hrw]
    exact hfilled
  | UIO_WRITE =>
    rw [hrw] at hstep
    cases hm : (s.th t).uio.move [] with
    | moved bytes r =>
      rw [hm] at hstep hmove
      cases hstep
      refine ⟨h.move hin { s.card with lh_buf := s.card.lh_buf.overwrite 0 bytes } _ rfl rfl
        ⟨{ hquiet with }, hans, ?_⟩ h.completed,
        ⟨_, rfl, rfl, id, fun hw => ⟨hmove hw, nofun⟩⟩, fun _ => rfl, .inl rfl⟩
      show match (s.th t).rw with
        | .UIO_WRITE => _
        | .UIO_READ => _
      rw [hrw]
    | failed e bytes r =>
      rw [hm] at hstep hmove
      cases hstep
      exact ⟨h.move hin { s.card with lh_buf := s.card.lh_buf.overwrite 0 bytes } _ rfl rfl
        ⟨{ hquiet with }, hans⟩ h.completed,
        ⟨_, rfl, rfl, id, fun hw => ⟨hmove hw, nofun⟩⟩, fun _ => rfl, .inl rfl⟩
    | killed =>
      rw [hm] at hstep hmove
      cases hstep
      exact ⟨h.move hin s.card _ rfl rfl hquiet h.completed, .of_card rfl ⟨rfl, id, fun hw => (hmove hw).elim⟩ rfl⟩
    | panicked =>
      rw [hm] at hstep
      cases hstep
      exact h.asleep hpc nofun rfl rfl rfl rfl

theorem Inv.step_sect (hpc : (s.th t).pc = .sect) (hstep : place s t (s.th t) .sect = some s') :
    Inv s' ∧ Placed s t (s.th t) .sect s' := by
  obtain ⟨hquiet, hans, hloaded⟩ := h.stage hpc
  cases hstep
  exact ⟨h.move (holding_at hpc rfl) { s.card with sectreg := (s.th t).sect } _ rfl rfl
    ⟨{ hquiet with }, hans, hloaded, rfl⟩ h.completed,
    ⟨_, rfl, rfl, id, fun hw => ⟨hw, nofun⟩⟩, fun hne => absurd rfl hne, .inl rfl⟩

theorem Inv.step_start (hpc : (s.th t).pc = .start) (hstep : place s t (s.th t) .start = some s') :
    Inv s' ∧ Placed s t (s.th t) .start s' := by
  obtain ⟨hquiet, hans, hloaded, hsect⟩ := h.stage hpc
  cases hstep
  refine ⟨h.move (holding_at hpc rfl) (s.card.start t (s.th t)) { s.th t with pc := .wait } rfl rfl
    (.inl ⟨rfl, ?_, hquiet.done, hans, hloaded⟩) ?_,
    ⟨_, rfl, rfl, id, fun hw => ⟨hw, nofun⟩⟩, fun hne => absurd rfl hne, .inr ⟨rfl, rfl⟩⟩
  · show s.card.outstanding ++ [⟨t, _, _, s.card.sectreg⟩] = _
    rw [hquiet.outstanding, hsect]
    rfl
  · show s.card.started ++ [_] = s.card.log.map Prod.fst ++ (s.card.outstanding ++ [_])
    rw [h.completed, List.append_assoc]

theorem Inv.step_wait (hpc : (s.th t).pc = .wait) (hstep : place s t (s.th t) .wait = some s') :
    Inv s' ∧ Placed s t (s.th t) .wait s' := by
  have hstage := h.stage hpc
  unfold place at hstep
  dsimp only [Sem.P] at hstep
  by_cases hcount : s.lh_done.sem_count = 0
  · rw [if_pos hcount] at hstep
    cases hstep
    exact h.asleep hpc nofun rfl rfl rfl rfl
  · rw [if_neg hcount] at hstep
    cases hstep
    refine ⟨?_, .of_card rfl ⟨rfl, id, fun hw => ⟨hw, nofun⟩⟩ rfl⟩
    -- the interrupt handler has counted up
    rcases hstage with ⟨-, -, hzero, -⟩ | ⟨ans, hanswer, ⟨report, -, hzero, -⟩ | ⟨hidle, hone, hresult⟩⟩
    · exact absurd hzero hcount
    · exact absurd hzero hcount
    · refine h.inside (holding_at hpc rfl) rfl rfl rfl (fun _ _ => rfl) ?_ h.completed
      refine ⟨ans, hanswer.at _, hidle, ?_, hresult⟩
      show s.lh_done.sem_count - 1 = 0
      omega

theorem Inv.step_result (hpc : (s.th t).pc = .result) (hstep : place s t (s.th t) .result = some s') :
    Inv s' ∧ Placed s t (s.th t) .result s' := by
  obtain ⟨ans, hanswer, hidle, hzero, hresult⟩ := h.stage hpc
  have hin := holding_at hpc rfl
  -- what the thread records is what the drive has recorded
  have hrelease : (¬ ((s.th t).rw = .UIO_READ ∧ s.card.lh_result = none)) →
      ans = ⟨(s.th t).rw, (s.th t).sect, s.card.lh_result, (s.th t).filled⟩ := by
    intro hnot
    have hdata : ans.data = (s.th t).filled := by
      cases hrw : (s.th t).rw with
      | UIO_WRITE => exact hanswer.write hrw
      | UIO_READ =>
        obtain ⟨hfilled, hdata⟩ := hanswer.read hrw
        rw [hdata, if_neg (by rw [hresult]; exact fun hnone => hnot ⟨hrw, hnone⟩), hfilled]
    have hrw := hanswer.rw
    have hsect := hanswer.sect
    cases ans
    simp_all
  have hquiet : Quiet s.card s.lh_done.sem_count := ⟨hidle, hanswer.outstanding, hzero⟩
  unfold place at hstep
  dsimp only at hstep
  split at hstep
  · rename_i hread
    cases hstep
    exact ⟨h.move hin s.card _ rfl rfl ⟨ans, hanswer.at _, hidle, hzero, hresult.trans hread.2, hread.1⟩ h.completed,
      .of_card rfl ⟨rfl, id, fun hw => ⟨hw, nofun⟩⟩ rfl⟩
  · rename_i hnot
    cases hstep
    refine ⟨h.move hin s.card _ rfl rfl ⟨hquiet, ?_⟩ h.completed, .of_card rfl ⟨rfl, id, fun hw => ⟨hw, nofun⟩⟩ rfl⟩
    rw [hanswer.answers, hrelease hnot]

theorem Inv.step_drain (hpc : (s.th t).pc = .drain) (hstep : place s t (s.th t) .drain = some s') :
    Inv s' ∧ Placed s t (s.th t) .drain s' := by
  obtain ⟨ans, hanswer, hidle, hzero, hresult, hrw⟩ := h.stage hpc
  have hin := holding_at hpc rfl
  have hmove := fun hw => (s.th t).uio.move_writable hw s.card.lh_buf.toList
  have hquiet : Quiet s.card s.lh_done.sem_count := ⟨hidle, hanswer.outstanding, hzero⟩
  have hans : s.card.answers t = (s.th t).seen ++ [⟨.UIO_READ, (s.th t).sect, none, some s.card.lh_buf⟩] := by
    have hdata := (hanswer.read hrw).2
    rw [if_pos hresult] at hdata
    have hsame : ans = ⟨.UIO_READ, (s.th t).sect, none, some s.card.lh_buf⟩ := by
      have hrw' := hanswer.rw
      have hsect := hanswer.sect
      cases ans
      simp_all
    rw [hanswer.answers, hsame]
  unfold place at hstep
  cases hm : (s.th t).uio.move s.card.lh_buf.toList with
  | moved bytes r | failed e bytes r =>
    rw [hm] at hstep hmove
    cases hstep
    exact ⟨h.move hin s.card _ rfl rfl ⟨hquiet, hans⟩ h.completed,
      .of_card rfl ⟨rfl, id, fun hw => ⟨hmove hw, nofun⟩⟩ rfl⟩
  | killed =>
    rw [hm] at hstep hmove
    cases hstep
    exact ⟨h.move hin s.card _ rfl rfl hquiet h.completed, .of_card rfl ⟨rfl, id, fun hw => (hmove hw).elim⟩ rfl⟩
  | panicked =>
    rw [hm] at hstep
    cases hstep
    exact h.asleep hpc nofun rfl rfl rfl rfl

/-- `V(lh_clear)`: the thread leaves, and with it everybody is outside. -/
theorem Inv.leave (ht : s.Holding t) (hx : x.pc.holds = false)
    (hquiet : Quiet s.card s.lh_done.sem_count) (hstage : Stage s.card s.lh_done.sem_count t x x.pc) :
    Inv ({ s with lh_clear := s.lh_clear.V }.set t x) := by
  refine h.moved rfl ?_ hstage (fun u _ => h.stages u) (fun _ _ => hquiet) h.completed
  rw [hx, show (s.th t).pc.holds = true from ht]
  rfl

theorem Inv.step_release {result : Option Errno} (hpc : (s.th t).pc = .release result)
    (hstep : place s t (s.th t) (.release result) = some s') : Inv s' ∧ Placed s t (s.th t) (.release result) s' := by
  obtain ⟨hquiet, hans⟩ := h.stage hpc
  have hin := holding_at hpc rfl
  unfold place at hstep
  cases result with
  | some e =>
    cases hstep
    exact ⟨h.leave hin rfl hquiet hans, .of_card rfl ⟨rfl, id, fun hw => ⟨hw, nofun⟩⟩ rfl⟩
  | none =>
    dsimp only at hstep
    split at hstep
    · rename_i hmore
      cases hstep
      exact ⟨h.leave hin rfl hquiet ⟨hans, rfl⟩, .of_card rfl ⟨rfl, fun _ => hmore, fun hw => ⟨hw, nofun⟩⟩ rfl⟩
    · cases hstep
      exact ⟨h.leave hin rfl hquiet hans, .of_card rfl ⟨rfl, id, fun hw => ⟨hw, nofun⟩⟩ rfl⟩

/-- **The step lemma** of a thread in `lhd_io`. -/
theorem Inv.place (hpc : (s.th t).pc = pc) (hstep : place s t (s.th t) pc = some s') :
    Inv s' ∧ Placed s t (s.th t) pc s' := by
  cases pc with
  | idle => exact nomatch hstep
  | killed => exact nomatch hstep
  | clear => exact h.step_clear hpc hstep
  | fill => exact h.step_fill hpc hstep
  | sect => exact h.step_sect hpc hstep
  | start => exact h.step_start hpc hstep
  | wait => exact h.step_wait hpc hstep
  | result => exact h.step_result hpc hstep
  | drain => exact h.step_drain hpc hstep
  | release r => exact h.step_release hpc hstep

/-! ## Calls, the drive and the interrupt handler -/

theorem Inv.call (d_blocks : Nat) (hpc : (s.th t).pc = .idle) (r : Request) :
    Inv (call d_blocks s t r) := by
  have hidle : Stage s.card s.lh_done.sem_count t (s.th t) .idle := h.stage hpc
  have hout : (s.th t).pc.holds = false := by rw [hpc]; rfl
  -- a call that is refused, or has nothing to do
  have hreturn : ∀ e, Inv (s.set t { s.th t with request := r, uio := r, returned := e }) := by
    intro e
    refine h.outside hout hout ?_
    rw [hpc]
    exact hidle
  unfold LhdRequests.call
  split
  · exact hreturn _
  · split
    · exact hreturn _
    · exact h.outside hout rfl ⟨hidle, rfl⟩

end

/-- Only while a thread waits for its operation can the drive be busy. -/
theorem Stage.at_rest (h : Stage c done t x pc) (hpc : pc.holds = true) (hwait : pc ≠ .wait) :
    c.stat = .LHD_IDLE ∧ c.outstanding = [] := by
  cases pc with
  | idle | clear => exact nomatch hpc
  | wait => exact absurd rfl hwait
  | killed => exact ⟨h.stat, h.outstanding⟩
  | fill | sect | start | release => exact ⟨h.1.stat, h.1.outstanding⟩
  | result | drain =>
    obtain ⟨ans, hanswer, hidle, -⟩ := h
    exact ⟨hidle, hanswer.outstanding⟩

/-- The drive is at rest, or a thread is waiting for it. -/
theorem Inv.rest_or_waiting (h : Inv s) :
    (s.card.stat = .LHD_IDLE ∧ s.card.outstanding = []) ∨ ∃ t, (s.th t).pc = .wait := by
  by_cases hnone : ∀ t, ¬ s.Holding t
  · exact .inl ⟨(h.quiet hnone).stat, (h.quiet hnone).outstanding⟩
  · obtain ⟨t, ht⟩ := Classical.not_forall.mp hnone
    by_cases hwait : (s.th t).pc = .wait
    · exact .inr ⟨t, hwait⟩
    · exact .inl ((h.stages t).at_rest (Classical.not_not.mp ht) hwait)

/-- When the drive is working or has not been asked for its result, the thread is waiting. -/
theorem Inv.waiting (h : Inv s) (hbusy : s.card.stat ≠ .LHD_IDLE) : ∃ t, (s.th t).pc = .wait :=
  h.rest_or_waiting.resolve_left fun hrest => hbusy hrest.1

omit [DecidableEq T] in
theorem Card.complete_fields (c : Card T) (d_blocks : Nat) (op : Op T) (media : Bool) :
    (c.complete d_blocks op media).stat = .done (op.report d_blocks media) ∧
      (c.complete d_blocks op media).outstanding = c.outstanding.tail ∧
      (c.complete d_blocks op media).started = c.started := by
  unfold Card.complete
  cases op.rw with
  | UIO_WRITE => exact ⟨rfl, rfl, rfl⟩
  | UIO_READ =>
    dsimp only
    split
    · exact ⟨rfl, rfl, rfl⟩
    · exact ⟨rfl, rfl, rfl⟩

omit [DecidableEq T] in
/-- The record that the drive makes of an operation. -/
theorem Card.complete_record (hloaded : Loaded c x) (d_blocks : Nat) (media : Bool) :
    ∃ ans : Record, (c.complete d_blocks (x.op t) media).log = c.log ++ [(x.op t, ans)] ∧ ans.rw = x.rw ∧
      ans.sect = x.sect ∧ ans.result = lhd_code_to_errno ((x.op t).report d_blocks media) ∧
      (x.rw = .UIO_WRITE → ans.data = x.filled) ∧
      (x.rw = .UIO_READ → x.filled = none ∧ ans.data =
        if ans.result = none then some (c.complete d_blocks (x.op t) media).lh_buf else none) := by
  have hop : (x.op t).rw = x.rw := rfl
  unfold Loaded at hloaded
  unfold Card.complete
  rw [hop]
  cases hrw : x.rw with
  | UIO_WRITE =>
    rw [hrw] at hloaded
    exact ⟨_, rfl, rfl, rfl, rfl, fun _ => hloaded.symm, nofun⟩
  | UIO_READ =>
    rw [hrw] at hloaded
    dsimp only
    by_cases hok : (x.op t).report d_blocks media = .LHD_OK
    · rw [if_pos hok, hok]
      exact ⟨_, rfl, rfl, rfl, rfl, nofun, fun _ => ⟨hloaded, rfl⟩⟩
    · rw [if_neg hok]
      refine ⟨_, rfl, rfl, rfl, rfl, nofun, fun _ => ⟨hloaded, ?_⟩⟩
      cases hreport : (x.op t).report d_blocks media with
      | LHD_OK => exact absurd hreport hok
      | LHD_INVSECT => rfl
      | LHD_MEDIA => rfl

theorem Inv.complete (h : Inv s) {op : Op T} {ops : List (Op T)} (hstat : s.card.stat = .LHD_WORKING)
    (hops : s.card.outstanding = op :: ops) (d_blocks : Nat) (media : Bool) :
    Inv { s with card := s.card.complete d_blocks op media } := by
  obtain ⟨t, hpc⟩ := h.waiting (by rw [hstat]; exact nofun)
  have hin := holding_at hpc rfl
  have hstage := h.stage hpc
  have hwait : s.card.outstanding = [(s.th t).op t] ∧ s.lh_done.sem_count = 0 ∧ s.card.answers t = (s.th t).seen ∧
      Loaded s.card (s.th t) := by
    rcases hstage with ⟨-, hout, hzero, hans, hloaded⟩ | ⟨ans, hanswer, -⟩
    · exact ⟨hout, hzero, hans, hloaded⟩
    · exact nomatch hops.symm.trans hanswer.outstanding
  obtain ⟨hout, hzero, hans, hloaded⟩ := hwait
  rw [hops] at hout
  obtain ⟨rfl, rfl⟩ := List.cons.inj hout
  obtain ⟨ans, hlog, hrw, hsect, hresult, hwrite, hread⟩ := Card.complete_record hloaded d_blocks media
  obtain ⟨hmine, hothers⟩ := Card.answers_append hlog
  obtain ⟨hstat', hout', hstarted'⟩ := s.card.complete_fields d_blocks ((s.th t).op t) media
  rw [hops] at hout'
  refine h.inside hin (update_eq_self t s.th).symm (by rw [hpc]; rfl) rfl hothers ?_ ?_
  · rw [hpc]
    exact .inr ⟨ans, ⟨hout', by rw [hmine, hans], hrw, hsect, hwrite, hread⟩, .inl ⟨_, hstat', hzero, hresult⟩⟩
  · show (s.card.complete d_blocks ((s.th t).op t) media).started = _
    rw [hstarted', hlog, hout', h.completed, hops]
    simp

theorem Inv.lhd_irq (h : Inv s) : Inv (lhd_irq s) := by
  unfold LhdRequests.lhd_irq
  split
  · exact h
  · exact h
  · rename_i report hstat
    obtain ⟨t, hpc⟩ := h.waiting (by rw [hstat]; exact nofun)
    have hin := holding_at hpc rfl
    have hstage := h.stage hpc
    refine h.inside hin (update_eq_self t s.th).symm (by rw [hpc]; rfl) rfl (fun _ _ => rfl) ?_ h.completed
    rw [hpc]
    rcases hstage with ⟨hworking, -⟩ | ⟨ans, hanswer, ⟨report', hstat', hzero, hresult⟩ | ⟨hidle, -⟩⟩
    · exact nomatch hstat.symm.trans hworking
    · have hreport : report' = report := LhdStat.done.inj (hstat'.symm.trans hstat)
      rw [hreport] at hresult
      refine .inr ⟨ans, { hanswer with },
        .inr ⟨rfl, ?_, hresult⟩⟩
      show s.lh_done.sem_count + 1 = 1
      omega
    · exact nomatch hstat.symm.trans hidle

/-- What can happen. -/
theorem next_cases {d_blocks : Nat} {a : Act T} (hstep : next d_blocks s a = some s') :
    (∃ t r, a = .call t r ∧ (s.th t).pc = .idle ∧ s' = call d_blocks s t r) ∨
    (∃ t, a = .step t ∧ (s.th t).pc ≠ .idle ∧ place s t (s.th t) (s.th t).pc = some s') ∨
    (∃ media op ops, a = .complete media ∧ s.card.stat = .LHD_WORKING ∧ s.card.outstanding = op :: ops ∧
      s' = { s with card := s.card.complete d_blocks op media }) ∨
    (a = .lhd_irq ∧ s' = lhd_irq s) := by
  unfold next at hstep
  rw [Option.ite_none_left_eq_some] at hstep
  replace hstep := hstep.2
  cases a with
  | call t r =>
    rw [Option.ite_none_right_eq_some] at hstep
    exact .inl ⟨t, r, rfl, hstep.1, (Option.some.inj hstep.2).symm⟩
  | step t =>
    unfold threadNext at hstep
    rw [Option.ite_none_left_eq_some] at hstep
    refine .inr (.inl ⟨t, rfl, fun hidle => ?_, hstep.2⟩)
    rw [hidle] at hstep
    exact nomatch hstep.2
  | complete media =>
    dsimp only at hstep
    split at hstep
    · rename_i op ops hstat hops
      exact .inr (.inr (.inl ⟨media, op, ops, rfl, hstat, hops, (Option.some.inj hstep).symm⟩))
    · exact nomatch hstep
  | lhd_irq => exact .inr (.inr (.inr ⟨rfl, (Option.some.inj hstep).symm⟩))

theorem Inv.next (h : Inv s) {d_blocks : Nat} {a : Act T} (hstep : next d_blocks s a = some s') :
    Inv s' := by
  rcases next_cases hstep with ⟨t, r, -, hpc, rfl⟩ | ⟨t, -, -, hplace⟩ | ⟨media, op, ops, -, hstat, hops, rfl⟩ | ⟨-, rfl⟩
  · exact h.call d_blocks hpc r
  · exact (h.place rfl hplace).1
  · exact h.complete hstat hops d_blocks media
  · exact h.lhd_irq

/-! ## Nobody is terminated -/

/-- No thread has been terminated, or is going to be. -/
def Safe (s : State T) : Prop :=
  ∀ t, (s.th t).pc ≠ .killed ∧ ((s.th t).pc ≠ .idle → (s.th t).uio.uio_readonly = none)

theorem Safe.set (h : Safe s) (hth : s'.th = update s.th t x)
    (hx : x.pc ≠ .killed ∧ (x.pc ≠ .idle → x.uio.uio_readonly = none)) : Safe s' := by
  unfold Safe
  rw [hth]
  exact (Function.forall_update_iff s.th fun _ y => y.pc ≠ .killed ∧ (y.pc ≠ .idle → y.uio.uio_readonly = none)).mpr
    ⟨hx, fun u _ => h u⟩

omit [DecidableEq T] in
theorem Safe.same (h : Safe s) (hth : s'.th = s.th) : Safe s' := by
  unfold Safe
  rw [hth]
  exact h

theorem Safe.next (h : Safe s) (hinv : Inv s) {d_blocks : Nat} {a : Act T} (hw : Writable s a)
    (hstep : next d_blocks s a = some s') : Safe s' := by
  rcases next_cases hstep with ⟨t, r, rfl, -, rfl⟩ | ⟨t, -, hbusy, hplace⟩ | ⟨media, op, ops, -, -, -, rfl⟩ | ⟨-, rfl⟩
  · have hr : r.uio_readonly = none := hw
    have hkilled : (s.th t).pc ≠ .killed := (h t).1
    unfold call
    split
    · exact h.set rfl ⟨hkilled, fun _ => hr⟩
    · split
      · exact h.set rfl ⟨hkilled, fun _ => hr⟩
      · exact h.set rfl ⟨nofun, fun _ => hr⟩
  · obtain ⟨y, hth, hkept⟩ := (hinv.place rfl hplace).2.kept
    obtain ⟨hw, hkilled⟩ := hkept.writable ((h t).2 hbusy)
    exact h.set hth ⟨hkilled, fun _ => hw⟩
  · exact h.same rfl
  · apply h.same
    unfold lhd_irq
    split <;> rfl

/-! ## Requests do not interfere -/

theorem Inv.outstanding (h : Inv s) : s.card.outstanding = [] ∨ ∃ t, s.card.outstanding = [(s.th t).op t] ∧ (s.th t).pc = .wait := by
  rcases h.rest_or_waiting with hrest | ⟨t, hpc⟩
  · exact .inl hrest.2
  · rcases h.stage hpc with ⟨-, hout, -⟩ | ⟨ans, hanswer, -⟩
    · exact .inr ⟨t, hout, hpc⟩
    · exact .inl hanswer.outstanding

theorem Inv.answered (h : Inv s) (hkilled : (s.th t).pc ≠ .killed) : ∃ pending, s.card.answers t = (s.th t).seen ++ pending ∧
    pending.length ≤ 1 ∧ (pending ≠ [] → (s.th t).pc = .wait ∨ (s.th t).pc = .result ∨ (s.th t).pc = .drain) := by
  have hstage := h.stages t
  -- no operation of the thread is waiting to be seen
  have hnone : s.card.answers t = (s.th t).seen → ∃ pending, s.card.answers t = (s.th t).seen ++ pending ∧
      pending.length ≤ 1 ∧ (pending ≠ [] → (s.th t).pc = .wait ∨ (s.th t).pc = .result ∨ (s.th t).pc = .drain) :=
    fun hans => ⟨[], by rw [List.append_nil]; exact hans, Nat.zero_le _, fun hne => absurd rfl hne⟩
  cases hpc : (s.th t).pc with
  | killed => exact absurd hpc hkilled
  | idle => rw [hpc] at hstage hnone; exact hnone hstage
  | clear => rw [hpc] at hstage hnone; exact hnone hstage.1
  | fill | sect | start => rw [hpc] at hstage hnone; exact hnone hstage.2.1
  | release r => rw [hpc] at hstage hnone; exact hnone hstage.2
  | wait =>
    rw [hpc] at hstage hnone
    rcases hstage with ⟨-, -, -, hans, -⟩ | ⟨ans, hanswer, -⟩
    · exact hnone hans
    · exact ⟨[ans], hanswer.answers, Nat.le_refl _, fun _ => .inl rfl⟩
  | result =>
    rw [hpc] at hstage
    obtain ⟨ans, hanswer, -⟩ := hstage
    exact ⟨[ans], hanswer.answers, Nat.le_refl _, fun _ => .inr (.inl rfl)⟩
  | drain =>
    rw [hpc] at hstage
    obtain ⟨ans, hanswer, -⟩ := hstage
    exact ⟨[ans], hanswer.answers, Nat.le_refl _, fun _ => .inr (.inr rfl)⟩

end Stages

/-! ## The range check -/

section Range

variable {T : Type} [DecidableEq T] {s s' : State T} {t : T} {d_blocks : Nat} {r : Request}

/-- Offset and size are multiples of the sector size. -/
def Aligned (u : Uio) : Prop := (BLOCKSIZE : Int) ∣ u.uio_offset ∧ BLOCKSIZE ∣ u.uio_resid

/-- The request is in the disk. -/
def InDisk (d_blocks : Nat) (u : Uio) : Prop :=
  0 ≤ u.uio_offset ∧ u.uio_offset + u.uio_resid ≤ d_blocks * BLOCKSIZE

/-- What the range check is for. -/
structure RangeOk (T : Type) [DecidableEq T] (d_blocks : Nat) (r : Request) : Prop where
  /-- Operations for the request are on sectors of the disk that are parts of the request. -/
  operations : ∀ s, System.Reachable (lhdSystem T d_blocks) s → ∀ op ∈ s.card.started, op.request = r →
    op.sect < d_blocks ∧ r.uio.uio_offset ≤ op.sect * BLOCKSIZE ∧
      op.sect * BLOCKSIZE + BLOCKSIZE ≤ r.uio.uio_offset + r.uio.uio_resid
  /-- Other requests return `EINVAL`, and nothing else happens. -/
  refused : ¬ (Aligned r.uio ∧ InDisk d_blocks r.uio) → ∀ (s : State T) t s', next d_blocks s (.call t r) = some s' →
    s' = s.set t { s.th t with request := r, uio := r, returned := some (some .einval) }

/-- The sector numbers of the request are those that the 32-bit variables hold, or the check refuses it by chance. -/
def NoWrap (d_blocks : Nat) (r : Request) : Prop :=
  Aligned r.uio → (0 ≤ r.uio.uio_offset ∧ r.uio.uio_offset / BLOCKSIZE + r.len < 2 ^ 32) ∨
    d_blocks < (r.sector + r.len) % 2 ^ 32

theorem Request.check_aligned (r : Request) : (r.sectoff ≠ 0 ∨ r.lenoff ≠ 0) ↔ ¬ Aligned r.uio := by
  unfold sectoff lenoff Aligned
  rw [Int.dvd_iff_tmod_eq_zero, Nat.dvd_iff_mod_eq_zero, Classical.not_and_iff_not_or_not]

theorem Request.check_none : r.check d_blocks = none ↔ Aligned r.uio ∧ (r.sector + r.len) % 2 ^ 32 ≤ d_blocks := by
  unfold check
  by_cases ha : Aligned r.uio
  · rw [if_neg (by rw [r.check_aligned]; exact not_not_intro ha)]
    by_cases hsum : (r.sector + r.len) % 2 ^ 32 > d_blocks
    · rw [if_pos hsum]
      exact ⟨nofun, fun h => absurd h.2 (by omega)⟩
    · rw [if_neg hsum]
      exact ⟨fun _ => ⟨ha, by omega⟩, fun _ => rfl⟩
  · rw [if_pos (r.check_aligned.mpr ha)]
    exact ⟨nofun, fun h => absurd h.1 ha⟩

theorem Request.check_some {e : Errno} (h : r.check d_blocks = some e) : e = .einval := by
  unfold check at h
  split at h
  · exact (Option.some.inj h).symm
  · split at h
    · exact (Option.some.inj h).symm
    · exact nomatch h

/-- Threads in `lhd_io` have passed the check, and so have the requests of all operations. -/
structure RangeInv (d_blocks : Nat) (s : State T) : Prop where
  threads : ∀ t, (s.th t).pc ≠ .idle →
    (s.th t).request.check d_blocks = none ∧ (s.th t).i < (s.th t).request.len
  started : ∀ op ∈ s.card.started, op.request.check d_blocks = none ∧
    ∃ i, i < op.request.len ∧ op.sect = (op.request.sector + i) % 2 ^ 32

theorem RangeInv.call (h : RangeInv d_blocks s) (hpc : (s.th t).pc = .idle) : RangeInv d_blocks (call d_blocks s t r) := by
  have hset : ∀ x : Thread, (x.pc ≠ .idle → x.request.check d_blocks = none ∧ x.i < x.request.len) →
      RangeInv d_blocks (s.set t x) := by
    intro x hx
    exact ⟨(Function.forall_update_iff s.th fun _ y => y.pc ≠ .idle → y.request.check d_blocks = none ∧
      y.i < y.request.len).mpr ⟨hx, fun u _ => h.threads u⟩, h.started⟩
  unfold LhdRequests.call
  split
  · exact hset _ fun hne => absurd hpc hne
  · rename_i hcheck
    split
    · exact hset _ fun hne => absurd hpc hne
    · exact hset _ fun _ => ⟨hcheck, by dsimp only; omega⟩

theorem RangeInv.next (h : RangeInv d_blocks s) (hinv : Inv s) {a : Act T} (hstep : next d_blocks s a = some s') :
    RangeInv d_blocks s' := by
  rcases next_cases hstep with ⟨t, r, -, hpc, rfl⟩ | ⟨t, -, hgo, hplace⟩ | ⟨media, op, ops, -, -, -, rfl⟩ | ⟨-, rfl⟩
  · exact h.call hpc
  · obtain ⟨hcheck, hround⟩ := h.threads t hgo
    obtain ⟨-, hplaced⟩ := hinv.place rfl hplace
    obtain ⟨y, hth, hkept⟩ := hplaced.kept
    constructor
    · rw [hth]
      exact (Function.forall_update_iff s.th fun _ y => y.pc ≠ .idle → y.request.check d_blocks = none ∧
        y.i < y.request.len).mpr ⟨fun _ => ⟨hkept.request ▸ hcheck, hkept.round hround⟩, fun u _ => h.threads u⟩
    · intro op hop
      rcases hplaced.started with hsame | ⟨hpc, hnew⟩
      · rw [hsame] at hop
        exact h.started op hop
      · rw [hnew] at hop
        rcases List.mem_append.mp hop with hop | hop
        · exact h.started op hop
        · -- nobody has written to the sector register since the thread has
          rw [List.mem_singleton.mp hop]
          exact ⟨hcheck, (s.th t).i, hround, (hinv.stage hpc).2.2.2⟩
  · refine ⟨h.threads, ?_⟩
    rw [(s.card.complete_fields d_blocks op media).2.2]
    exact h.started
  · unfold lhd_irq
    split
    · exact h
    · exact h
    · exact ⟨h.threads, h.started⟩

/-- A machine on which nobody has used the drive. -/
def idleState (T : Type) (r : Request) : State T where
  lh_clear := ⟨1, []⟩
  lh_done := ⟨0, []⟩
  card := ⟨.LHD_IDLE, 0, .zeros, fun _ => .zeros, none, [], [], []⟩
  th := fun _ => ⟨.idle, r, r, 0, none, [], none⟩
  panicked := false

/-- An aligned request, in sectors. -/
theorem Request.in_sectors (ha : Aligned r.uio) : ∃ (k : Int) (m : Nat), r.uio.uio_offset = 512 * k ∧
    r.uio.uio_resid = 512 * m ∧ r.sector = (k % 2 ^ 32).toNat ∧ r.len = m ∧ r.uio.uio_offset / BLOCKSIZE = k := by
  obtain ⟨⟨k, hk⟩, m, hm⟩ := ha
  refine ⟨k, m, hk, hm, ?_, ?_, ?_⟩
  · unfold sector
    rw [hk, Int.mul_tdiv_cancel_left k (by decide)]
  · unfold len
    rw [hm, Nat.mul_div_cancel_left m (by decide)]
  · rw [hk]
    exact Int.mul_ediv_cancel_left k (by decide)

theorem inDisk_iff (u : Uio) : InDisk d_blocks u ↔ 0 ≤ u.uio_offset ∧ u.uio_offset + u.uio_resid ≤ d_blocks * 512 :=
  Iff.rfl

/-- A request that is accepted without wrapping around. -/
theorem NoWrap.accepted (h : NoWrap d_blocks r) (hcheck : r.check d_blocks = none) :
    ∃ k m : Nat, r.uio.uio_offset = 512 * k ∧ r.uio.uio_resid = 512 * m ∧ r.sector = k ∧ r.len = m ∧ k + m ≤ d_blocks ∧
      k + m < 2 ^ 32 := by
  obtain ⟨ha, hsum⟩ := Request.check_none.mp hcheck
  obtain ⟨h0, hwrap⟩ := (h ha).resolve_right (by omega)
  obtain ⟨k, m, hk, hm, hsector, hlen, hdiv⟩ := Request.in_sectors ha
  rw [hdiv, hlen] at hwrap
  have hsmall : r.sector = k.toNat := by omega
  rw [hsmall, hlen] at hsum
  exact ⟨k.toNat, m, by omega, hm, hsmall, hlen, by omega, by omega⟩

/-- **The range check is right** just for the requests whose sector numbers do not wrap around, or
are refused all the same. -/
theorem lhd_io_range_iff (t : T) (hd : d_blocks < 2 ^ 32) : RangeOk T d_blocks r ↔ NoWrap d_blocks r := by
  constructor
  · intro h ha
    by_cases hsum : d_blocks < (r.sector + r.len) % 2 ^ 32
    · exact .inr hsum
    · refine .inl ?_
      -- the check accepts the request, so it must be in the disk
      have hcheck : r.check d_blocks = none := Request.check_none.mpr ⟨ha, by omega⟩
      have hin : InDisk d_blocks r.uio := by
        apply Classical.byContradiction
        intro hout
        have hcall : next d_blocks (idleState T r) (.call t r) = some (call d_blocks (idleState T r) t r) := rfl
        have hrefused := h.refused (fun hboth => hout hboth.2) (idleState T r) t _ hcall
        have hreturned := congrArg (fun s : State T => (s.th t).returned) hrefused
        unfold call at hreturned
        rw [hcheck] at hreturned
        dsimp only at hreturned
        split at hreturned
        · simp [State.set] at hreturned
        · simp [State.set, idleState] at hreturned
      obtain ⟨k, m, hk, hm, -, hlen, hdiv⟩ := Request.in_sectors ha
      obtain ⟨h0, h1⟩ := (inDisk_iff r.uio).mp hin
      refine ⟨h0, ?_⟩
      rw [hdiv, hlen]
      omega
  · intro h
    constructor
    · intro s hs op hop hr
      have hinv : Inv s ∧ RangeInv d_blocks s := by
        apply System.invariant (I := fun s => Inv s ∧ RangeInv d_blocks s) ?_ ?_ hs
        · intro s hboot
          refine ⟨hboot.inv, fun u hu => absurd (hboot.threads u).1 hu, fun op hop => ?_⟩
          rw [hboot.started] at hop
          exact absurd hop List.not_mem_nil
        · intro s a s' h hstep
          exact ⟨h.1.next hstep, h.2.next h.1 hstep⟩
      obtain ⟨hcheck, i, hi, hsect⟩ := hinv.2.started op hop
      rw [hr] at hcheck hi hsect
      obtain ⟨k, m, hk, hm, hsector, hlen, hle, hlt⟩ := h.accepted hcheck
      show op.sect < d_blocks ∧ r.uio.uio_offset ≤ op.sect * 512 ∧ _ * 512 + 512 ≤ _
      omega
    · intro hbad s t s' hstep
      unfold next at hstep
      rw [Option.ite_none_left_eq_some] at hstep
      replace hstep := hstep.2
      rw [Option.ite_none_right_eq_some] at hstep
      obtain ⟨-, hcall⟩ := hstep
      cases hcall
      cases hcheck : r.check d_blocks with
      | some e =>
        unfold call
        rw [hcheck, Request.check_some hcheck]
      | none =>
        -- an accepted request without wrapping is in the disk
        obtain ⟨k, m, hk, hm, -, -, hle, -⟩ := h.accepted hcheck
        refine absurd ⟨(Request.check_none.mp hcheck).1, (inDisk_iff r.uio).mpr ?_⟩ hbad
        omega

end Range

/-! ## Runs -/

/-- A request of one sector at an offset, into the kernel or into memory of a process. -/
def sampleRequest (offset : Int) (uio_segflg : UioSeg) (uio_readonly : Option Nat) : Request where
  uio := { uio_kinit (List.replicate 512 0) offset .UIO_READ with uio_segflg := uio_segflg }
  uio_readonly := uio_readonly

theorem idleState_booted {T : Type} (r : Request) : Booted (idleState T r) :=
  ⟨rfl, rfl, rfl, rfl, rfl, rfl, fun _ => ⟨rfl, rfl⟩⟩

/-- A request for the second sector of a disk. -/
theorem lhd_io_range_second : RangeOk Unit 8 (sampleRequest 512 .UIO_SYSSPACE none) :=
  (lhd_io_range_iff () (by decide)).mpr fun _ => .inl ⟨by decide, by decide +kernel⟩

/-- **A request far behind the end of the disk is done in its first sector.** -/
theorem lhd_io_wraps : ¬ RangeOk Unit 8 (sampleRequest (2 ^ 41) .UIO_SYSSPACE none) ∧
    ∃ s, System.Reachable (lhdSystem Unit 8) s ∧
      s.card.started.map (fun op => (op.request.uio.uio_offset, op.sect)) = [(2 ^ 41, 0)] := by
  constructor
  · intro h
    have hout : ¬ (Aligned (sampleRequest (2 ^ 41) .UIO_SYSSPACE none).uio ∧
        InDisk 8 (sampleRequest (2 ^ 41) .UIO_SYSSPACE none).uio) := fun hboth => absurd hboth.2.2 (by decide +kernel)
    have hrefused := h.refused hout (idleState Unit (sampleRequest 0 .UIO_SYSSPACE none)) () _ rfl
    exact absurd (congrArg (fun s : State Unit => (s.th ()).returned) hrefused) (by decide +kernel)
  · exact System.exists_reachable (idleState_booted (sampleRequest 0 .UIO_SYSSPACE none))
      [.call () (sampleRequest (2 ^ 41) .UIO_SYSSPACE none), .step (), .step (), .step (), .step ()] (by decide +kernel)

instance instDecidableWritable {T : Type} (s : State T) (a : Act T) : Decidable (Writable s a) :=
  match a with
  | .call _ r => inferInstanceAs (Decidable (r.uio_readonly = none))
  | .step _ | .complete _ | .lhd_irq => .isTrue trivial

end OS161.LhdRequests
