import OS161.Exec.CopyInOut
import OS161.Lib.Uio
import OS161.Proc.FdChecks

/-! # Sequences of reads and writes on one descriptor

What `sys_read` and `sys_write` (`kern/syscall/{read,write}_syscalls.c`) do once they have found
the `struct fd`: a `uio` is set up at offset 0, handed to the file, and what is left in
`uio_resid` becomes the return value. A `struct fd` has no position. `sys_write` copies the data
to a buffer that it gets with `kmalloc(sizeof(buf))`, the size of a pointer.

Files are anything that moves bytes the way a regular file does (`RegularFile`). Main result:
`sequenced_iff`.
-/

namespace OS161

open Framework

/-! ## Files -/

/-- The operations of a regular file in state `F`: they return the new state, the `uio` and the
error, if any. What a write does to the contents is left open. -/
structure RegularFile (F : Type) where
  contents : F → List UInt8
  vop_read : F → Uio → F × Uio × Option Errno
  vop_write : F → Uio → F × Uio × Option Errno
  /-- A read moves bytes of the file; without an error all that there are. -/
  read_moved : ∀ f u, u.WF → u.uio_rw = .UIO_READ → 0 ≤ u.uio_offset →
    ∃ bytes, Uio.Moved u (vop_read f u).2.1 bytes ∧
      bytes <+: ((contents f).drop u.uio_offset.toNat).take u.uio_resid ∧
      ((vop_read f u).2.2 = none →
        bytes = ((contents f).drop u.uio_offset.toNat).take u.uio_resid)
  /-- A write moves bytes of the buffer; without an error all of them. -/
  write_moved : ∀ f u, u.WF → u.uio_rw = .UIO_WRITE → 0 ≤ u.uio_offset →
    ∃ bytes, Uio.Moved u (vop_write f u).2.1 bytes ∧
      ((vop_write f u).2.2 = none → (vop_write f u).2.1.uio_resid = 0)

/-- A buffer of the caller that can be accessed. -/
structure UserBuffer where
  addr : Nat
  bytes : List UInt8
  valid : addr + bytes.length ≤ COPYTOP

/-- The calls on the descriptor, with their buffers. -/
inductive IoCall where
  | read (buf : UserBuffer)
  | write (buf : UserBuffer)

/-- What is to be seen of a call. -/
structure IoRecord where
  /-- The number of bytes asked for. -/
  len : Nat
  /-- The offset at which the file starts, if the call gets that far. -/
  started : Option Int
  /-- The offset at which it ended. -/
  ended : Int
  moved : List UInt8
  /-- The error, or `*retval`. -/
  result : Except Errno Nat
  /-- The size of the kernel buffer, if there is one. -/
  kbuf : Option Nat

/-! ## The calls -/

/-- `sizeof(buf)`: a pointer. -/
abbrev SIZEOF_BUF : Nat := 4

/-- The access check of both calls, on the flags of the `struct fd`. -/
def fd_refuses (fd_flag mode : UInt32) : Prop :=
  fd_flag &&& mode ≠ mode ∧ fd_flag &&& O_RDWR ≠ O_RDWR

instance instDecidableFdRefuses (fd_flag mode : UInt32) : Decidable (fd_refuses fd_flag mode) :=
  inferInstanceAs (Decidable (_ ∧ _))

/-- A call that does not get to the file. -/
def refused (len : Nat) (e : Errno) (kbuf : Option Nat) : IoRecord where
  len := len
  started := none
  ended := 0
  moved := []
  result := .error e
  kbuf := kbuf

/-- A call that has handed `u` to the file, which has returned `u'` and the error. -/
def transferred (u u' : Uio) (e : Option Errno) (kbuf : Option Nat) : IoRecord where
  len := u.uio_resid
  started := some u.uio_offset
  ended := u'.uio_offset
  moved := u'.moved
  result := match e with
    | some e => .error e
    | none => .ok u'.uio_resid
  kbuf := kbuf

variable {F : Type}

/-- `sys_read` on an open descriptor. -/
def read_file (ops : RegularFile F) (fd_flag : UInt32) (f : F) (buf : UserBuffer) : F × IoRecord :=
  if fd_refuses fd_flag O_RDONLY then (f, refused buf.bytes.length .ebadf none)
  else
    let u := uio_kinit buf.bytes 0 .UIO_READ
    let r := ops.vop_read f u
    (r.1, transferred u r.2.1 r.2.2 none)

/-- `sys_write` on an open descriptor; `copyin` fills the kernel buffer. -/
def write_file (ops : RegularFile F) (fd_flag : UInt32) (f : F) (buf : UserBuffer) : F × IoRecord :=
  if fd_refuses fd_flag O_WRONLY then (f, refused buf.bytes.length .ebadf none)
  else
    match copycheck buf.addr buf.bytes.length with
    | .error _ => (f, refused buf.bytes.length .efault (some SIZEOF_BUF))
    | .ok stoplen =>
      if stoplen ≠ buf.bytes.length then
        (f, refused buf.bytes.length .efault (some SIZEOF_BUF))
      else
        let u := uio_kinit buf.bytes 0 .UIO_WRITE
        let r := ops.vop_write f u
        (r.1, transferred u r.2.1 r.2.2 (some SIZEOF_BUF))

def io_call (ops : RegularFile F) (fd_flag : UInt32) (f : F) : IoCall → F × IoRecord
  | .read buf => read_file ops fd_flag f buf
  | .write buf => write_file ops fd_flag f buf

/-- The records of a sequence of calls. -/
def io_run (ops : RegularFile F) (fd_flag : UInt32) : F → List IoCall → List IoRecord
  | _, [] => []
  | f, c :: rest => (io_call ops fd_flag f c).2 :: io_run ops fd_flag (io_call ops fd_flag f c).1 rest

/-! ## The property -/

/-- A call is right if it starts at the position `pos`, returns the number of bytes that it has
transferred, and has room for them in the kernel. -/
structure IoRecord.Right (r : IoRecord) (pos : Int) : Prop where
  started : ∀ o, r.started = some o → o = pos
  retval : ∀ n, r.result = .ok n → n = r.moved.length
  room : ∀ b, r.kbuf = some b → r.len ≤ b

/-- Every call starts where the one before has ended. -/
def Sequenced : (pos : Int) → List IoRecord → Prop
  | _, [] => True
  | pos, r :: rest =>
    r.Right pos ∧ Sequenced (if r.started = none then pos else r.ended) rest

/-- The call does not get to the file. -/
def IoCall.Refused (fd_flag : UInt32) : IoCall → Prop
  | .read _ => fd_refuses fd_flag O_RDONLY
  | .write buf => fd_refuses fd_flag O_WRONLY ∨ buf.bytes = []

/-- A first call that is right: it is refused, or a read that fails or asks for twice the size of
the file (or for nothing), or a write of at most four bytes that fails. -/
def IoCall.Fine (ops : RegularFile F) (fd_flag : UInt32) (f : F) (c : IoCall) : Prop :=
  c.Refused fd_flag ∨
  match c with
  | .read buf =>
    (ops.vop_read f (uio_kinit buf.bytes 0 .UIO_READ)).2.2 ≠ none ∨ buf.bytes = [] ∨
      buf.bytes.length = 2 * (ops.contents f).length
  | .write buf =>
    (ops.vop_write f (uio_kinit buf.bytes 0 .UIO_WRITE)).2.2 ≠ none ∧
      buf.bytes.length ≤ SIZEOF_BUF

/-- The condition on a sequence: every call is right by itself, and after the first one that moves a
byte none gets to the file. -/
def SequenceFine (ops : RegularFile F) (fd_flag : UInt32) : F → List IoCall → Prop
  | _, [] => True
  | f, c :: rest =>
    c.Fine ops fd_flag f ∧
      if (io_call ops fd_flag f c).2.moved = [] then
        SequenceFine ops fd_flag (io_call ops fd_flag f c).1 rest
      else ∀ c' ∈ rest, c'.Refused fd_flag

/-! ## One call -/

/-- `copyin` of an accessible buffer fails only if it is empty. -/
theorem copycheck_valid (buf : UserBuffer) :
    copycheck buf.addr buf.bytes.length = .ok buf.bytes.length ↔ buf.bytes ≠ [] := by
  constructor
  · intro h hnil
    have htop : COPYTOP = 2147483648 := rfl
    have hvalid := buf.valid
    rw [hnil] at h hvalid
    unfold copycheck at h
    simp only [List.length_nil, ge_iff_le] at h
    split at h
    · cases h
    · split at h
      · cases h
      · split at h
        · have := Except.ok.inj h
          omega
        · simp only [List.length_nil] at hvalid
          omega
  · intro hne
    exact copycheck_ok (List.length_pos_iff.mpr hne) buf.valid

/-- The `uio` of a call has the room that it promises. -/
theorem UserBuffer.uio_wf (buf : UserBuffer) (rw : UioRw) : (uio_kinit buf.bytes 0 rw).WF where
  enough := by simp [uio_kinit, Uio.rest]
  range := by
    have htop : COPYTOP = 2147483648 := rfl
    have hvalid := buf.valid
    show buf.bytes.length < 2 ^ 32
    omega

/-! ### Calls that do not get to the file -/

section Call

variable (ops : RegularFile F) (fd_flag : UInt32) (f : F)

theorem io_call_refused {c : IoCall} (h : c.Refused fd_flag) :
    ∃ len e kbuf, io_call ops fd_flag f c = (f, refused len e kbuf) ∧
      ∀ b, kbuf = some b → len ≤ b := by
  cases c with
  | read buf => exact ⟨_, .ebadf, none, if_pos h, fun _ hb => nomatch hb⟩
  | write buf =>
    by_cases hflag : fd_refuses fd_flag O_WRONLY
    · exact ⟨_, .ebadf, none, if_pos hflag, fun _ hb => nomatch hb⟩
    · -- the buffer is empty, and `copycheck` refuses it
      have hnil : buf.bytes = [] := h.resolve_left hflag
      have hcheck : copycheck buf.addr buf.bytes.length ≠ .ok buf.bytes.length :=
        fun h => (copycheck_valid buf).mp h hnil
      refine ⟨buf.bytes.length, .efault, some SIZEOF_BUF, ?_, fun b _ => ?_⟩
      · show write_file ops fd_flag f buf = _
        unfold write_file
        rw [if_neg hflag]
        cases hc : copycheck buf.addr buf.bytes.length with
        | error e => rfl
        | ok stoplen =>
          have hne : stoplen ≠ buf.bytes.length := by
            intro heq
            rw [heq] at hc
            exact hcheck hc
          exact if_pos hne
      · rw [hnil]
        exact Nat.zero_le b

theorem refused_right (len : Nat) (e : Errno) (pos : Int) {kbuf : Option Nat}
    (hroom : ∀ b, kbuf = some b → len ≤ b) : (refused len e kbuf).Right pos where
  started := fun _ h => nomatch h
  retval := fun _ h => nomatch h
  room := hroom

/-! ### Calls that do -/

theorem io_call_read {buf : UserBuffer} (h : ¬ IoCall.Refused fd_flag (.read buf)) :
    (io_call ops fd_flag f (.read buf)).2 =
      transferred (uio_kinit buf.bytes 0 .UIO_READ)
        (ops.vop_read f (uio_kinit buf.bytes 0 .UIO_READ)).2.1
        (ops.vop_read f (uio_kinit buf.bytes 0 .UIO_READ)).2.2 none := by
  show (read_file ops fd_flag f buf).2 = _
  unfold read_file
  rw [if_neg (by exact h)]

theorem io_call_write {buf : UserBuffer} (h : ¬ IoCall.Refused fd_flag (.write buf)) :
    (io_call ops fd_flag f (.write buf)).2 =
      transferred (uio_kinit buf.bytes 0 .UIO_WRITE)
        (ops.vop_write f (uio_kinit buf.bytes 0 .UIO_WRITE)).2.1
        (ops.vop_write f (uio_kinit buf.bytes 0 .UIO_WRITE)).2.2 (some SIZEOF_BUF) := by
  obtain ⟨hflag, hne⟩ := not_or.mp h
  show (write_file ops fd_flag f buf).2 = _
  unfold write_file
  rw [if_neg hflag, (copycheck_valid buf).mpr hne]
  exact congrArg Prod.snd (if_neg (not_not.mpr rfl))

/-- A transfer from offset 0 ends behind what it moved. -/
theorem transferred_ended {kbytes : List UInt8} {rw : UioRw} {u' : Uio} {bytes : List UInt8}
    (h : Uio.Moved (uio_kinit kbytes 0 rw) u' bytes) (e : Option Errno) (kbuf : Option Nat) :
    (transferred (uio_kinit kbytes 0 rw) u' e kbuf).moved = bytes ∧
      (transferred (uio_kinit kbytes 0 rw) u' e kbuf).ended = bytes.length ∧
      u'.uio_resid + bytes.length = kbytes.length := by
  refine ⟨?_, ?_, h.resid⟩
  · show u'.moved = bytes
    rw [h.moved]
    rfl
  · show u'.uio_offset = bytes.length
    rw [h.offset]
    exact Int.zero_add _

/-- A transfer is right at the start of the file if it fails, or moves half of what was asked
for. -/
theorem transferred_right {kbytes : List UInt8} {rw : UioRw} {u' : Uio} {bytes : List UInt8}
    (h : Uio.Moved (uio_kinit kbytes 0 rw) u' bytes) (e : Option Errno) (kbuf : Option Nat) :
    (transferred (uio_kinit kbytes 0 rw) u' e kbuf).Right 0 ↔
      (e ≠ none ∨ kbytes.length = 2 * bytes.length) ∧ ∀ b, kbuf = some b → kbytes.length ≤ b := by
  obtain ⟨hmoved, -, hresid⟩ := transferred_ended h e kbuf
  constructor
  · intro hright
    refine ⟨?_, hright.room⟩
    cases e with
    | some e => exact .inl (by simp)
    | none =>
      have hret := hright.retval u'.uio_resid rfl
      rw [hmoved] at hret
      exact .inr (by omega)
  · intro ⟨hret, hroom⟩
    refine ⟨fun o ho => (Option.some.inj ho).symm, fun n hn => ?_, hroom⟩
    rw [hmoved]
    cases e with
    | some e => cases hn
    | none =>
      have hn : u'.uio_resid = n := Except.ok.inj hn
      have := hret.resolve_left (fun h => h rfl)
      omega

/-- A call that is not refused starts at offset 0, ends behind what it moved, and is right there if
it is fine. -/
theorem io_call_started {c : IoCall} (h : ¬ c.Refused fd_flag) :
    (io_call ops fd_flag f c).2.started = some 0 ∧
      (io_call ops fd_flag f c).2.ended = (io_call ops fd_flag f c).2.moved.length ∧
      ((io_call ops fd_flag f c).2.Right 0 ↔ c.Fine ops fd_flag f) := by
  cases c with
  | read buf =>
    rw [io_call_read ops fd_flag f h]
    obtain ⟨bytes, hmoved, -, hall⟩ :=
      ops.read_moved f _ (buf.uio_wf .UIO_READ) rfl (Int.le_refl 0)
    obtain ⟨hbytes, hended, -⟩ := transferred_ended hmoved
      (ops.vop_read f (uio_kinit buf.bytes 0 .UIO_READ)).2.2 none
    refine ⟨rfl, by rw [hbytes, hended], ?_⟩
    rw [transferred_right hmoved]
    show _ ↔ _ ∨ _ ∨ buf.bytes = [] ∨ buf.bytes.length = 2 * (ops.contents f).length
    -- half of what was asked for is the whole file, or nothing
    have hhalf : (ops.vop_read f (uio_kinit buf.bytes 0 .UIO_READ)).2.2 = none →
        (buf.bytes.length = 2 * bytes.length ↔
          buf.bytes = [] ∨ buf.bytes.length = 2 * (ops.contents f).length) := by
      intro hnone
      have hlen : bytes.length = min buf.bytes.length (ops.contents f).length := by
        rw [hall hnone, List.length_take]
        rfl
      rw [← List.length_eq_zero_iff]
      omega
    by_cases hnone : (ops.vop_read f (uio_kinit buf.bytes 0 .UIO_READ)).2.2 = none
    · rw [hhalf hnone]
      simp [hnone, h]
    · simp [hnone]
  | write buf =>
    rw [io_call_write ops fd_flag f h]
    obtain ⟨bytes, hmoved, hall⟩ :=
      ops.write_moved f _ (buf.uio_wf .UIO_WRITE) rfl (Int.le_refl 0)
    obtain ⟨hbytes, hended, hresid⟩ := transferred_ended hmoved
      (ops.vop_write f (uio_kinit buf.bytes 0 .UIO_WRITE)).2.2 (some SIZEOF_BUF)
    refine ⟨rfl, by rw [hbytes, hended], ?_⟩
    rw [transferred_right hmoved]
    show _ ↔ _ ∨ _ ∧ buf.bytes.length ≤ SIZEOF_BUF
    -- a write that succeeds moves everything, and returns 0
    have hfail : ((ops.vop_write f (uio_kinit buf.bytes 0 .UIO_WRITE)).2.2 ≠ none ∨
          buf.bytes.length = 2 * bytes.length) ↔
        (ops.vop_write f (uio_kinit buf.bytes 0 .UIO_WRITE)).2.2 ≠ none := by
      refine ⟨fun hor hnone => ?_, Or.inl⟩
      have hzero := hall hnone
      have hhalf := hor.resolve_left (fun hne => hne hnone)
      have hne : 0 < buf.bytes.length := List.length_pos_iff.mpr (not_or.mp h).2
      omega
    rw [hfail]
    simp [h]

end Call

/-! ## Sequences -/

section Run

variable (ops : RegularFile F) (fd_flag : UInt32)

/-- Away from the start of the file no call may get to it. -/
theorem sequenced_away (f : F) (calls : List IoCall) {pos : Int} (hpos : pos ≠ 0) :
    Sequenced pos (io_run ops fd_flag f calls) ↔ ∀ c ∈ calls, c.Refused fd_flag := by
  induction calls generalizing f with
  | nil => exact ⟨fun _ c hc => (nomatch hc), fun _ => trivial⟩
  | cons c rest ih =>
    rw [List.forall_mem_cons]
    by_cases href : c.Refused fd_flag
    · obtain ⟨len, e, kbuf, hcall, hroom⟩ := io_call_refused ops fd_flag f href
      show (io_call ops fd_flag f c).2.Right pos ∧ _ ↔ _
      rw [hcall]
      have hright := refused_right len e pos hroom
      exact (and_iff_right hright).trans ((ih f).trans (and_iff_right href).symm)
    · refine ⟨fun h => ?_, fun h => absurd h.1 href⟩
      have hstart := (io_call_started ops fd_flag f href).1
      exact absurd (h.1.started 0 hstart).symm hpos

/-- **When a sequence of reads and writes is right.** -/
theorem sequenced_iff (f : F) (calls : List IoCall) :
    Sequenced 0 (io_run ops fd_flag f calls) ↔ SequenceFine ops fd_flag f calls := by
  induction calls generalizing f with
  | nil => exact Iff.rfl
  | cons c rest ih =>
    show (io_call ops fd_flag f c).2.Right 0 ∧ _ ↔ c.Fine ops fd_flag f ∧ _
    by_cases href : c.Refused fd_flag
    · obtain ⟨len, e, kbuf, hcall, hroom⟩ := io_call_refused ops fd_flag f href
      rw [hcall]
      exact and_congr (iff_of_true (refused_right len e 0 hroom) (.inl href)) (ih f)
    · obtain ⟨hstart, hended, hright⟩ := io_call_started ops fd_flag f href
      rw [hright, hstart, if_neg (by simp), hended]
      apply and_congr_right
      intro _
      by_cases hmoved : (io_call ops fd_flag f c).2.moved = []
      · rw [if_pos hmoved, hmoved]
        exact ih _
      · -- the next call would have to start behind the bytes moved
        rw [if_neg hmoved]
        apply sequenced_away
        simpa using hmoved

end Run

/-! ## Two reads -/

/-- A `uio` that `bytes` have been moved through. -/
def Uio.pass (u : Uio) (bytes : List UInt8) : Uio :=
  { u with
    uio_iov := [u.rest.drop bytes.length]
    moved := u.moved ++ bytes
    uio_offset := u.uio_offset + bytes.length
    uio_resid := u.uio_resid - bytes.length
    uio_valid := u.uio_valid.map (· - bytes.length) }

theorem Uio.pass_moved (u : Uio) {bytes : List UInt8} (h : bytes.length ≤ u.uio_resid) :
    Uio.Moved u (u.pass bytes) bytes where
  moved := rfl
  rest := by simp [Uio.pass, Uio.rest]
  offset := rfl
  resid := Nat.sub_add_cancel h
  segflg := rfl
  rw := rfl
  valid := rfl

/-- A file in memory that never fails; its state is its contents. -/
def memFile : RegularFile (List UInt8) where
  contents := id
  vop_read := fun f u => (f, u.pass ((f.drop u.uio_offset.toNat).take u.uio_resid), none)
  vop_write := fun f u =>
    let bytes := u.rest.take u.uio_resid
    let offset := u.uio_offset.toNat
    (f.take offset ++ bytes ++ f.drop (offset + bytes.length), u.pass bytes, none)
  read_moved := by
    intro f u _ _ _
    refine ⟨_, u.pass_moved ?_, List.prefix_rfl, fun _ => rfl⟩
    rw [List.length_take]
    exact Nat.min_le_left _ _
  write_moved := by
    intro f u hu _ _
    have hlen : (u.rest.take u.uio_resid).length = u.uio_resid := by
      rw [List.length_take]
      exact Nat.min_eq_left hu.enough
    refine ⟨_, u.pass_moved (Nat.le_of_eq hlen), fun _ => ?_⟩
    show u.uio_resid - (u.rest.take u.uio_resid).length = 0
    rw [hlen, Nat.sub_self]

/-- A buffer of one byte. -/
def oneByte : UserBuffer where
  addr := 0x10000000
  bytes := [0]
  valid := by decide

/-- Reading "ab" one byte at a time returns 0 and delivers the "a" both times. -/
theorem read_twice_from_start :
    (io_run memFile O_RDONLY [97, 98] [.read oneByte, .read oneByte]).map
        (fun r => (r.started, r.moved, r.result.toOption)) =
      [(some 0, [97], some 0), (some 0, [97], some 0)] ∧
    ¬ Sequenced 0 (io_run memFile O_RDONLY [97, 98] [.read oneByte, .read oneByte]) := by
  refine ⟨by decide, fun h => ?_⟩
  have hret := h.1.retval 0 rfl
  exact absurd hret (by decide)

end OS161
