import OS161.Lib.Uio

/-! # The LAMEbus disk driver

The model of `kern/dev/lamebus/lhd.c` for one request at a time. The drive answers each
operation with `LHD_OK`, `LHD_MEDIA` or, for a sector it does not have, `LHD_INVSECT`. On
`LHD_OK` a write has stored the on-card buffer in the sector and a read has filled the buffer
from it; otherwise the sector is as it was. Which of the operations to come end in a media error
is part of the state, so that a theorem can quantify over every pattern of them.
-/

namespace OS161

open Framework Kern

/-- What the drive reports at the end of an operation. -/
inductive LhdReport where
  | LHD_OK
  | LHD_INVSECT
  | LHD_MEDIA
  deriving DecidableEq, Repr

/-- A disk and its media errors to come. -/
structure Lhd where
  /-- `d_blocks`: the number of sectors. -/
  d_blocks : Nat
  sector : Nat → Block
  /-- Whether each of the next operations ends in a media error; those after the end of the list do
      not. -/
  media : List Bool

namespace Lhd

/-- The report for an operation on `sect` that is started now. -/
def report (d : Lhd) (sect : Nat) : LhdReport :=
  if d.d_blocks ≤ sect then .LHD_INVSECT
  else if d.media.headD false then .LHD_MEDIA
  else .LHD_OK

/-- The drive has completed one operation. -/
def next (d : Lhd) : Lhd := { d with media := d.media.tail }

def store (d : Lhd) (n : Nat) (b : Block) : Lhd :=
  { d with sector := fun m => if m = n then b else d.sector m }

/-- What a successful transfer of `bytes` leaves on the disk. -/
def transfer (d : Lhd) (rw : UioRw) (n : Nat) (bytes : List UInt8) : Lhd :=
  match rw with
  | .UIO_READ => d
  | .UIO_WRITE => d.store n (Block.ofList bytes)

/-- A drive that will never report a media error. -/
def Reliable (d : Lhd) : Prop := d.media = []

@[simp] theorem store_self (d : Lhd) (n : Nat) (b : Block) : (d.store n b).sector n = b := by
  simp [store]

@[simp] theorem store_ne (d : Lhd) {n m : Nat} (b : Block) (h : m ≠ n) :
    (d.store n b).sector m = d.sector m := by
  simp [store, h]

@[simp] theorem next_sector (d : Lhd) : d.next.sector = d.sector := rfl

theorem Reliable.report {d : Lhd} (h : d.Reliable) {n : Nat} (hn : n < d.d_blocks) :
    d.report n = .LHD_OK := by
  unfold Reliable at h
  simp [Lhd.report, h, hn]

theorem Reliable.next {d : Lhd} (h : d.Reliable) : d.next = d := by
  unfold Reliable at h
  cases d
  simp_all [Lhd.next]

end Lhd

/-! ## The driver -/

/-- What a disk request works on: the disk and the caller's `uio`. -/
abbrev DiskReq : Type := Lhd × Uio

/-- `lhd_code_to_errno`; `none` is 0. -/
def lhd_code_to_errno : LhdReport → Option Errno
  | .LHD_OK => none
  | .LHD_INVSECT => some .einval
  | .LHD_MEDIA => some .eio

/-- Start a read of `sect` and wait for `lhd_irq` to save its result. -/
def lhd_read (sect : Nat) : Kern DiskReq Errno Panic Block := do
  let s ← .read
  .modify fun s => (s.1.next, s.2)
  match lhd_code_to_errno (s.1.report sect) with
  | none => pure (s.1.sector sect)
  | some e => .fail e

/-- Start a write of the on-card buffer to `sect` and wait for `lhd_irq` to save its result. -/
def lhd_write (sect : Nat) (lh_buf : Block) : Kern DiskReq Errno Panic Unit := do
  let s ← .read
  .modify fun s => (s.1.next, s.2)
  match lhd_code_to_errno (s.1.report sect) with
  | none => .modify fun s => (s.1.store sect lh_buf, s.2)
  | some e => .fail e

/-- `uiomove` between the on-card buffer and the caller's `uio`. -/
def lhd_move (lh_buf : List UInt8) : Kern DiskReq Errno Panic (List UInt8) :=
  .zoom Prod.snd (fun s u => (s.1, u)) (uiomove lh_buf BLOCKSIZE)

/-- The loop of `lhd_io` over `len` sectors from `sect` on. A write moves the caller's bytes to the
on-card buffer before the operation starts, a read moves them back after it succeeded. -/
def lhd_sectors : Nat → Nat → Kern DiskReq Errno Panic Unit
  | _, 0 => pure ()
  | sect, len + 1 => do
    let s ← .read
    match s.2.uio_rw with
    | .UIO_WRITE => do
      let bytes ← lhd_move []
      lhd_write (sect % 2 ^ 32) (Block.ofList bytes)
    | .UIO_READ => do
      let lh_buf ← lhd_read (sect % 2 ^ 32)
      let _ ← lhd_move lh_buf.toList
      pure ()
    lhd_sectors (sect + 1) len

/-- `lhd_io`. The sector number and the sector count are `uint32_t`, and so is their sum. -/
def lhd_io : Kern DiskReq Errno Panic Unit := do
  let s ← .read
  let sector := (s.2.uio_offset.tdiv BLOCKSIZE % 2 ^ 32).toNat
  let sectoff := s.2.uio_offset.tmod BLOCKSIZE
  let len := s.2.uio_resid / BLOCKSIZE
  let lenoff := s.2.uio_resid % BLOCKSIZE
  if sectoff ≠ 0 ∨ lenoff ≠ 0 then .fail .einval
  else if (sector + len) % 2 ^ 32 > s.1.d_blocks then .fail .einval
  else lhd_sectors sector len

/-! ## One-sector requests -/

section Operations

variable {Q : Block → DiskReq → Prop} {Q' : Unit → DiskReq → Prop} {E : Errno → DiskReq → Prop}
  {F : Panic → Prop} {s : DiskReq}

@[simp] theorem wp_lhd_read (sect : Nat) :
    wp (lhd_read sect) Q E F s ↔
      match lhd_code_to_errno (s.1.report sect) with
      | none => Q (s.1.sector sect) (s.1.next, s.2)
      | some e => E e (s.1.next, s.2) := by
  simp only [lhd_read, wp_bind, wp_read, wp_modify]
  split <;> rfl

@[simp] theorem wp_lhd_write (sect : Nat) (lh_buf : Block) :
    wp (lhd_write sect lh_buf) Q' E F s ↔
      match lhd_code_to_errno (s.1.report sect) with
      | none => Q' () (s.1.next.store sect lh_buf, s.2)
      | some e => E e (s.1.next, s.2) := by
  simp only [lhd_write, wp_bind, wp_read, wp_modify]
  split <;> rfl

end Operations

/-- A request at sector `n` of the disk, with the caller's buffers large enough for what is left of
it. -/
structure Lhd.At (d : Lhd) (u : Uio) (n : Nat) : Prop where
  wf : u.WF
  offset : u.uio_offset = n * BLOCKSIZE
  small : d.d_blocks < 2 ^ 32

namespace Lhd.At

variable {d : Lhd} {u : Uio} {n : Nat}

/-- The range checks of `lhd_io` pass, and the sector number is the block number. -/
theorem lhd_io_eq (h : d.At u n) (len : Nat) (hlen : u.uio_resid = len * BLOCKSIZE)
    (hn : n + len ≤ d.d_blocks) : lhd_io (d, u) = lhd_sectors n len (d, u) := by
  have hsmall := h.small
  have hsect : (u.uio_offset.tdiv BLOCKSIZE % 2 ^ 32).toNat = n := by
    rw [h.offset, Int.mul_tdiv_cancel _ (by decide)]
    omega
  have hoff : u.uio_offset.tmod BLOCKSIZE = 0 := by
    rw [h.offset, Int.mul_tmod_left]
  have hlen' : u.uio_resid / BLOCKSIZE = len := by
    rw [hlen, Nat.mul_div_cancel _ (by decide)]
  have hmod : u.uio_resid % BLOCKSIZE = 0 := by
    rw [hlen, Nat.mul_mod_left]
  have hrange : ¬ (n + len) % 2 ^ 32 > d.d_blocks := by
    rw [Nat.mod_eq_of_lt (by omega)]
    omega
  rw [lhd_io, read_bind_run]
  simp only [hsect, hoff, hlen', hmod, if_neg hrange, ne_eq, not_true_eq_false, or_self,
    if_false]

/-- A request with nothing left to transfer does nothing. -/
theorem lhd_io_done (h : d.At u n) (hresid : u.uio_resid = 0) (hn : n ≤ d.d_blocks) :
    lhd_io (d, u) = .ok () (d, u) := by
  rw [h.lhd_io_eq 0 (by omega) hn]
  rfl

/-- What one request for one sector does, for every caller and every pattern of media errors. When a
write ends in a media error, the caller's `uio` has been used up all the same. -/
theorem lhd_io_sector (h : d.At u n) (hresid : u.uio_resid = BLOCKSIZE) (hn : n < d.d_blocks) :
    wp lhd_io (fun _ s => d.report n = .LHD_OK ∧
        ∃ bytes, u.Moved s.2 bytes ∧ bytes = u.next (d.sector n).toList BLOCKSIZE ∧
          s.1 = d.next.transfer u.uio_rw n bytes)
      (fun e s =>
        (e = .eio ∧ d.report n = .LHD_MEDIA ∧ s.1 = d.next ∧
          match u.uio_rw with
          | .UIO_READ => s.2 = u
          | .UIO_WRITE => u.Moved s.2 (u.rest.take BLOCKSIZE)) ∨
        ((s.1 = d ∨ s.1 = d.next) ∧ u.Faulted BLOCKSIZE e s.2))
      (fun _ => False) (d, u) := by
  have hsmall := h.small
  have hsect : n % 2 ^ 32 = n := Nat.mod_eq_of_lt (by omega)
  have hle : BLOCKSIZE ≤ u.uio_resid := by omega
  have hmoves := fun ptr hp => @wp_uiomove u ptr BLOCKSIZE h.wf hle hp
  unfold wp
  rw [h.lhd_io_eq 1 (by omega) (by omega)]
  show wp (lhd_sectors n 1) _ _ _ (d, u)
  have hreport : d.report n = .LHD_OK ∨ d.report n = .LHD_MEDIA := by
    unfold Lhd.report
    rw [if_neg (by omega)]
    split <;> simp
  simp only [lhd_sectors, wp_bind, wp_read]
  cases hrw : u.uio_rw with
  | UIO_READ =>
    simp only [wp_lhd_read, lhd_move, wp_bind, wp_zoom, hsect]
    rcases hreport with hreport | hreport
    · rw [hreport]
      refine wp_post (hmoves _ (fun _ => by simp)) ?_ ?_
      · intro bytes u' hm
        exact ⟨rfl, bytes, hm.1, hm.2, rfl⟩
      · intro e u' hf
        exact .inr ⟨.inr trivial, hf⟩
    · rw [hreport]
      exact .inl ⟨rfl, rfl, trivial, trivial⟩
  | UIO_WRITE =>
    simp only [wp_lhd_write, lhd_move, wp_bind, wp_zoom, hsect]
    refine wp_post (hmoves [] (fun h => by rw [hrw] at h; cases h)) ?_ ?_
    · rintro bytes u' ⟨hmoved, hbytes⟩
      simp only [Uio.next, hrw] at hbytes
      rcases hreport with hreport | hreport
      · rw [hreport]
        exact ⟨rfl, bytes, hmoved, by simpa [Uio.next, hrw] using hbytes, rfl⟩
      · rw [hreport]
        exact .inl ⟨rfl, rfl, trivial, hbytes ▸ hmoved⟩
    · intro e u' hf
      exact .inr ⟨.inl trivial, hf⟩

end Lhd.At

end OS161
