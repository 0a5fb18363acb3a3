import OS161.Dev.Lhd

/-! # Block I/O of the file system

The model of `kern/fs/sfs/sfs_io.c`: single blocks are read and written through the disk driver,
and an attempt that ends in a media error is repeated up to ten times with the same `uio`.

Main result: `sfs_block_io_durable_iff`, on what a successful return of `sfs_wblock` and
`sfs_rblock` says about the disk.
-/

namespace OS161

open Framework Kern

/-- One attempt of `sfs_rwblock`; `again` is what follows a media error. -/
def sfs_rwblock_try (again : Kern DiskReq Errno Panic Unit) : Kern DiskReq Errno Panic Unit := do
  let result ← .attempt lhd_io
  match result with
  | .error .einval => .halt .sfs_rwblock_EINVAL
  | .error .eio => again
  | .error e => .fail e
  | .ok () => pure ()

/-- `sfs_rwblock` when `retries` repetitions are left. -/
def sfs_rwblock_retry : Nat → Kern DiskReq Errno Panic Unit
  | 0 => sfs_rwblock_try (.fail .eio)
  | retries + 1 => sfs_rwblock_try (sfs_rwblock_retry retries)

def sfs_rwblock : Kern DiskReq Errno Panic Unit := sfs_rwblock_retry 10

/-- `SFSUIO`: a transfer between a kernel buffer and a block. -/
def sfsuio (data : Block) (block : Nat) (rw : UioRw) : Uio :=
  uio_kinit data.toList (block * BLOCKSIZE) rw

/-- `sfs_rblock`. Takes the buffer and returns it as it is afterwards. -/
def sfs_rblock (data : Block) (block : Nat) : Kern Lhd Errno Panic Block := do
  let (_, ku) ← .withLocal (sfsuio data block .UIO_READ) sfs_rwblock
  pure (Block.ofList (ku.moved ++ ku.rest))

def sfs_wblock (data : Block) (block : Nat) : Kern Lhd Errno Panic Unit := do
  let _ ← .withLocal (sfsuio data block .UIO_WRITE) sfs_rwblock
  pure ()

/-! ## One attempt -/

section Try

variable {Q : Unit → DiskReq → Prop} {E : Errno → DiskReq → Prop} {F : Panic → Prop}
  {again : Kern DiskReq Errno Panic Unit} {d : Lhd} {u : Uio} {n : Nat}

/-- An attempt at a one-block request succeeds, faults, or is repeated. -/
theorem wp_sfs_rwblock_try (h : d.At u n) (hresid : u.uio_resid = BLOCKSIZE) (hn : n < d.d_blocks)
    (hok : ∀ u' bytes, d.report n = .LHD_OK → u.Moved u' bytes →
      bytes = u.next (d.sector n).toList BLOCKSIZE →
      Q () (d.next.transfer u.uio_rw n bytes, u'))
    (hmedia : ∀ u', d.report n = .LHD_MEDIA →
      (match u.uio_rw with
        | .UIO_READ => u' = u
        | .UIO_WRITE => u.Moved u' (u.rest.take BLOCKSIZE)) →
      wp again Q E F (d.next, u'))
    (hfault : ∀ d' u', (d' = d ∨ d' = d.next) → u.Faulted BLOCKSIZE .efault u' →
      E .efault (d', u')) : wp (sfs_rwblock_try again) Q E F (d, u) := by
  unfold sfs_rwblock_try
  rw [wp_bind, wp_attempt]
  refine wp_mono (h.lhd_io_sector hresid hn) ?_ ?_ (fun _ hf => hf.elim)
  · rintro - ⟨d', u'⟩ ⟨hreport, bytes, hmoved, hbytes, rfl⟩
    exact hok u' bytes hreport hmoved hbytes
  · rintro e ⟨d', u'⟩ (⟨rfl, hreport, rfl, hu⟩ | ⟨hd, hf⟩)
    · exact hmedia u' hreport hu
    · obtain rfl := hf.errno
      exact hfault d' u' hd hf

/-- After an attempt that has moved the whole block, a repetition transfers nothing and succeeds. -/
theorem Lhd.At.try_used_up {u' : Uio} {bytes : List UInt8} (h : d.At u n) (hresid : u.uio_resid = BLOCKSIZE)
    (hn : n < d.d_blocks) (hlen : bytes.length = BLOCKSIZE) (hu : u.Moved u' bytes)
    (again : Kern DiskReq Errno Panic Unit) : sfs_rwblock_try again (d, u') = .ok () (d, u') := by
  have hnone : u'.uio_resid = 0 := by
    have hmoved := hu.resid
    omega
  have hat : d.At u' (n + 1) := by
    refine ⟨hu.wf h.wf, ?_, h.small⟩
    rw [hu.offset, h.offset, hlen, Int.natCast_succ n, Int.add_mul, Int.one_mul]
  have hio := hat.lhd_io_done hnone (by omega)
  apply run_eq_of_wp
  simp only [sfs_rwblock_try, wp_bind, wp_attempt]
  exact wp_of_run_ok hio ⟨trivial, rfl⟩

end Try

/-! ## Kernel buffers -/

section KernelBuffer

variable {d : Lhd} {n : Nat} (data : Block)

@[simp] theorem sfsuio_rest (rw : UioRw) : (sfsuio data n rw).rest = data.toList := by
  simp [sfsuio, uio_kinit, Uio.rest]

@[simp] theorem sfsuio_resid (rw : UioRw) : (sfsuio data n rw).uio_resid = BLOCKSIZE := by
  simp [sfsuio, uio_kinit]

theorem sfsuio_at (rw : UioRw) (hd : d.d_blocks < 2 ^ 32) : d.At (sfsuio data n rw) n where
  wf := ⟨by simp, by rw [sfsuio_resid]; decide⟩
  offset := rfl
  small := hd

/-- A kernel buffer never faults. -/
theorem sfsuio_not_faulted (rw : UioRw) {k : Nat} {e : Errno} {u : Uio} :
    ¬ (sfsuio data n rw).Faulted k e u := fun h => h.segflg rfl

/-- A write attempt that ended in a media error has used up the buffer, so that its repetition
transfers nothing and succeeds. -/
theorem sfs_rwblock_try_used_up {u : Uio} {bytes : List UInt8} (hd : d.d_blocks < 2 ^ 32)
    (hn : n < d.d_blocks) (hlen : bytes.length = BLOCKSIZE)
    (hu : (sfsuio data n .UIO_WRITE).Moved u bytes) (again : Kern DiskReq Errno Panic Unit) :
    sfs_rwblock_try again (d, u) = .ok () (d, u) :=
  (sfsuio_at data .UIO_WRITE hd).try_used_up (sfsuio_resid data _) hn hlen hu again

/-- `sfs_wblock` always reports success; it has stored the buffer only if the first attempt did. -/
theorem sfs_wblock_run (hd : d.d_blocks < 2 ^ 32) (hn : n < d.d_blocks) :
    sfs_wblock data n d =
      .ok () (if d.report n = .LHD_OK then d.next.store n data else d.next) := by
  apply run_eq_of_wp
  simp only [sfs_wblock, wp_bind, wp_withLocal, wp_pure, true_and]
  refine wp_sfs_rwblock_try (sfsuio_at data _ hd) (sfsuio_resid data _) hn ?_ ?_ ?_
  · intro u bytes hreport _ hbytes
    have hdata : bytes = data.toList := by
      rw [hbytes]
      show (sfsuio data n .UIO_WRITE).rest.take BLOCKSIZE = _
      rw [sfsuio_rest, List.take_of_length_le (by simp)]
    rw [if_pos hreport, hdata]
    show d.next.store n (Block.ofList data.toList) = _
    rw [Block.ofList_toList]
  · intro u hreport hu
    have hretry := @sfs_rwblock_try_used_up d.next n data u _ hd hn (by simp) hu
      (sfs_rwblock_retry 8)
    exact wp_of_run_ok hretry (by simp [hreport])
  · intro d' u' _ hf
    exact (sfsuio_not_faulted data _ hf).elim

/-- A read attempt fills the buffer, or ends in a media error and leaves it for the next attempt. -/
theorem wp_sfs_rwblock_try_read {Q : Unit → DiskReq → Prop} {E : Errno → DiskReq → Prop}
    {F : Panic → Prop} {again : Kern DiskReq Errno Panic Unit} (hd : d.d_blocks < 2 ^ 32)
    (hn : n < d.d_blocks)
    (hok : ∀ u, (sfsuio data n .UIO_READ).Moved u (d.sector n).toList → Q () (d.next, u))
    (hagain : wp again Q E F (d.next, sfsuio data n .UIO_READ)) :
    wp (sfs_rwblock_try again) Q E F (d, sfsuio data n .UIO_READ) := by
  refine wp_sfs_rwblock_try (sfsuio_at data _ hd) (sfsuio_resid data _) hn ?_ ?_ ?_
  · intro u bytes _ hmoved hbytes
    have hsector : bytes = (d.sector n).toList := by
      rw [hbytes]
      show (d.sector n).toList.take BLOCKSIZE = _
      rw [List.take_of_length_le (by simp)]
    exact hok u (hsector ▸ hmoved)
  · rintro u - rfl
    exact hagain
  · intro d' u' _ hf
    exact (sfsuio_not_faulted data _ hf).elim

/-- However many attempts a read takes, it fills the buffer from the block or fails, and it changes
no block. -/
theorem wp_sfs_rwblock_read (retries : Nat) :
    ∀ d : Lhd, d.d_blocks < 2 ^ 32 → n < d.d_blocks →
      wp (sfs_rwblock_retry retries)
        (fun _ s => (sfsuio data n .UIO_READ).Moved s.2 (d.sector n).toList ∧
          s.1.sector = d.sector)
        (fun e s => e = .eio ∧ s.1.sector = d.sector) (fun _ => False)
        (d, sfsuio data n .UIO_READ) := by
  induction retries with
  | zero =>
    intro d hd hn
    exact wp_sfs_rwblock_try_read data hd hn (fun u hu => ⟨hu, rfl⟩) ⟨rfl, rfl⟩
  | succ retries ih =>
    intro d hd hn
    exact wp_sfs_rwblock_try_read data hd hn (fun u hu => ⟨hu, rfl⟩) (ih d.next hd hn)

/-- The buffer after a read of a whole block. -/
theorem sfsuio_filled {u : Uio} {b : Block} (h : (sfsuio data n .UIO_READ).Moved u b.toList) :
    Block.ofList (u.moved ++ u.rest) = b := by
  have hmoved : (sfsuio data n .UIO_READ).moved = [] := rfl
  rw [h.moved, hmoved, h.rest, sfsuio_rest, List.drop_of_length_le (by simp), List.append_nil,
    List.nil_append, Block.ofList_toList]

theorem wp_sfs_rblock (hd : d.d_blocks < 2 ^ 32) (hn : n < d.d_blocks) :
    wp (sfs_rblock data n) (fun b d' => b = d.sector n ∧ d'.sector = d.sector)
      (fun e d' => e = .eio ∧ d'.sector = d.sector) (fun _ => False) d := by
  simp only [sfs_rblock, wp_bind, wp_withLocal, wp_pure]
  refine wp_imp (wp_sfs_rwblock_read data 10 d hd hn) ?_
  rintro - ⟨d', u⟩ ⟨hmoved, hsector⟩
  exact ⟨sfsuio_filled data hmoved, hsector⟩

end KernelBuffer

/-! ## What success means -/

/-- **A successful write is durable** exactly when the first attempt at it does not end in a media
error, or the block already held the buffer; a successful read always returns the block. The
repetition of a write re-submits a `uio` that the failed attempt has used up. -/
theorem sfs_block_io_durable_iff (d : Lhd) (n : Nat) (buf : Block) (hn : n < d.d_blocks)
    (hd : d.d_blocks < 2 ^ 32) :
    ((∀ d', sfs_wblock buf n d = .ok () d' → d'.sector n = buf) ∧
      (∀ data b d', sfs_rblock data n d = .ok b d' → b = d'.sector n)) ↔
    (d.report n ≠ .LHD_MEDIA ∨ d.sector n = buf) := by
  have hread : ∀ data b d', sfs_rblock data n d = .ok b d' → b = d'.sector n := by
    intro data b d' h
    obtain ⟨hb, hsector⟩ := wp_ok h (wp_sfs_rblock data hd hn)
    rw [hb, hsector]
  have hok : d.report n ≠ .LHD_MEDIA ↔ d.report n = .LHD_OK := by
    unfold Lhd.report
    rw [if_neg (by omega)]
    split <;> simp
  rw [and_iff_left hread, sfs_wblock_run buf hd hn, hok]
  by_cases h : d.report n = .LHD_OK
  · simp [h]
  · simp [h]

/-- A disk of one zeroed block, with the given media errors to come. -/
def oneBlockDisk (media : List Bool) : Lhd where
  d_blocks := 1
  sector := fun _ => Block.zeros
  media := media

/-- Without media errors, block 0 of a zeroed disk is written durably. -/
theorem sfs_block_io_durable_fresh :
    (oneBlockDisk []).report 0 ≠ .LHD_MEDIA ∧
      ∀ d', sfs_wblock (Block.ofList [1]) 0 (oneBlockDisk []) = .ok () d' →
        d'.sector 0 = Block.ofList [1] := by
  have hreport : (oneBlockDisk []).report 0 ≠ .LHD_MEDIA := by decide
  have hdurable := (sfs_block_io_durable_iff (oneBlockDisk []) 0 (Block.ofList [1]) (by decide)
    (by decide)).2 (.inl hreport)
  exact ⟨hreport, hdurable.1⟩

/-- One media error, and a write to block 0 of a zeroed disk returns 0 with the block still
zeroed. -/
theorem sfs_wblock_lost_write :
    ∃ d', sfs_wblock (Block.ofList [1]) 0 (oneBlockDisk [true]) = .ok () d' ∧
      d'.sector 0 = Block.zeros ∧ d'.sector 0 ≠ Block.ofList [1] := by
  refine ⟨(oneBlockDisk [true]).next, ?_, rfl, ?_⟩
  · rw [sfs_wblock_run (Block.ofList [1]) (by decide) (by decide), if_neg (by decide)]
  · intro h
    exact absurd (congrFun h ⟨0, by decide⟩) (by decide)

/-! ## A disk without media errors -/

section Reliable

variable {d : Lhd} {u : Uio} {n : Nat}

/-- On a reliable disk the first attempt is the last. -/
theorem wp_sfs_rwblock (hd : d.Reliable) (h : d.At u n) (hresid : u.uio_resid = BLOCKSIZE)
    (hn : n < d.d_blocks) :
    wp sfs_rwblock
      (fun _ s => ∃ bytes, u.Moved s.2 bytes ∧ bytes = u.next (d.sector n).toList BLOCKSIZE ∧
        s.1 = d.transfer u.uio_rw n bytes)
      (fun e s => s.1 = d ∧ u.Faulted BLOCKSIZE e s.2) (fun _ => False) (d, u) := by
  refine wp_sfs_rwblock_try h hresid hn ?_ ?_ ?_
  · intro u' bytes _ hmoved hbytes
    exact ⟨bytes, hmoved, hbytes, by rw [hd.next]⟩
  · intro u' hreport
    rw [hd.report hn] at hreport
    cases hreport
  · intro d' u' hd' hf
    rw [hd.next, or_self] at hd'
    exact ⟨hd', hf⟩

section

variable (hd : d.Reliable) (hsmall : d.d_blocks < 2 ^ 32) (hn : n < d.d_blocks) (data : Block)
include hd hsmall hn data

theorem sfs_rblock_reliable : sfs_rblock data n d = .ok (d.sector n) d := by
  apply run_eq_of_wp
  simp only [sfs_rblock, wp_bind, wp_withLocal, wp_pure]
  refine wp_post (wp_sfs_rwblock hd (sfsuio_at data .UIO_READ hsmall) (sfsuio_resid data _) hn) ?_ ?_
  · rintro - ⟨d', u'⟩ ⟨bytes, hmoved, hbytes, hdev⟩
    have hsector : bytes = (d.sector n).toList := by
      rw [hbytes]
      show (d.sector n).toList.take BLOCKSIZE = _
      rw [List.take_of_length_le (by simp)]
    exact ⟨sfsuio_filled data (hsector ▸ hmoved), hdev⟩
  · rintro e ⟨d', u'⟩ ⟨-, hf⟩
    exact sfsuio_not_faulted data _ hf

theorem sfs_wblock_reliable : sfs_wblock data n d = .ok () (d.store n data) := by
  rw [sfs_wblock_run data hsmall hn, if_pos (hd.report hn), hd.next]

end

end Reliable

end OS161
