import OS161.Sfs.Progress

/-! # Offsets

`uio_offset` is an `off_t` of 64 bits; the number of the block in the file and the size are
`uint32_t`. `sfs_tryseek` lets every offset pass that is not negative. The theorem says for
which offsets the conversions do no harm: `fileblock` is then beyond the last block whenever the
offset is, and the size that `sfs_io` assigns at its exit cuts nothing off.
-/

namespace OS161.Sfs

open Framework Kern

/-- `sfs_tryseek`; the result is the error. -/
def sfs_tryseek (pos : Int) : Option Errno := if pos < 0 then some .einval else none

/-- The first `n` bytes of the request are in the file at their own positions, and no byte of the
file has been cut off below the largest size. -/
structure InPlace (i : Nat) (s : Sfs) (u : Uio) (n : Nat) (s' : Sfs) : Prop where
  content : s'.content i = splice (s.content i) u.uio_offset.toNat (u.rest.take n)
  range : n ≠ 0 → u.uio_offset + n ≤ MAXBLOCKS * BLOCKSIZE
  kept : ∀ p, p < MAXBLOCKS * BLOCKSIZE → p < s.ifield i .sfi_size → p < s'.ifield i .sfi_size

/-- A write stores every byte at its own position, or fails; past the largest size with `EFBIG`. -/
structure WriteInPlace (v i : Nat) (s : Sfs) (u : Uio) : Prop where
  run : wp (sfs_io v) (fun _ t => InPlace i s u u.uio_resid t.1)
    (fun e t => (e = .efbig ∨ e = .enospc ∨ e = .efault) ∧ (MAXBLOCKS * BLOCKSIZE ≤ u.uio_offset → e = .efbig) ∧
      ∃ n, n ≤ u.uio_resid ∧ InPlace i s u n t.1) (fun _ => False) (s, u)

/-- A read returns bytes from their own positions. -/
structure ReadInPlace (v i : Nat) (s : Sfs) (u : Uio) : Prop where
  run : wp (sfs_io v)
    (fun _ t => ∃ bytes, u.Moved t.2 bytes ∧ bytes = slice (s.content i) u.uio_offset.toNat bytes.length)
    (fun _ _ => True) (fun _ => False) (s, u)

/-- In 32 bits the offset is the same, or past the largest size. -/
def Faithful (o : Nat) : Prop := o < 2 ^ 32 ∨ MAXBLOCKS * BLOCKSIZE ≤ o % 2 ^ 32

/-! ## Past the last block -/

section Past

variable {v i : Nat} {s : Sfs} {u : Uio} {F : Panic → Prop}

theorem wp_partialio_past (hpast : MAXBLOCKS ≤ u.fileblock) {skip len : Nat} (hfit : skip + len ≤ BLOCKSIZE)
    {Q : Unit → Sfs × Uio → Prop} :
    wp (sfs_partialio v skip len) Q (fun e t => e = .efbig ∧ t = (s, u)) F (s, u) := by
  unfold sfs_partialio
  rw [wp_read_bind, wp_kassert_bind hfit, wp_bind, wp_onVolume]
  exact wp_of_run_err (sfs_bmap_big hpast _) ⟨rfl, rfl⟩

theorem wp_blockio_past (hpast : MAXBLOCKS ≤ u.fileblock) {Q : Unit → Sfs × Uio → Prop} :
    wp (sfs_blockio v) Q (fun e t => e = .efbig ∧ t = (s, u)) F (s, u) := by
  unfold sfs_blockio
  rw [wp_read_bind, wp_bind, wp_onVolume]
  exact wp_of_run_err (sfs_bmap_big hpast _) ⟨rfl, rfl⟩

/-- The transfers of a request past the last block: `EFBIG`, or there are none. -/
theorem wp_transfer_past (hpast : MAXBLOCKS * BLOCKSIZE ≤ u.pos) :
    wp (sfs_io_transfer v) (fun _ t => u.uio_resid = 0 ∧ t = (s, u)) (fun e t => e = .efbig ∧ t = (s, u)) F
      (s, u) := by
  have hblock : MAXBLOCKS ≤ u.fileblock := by
    rw [Uio.fileblock_eq]
    exact (Nat.le_div_iff_mul_le (by decide)).mpr hpast
  have hlt : u.pos % BLOCKSIZE < BLOCKSIZE := Nat.mod_lt _ (by decide)
  apply wp_transfer_first
  · exact fun h0 => ⟨h0, rfl⟩
  · exact wp_partialio_past hblock (by omega)
  · exact fun _ => wp_blockio_past hblock

end Past

/-! ## Writes and reads -/

section InPlace

variable {A : Set Nat} {v i o : Nat} {s : Sfs} {u : Uio}

/-- Nothing has been stored, and the size has been assigned. -/
theorem InPlace.none (h : Ready A v i s u) (hoff : u.uio_offset = o) (ho : Faithful o) :
    InPlace i s u 0 (sfs_io_size v u s) := by
  have hsize : s.ifield i .sfi_size = s.field v .sfi_size := h.ino ▸ ifield_loaded h.inv.table h.mem _
  have hnil : splice (s.content i) u.uio_offset.toNat (u.rest.take 0) = s.content i := by
    rw [List.take_zero]
    exact splice_nil
  refine ⟨?_, fun h0 => absurd rfl h0, ?_⟩
  · rw [hnil]
    unfold sfs_io_size
    split
    · exact h.ino ▸ content_setField h.inv.table h.mem (by simp) (by simp)
    · rfl
  · intro p hmax hp
    unfold sfs_io_size
    split
    · rename_i hgrow
      have hlt := hgrow.2
      have hmod : (u.uio_offset % 2 ^ 32).toNat < 256 ^ 4 := by omega
      rw [← h.ino, ifield_setField_lt h.inv.table h.mem hmod]
      rw [hoff] at hlt ⊢
      rw [hsize] at hp
      rcases ho with ho | ho
      · omega
      · omega
    · exact hp

theorem writeInPlace_past (h : Ready A v i s u) (hrw : u.uio_rw = .UIO_WRITE) (hoff : u.uio_offset = o)
    (ho : Faithful o) (hpast : MAXBLOCKS * BLOCKSIZE ≤ u.pos) : WriteInPlace v i s u := by
  have hnone := InPlace.none h hoff ho
  constructor
  refine wp_post (wp_io_exit hrw (wp_transfer_past hpast)) ?_ ?_
  · rintro - t ⟨t₀, ⟨h0, rfl⟩, rfl⟩
    rw [h0]
    exact hnone
  · rintro e t ⟨t₀, ⟨he, rfl⟩, rfl⟩
    exact ⟨.inl he, fun _ => he, 0, Nat.zero_le _, hnone⟩

/-- The size after a write that ends below the largest size. -/
theorem Wrote.kept {s' : Sfs} {l : List UInt8} {off : Int} {pos : Nat} (h : Wrote A i pos l off s s')
    (hoff : off < 2 ^ 32) (p : Nat) (hp : p < s.ifield i .sfi_size) : p < s'.ifield i .sfi_size := by
  rw [h.size]
  split
  · omega
  · exact hp

theorem writeInPlace_below (h : Ready A v i s u) (hrw : u.uio_rw = .UIO_WRITE) (hoff : u.uio_offset = o)
    (hbelow : o < MAXBLOCKS * BLOCKSIZE) : WriteInPlace v i s u := by
  have hM : MAXBLOCKS * BLOCKSIZE = 73216 := rfl
  have hpos : u.pos = u.uio_offset.toNat := by
    unfold Uio.pos
    omega
  -- where the request has ended
  have hend : ∀ t : Sfs × Uio, (∃ t₀, WriteStep v s u t₀ ∧ t = (sfs_io_size v t₀.2 t₀.1, t₀.2)) →
      ∃ bytes, u.Moved t.2 bytes ∧ (bytes ≠ [] → u.pos + bytes.length ≤ MAXBLOCKS * BLOCKSIZE) := by
    rintro t ⟨t₀, ht, rfl⟩
    exact ht.moved
  have hlow : ∀ (t : Sfs × Uio) bytes, u.Moved t.2 bytes →
      (bytes ≠ [] → u.pos + bytes.length ≤ MAXBLOCKS * BLOCKSIZE) → t.2.uio_offset < 2 ^ 32 := by
    intro t bytes hmoved hrange
    rw [hmoved.offset]
    by_cases hnil : bytes = []
    · subst hnil
      rw [List.length_nil]
      omega
    · have := hrange hnil
      omega
  constructor
  refine wp_mono (wp_and (wp_io_write h hrw) (wp_io_any ⟨h.inv.sane, h.wf, hrw⟩)) ?_ ?_ (fun _ hF => hF.1)
  · rintro - t ⟨⟨bytes, hw⟩, hstep⟩
    obtain ⟨bytes', hmoved, hrange⟩ := hend t hstep
    refine ⟨?_, ?_, fun p _ hp => hw.wrote.kept (hlow t bytes' hmoved hrange) p hp⟩
    · rw [hw.wrote.content, hpos, hw.source]
    · intro hne
      have := hw.range hne
      omega
  · rintro e t ⟨⟨bytes, n, hw⟩, hstep⟩
    obtain ⟨bytes', hmoved, hrange⟩ := hend t hstep
    have hresid := hw.moved.resid
    have hresid' := hmoved.resid
    have hn := hw.counted
    refine ⟨?_, fun hpast => by omega, n, by omega, ?_, ?_, fun p _ hp => hw.wrote.kept (hlow t bytes' hmoved hrange) p hp⟩
    · rcases hw.errno with he | he | ⟨he, -⟩
      · exact .inr (.inr he)
      · exact .inr (.inl he)
      · exact .inl he
    · rw [hw.wrote.content, hpos, hw.source]
    · intro hne
      have hle := hrange (by rintro rfl; simp only [List.length_nil] at hresid'; omega)
      omega

theorem writeInPlace (h : Ready A v i s u) (hrw : u.uio_rw = .UIO_WRITE) (hoff : u.uio_offset = o)
    (ho : Faithful o) : WriteInPlace v i s u := by
  have hM : MAXBLOCKS * BLOCKSIZE = 73216 := rfl
  by_cases hpast : MAXBLOCKS * BLOCKSIZE ≤ u.pos
  · exact writeInPlace_past h hrw hoff ho hpast
  · apply writeInPlace_below h hrw hoff
    unfold Uio.pos at hpast
    rw [hM] at hpast ⊢
    unfold Faithful at ho
    rw [hM] at ho
    omega

theorem readInPlace (h : Ready A v i s u) (hrw : u.uio_rw = .UIO_READ) (hoff : u.uio_offset = o) :
    ReadInPlace v i s u := by
  constructor
  refine wp_post (wp_io_read h hrw (by omega)) ?_ (fun _ _ _ => trivial)
  rintro - t ⟨bytes, hd⟩
  refine ⟨bytes, hd.moved, ?_⟩
  have hsize : s.ifield i .sfi_size < 256 ^ 4 := Block.field_lt _ _
  have hlen := hd.length
  by_cases hnil : bytes = []
  · rw [hnil]
    rfl
  · -- something has been read, so that the offset is below the size
    have hne : bytes.length ≠ 0 := fun h0 => hnil (List.eq_nil_of_length_eq_zero h0)
    have hpos : u.pos = u.uio_offset.toNat := by
      unfold Uio.pos
      omega
    rw [← hpos]
    exact hd.reads

/-- An empty write to a sparse file of the largest size. -/
theorem faithful_of_empty (h : WriteInPlace 0 3 (sparse 73216) (uio_kinit [] o .UIO_WRITE)) : Faithful o := by
  have hM : MAXBLOCKS * BLOCKSIZE = 73216 := rfl
  have hsize : (sparse 73216).ifield 3 .sfi_size = 73216 := by decide
  have hwf : (uio_kinit [] o .UIO_WRITE).WF := ⟨Nat.le_refl 0, by show 0 < 2 ^ 32; decide⟩
  have hready : Ready {ROOT_LOCATION, 3} 0 3 (sparse 73216) (uio_kinit [] o .UIO_WRITE) :=
    ⟨sparse_inv, List.mem_singleton.mpr rfl, rfl, hwf⟩
  have hend : ∀ (t : Sfs × Uio) bytes l pos n, (uio_kinit [] o .UIO_WRITE).Moved t.2 bytes →
      Wrote {ROOT_LOCATION, 3} 3 pos l t.2.uio_offset (sparse 73216) t.1 →
      InPlace 3 (sparse 73216) (uio_kinit [] o .UIO_WRITE) n t.1 → Faithful o := by
    intro t bytes l pos n hmoved hwrote hplace
    have hresid : t.2.uio_resid + bytes.length = 0 := hmoved.resid
    have hoff : t.2.uio_offset = o + bytes.length := hmoved.offset
    have hnew := hwrote.size
    have hkept := hplace.kept (o % 2 ^ 32)
    unfold Faithful
    rw [hM] at hkept ⊢
    rw [hsize] at hnew hkept
    split at hnew
    · omega
    · omega
  apply of_wp
  refine wp_mono (wp_and h.run (wp_io_write hready rfl)) ?_ ?_ (fun _ hF => hF.1)
  · rintro - t ⟨hplace, bytes, hw⟩
    exact hend t bytes _ _ _ hw.moved hw.wrote hplace
  · rintro e t ⟨⟨-, -, n, -, hplace⟩, bytes, m, hw⟩
    exact hend t bytes _ _ _ hw.moved hw.wrote hplace

end InPlace

/-- **Offsets are not aliased** just when 32 bits are enough for them, or show that they are past the largest file. -/
theorem offsets_faithful_iff (pos : Int) (hseek : sfs_tryseek pos = none) :
    (∀ (A : Set Nat) (v i : Nat) (s : Sfs) (u : Uio), Ready A v i s u → u.uio_offset = pos →
      (u.uio_rw = .UIO_WRITE → WriteInPlace v i s u) ∧ (u.uio_rw = .UIO_READ → ReadInPlace v i s u)) ↔
      Faithful pos.toNat := by
  have hpos : pos = (pos.toNat : Int) := by
    unfold sfs_tryseek at hseek
    split at hseek
    · cases hseek
    · omega
  constructor
  · intro h
    apply faithful_of_empty
    have hwf : (uio_kinit [] pos.toNat .UIO_WRITE).WF := ⟨Nat.le_refl 0, by show 0 < 2 ^ 32; decide⟩
    exact (h {ROOT_LOCATION, 3} 0 3 (sparse 73216) _ ⟨sparse_inv, List.mem_singleton.mpr rfl, rfl, hwf⟩ hpos.symm).1 rfl
  · intro ho A v i s u hready hoff
    rw [hpos] at hoff
    exact ⟨fun hrw => writeInPlace hready hrw hoff ho, fun hrw => readInPlace hready hrw hoff⟩

/-- Offset 100000 is past the largest file and stays there. -/
theorem offsets_faithful_sample : WriteInPlace 0 3 (sparse 5) (uio_kinit [1, 2] 100000 .UIO_WRITE) := by
  have hwf : (uio_kinit [1, 2] 100000 .UIO_WRITE).WF := ⟨Nat.le_refl 2, by decide⟩
  have hready : Ready {ROOT_LOCATION, 3} 0 3 (sparse 5) (uio_kinit [1, 2] 100000 .UIO_WRITE) :=
    ⟨sparse_inv, List.mem_singleton.mpr rfl, rfl, hwf⟩
  exact ((offsets_faithful_iff 100000 (by decide)).mpr (.inl (by decide)) _ 0 3 _ _ hready rfl).1 rfl

/-- What is left of the write of one byte at offset `o`: whether it is successful, and the first byte of the file. -/
def byteWrite (o : Nat) (b : UInt8) (s : Sfs) : Option (Bool × UInt8) :=
  match sfs_io 0 (s, uio_kinit [b] o .UIO_WRITE) with
  | .ok _ t => some (true, t.1.content 3 0)
  | .err _ t => some (false, t.1.content 3 0)
  | .panic _ => none

/-- **A byte written at offset 2^41 becomes the first byte of the file.** -/
theorem offset_wraps : sfs_tryseek (2 ^ 41) = none ∧ (sparse 5).content 3 0 = 0 ∧
    byteWrite (2 ^ 41) 7 (sparse 5) = some (true, 7) := by
  decide +kernel

end OS161.Sfs
