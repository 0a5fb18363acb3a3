import OS161.Sfs.Request
import OS161.Sfs.BmapFailure

/-! # Writes that move no data

`sfs_io` sets the size of a file from `uio_offset` at its common exit, also when the request has
failed before its first byte or is empty. Such a request can have mapped a block, too:
`sfs_bmap` comes before the block is read and before the caller's bytes are fetched.

The lemmas about the parts of a request hold for every pattern of media errors and in every
state of the volume, consistent or not; where the code panics they say nothing.
-/

namespace OS161.Sfs

open Framework Kern

/-! ## Volumes in any state -/

/-- Nothing has happened but reads and attempts at them. -/
structure Still (s t : Sfs) : Prop where
  sv : t.sv = s.sv
  vnodes : t.sfs_vnodes = s.sfs_vnodes
  fresh : t.fresh = s.fresh
  freemap : t.sfs_freemap = s.sfs_freemap
  sector : t.sfs_device.sector = s.sfs_device.sector

/-- The disk block of block `k` of the file of a vnode. -/
def blockOf (s : Sfs) (v k : Nat) : Nat :=
  if h : k < NDIRECT then s.field v (.sfi_direct ⟨k, h⟩)
  else if s.field v .sfi_indirect = 0 then 0
  else (s.sfs_device.sector (s.field v .sfi_indirect)).entry (k - NDIRECT)

/-- A write to block `k` of the file does not get a new block: there is one, or there is none to get. -/
def NoRoom (v k : Nat) (s : Sfs) : Prop := k < MAXBLOCKS → s.blockOf v k ≠ 0 ∨ s.Full

section Still

variable {s t t' : Sfs} {v k : Nat}

theorem Still.refl (s : Sfs) : Still s s := ⟨rfl, rfl, rfl, rfl, rfl⟩

theorem Still.trans (h : Still s t) (h' : Still t t') : Still s t' :=
  ⟨h'.sv.trans h.sv, h'.vnodes.trans h.vnodes, h'.fresh.trans h.fresh, h'.freemap.trans h.freemap,
    h'.sector.trans h.sector⟩

theorem Still.field (h : Still s t) (f : Block.Field) : t.field v f = s.field v f := by
  unfold Sfs.field
  rw [h.sv]

theorem Still.blockOf (h : Still s t) : t.blockOf v k = s.blockOf v k := by
  unfold Sfs.blockOf
  simp only [h.field, h.sector]

theorem Still.noRoom (h : Still s t) (hs : s.NoRoom v k) : t.NoRoom v k := by
  unfold NoRoom Full at *
  rw [h.blockOf, h.freemap]
  exact hs

theorem Still.agree (h : Still s t) (i : Nat) : Agree s t i := by
  have hinode : t.inode i = s.inode i := by
    unfold inode find
    rw [h.sv, h.vnodes, h.sector]
  have hslot : ∀ k, t.slot i k = s.slot i k := by
    intro k
    unfold slot tableEntry ifield
    rw [hinode, h.sector]
  refine ⟨hinode, hslot, ?_⟩
  intro k
  unfold data
  rw [hslot, h.sector]

/-- Only the device has changed, and none of its blocks. -/
theorem Still.device {d : Lhd} (h : d.sector = s.sfs_device.sector) : Still s { s with sfs_device := d } :=
  ⟨rfl, rfl, rfl, rfl, h⟩

end Still

/-! ## `sfs_bmap` -/

/-- What a call of `sfs_bmap` with `doalloc` leaves, whether it returns a block or an error. -/
structure BmapStep (v k : Nat) (s t : Sfs) : Prop where
  sane : t.Sane
  size : t.field v .sfi_size = s.field v .sfi_size
  none : s.NoRoom v k → Still s t

/-- The block that it returns. -/
structure BmapOk (v k b : Nat) (s t : Sfs) : Prop where
  step : BmapStep v k s t
  range : k < MAXBLOCKS
  block : b ≠ 0 → b + 1 < 2 ^ 32

section Bmap

variable {s t : Sfs} {v k j : Nat}

theorem BmapStep.refl (h : s.Sane) : BmapStep v k s s := ⟨h, rfl, fun _ => .refl s⟩

theorem wp_bmap_direct_step (h : s.Sane) (k : Fin NDIRECT) :
    wp (sfs_bmap_direct v k true) (fun b t => BmapOk v k b s t) (fun _ t => BmapStep v k s t) (fun _ => True) s := by
  have hmax : k.val < MAXBLOCKS := Nat.lt_of_lt_of_le k.isLt (by decide)
  have hblock : s.blockOf v k = s.field v (.sfi_direct k) := by
    unfold blockOf
    rw [dif_pos k.isLt]
  apply wp_bmap_direct_any h
  · exact fun hrange => ⟨.refl h, hmax, hrange⟩
  · intro b hb hzero
    refine ⟨⟨(h.balloced b).setField _ _, field_setField_ne (by simp), fun hno => ?_⟩, hmax, fun _ => hb.range⟩
    rcases hno hmax with hne | hfull
    · exact absurd (hblock.trans hzero) hne
    · exact absurd hfull hb.not_full
  · exact fun _ => .refl h

theorem wp_bmap_indirect_step (h : s.Sane) (hj : j < DBPERIDB) :
    wp (sfs_bmap_indirect v j true) (fun b t => BmapOk v (NDIRECT + j) b s t)
      (fun _ t => BmapStep v (NDIRECT + j) s t) (fun _ => True) s := by
  have hmax : NDIRECT + j < MAXBLOCKS := Nat.add_lt_add_left hj NDIRECT
  have hblock : s.blockOf v (NDIRECT + j) = if s.field v .sfi_indirect = 0 then 0
      else (s.sfs_device.sector (s.field v .sfi_indirect)).entry j := by
    unfold blockOf
    rw [dif_neg (by omega), Nat.add_sub_cancel_left]
  apply wp_bmap_indirect_any h
  · -- a new indirect block
    intro c hc hzero
    rw [if_pos hzero] at hblock
    have hsane := (h.balloced c).setField (v := v) .sfi_indirect c
    have hsize : ((s.balloced c).setField v .sfi_indirect c).field v .sfi_size = s.field v .sfi_size :=
      field_setField_ne (by simp)
    have hnone : ∀ t, s.NoRoom v (NDIRECT + j) → Still s t := by
      intro t hno
      rcases hno hmax with hne | hfull
      · exact absurd hblock hne
      · exact absurd hfull hc.not_full
    refine wp_bmap_entry_any hsane ((s.balloced_d_blocks c).symm ▸ hc.device) ?_ ?_ ?_
    · exact fun hrange => ⟨⟨hsane, hsize, hnone _⟩, hmax, hrange⟩
    · intro b d hb _ hsane'
      exact ⟨⟨hsane', hsize, hnone _⟩, hmax, fun _ => hb.range⟩
    · exact fun _ => ⟨hsane, hsize, hnone _⟩
  · intro hne
    rw [if_neg hne] at hblock
    apply wp_readblock_any h (Block.field_lt _ _)
    · intro d hin hsector hblocks
      have hsane := h.device hblocks
      refine wp_bmap_entry_any hsane (hblocks ▸ hin) ?_ ?_ ?_
      · exact fun hrange => ⟨⟨hsane, rfl, fun _ => .device hsector⟩, hmax, hrange⟩
      · intro b d' hb hzero hsane'
        refine ⟨⟨hsane', rfl, fun hno => ?_⟩, hmax, fun _ => hb.range⟩
        rcases hno hmax with hne | hfull
        · exact absurd (hblock.trans hzero) hne
        · exact absurd hfull hb.not_full
      · exact fun _ => ⟨hsane, rfl, fun _ => .device hsector⟩
    · exact fun _ d hsector hblocks => ⟨h.device hblocks, rfl, fun _ => .device hsector⟩
  · exact fun _ => .refl h

/-- **`sfs_bmap`** on any volume. -/
theorem wp_bmap_step (h : s.Sane) (v k : Nat) :
    wp (sfs_bmap v k true) (fun b t => BmapOk v k b s t) (fun _ t => BmapStep v k s t) (fun _ => True) s := by
  apply wp_bmap_split
  · exact fun _ => .refl h
  · rintro i rfl
    exact wp_bmap_direct_step h i
  · rintro j rfl hj
    exact wp_bmap_indirect_step h hj

end Bmap

/-! ## The parts of a write -/

/-- A write on a volume in any state. -/
structure Writing (s : Sfs) (u : Uio) : Prop where
  sane : s.Sane
  wf : u.WF
  rw : u.uio_rw = .UIO_WRITE

/-- What a part of a write leaves, whether it has failed or not. -/
structure WriteStep (v : Nat) (s : Sfs) (u : Uio) (t : Sfs × Uio) : Prop where
  sane : t.1.Sane
  size : t.1.field v .sfi_size = s.field v .sfi_size
  moved : ∃ bytes, u.Moved t.2 bytes ∧ (bytes ≠ [] → u.pos + bytes.length ≤ MAXBLOCKS * BLOCKSIZE)
  none : t.2.uio_resid = u.uio_resid → s.NoRoom v u.fileblock → Still s t.1

/-- Code that writes `len` bytes, or fails. -/
def Writes (v : Nat) (s : Sfs) (u : Uio) (len : Nat) (m : SfsIoCode Unit) : Prop :=
  wp m (fun _ t => WriteStep v s u t ∧ t.2.uio_resid + len = u.uio_resid) (fun _ t => WriteStep v s u t)
    (fun _ => True) (s, u)

section Compose

variable {s : Sfs} {u : Uio} {t t' : Sfs × Uio} {v len : Nat}

theorem WriteStep.refl (h : Writing s u) : WriteStep v s u (s, u) :=
  ⟨h.sane, rfl, ⟨[], .refl u, fun hne => absurd rfl hne⟩, fun _ _ => .refl s⟩

theorem Writing.next (h : Writing s u) (ht : WriteStep v s u t) : Writing t.1 t.2 := by
  obtain ⟨bytes, hmoved, -⟩ := ht.moved
  exact ⟨ht.sane, hmoved.wf h.wf, hmoved.rw.trans h.rw⟩

theorem pos_moved {u u' : Uio} {bytes : List UInt8} (h : u.Moved u' bytes)
    (hrange : bytes ≠ [] → u.pos + bytes.length ≤ MAXBLOCKS * BLOCKSIZE) : u'.pos = u.pos + bytes.length := by
  have hM : MAXBLOCKS * BLOCKSIZE = 73216 := rfl
  by_cases hnil : bytes = []
  · subst hnil
    have hoff := h.offset
    unfold Uio.pos
    rw [hoff]
    simp
  · have hle := hrange hnil
    exact h.pos (by omega)

theorem WriteStep.pos (h : WriteStep v s u t) (hlen : t.2.uio_resid + len = u.uio_resid) : t.2.pos = u.pos + len := by
  obtain ⟨bytes, hmoved, hrange⟩ := h.moved
  have hresid := hmoved.resid
  rw [pos_moved hmoved hrange]
  omega

theorem WriteStep.trans (h : WriteStep v s u t) (h' : WriteStep v t.1 t.2 t') : WriteStep v s u t' := by
  obtain ⟨bytes, hmoved, hrange⟩ := h.moved
  obtain ⟨more, hmore, hrange'⟩ := h'.moved
  have hpos := pos_moved hmoved hrange
  constructor
  case sane => exact h'.sane
  case size => exact h'.size.trans h.size
  case moved =>
    refine ⟨bytes ++ more, hmoved.trans hmore, ?_⟩
    intro hne
    rw [List.length_append]
    by_cases hnil : more = []
    · subst hnil
      rw [List.append_nil] at hne
      exact hrange hne
    · have hle := hrange' hnil
      omega
  case none =>
    -- neither part has moved anything, so that the second is at the same block
    intro hsame hno
    have hresid := hmoved.resid
    have hresid' := hmore.resid
    have hzero : bytes.length = 0 := by omega
    have hstill := h.none (by omega) hno
    refine hstill.trans (h'.none (by omega) ?_)
    have hblock : t.2.fileblock = u.fileblock := by
      rw [Uio.fileblock_eq, Uio.fileblock_eq, hpos, hzero, Nat.add_zero]
    rw [hblock]
    exact hstill.noRoom hno

end Compose

section Device

variable {d : Lhd} {u : Uio} {n : Nat}

/-- A block that the device does not have. -/
theorem wp_rwblock_refused (h : d.At u n) (hresid : u.uio_resid = BLOCKSIZE) (hn : n + 1 < 2 ^ 32)
    (hout : d.d_blocks ≤ n) :
    wp sfs_rwblock (fun _ _ => False) (fun _ _ => False) (fun _ => True) (d, u) := by
  have hsect : (u.uio_offset.tdiv BLOCKSIZE % 2 ^ 32).toNat = n := by
    rw [h.offset, Int.mul_tdiv_cancel _ (by decide)]
    omega
  have hoff : u.uio_offset.tmod BLOCKSIZE = 0 := by
    rw [h.offset, Int.mul_tmod_left]
  have hrange : (n + BLOCKSIZE / BLOCKSIZE) % 2 ^ 32 > d.d_blocks := by
    rw [Nat.div_self (by decide), Nat.mod_eq_of_lt hn]
    omega
  show wp (sfs_rwblock_try (sfs_rwblock_retry 9)) _ _ _ _
  unfold sfs_rwblock_try lhd_io
  rw [wp_bind, wp_attempt, wp_read_bind]
  simp only [hsect, hoff, hresid, Nat.mod_self, ne_eq, not_true_eq_false, or_self, if_false, if_pos hrange, wp_fail]
  trivial

/-- A write of one block, for every caller and every pattern of media errors. -/
theorem wp_rwblock_write (h : d.At u n) (hresid : u.uio_resid = BLOCKSIZE) (hrw : u.uio_rw = .UIO_WRITE)
    (hn : n < d.d_blocks) :
    wp sfs_rwblock
      (fun _ r => r.1.d_blocks = d.d_blocks ∧ ∃ bytes, u.Moved r.2 bytes ∧ bytes.length = BLOCKSIZE)
      (fun _ r => r.1.d_blocks = d.d_blocks ∧ r.1.sector = d.sector ∧
        ∃ bytes, u.Moved r.2 bytes ∧ bytes.length < BLOCKSIZE) (fun _ => True) (d, u) := by
  have henough : BLOCKSIZE ≤ u.rest.length := hresid ▸ h.wf.enough
  apply wp_sfs_rwblock_try h hresid hn
  · intro u' bytes _ hmoved hbytes
    have hlen : bytes.length = BLOCKSIZE := by
      rw [hbytes]
      exact Uio.length_next henough fun hread => absurd (hrw.symm.trans hread) (by simp)
    refine ⟨?_, bytes, hmoved, hlen⟩
    rw [hrw]
    rfl
  · intro u' _ hmoved
    rw [hrw] at hmoved
    have hlen : (u.rest.take BLOCKSIZE).length = BLOCKSIZE := List.length_take_of_le henough
    have hnext : d.next.At u n := { h with }
    exact wp_of_run_ok (hnext.try_used_up hresid hn hlen hmoved (sfs_rwblock_retry 8)) ⟨rfl, _, hmoved, hlen⟩
  · intro d' u' hd' hf
    rcases hd' with rfl | rfl
    · exact ⟨rfl, rfl, hf.moved⟩
    · exact ⟨rfl, rfl, hf.moved⟩

end Device

section Parts

variable {s : Sfs} {u : Uio} {v : Nat}

/-- `sfs_bmap` has failed. -/
theorem BmapStep.write {t : Sfs} (h : BmapStep v u.fileblock s t) : WriteStep v s u (t, u) :=
  ⟨h.sane, h.size, ⟨[], .refl u, fun hne => absurd rfl hne⟩, fun _ hno => h.none hno⟩

theorem writes_partialio (h : Writing s u) {skip len : Nat} (hlen : len ≤ u.uio_resid)
    (hskip : skip = u.pos % BLOCKSIZE) (hfit : skip + len ≤ BLOCKSIZE) :
    Writes v s u len (sfs_partialio v skip len) := by
  unfold Writes sfs_partialio
  rw [wp_read_bind, wp_kassert_bind hfit, wp_bind, wp_onVolume]
  simp only [h.rw]
  refine wp_post (wp_bmap_step h.sane v u.fileblock) ?_ (fun _ _ hE => hE.write)
  intro b t hb
  rw [wp_bind, wp_onVolume]
  unfold sfs_partialio_fill
  apply wp_if
  · intro h0
    rw [wp_bind, wp_kassert, if_neg (by simp)]
    trivial
  · intro h0
    have hword := hb.block h0
    apply wp_readblock_any hb.step.sane (Nat.lt_of_succ_lt hword)
    · intro d _ hsector hblocks
      have hsane := hb.step.sane.device hblocks
      have hstill : s.NoRoom v u.fileblock → Still s { t with sfs_device := d } :=
        fun hno => (hb.step.none hno).trans (.device hsector)
      rw [wp_bind, wp_onUio]
      refine wp_mono (wp_uiomove h.wf hlen fun hread => absurd (h.rw.symm.trans hread) (by simp)) ?_ ?_
        (fun _ hF => hF.elim)
      · -- the block is written back
        rintro bytes u' ⟨hmoved, hbytes⟩
        have hblen : bytes.length = len := by
          rw [hbytes]
          exact Uio.length_next (Nat.le_trans hlen h.wf.enough) fun hread => absurd (h.rw.symm.trans hread) (by simp)
        have hresid : u'.uio_resid + len = u.uio_resid := hblen ▸ hmoved.resid
        rw [wp_onVolume]
        apply wp_writeblock_any hsane hword
        intro d' hblocks' hsame
        refine ⟨⟨hsane.device hblocks', hb.step.size, ⟨bytes, hmoved, ?_⟩, fun hnone hno => ?_⟩, hresid⟩
        · exact fun _ => pos_le hskip (by omega) hb.range
        · replace hnone : u'.uio_resid = u.uio_resid := hnone
          have hnil : bytes = [] := List.eq_nil_of_length_eq_zero (by omega)
          refine (hstill hno).trans (.device (hsame ?_))
          rw [hnil, Block.overwrite_nil]
          exact (congrFun hsector b).symm
      · intro e u' hf
        obtain ⟨bytes, hmoved, hshort⟩ := hf.moved
        refine ⟨hsane, hb.step.size, ⟨bytes, hmoved, ?_⟩, fun _ hno => hstill hno⟩
        exact fun _ => pos_le hskip (by omega) hb.range
    · intro e d hsector hblocks
      refine ⟨hb.step.sane.device hblocks, hb.step.size, ⟨[], .refl u, fun hne => absurd rfl hne⟩, ?_⟩
      exact fun _ hno => (hb.step.none hno).trans (.device hsector)

theorem writes_blockio (h : Writing s u) (hres : BLOCKSIZE ≤ u.uio_resid) (halign : u.pos % BLOCKSIZE = 0) :
    Writes v s u BLOCKSIZE (sfs_blockio v) := by
  have hB : BLOCKSIZE = 512 := rfl
  unfold Writes sfs_blockio
  rw [wp_read_bind, wp_bind, wp_onVolume]
  simp only [h.rw]
  refine wp_post (wp_bmap_step h.sane v u.fileblock) ?_ (fun _ _ hE => hE.write)
  intro b t hb
  apply wp_if
  · intro h0
    rw [wp_bind, wp_kassert, if_neg fun hread => absurd (h.rw.symm.trans hread) (by simp)]
    trivial
  · intro h0
    -- the offset on the disk is computed in 32 bits
    have hdiskoff : ((b : Int) * BLOCKSIZE) % 2 ^ 32 = ((b % 2 ^ 23 : Nat) : Int) * BLOCKSIZE := by
      rw [hB]
      omega
    have hat : t.sfs_device.At (deviceUio u ((b % 2 ^ 23 : Nat) * BLOCKSIZE)) (b % 2 ^ 23) :=
      ⟨⟨Nat.le_trans hres h.wf.enough, by show 512 < 2 ^ 32; decide⟩, rfl, hb.step.sane.d_blocks⟩
    unfold sfs_blockio_transfer
    simp only [hdiskoff]
    rw [wp_kassert_bind hres, wp_modify_bind, wp_bind, wp_attempt,
      wp_zoom]
    by_cases hin : b % 2 ^ 23 < t.sfs_device.d_blocks
    · -- what the device has moved, all of the block or less
      have hmoved : ∀ d u' bytes, d.d_blocks = t.sfs_device.d_blocks →
          (deviceUio u ((b % 2 ^ 23 : Nat) * BLOCKSIZE)).Moved u' bytes → bytes.length ≤ BLOCKSIZE →
          (bytes.length < BLOCKSIZE → d.sector = t.sfs_device.sector) →
          WriteStep v s u ({ t with sfs_device := d }, restoredUio u u' ((b % 2 ^ 23 : Nat) * BLOCKSIZE)) ∧
            (restoredUio u u' ((b % 2 ^ 23 : Nat) * BLOCKSIZE)).uio_resid + bytes.length = u.uio_resid := by
        intro d u' bytes hblocks hmoved hlen hsector
        have hmoved' := moved_restored hres hmoved
        have hresid := hmoved'.resid
        refine ⟨⟨hb.step.sane.device hblocks, hb.step.size, ⟨bytes, hmoved', ?_⟩, ?_⟩, hresid⟩
        · exact fun _ => pos_le halign.symm (by omega) hb.range
        · intro hsame hno
          replace hsame : (restoredUio u u' ((b % 2 ^ 23 : Nat) * BLOCKSIZE)).uio_resid = u.uio_resid := hsame
          exact (hb.step.none hno).trans (.device (hsector (by omega)))
      refine wp_post (wp_rwblock_write hat rfl h.rw hin) ?_ ?_
      · rintro - ⟨d, u'⟩ ⟨hblocks, bytes, hdev, hblen⟩
        rw [wp_modify_bind, wp_ofExcept_ok]
        have hdone := hmoved d u' bytes hblocks hdev (by omega) (by omega)
        rw [hblen] at hdone
        exact hdone
      · rintro e ⟨d, u'⟩ ⟨hblocks, hsector, bytes, hdev, hshort⟩
        rw [wp_modify_bind, wp_ofExcept_error]
        exact (hmoved d u' bytes hblocks hdev (by omega) fun _ => hsector).1
    · exact wp_post (wp_rwblock_refused hat rfl (by omega) (Nat.le_of_not_lt hin)) (fun _ _ hQ => hQ.elim)
        (fun _ _ hE => hE.elim)

theorem writeRule : TransferRule v Writing (fun s u n t => WriteStep v s u t ∧ t.2.uio_resid + n = u.uio_resid)
    (fun s u _ t => WriteStep v s u t) (fun _ => True) where
  none := fun h => ⟨.refl h, rfl⟩
  next := fun h hd => h.next hd.1
  trans := fun hd hd' => ⟨hd.1.trans hd'.1, by omega⟩
  failed := fun hd hf => hd.1.trans hf
  resid := fun hd => hd.2
  pos := fun hd => hd.1.pos hd.2
  partialio := fun h hlen hskip hfit _ => writes_partialio h hlen hskip hfit
  blockio := writes_blockio

/-- **All the transfers of a write** on any volume. -/
theorem writes_all (h : Writing s u) : Writes v s u u.uio_resid (sfs_io_transfer v) := writeRule.all h

end Parts

/-! ## The end of a write -/

section Exit

variable {s : Sfs} {u : Uio} {v : Nat} {F : Panic → Prop}

/-- The exit of `sfs_io` is the same for all outcomes of the transfers. -/
theorem wp_io_exit {Q : Sfs × Uio → Prop} {E : Errno → Sfs × Uio → Prop} (hrw : u.uio_rw = .UIO_WRITE)
    (h : wp (sfs_io_transfer v) (fun _ t => Q t) E F (s, u)) :
    wp (sfs_io v) (fun _ t => ∃ t₀, Q t₀ ∧ t = (sfs_io_size v t₀.2 t₀.1, t₀.2))
      (fun e t => ∃ t₀, E e t₀ ∧ t = (sfs_io_size v t₀.2 t₀.1, t₀.2)) F (s, u) := by
  unfold sfs_io
  rw [wp_read_bind]
  simp only [hrw]
  unfold sfs_io_limited
  rw [wp_modify_bind, wp_bind, wp_attempt]
  show wp (sfs_io_transfer v) _ _ _ (s, u)
  refine wp_post h ?_ ?_
  · intro _ t hQ
    unfold sfs_io_out
    rw [wp_modify_bind, wp_ofExcept_ok]
    exact ⟨t, hQ, rfl⟩
  · intro e t hE
    unfold sfs_io_out
    rw [wp_modify_bind, wp_ofExcept_error]
    exact ⟨t, hE, rfl⟩

/-- **A write** on any volume: the transfers, and then the size. -/
theorem wp_io_any (h : Writing s u) :
    wp (sfs_io v) (fun _ t => ∃ t₀, WriteStep v s u t₀ ∧ t = (sfs_io_size v t₀.2 t₀.1, t₀.2))
      (fun _ t => ∃ t₀, WriteStep v s u t₀ ∧ t = (sfs_io_size v t₀.2 t₀.1, t₀.2)) (fun _ => True) (s, u) := by
  apply wp_io_exit h.rw
  exact wp_imp (writes_all h) (fun _ _ hQ => hQ.1)

end Exit

/-! ## What is to hold -/

/-- The size, the blocks and the contents of the file are as before. -/
structure Kept (v i : Nat) (s s' : Sfs) : Prop where
  size : s'.field v .sfi_size = s.field v .sfi_size
  blocks : ∀ r, s'.ref i r = s.ref i r
  content : s'.content i = s.content i

/-- The size can be kept in the inode, a write at offset `o` that moves nothing assigns it again or
leaves it, and the block of that offset is there or there is none to be had. -/
structure InsideFile (i o : Nat) (s : Sfs) : Prop where
  small : s.ifield i .sfi_size ≤ MAXBLOCKS * BLOCKSIZE
  offset : o ≤ s.ifield i .sfi_size ∨ o % 2 ^ 32 = s.ifield i .sfi_size
  block : o % 2 ^ 41 / BLOCKSIZE < MAXBLOCKS → s.slot i (o % 2 ^ 41 / BLOCKSIZE) ≠ 0 ∨ ∀ b, s.Used b

section Consistent

variable {A : Set Nat} {s : Sfs} {v i o : Nat}

theorem blockOf_loaded (h : s.TableInv) (hv : v ∈ s.sfs_vnodes) {k : Nat} (hk : k < MAXBLOCKS) :
    s.slot (s.sv v).sv_ino k = s.blockOf v k := by
  unfold slot blockOf tableEntry
  simp only [ifield_loaded h hv, if_pos hk]

theorem FsInv.sane (h : s.FsInv A) : s.Sane := by
  refine ⟨h.geometry.d_blocks, ?_⟩
  rw [h.geometry.nbits]
  simp only [bitmapsize, BLOCKBITS]
  omega

theorem full_iff : s.Full ↔ ∀ b, s.Used b := by
  constructor
  · intro h b
    by_cases hb : b < s.sfs_freemap.nbits
    · exact .inr (h b hb)
    · exact .inl (Nat.le_of_not_lt hb)
  · intro h b hb
    exact (h b).resolve_left (Nat.not_le_of_lt hb)

theorem InsideFile.noRoom (h : s.InsideFile i o) (hinv : s.FsInv A) (hv : v ∈ s.sfs_vnodes) (hino : (s.sv v).sv_ino = i)
    {u : Uio} (hoff : u.uio_offset = o) : s.NoRoom v u.fileblock := by
  have hk : u.fileblock = o % 2 ^ 41 / BLOCKSIZE := by
    rw [Uio.fileblock_eq]
    unfold Uio.pos
    rw [hoff]
    rfl
  intro hlt
  rw [← blockOf_loaded hinv.table hv hlt, hino, full_iff, hk]
  exact h.block (hk ▸ hlt)

/-- Assignment to the size moves no block. -/
theorem ref_setSize (h : s.TableInv) (hv : v ∈ s.sfs_vnodes) (hino : (s.sv v).sv_ino = i) (n : Nat) (r : Role) :
    (s.setField v .sfi_size n).ref i r = s.ref i r := by
  subst hino
  cases r with
  | inode => rfl
  | indirect => exact ifield_setField_ne h hv (by simp)
  | slot k => exact slot_setField h hv (by simp) (by simp) k

/-- Assignment to the size changes nothing else of the file. -/
theorem Kept.setSize (h : s.TableInv) (hv : v ∈ s.sfs_vnodes) (hino : (s.sv v).sv_ino = i) {n : Nat}
    (hn : n = s.field v .sfi_size) : Kept v i s (s.setField v .sfi_size n) := by
  have hlt : s.field v .sfi_size < 256 ^ 4 := Block.field_lt _ _
  refine ⟨?_, ref_setSize h hv hino n, hino ▸ content_setField h hv (by simp) (by simp)⟩
  rw [field_setField, hn]
  exact Nat.mod_eq_of_lt hlt

theorem Still.kept {s₀ : Sfs} (h : Still s₀ s) (v i : Nat) : Kept v i s₀ s :=
  ⟨h.field _, fun r => (h.agree i).ref r, funext fun p => (h.agree i).content p⟩

theorem Kept.trans {s' s'' : Sfs} (h : Kept v i s s') (h' : Kept v i s' s'') : Kept v i s s'' :=
  ⟨h'.size.trans h.size, fun r => (h'.blocks r).trans (h.blocks r), h'.content.trans h.content⟩

/-- The exit of a write that has moved nothing. -/
theorem InsideFile.kept (h : s.InsideFile i o) (hinv : s.FsInv A) (hv : v ∈ s.sfs_vnodes) (hino : (s.sv v).sv_ino = i)
    {t : Sfs} (hstill : Still s t) {u : Uio} (hoff : u.uio_offset = o) : Kept v i s (sfs_io_size v u t) := by
  have hsize : s.ifield i .sfi_size = s.field v .sfi_size := hino ▸ ifield_loaded hinv.table hv _
  have hoffset := h.offset
  rw [hsize] at hoffset
  unfold sfs_io_size
  split
  · rename_i hgrow
    have hsame : (u.uio_offset % 2 ^ 32).toNat = t.field v .sfi_size := by
      have hlt := hgrow.2
      rw [hstill.field] at hlt ⊢
      rw [hoff] at hlt ⊢
      omega
    have htable : t.TableInv := hinv.table.of_eq hstill.vnodes hstill.sv hstill.fresh
    have hv' : v ∈ t.sfs_vnodes := hstill.vnodes ▸ hv
    exact (hstill.kept v i).trans (.setSize htable hv' (by rw [hstill.sv]; exact hino) hsame)
  · exact hstill.kept v i

end Consistent

/-! ## A file without blocks -/

/-- A volume of 4096 blocks with the root directory in block 1 and a file without blocks in block 3. -/
def sparse (size : Nat) : Sfs where
  sfs_super := Block.ofList [0, 0, 0, 0, 0, 0, 16, 0]
  sfs_superdirty := false
  sfs_device := ⟨4096, fun b => if b = ROOT_LOCATION then Block.zeros.setField .sfi_type TYPE_DIR else .zeros, []⟩
  sfs_vnodes := [0]
  sfs_freemap := ⟨4096, fun ix => if ix = 0 then 0x0f else 0⟩
  sfs_freemapdirty := false
  sv := fun _ =>
    { sv_i := (Block.zeros.setField .sfi_type TYPE_FILE).setField .sfi_size size
      sv_ino := 3
      sv_dirty := true
      vn_refcount := 1
      vn_opencount := 0
      vn_ops := .sfs_fileops }
  fresh := 1
  reclaimed := fun _ => none

section Sparse

variable {size : Nat}

theorem sparse_nblocks : (sparse size).nblocks = 4096 := by
  show (Block.ofList [0, 0, 0, 0, 0, 0, 16, 0]).sp_nblocks = 4096
  decide

theorem sparse_isset (b : Nat) : bitmap_isset (sparse size).sfs_freemap b = true ↔ b < 4 := by
  rw [Bitmap.isset_eq]
  show (if b / 8 = 0 then (0x0f : UInt8) else 0).toBitVec.getLsbD (b % 8) = true ↔ b < 4
  by_cases h8 : b / 8 = 0
  · rw [if_pos h8, show b % 8 = b by omega]
    have hall : ∀ c : Fin 8, (0x0f : UInt8).toBitVec.getLsbD c = true ↔ c.val < 4 := by decide
    exact hall ⟨b, by omega⟩
  · rw [if_neg h8]
    simp
    omega

theorem sparse_used (b : Nat) : (sparse size).Used b ↔ b < 4 ∨ 4096 ≤ b := by
  unfold Used
  rw [sparse_isset]
  exact or_comm

theorem sparse_fixed (b : Nat) : (sparse size).Fixed b ↔ b = 0 ∨ b = 2 ∨ 4096 ≤ b := by
  unfold Fixed
  rw [sparse_nblocks, show bitblocks 4096 = 1 from rfl]
  show b = 0 ∨ (2 ≤ b ∧ b < 2 + 1) ∨ 4096 ≤ b ↔ _
  omega

/-- Neither inode has blocks. -/
theorem sparse_ref {i : Nat} (hi : i = ROOT_LOCATION ∨ i = 3) {r : Role} (hr : r ≠ .inode) : (sparse size).ref i r = 0 := by
  have hfield : ∀ f, f ≠ .sfi_size → f ≠ .sfi_type → (sparse size).ifield i f = 0 := by
    intro f hsize htype
    rcases hi with rfl | rfl
    · show (Block.zeros.setField .sfi_type TYPE_DIR).field f = 0
      rw [Block.field_setField_ne _ _ htype, Block.field_zeros]
    · show ((Block.zeros.setField .sfi_type TYPE_FILE).setField .sfi_size size).field f = 0
      rw [Block.field_setField_ne _ _ hsize, Block.field_setField_ne _ _ htype, Block.field_zeros]
  have hindirect : (sparse size).ifield i .sfi_indirect = 0 := hfield _ (by simp) (by simp)
  cases r with
  | inode => exact absurd rfl hr
  | indirect => exact hindirect
  | slot k =>
    show (sparse size).slot i k = 0
    unfold slot tableEntry
    rw [hindirect]
    split
    · exact hfield _ (by simp) (by simp)
    · simp

theorem sparse_holds (x : Nat × Role) (b : Nat) :
    (sparse size).Holds {ROOT_LOCATION, 3} x b ↔ (x.1 = ROOT_LOCATION ∨ x.1 = 3) ∧ x.2 = .inode ∧ x.1 = b := by
  obtain ⟨i, r⟩ := x
  unfold Holds
  simp only [Set.mem_insert_iff, Set.mem_singleton_iff]
  constructor
  · rintro ⟨hi, href, hb⟩
    by_cases hr : r = .inode
    · subst hr
      exact ⟨hi, rfl, href⟩
    · exact absurd (href.symm.trans (sparse_ref hi hr)) hb
  · rintro ⟨hi, rfl, rfl⟩
    refine ⟨hi, rfl, ?_⟩
    rcases hi with rfl | rfl
    · decide
    · decide

theorem sparse_inv : (sparse size).FsInv {ROOT_LOCATION, 3} := by
  have hR : ROOT_LOCATION = 1 := rfl
  have hmem : ∀ v, v ∈ (sparse size).sfs_vnodes ↔ v = 0 := by simp [sparse]
  constructor
  case geometry =>
    refine ⟨rfl, by show 4096 < 2 ^ 32; decide, ?_, ?_, ?_⟩
    · rw [sparse_nblocks]
      exact Nat.le_refl _
    · rw [sparse_nblocks]
      decide
    · rw [sparse_nblocks]
      rfl
  case table =>
    constructor
    case nodup => exact List.nodup_cons.mpr ⟨List.not_mem_nil, List.nodup_nil⟩
    case inj =>
      intro v hv w hw _
      rw [(hmem v).mp hv, (hmem w).mp hw]
    case fresh =>
      intro v hv
      rw [(hmem v).mp hv]
      exact Nat.zero_lt_one
    case refs => exact fun _ _ => Nat.le_refl 1
    case ops =>
      intro v _
      show sfs_ops (((Block.zeros.setField .sfi_type TYPE_FILE).setField .sfi_size size).field .sfi_type) = _
      rw [Block.field_setField_ne _ _ (by simp)]
      show sfs_ops ((Block.zeros.setField .sfi_type TYPE_FILE).field .sfi_type) = some .sfs_fileops
      decide
  case ledger =>
    constructor
    case one =>
      intro x y b hx hy
      rw [sparse_holds] at hx hy
      exact Prod.ext (hx.2.2.trans hy.2.2.symm) (hx.2.1.trans hy.2.1.symm)
    case used =>
      intro b
      simp only [sparse_used, sparse_fixed, sparse_holds, Prod.exists, hR]
      constructor
      · intro hb
        by_cases hheld : b = 1 ∨ b = 3
        · exact .inr ⟨b, .inode, hheld, rfl, rfl⟩
        · left
          omega
      · rintro (hb | ⟨i, r, hi, -, rfl⟩)
        · omega
        · omega
    case apart =>
      intro x b hx
      rw [sparse_holds, hR] at hx
      rw [sparse_fixed]
      omega
  case nonzero => simp [hR]
  case root => exact .inl rfl
  case loaded => exact fun _ _ => .inr rfl
  case clean => exact fun _ _ hdirty => nomatch hdirty

end Sparse

end OS161.Sfs
