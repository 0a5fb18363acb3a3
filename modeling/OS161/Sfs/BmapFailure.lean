import OS161.Sfs.Volume

/-! # Block mapping that fails

`sfs_bmap` with `doalloc` on any inode, for every state of the free block map and every pattern
of media errors. Nothing is assumed of the block numbers in the inode: one that is not on the
device makes `sfs_rwblock` panic. A write is never reported as failed (see `sfs_wblock_run`), so
that the errors left are a full map, a block that cannot be read and a block number past the
indirect block.
-/

namespace OS161

open Framework Kern

/-! ## Blocks that are not on the device -/

section OutOfRange

variable {d : Lhd} {n : Nat} (data : Block)

section

variable (rw : UioRw) (hn : n < 2 ^ 32) (hlast : n + 1 < 2 ^ 32 ∨ rw = .UIO_READ) (hout : d.d_blocks ≤ n)
include rw hn hlast hout

/-- The driver refuses the request; for the last 32-bit block number only the drive itself does. -/
theorem wp_lhd_io_out_of_range
    :
    wp lhd_io (fun _ _ => False) (fun e _ => e = .einval) (fun _ => False) (d, sfsuio data n rw) := by
  have hsect : ((sfsuio data n rw).uio_offset.tdiv BLOCKSIZE % 2 ^ 32).toNat = n := by
    show ((((n * BLOCKSIZE : Nat) : Int)).tdiv BLOCKSIZE % 2 ^ 32).toNat = n
    rw [Int.natCast_mul, Int.mul_tdiv_cancel _ (by decide)]
    omega
  have hoff : (sfsuio data n rw).uio_offset.tmod BLOCKSIZE = 0 := by
    show (((n * BLOCKSIZE : Nat) : Int)).tmod BLOCKSIZE = 0
    rw [Int.natCast_mul, Int.mul_tmod_left]
  have hlen : (sfsuio data n rw).uio_resid / BLOCKSIZE = 1 := by
    rw [sfsuio_resid]
    rfl
  have hmod : (sfsuio data n rw).uio_resid % BLOCKSIZE = 0 := by
    rw [sfsuio_resid]
    rfl
  rw [lhd_io, wp_read_bind]
  simp only [hsect, hoff, hlen, hmod, ne_eq, not_true_eq_false, or_self, if_false, wp_ite, wp_fail]
  split
  · trivial
  · rename_i hrange
    -- the sum of sector and length is 0
    obtain rfl : rw = .UIO_READ := by
      rcases hlast with h | h
      · omega
      · exact h
    have hreport : d.report n = .LHD_INVSECT := by
      unfold Lhd.report
      rw [if_pos hout]
    simp only [lhd_sectors, wp_bind, wp_read, show (sfsuio data n .UIO_READ).uio_rw = .UIO_READ from rfl,
      wp_lhd_read, Nat.mod_eq_of_lt hn, hreport]
    rfl

theorem wp_sfs_rwblock_out_of_range
    :
    wp sfs_rwblock (fun _ _ => False) (fun _ _ => False) (fun p => p = .sfs_rwblock_EINVAL)
      (d, sfsuio data n rw) := by
  show wp (sfs_rwblock_try (sfs_rwblock_retry 9)) _ _ _ _
  unfold sfs_rwblock_try
  rw [wp_bind, wp_attempt]
  refine wp_mono (wp_lhd_io_out_of_range data rw hn hlast hout) ?_ ?_ (fun _ h => h.elim)
  · intro _ _ h
    exact h.elim
  · rintro e _ rfl
    rfl

end

/-- A write is done, as far as its return code says, or the block is not on the device. -/
theorem wp_sfs_wblock_any (hd : d.d_blocks < 2 ^ 32) (hn : n + 1 < 2 ^ 32) :
    wp (sfs_wblock data n)
      (fun _ d' => n < d.d_blocks ∧ d' = if d.report n = .LHD_OK then d.next.store n data else d.next)
      (fun _ _ => False) (fun _ => d.d_blocks ≤ n) d := by
  by_cases hin : n < d.d_blocks
  · exact wp_of_run_ok (sfs_wblock_run data hd hin) ⟨hin, rfl⟩
  · unfold sfs_wblock
    rw [wp_bind, wp_withLocal]
    exact wp_mono (wp_sfs_rwblock_out_of_range data .UIO_WRITE (by omega) (.inl hn) (by omega))
      (fun _ _ h => h.elim) (fun _ _ h => h.elim) (fun _ _ => by omega)

/-- The attempts at a read do not change the size of the disk. -/
theorem wp_sfs_rwblock_read_blocks (retries : Nat) :
    ∀ d : Lhd, d.d_blocks < 2 ^ 32 → n < d.d_blocks →
      wp (sfs_rwblock_retry retries) (fun _ s => s.1.d_blocks = d.d_blocks)
        (fun _ s => s.1.d_blocks = d.d_blocks) (fun _ => False) (d, sfsuio data n .UIO_READ) := by
  induction retries with
  | zero =>
    intro d hd hn
    exact wp_sfs_rwblock_try_read data hd hn (fun _ _ => rfl) rfl
  | succ retries ih =>
    intro d hd hn
    exact wp_sfs_rwblock_try_read data hd hn (fun _ _ => rfl) (ih d.next hd hn)

/-- A read of a block of the device. -/
theorem wp_sfs_rblock_blocks (hd : d.d_blocks < 2 ^ 32) (hn : n < d.d_blocks) :
    wp (sfs_rblock data n) (fun b d' => b = d.sector n ∧ d'.sector = d.sector ∧ d'.d_blocks = d.d_blocks)
      (fun _ d' => d'.sector = d.sector ∧ d'.d_blocks = d.d_blocks) (fun _ => False) d := by
  have hblocks : wp (sfs_rblock data n) (fun _ d' => d'.d_blocks = d.d_blocks)
      (fun _ d' => d'.d_blocks = d.d_blocks) (fun _ => False) d := by
    unfold sfs_rblock
    rw [wp_bind, wp_withLocal]
    exact wp_sfs_rwblock_read_blocks data 10 d hd hn
  refine wp_mono (wp_and (wp_sfs_rblock data hd hn) hblocks) ?_ ?_ (fun _ h => h.1)
  · rintro b d' ⟨⟨hb, hsector⟩, hd'⟩
    exact ⟨hb, hsector, hd'⟩
  · rintro e d' ⟨⟨-, hsector⟩, hd'⟩
    exact ⟨hsector, hd'⟩

/-- A read of a block that the device does not have. -/
theorem wp_sfs_rblock_out_of_range (hn : n < 2 ^ 32) (hout : d.d_blocks ≤ n) :
    wp (sfs_rblock data n) (fun _ _ => False) (fun _ _ => False) (fun _ => True) d := by
  unfold sfs_rblock
  rw [wp_bind, wp_withLocal]
  exact wp_mono (wp_sfs_rwblock_out_of_range data .UIO_READ hn (.inr rfl) hout) (fun _ _ h => h.elim)
    (fun _ _ h => h.elim) (fun _ _ => trivial)

end OutOfRange

/-! ## Allocation -/

namespace Sfs

/-- The volume after `sfs_balloc` has handed out `b`. -/
def balloced (s : Sfs) (b : Nat) : Sfs :=
  { s with
    sfs_freemap := s.sfs_freemap.mark b
    sfs_freemapdirty := true
    sfs_device :=
      if s.sfs_device.report b = .LHD_OK then s.sfs_device.next.store b .zeros else s.sfs_device.next }

theorem balloced_d_blocks (s : Sfs) (b : Nat) : (s.balloced b).sfs_device.d_blocks = s.sfs_device.d_blocks := by
  unfold balloced
  split <;> rfl

theorem nblocks_lt_word (s : Sfs) : s.nblocks < 2 ^ 32 := Block.get_lt _ _ _

section Balloc

variable {s : Sfs} {Q : Nat → Sfs → Prop} {E : Errno → Sfs → Prop} {F : Panic → Prop}

/-- `sfs_balloc`, whatever the map says. -/
theorem wp_balloc_any (hd : s.sfs_device.d_blocks < 2 ^ 32) (h8 : s.sfs_freemap.nbits % 8 = 0)
    (hok : ∀ b, b < s.sfs_freemap.nbits → bitmap_isset s.sfs_freemap b = false → b < s.nblocks →
      b < s.sfs_device.d_blocks → Q b (s.balloced b))
    (hfull : (∀ b, b < s.sfs_freemap.nbits → bitmap_isset s.sfs_freemap b = true) → E .enospc s)
    (hbad : ∀ b, b < s.sfs_freemap.nbits → bitmap_isset s.sfs_freemap b = false →
      ¬ (b < s.nblocks ∧ b < s.sfs_device.d_blocks) → ∀ p, F p) : wp sfs_balloc Q E F s := by
  unfold sfs_balloc onFreemap
  rw [wp_bind, wp_zoom]
  apply wp_bitmap_alloc (.of_mod h8)
  · intro b hb hfree _
    have hlt := s.nblocks_lt_word
    rw [wp_modify_bind, wp_read_bind, wp_bind, wp_kassert]
    show if b < s.nblocks then _ else _
    by_cases hin : b < s.nblocks
    · rw [if_pos hin, wp_bind]
      unfold sfs_clearblock sfs_writeblock onDevice
      rw [wp_zoom]
      refine wp_mono (wp_sfs_wblock_any .zeros hd (by omega)) ?_ (fun _ _ h => h.elim) ?_
      · rintro _ d ⟨hdev, rfl⟩
        exact hok b hb hfree hin hdev
      · intro p hout
        replace hout : s.sfs_device.d_blocks ≤ b := hout
        exact hbad b hb hfree (fun h => by omega) p
    · rw [if_neg hin]
      exact hbad b hb hfree (fun h => hin h.1) _
  · exact hfull

end Balloc

/-! ## `sfs_bmap` -/

/-- What the code for single blocks relies on. -/
structure Sane (s : Sfs) : Prop where
  d_blocks : s.sfs_device.d_blocks < 2 ^ 32
  nbits : s.sfs_freemap.nbits % 8 = 0

/-- There is no free block. -/
def Full (s : Sfs) : Prop := ∀ b, b < s.sfs_freemap.nbits → bitmap_isset s.sfs_freemap b = true

/-- A block that `sfs_balloc` can hand out. -/
structure Free (s : Sfs) (b : Nat) : Prop where
  bit : b < s.sfs_freemap.nbits
  clear : bitmap_isset s.sfs_freemap b = false
  volume : b < s.nblocks
  device : b < s.sfs_device.d_blocks

/-- The inode, its indirect block and the free block map are as before. -/
structure Untouched (v : Nat) (s s' : Sfs) : Prop where
  inode : (s'.sv v).sv_i = (s.sv v).sv_i
  indirect : s'.sfs_device.sector (s.field v .sfi_indirect) = s.sfs_device.sector (s.field v .sfi_indirect)
  freemap : s'.sfs_freemap = s.sfs_freemap

theorem Untouched.refl (v : Nat) (s : Sfs) : Untouched v s s := ⟨rfl, rfl, rfl⟩

/-- The map has one clear bit, for a block of the volume. -/
def OneFree (s : Sfs) : Prop :=
  ∃ b, b < s.nblocks ∧ b < s.sfs_device.d_blocks ∧ b < s.sfs_freemap.nbits ∧
    bitmap_isset s.sfs_freemap b = false ∧
      ∀ c, c < s.sfs_freemap.nbits → c ≠ b → bitmap_isset s.sfs_freemap c = true

section Bmap

variable {s : Sfs} {v k j : Nat}

theorem Sane.balloced (h : s.Sane) (b : Nat) : (s.balloced b).Sane :=
  ⟨(s.balloced_d_blocks b).symm ▸ h.d_blocks, h.nbits⟩

theorem Sane.setField (h : s.Sane) (f : Block.Field) (n : Nat) : (s.setField v f n).Sane := ⟨h.d_blocks, h.nbits⟩

theorem Sane.device (h : s.Sane) {d : Lhd} (hd : d.d_blocks = s.sfs_device.d_blocks) :
    Sane { s with sfs_device := d } := ⟨hd ▸ h.d_blocks, h.nbits⟩

theorem Free.not_full {b : Nat} (h : s.Free b) : ¬ s.Full := by
  intro hfull
  exact nomatch (hfull b h.bit).symm.trans h.clear

theorem Free.range {b : Nat} (h : s.Free b) : b + 1 < 2 ^ 32 := by
  have hvolume := h.volume
  have hword := s.nblocks_lt_word
  omega

/-! The outcomes of the parts of `sfs_bmap`, on any volume. -/

variable {Q : Nat → Sfs → Prop} {E : Errno → Sfs → Prop}

theorem wp_balloc_free (h : s.Sane) (hok : ∀ b, s.Free b → Q b (s.balloced b)) (hfull : s.Full → E .enospc s) :
    wp sfs_balloc Q E (fun _ => True) s :=
  wp_balloc_any h.d_blocks h.nbits (fun b hb hclear hin hdev => hok b ⟨hb, hclear, hin, hdev⟩) hfull
    fun _ _ _ _ _ => trivial

/-- A block that passes the last check is on the volume. -/
theorem wp_bmap_check_range (b : Nat) (hq : (b ≠ 0 → b + 1 < 2 ^ 32) → Q b s) :
    wp (sfs_bmap_check b) Q E (fun _ => True) s := by
  have hword := s.nblocks_lt_word
  unfold sfs_bmap_check sfs_bused
  apply wp_if
  · intro h0
    rw [wp_pure]
    subst h0
    exact hq fun h => absurd rfl h
  · intro h0
    rw [wp_bind, wp_read_bind, wp_bind, wp_kassert]
    by_cases hin : b < s.nblocks
    · rw [if_pos hin, wp_pure, wp_bind, wp_kassert]
      by_cases hset : bitmap_isset s.sfs_freemap b = true
      · rw [if_pos hset, wp_pure]
        exact hq fun _ => by omega
      · rw [if_neg hset]
        trivial
    · rw [if_neg hin]
      trivial

theorem wp_bmap_direct_any (h : s.Sane) (k : Fin NDIRECT)
    (hold : (s.field v (.sfi_direct k) ≠ 0 → s.field v (.sfi_direct k) + 1 < 2 ^ 32) → Q (s.field v (.sfi_direct k)) s)
    (hnew : ∀ b, s.Free b → s.field v (.sfi_direct k) = 0 → Q b ((s.balloced b).setField v (.sfi_direct k) b))
    (hfull : s.Full → E .enospc s) : wp (sfs_bmap_direct v k true) Q E (fun _ => True) s := by
  unfold sfs_bmap_direct
  rw [wp_read_bind]
  apply wp_if
  · intro hneed
    rw [wp_bind]
    apply wp_balloc_free h _ hfull
    intro b hb
    rw [wp_modify_bind]
    exact wp_bmap_check_range b fun _ => hnew b hb hneed.1
  · exact fun _ => wp_bmap_check_range _ hold

/-- A block that is written, as far as the return code says. -/
theorem wp_writeblock_any {b : Nat} {data : Block} {R : Unit → Sfs → Prop} (h : s.Sane) (hb : b + 1 < 2 ^ 32)
    (hok : ∀ d, d.d_blocks = s.sfs_device.d_blocks → (data = s.sfs_device.sector b → d.sector = s.sfs_device.sector) →
      R () { s with sfs_device := d }) : wp (sfs_writeblock data b) R E (fun _ => True) s := by
  unfold sfs_writeblock onDevice
  rw [wp_zoom]
  refine wp_mono (wp_sfs_wblock_any _ h.d_blocks hb) ?_ (fun _ _ hE => hE.elim) (fun _ _ => trivial)
  rintro _ d ⟨-, rfl⟩
  split
  · refine hok _ rfl fun hdata => funext fun m => ?_
    exact ite_eq_right_iff.mpr fun hm => hdata.trans (congrArg _ hm.symm)
  · exact hok _ rfl fun _ => rfl

/-- An entry of an indirect block that is on the device: the error is that of `sfs_balloc`. -/
theorem wp_bmap_entry_any {id : Nat} {buf : Block} (h : s.Sane) (hid : id < s.sfs_device.d_blocks)
    (hold : (buf.entry j ≠ 0 → buf.entry j + 1 < 2 ^ 32) → Q (buf.entry j) s)
    (hnew : ∀ b d, s.Free b → buf.entry j = 0 → Sane { s.balloced b with sfs_device := d } →
      Q b { s.balloced b with sfs_device := d })
    (hfull : s.Full → E .enospc s) : wp (sfs_bmap_entry id buf j true) Q E (fun _ => True) s := by
  have hd := h.d_blocks
  apply wp_if
  · intro hneed
    rw [wp_bind]
    apply wp_balloc_free h _ hfull
    intro b hb
    rw [wp_bind]
    apply wp_writeblock_any (h.balloced b) (by omega)
    intro d hblocks _
    exact wp_bmap_check_range b fun _ => hnew b d hb hneed.1 ((h.balloced b).device hblocks)
  · exact fun _ => wp_bmap_check_range _ hold

/-- A block that is read, or cannot be read. -/
theorem wp_readblock_any {b : Nat} {R : Block → Sfs → Prop} (h : s.Sane) (hb : b < 2 ^ 32)
    (hread : ∀ d, b < s.sfs_device.d_blocks → d.sector = s.sfs_device.sector →
      d.d_blocks = s.sfs_device.d_blocks → R (s.sfs_device.sector b) { s with sfs_device := d })
    (hunread : ∀ e d, d.sector = s.sfs_device.sector → d.d_blocks = s.sfs_device.d_blocks →
      E e { s with sfs_device := d }) : wp (sfs_readblock b) R E (fun _ => True) s := by
  unfold sfs_readblock onDevice
  rw [wp_zoom]
  by_cases hin : b < s.sfs_device.d_blocks
  · refine wp_mono (wp_sfs_rblock_blocks _ h.d_blocks hin) ?_ ?_ (fun _ hF => hF.elim)
    · rintro buf d ⟨rfl, hsector, hblocks⟩
      exact hread d hin hsector hblocks
    · exact fun e d hd => hunread e d hd.1 hd.2
  · exact wp_post (wp_sfs_rblock_out_of_range _ hb (by omega)) (fun _ _ hQ => hQ.elim) (fun _ _ hE => hE.elim)

/-- The indirect block is new, or it is read. -/
theorem wp_bmap_indirect_any (h : s.Sane) (hnew : ∀ c, s.Free c → s.field v .sfi_indirect = 0 →
      wp (sfs_bmap_entry c .zeros j true) Q E (fun _ => True) ((s.balloced c).setField v .sfi_indirect c))
    (hread : s.field v .sfi_indirect ≠ 0 → wp (sfs_readblock (s.field v .sfi_indirect))
      (fun buf t => wp (sfs_bmap_entry (s.field v .sfi_indirect) buf j true) Q E (fun _ => True) t) E
      (fun _ => True) s)
    (hfull : s.Full → E .enospc s) : wp (sfs_bmap_indirect v j true) Q E (fun _ => True) s := by
  unfold sfs_bmap_indirect
  rw [wp_read_bind]
  apply wp_if
  · intro hzero
    rw [wp_ite, if_pos rfl, wp_bind]
    apply wp_balloc_free h _ hfull
    intro c hc
    rw [wp_modify_bind]
    exact hnew c hc hzero
  · intro hne
    rw [wp_bind]
    exact hread hne

/-- The bits after one has been set. -/
theorem all_set_of_mark {b : Bitmap} {i : Nat} (h : ∀ c, c < b.nbits → bitmap_isset (b.mark i) c = true) :
    ∀ c, c < b.nbits → c ≠ i → bitmap_isset b c = true := by
  intro c hc hne
  have hset := h c hc
  rw [Bitmap.isset_mark] at hset
  simpa [hne] using hset

/-- The indirect part of a file, unless the map has just one free block for two. -/
theorem wp_bmap_indirect_untouched (h : s.Sane) (hnot : ¬ (s.field v .sfi_indirect = 0 ∧ s.OneFree)) :
    wp (sfs_bmap_indirect v j true) (fun _ _ => True) (fun _ s' => Untouched v s s') (fun _ => True) s := by
  apply wp_bmap_indirect_any h
  · intro c hc hzero
    refine wp_bmap_entry_any ((h.balloced c).setField _ _) ?_ (fun _ => trivial) (fun _ _ _ _ _ => trivial) ?_
    · exact (s.balloced_d_blocks c).symm ▸ hc.device
    · -- no second block is left, so that `c` was the only one
      intro hfull
      exact absurd ⟨hzero, c, hc.volume, hc.device, hc.bit, hc.clear, all_set_of_mark hfull⟩ hnot
  · intro _
    apply wp_readblock_any h (Block.field_lt _ _)
    · intro d hin hsector hblocks
      refine wp_bmap_entry_any (h.device hblocks) (hblocks ▸ hin) (fun _ => trivial) (fun _ _ _ _ _ => trivial) ?_
      exact fun _ => ⟨rfl, congrFun hsector _, rfl⟩
    · exact fun _ d hsector _ => ⟨rfl, congrFun hsector _, rfl⟩
  · exact fun _ => .refl v s

/-- With one free block and no indirect block, the indirect block takes the free block. -/
theorem wp_bmap_indirect_one (hd : s.sfs_device.d_blocks < 2 ^ 32) (h8 : s.sfs_freemap.nbits % 8 = 0)
    (hzero : s.field v .sfi_indirect = 0) (hone : s.OneFree) :
    wp (sfs_bmap_indirect v j true) (fun _ _ => False) (fun e s' => e = .enospc ∧ ¬ Untouched v s s')
      (fun _ => False) s := by
  obtain ⟨b, hin, hdev, hb, hfree, hothers⟩ := hone
  have honly : ∀ c, c < s.sfs_freemap.nbits → bitmap_isset s.sfs_freemap c = false → c = b := by
    intro c hc hclear
    by_contra hne
    rw [hothers c hc hne] at hclear
    cases hclear
  have hmarked : ∀ c, c < s.sfs_freemap.nbits → bitmap_isset (s.sfs_freemap.mark b) c = true := by
    intro c hc
    rw [Bitmap.isset_mark]
    by_cases hcb : c = b
    · simp [hcb]
    · simp [hothers c hc hcb]
  unfold sfs_bmap_indirect
  rw [wp_read_bind, wp_ite, if_pos hzero, wp_ite, if_pos rfl, wp_bind]
  apply wp_balloc_any hd h8
  · intro c hc hclear _ _
    obtain rfl := honly c hc hclear
    rw [wp_modify_bind]
    unfold sfs_bmap_entry
    have hblocks : ((s.balloced c).setField v .sfi_indirect c).sfs_device.d_blocks = s.sfs_device.d_blocks :=
      balloced_d_blocks s c
    rw [wp_ite, if_pos ⟨Block.entry_zeros _, rfl⟩, wp_bind]
    refine wp_balloc_any (by omega) h8 ?_ ?_ ?_
    · intro d hd' hdclear _ _
      exact absurd (hmarked d hd') (by rw [show bitmap_isset (s.sfs_freemap.mark c) d = false from hdclear]; simp)
    · intro _
      refine ⟨rfl, fun hsame => ?_⟩
      -- the bit of the block is set now
      have hbit := hmarked c hc
      rw [show s.sfs_freemap.mark c = s.sfs_freemap from hsame.freemap, hfree] at hbit
      cases hbit
    · intro d hd' hdclear _ _
      exact absurd (hmarked d hd') (by rw [show bitmap_isset (s.sfs_freemap.mark c) d = false from hdclear]; simp)
  · intro hfull
    rw [hfull b hb] at hfree
    cases hfree
  · intro c hc hclear hbad
    obtain rfl := honly c hc hclear
    exact absurd ⟨hin, hdev⟩ hbad

end Bmap

/-- **Failed block mapping.** An error of `sfs_bmap` leaves the inode, its indirect block and the
map alone, for every pattern of media errors, unless the block needs a new indirect block and
the map has just one block left. -/
theorem bmap_failure_iff (s : Sfs) (v k : Nat) (hd : s.sfs_device.d_blocks < 2 ^ 32)
    (h8 : s.sfs_freemap.nbits % 8 = 0) :
    (∀ e s', sfs_bmap v k true s = .err e s' → Untouched v s s') ↔
      ¬ (NDIRECT ≤ k ∧ k < MAXBLOCKS ∧ s.field v .sfi_indirect = 0 ∧ s.OneFree) := by
  have hM : MAXBLOCKS = NDIRECT + DBPERIDB := rfl
  constructor
  · intro h ⟨hlo, hhi, hzero, hone⟩
    have hwp : wp (sfs_bmap v k true) (fun _ _ => False) (fun e s' => e = .enospc ∧ ¬ Untouched v s s')
        (fun _ => False) s := by
      apply wp_bmap_split
      · exact fun hbig => absurd hhi (Nat.not_lt.mpr hbig)
      · rintro i rfl
        exact absurd i.isLt (Nat.not_lt.mpr hlo)
      · exact fun j _ _ => wp_bmap_indirect_one hd h8 hzero hone
    cases hout : sfs_bmap v k true s with
    | ok b s' => exact wp_ok hout hwp
    | err e s' => exact (wp_err hout hwp).2 (h e s' hout)
    | panic p => exact wp_panic hout hwp
  · intro hnot e s' hrun
    have hwp : wp (sfs_bmap v k true) (fun _ _ => True) (fun _ s' => Untouched v s s') (fun _ => True) s := by
      apply wp_bmap_split
      · exact fun _ => .refl v s
      · exact fun i _ => wp_bmap_direct_any ⟨hd, h8⟩ i (fun _ => trivial) (fun _ _ _ => trivial) (fun _ => .refl v s)
      · intro j hj hlt
        exact wp_bmap_indirect_untouched ⟨hd, h8⟩ fun h => hnot ⟨by omega, by omega, h.1, h.2⟩
    exact wp_err (E := fun _ s' => Untouched v s s') hrun hwp

/-! ## Nearly full volumes -/

/-- A volume of 16 blocks with one loaded, empty inode; `word` is the first byte of the map, the others are full. -/
def nearlyFull (word : UInt8) : Sfs where
  sfs_super := Block.ofList [0, 0, 0, 0, 0, 0, 0, 16]
  sfs_superdirty := false
  sfs_device := ⟨16, fun _ => .zeros, []⟩
  sfs_vnodes := [0]
  sfs_freemap := ⟨4096, fun ix => if ix = 0 then word else 0xff⟩
  sfs_freemapdirty := false
  sv := fun _ =>
    { sv_i := .zeros
      sv_ino := 2
      sv_dirty := false
      vn_refcount := 1
      vn_opencount := 0
      vn_ops := .sfs_fileops }
  fresh := 1
  reclaimed := fun _ => none

/-- On a full volume the failure has no effect. -/
theorem bmap_failure_full :
    ¬ (nearlyFull 0xff).OneFree ∧
      ∀ e s', sfs_bmap 0 15 true (nearlyFull 0xff) = .err e s' → Untouched 0 (nearlyFull 0xff) s' := by
  have hnone : ¬ (nearlyFull 0xff).OneFree := by
    rintro ⟨b, -, -, -, hclear, -⟩
    have hset : bitmap_isset (nearlyFull 0xff).sfs_freemap b = true := by
      rw [Bitmap.isset_eq]
      have hword : (nearlyFull 0xff).sfs_freemap.v (b / 8) = 0xff := ite_self _
      rw [hword]
      show (BitVec.allOnes 8).getLsbD (b % 8) = true
      rw [BitVec.getLsbD_allOnes]
      simp [Nat.mod_lt]
    rw [hset] at hclear
    cases hclear
  exact ⟨hnone, (bmap_failure_iff (nearlyFull 0xff) 0 15 (by decide) (by decide)).mpr fun h => hnone h.2.2.2⟩

/-- What is left of a failed call: its error, `sfi_indirect` and the bit of block 6. -/
def bmapFailed (v k : Nat) (s : Sfs) : Option (Errno × Nat × Bool) :=
  match sfs_bmap v k true s with
  | .err e s' => some (e, s'.field v .sfi_indirect, bitmap_isset s'.sfs_freemap 6)
  | _ => none

/-- With block 6 left, the first block past the direct ones: `ENOSPC`, and block 6 is the indirect block. -/
theorem bmap_keeps_indirect :
    (nearlyFull 0xbf).field 0 .sfi_indirect = 0 ∧ bitmap_isset (nearlyFull 0xbf).sfs_freemap 6 = false ∧
      bmapFailed 0 15 (nearlyFull 0xbf) = some (.enospc, 6, true) := by
  decide +kernel

end Sfs

end OS161
