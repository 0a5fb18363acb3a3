import OS161.Sfs.View

/-! # Blocks handed out and given back

What the primitives of the file system do on a volume that meets the invariant, and how the
ledger follows them.
-/

namespace OS161.Sfs

open Framework Kern

/-! ## The primitives -/

/-- Block `b` is marked as used and cleared. -/
def alloc (s : Sfs) (b : Nat) : Sfs :=
  { s with
    sfs_freemap := s.sfs_freemap.mark b
    sfs_freemapdirty := true
    sfs_device := s.sfs_device.store b .zeros }

/-- Block `b` is marked as free. -/
def free (s : Sfs) (b : Nat) : Sfs :=
  { s with sfs_freemap := s.sfs_freemap.unmark b, sfs_freemapdirty := true }

section Primitives

variable {s : Sfs} {A : Set Nat} {b : Nat}

theorem sfs_readblock_run (h : s.Geometry) (hb : b < s.nblocks) :
    sfs_readblock b s = .ok (s.sfs_device.sector b) s := by
  have hrun := sfs_rblock_reliable h.reliable h.d_blocks (Nat.lt_of_lt_of_le hb h.fits) Block.zeros
  simp only [sfs_readblock, onDevice, Kern.zoom, hrun]

theorem sfs_writeblock_run (h : s.Geometry) (hb : b < s.nblocks) (data : Block) :
    sfs_writeblock data b s = .ok () (s.store b data) := by
  have hrun := sfs_wblock_reliable h.reliable h.d_blocks (Nat.lt_of_lt_of_le hb h.fits) data
  simp only [sfs_writeblock, onDevice, Kern.zoom, hrun]
  rfl

variable {Q : Nat → Sfs → Prop} {Q' : Unit → Sfs → Prop} {Q₁ : Block → Sfs → Prop} {Q₂ : Bool → Sfs → Prop}
  {E : Errno → Sfs → Prop} {F : Panic → Prop}

theorem wp_readblock (h : s.Geometry) (hb : b < s.nblocks) (hq : Q₁ (s.sfs_device.sector b) s) :
    wp (sfs_readblock b) Q₁ E F s :=
  wp_of_run_ok (sfs_readblock_run h hb) hq

theorem wp_writeblock (h : s.Geometry) (hb : b < s.nblocks) {data : Block} (hq : Q' () (s.store b data)) :
    wp (sfs_writeblock data b) Q' E F s :=
  wp_of_run_ok (sfs_writeblock_run h hb data) hq

/-- `sfs_balloc` clears and hands out a block that was not in use, or there is none. -/
theorem wp_balloc (h : s.FsInv A) (hok : ∀ b, b ≠ 0 → b < s.nblocks → ¬ s.Used b → Q b (s.alloc b))
    (hfull : E .enospc s) : wp sfs_balloc Q E F s := by
  unfold sfs_balloc onFreemap
  rw [wp_bind, wp_zoom]
  apply wp_bitmap_alloc
  · apply Bitmap.Padded.of_mod
    rw [h.geometry.nbits]
    simp only [bitmapsize, BLOCKBITS]
    omega
  · intro b hb hclear _
    have hunused : ¬ s.Used b := by
      unfold Used
      rw [hclear]
      simp
      omega
    have hfixed : ¬ s.Fixed b := fun hf => hunused ((h.ledger.used b).mpr (.inl hf))
    have hlt : b < s.nblocks := by
      unfold Fixed at hfixed
      omega
    have hne : b ≠ 0 := fun h0 => hfixed (.inl h0)
    have hgeom : Geometry { s with sfs_freemap := s.sfs_freemap.mark b, sfs_freemapdirty := true } :=
      { h.geometry with }
    rw [wp_modify_bind, wp_read_bind, wp_bind, wp_kassert]
    show if b < s.nblocks then _ else _
    rw [if_pos hlt, wp_bind]
    exact wp_writeblock hgeom hlt (hok b hne hlt hunused)
  · intro _
    exact hfull

theorem sfs_bfree_marked (hlt : b < s.sfs_freemap.nbits) (hset : bitmap_isset s.sfs_freemap b = true) :
    sfs_bfree b s = .ok () (s.free b) := by
  have hunmark : onFreemap (bitmap_unmark b) s = .ok () { s with sfs_freemap := s.sfs_freemap.unmark b } := by
    apply run_eq_of_wp
    unfold onFreemap
    rw [wp_zoom]
    apply wp_bitmap_unmark hlt hset
    exact ⟨rfl, rfl⟩
  unfold sfs_bfree
  rw [bind_run_ok hunmark]
  rfl

theorem sfs_bfree_run (h : s.FsInv A) (hb : b < s.nblocks) (hu : s.Used b) :
    sfs_bfree b s = .ok () (s.free b) :=
  sfs_bfree_marked (Nat.lt_of_lt_of_le hb h.nblocks_le_nbits) (h.isset_of_used hb hu)

theorem wp_bfree (h : s.FsInv A) (hb : b < s.nblocks) (hu : s.Used b) (hq : Q' () (s.free b)) :
    wp (sfs_bfree b) Q' E F s :=
  wp_of_run_ok (sfs_bfree_run h hb hu) hq

theorem wp_bused (hb : b < s.nblocks) (hq : Q₂ (bitmap_isset s.sfs_freemap b) s) :
    wp (sfs_bused b) Q₂ E F s := by
  unfold sfs_bused
  rw [wp_read_bind, wp_kassert_bind hb]
  exact hq

/-- The check at the end of `sfs_bmap` passes for blocks that are in use. -/
theorem wp_bmap_check (hb : b ≠ 0 → b < s.nblocks ∧ bitmap_isset s.sfs_freemap b = true) (hq : Q b s) :
    wp (sfs_bmap_check b) Q E F s := by
  unfold sfs_bmap_check
  by_cases h0 : b = 0
  · subst h0
    exact hq
  · rw [if_neg h0, wp_bind]
    apply wp_bused (hb h0).1
    rw [(hb h0).2]
    exact hq

end Primitives

/-! ## Marks -/

section Marks

variable {s : Sfs} {A : Set Nat} {b : Nat}

theorem used_alloc (c : Nat) : (s.alloc b).Used c ↔ s.Used c ∨ c = b := by
  simp only [Used, alloc, Bitmap.nbits_mark, Bitmap.isset_mark, Bool.or_eq_true, decide_eq_true_eq]
  exact or_assoc.symm

theorem used_free (h : s.FsInv A) (hb : b < s.nblocks) (c : Nat) : (s.free b).Used c ↔ s.Used c ∧ c ≠ b := by
  have hle := h.nblocks_le_nbits
  simp only [Used, free, Bitmap.nbits_unmark, Bitmap.isset_unmark, Bool.and_eq_true, Bool.not_eq_true',
    decide_eq_false_iff_not]
  by_cases hc : c = b
  · subst hc
    simp
    omega
  · simp [hc]

theorem agree_alloc (h : s.FsInv A) {i : Nat} (hi : i ∈ A) (hb : ¬ s.Used b) : Agree s (s.alloc b) i :=
  (h.agree_store_unused hi hb .zeros).trans
    (agree_of_table (s.store b .zeros) (s.alloc b) i rfl (fun _ => rfl) (fun _ => rfl) rfl)

theorem agree_free (i : Nat) : Agree s (s.free b) i :=
  agree_of_table s (s.free b) i rfl (fun _ => rfl) (fun _ => rfl) rfl

end Marks

/-! ## Assignment to a field -/

section SetField

variable {s : Sfs} {v : Nat} {f g : Block.Field} {n i : Nat}

theorem setField_sv_self : (s.setField v f n).sv v =
    { s.sv v with sv_i := (s.sv v).sv_i.setField f n, sv_dirty := true } := by
  simp [setField, setVnode]

theorem setField_sv_ne {w : Nat} (h : w ≠ v) : (s.setField v f n).sv w = s.sv w := by
  simp [setField, setVnode, h]

/-- Only the inode and the dirty flag of the vnode change. -/
theorem setField_same (w : Nat) : ((s.setField v f n).sv w).sv_ino = (s.sv w).sv_ino ∧
    ((s.setField v f n).sv w).vn_refcount = (s.sv w).vn_refcount ∧
    ((s.setField v f n).sv w).vn_opencount = (s.sv w).vn_opencount ∧
    ((s.setField v f n).sv w).vn_ops = (s.sv w).vn_ops := by
  by_cases h : w = v
  · subst h
    rw [setField_sv_self]
    exact ⟨rfl, rfl, rfl, rfl⟩
  · rw [setField_sv_ne h]
    exact ⟨rfl, rfl, rfl, rfl⟩

theorem find_setField : (s.setField v f n).find i = s.find i :=
  find_congr s (s.setField v f n) i rfl fun w => (setField_same w).1

theorem field_setField : (s.setField v f n).field v f = n % 256 ^ f.width := by
  unfold Sfs.field
  rw [setField_sv_self]
  exact Block.field_setField_self _ _ _

theorem field_setField_ne (h : g ≠ f) : (s.setField v f n).field v g = s.field v g := by
  unfold Sfs.field
  rw [setField_sv_self]
  exact Block.field_setField_ne _ _ h

theorem TableInv.setField (h : s.TableInv) (hf : f ≠ .sfi_type) : (s.setField v f n).TableInv where
  nodup := h.nodup
  inj := by
    intro w hw x hx heq
    rw [(setField_same w).1, (setField_same x).1] at heq
    exact h.inj w hw x hx heq
  fresh := h.fresh
  refs := by
    intro w hw
    rw [(setField_same w).2.1]
    exact h.refs w hw
  ops := by
    intro w hw
    rw [(setField_same w).2.2.2, ← h.ops w hw]
    by_cases hwv : w = v
    · subst hwv
      rw [field_setField_ne hf.symm]
    · unfold Sfs.field
      rw [setField_sv_ne hwv]

variable (h : s.TableInv) (hv : v ∈ s.sfs_vnodes)

include h hv

theorem inode_setField : (s.setField v f n).inode (s.sv v).sv_ino = (s.inode (s.sv v).sv_ino).setField f n := by
  unfold inode
  rw [find_setField, find_loaded h hv]
  simp only [setField_sv_self]

theorem ifield_setField_self : (s.setField v f n).ifield (s.sv v).sv_ino f = n % 256 ^ f.width := by
  unfold ifield
  rw [inode_setField h hv, Block.field_setField_self]

theorem ifield_setField_lt (hn : n < 256 ^ f.width) : (s.setField v f n).ifield (s.sv v).sv_ino f = n := by
  rw [ifield_setField_self h hv, Nat.mod_eq_of_lt hn]

theorem ifield_setField_ne (hg : g ≠ f) : (s.setField v f n).ifield (s.sv v).sv_ino g = s.ifield (s.sv v).sv_ino g := by
  unfold ifield
  rw [inode_setField h hv, Block.field_setField_ne _ _ hg]

/-- The other inodes do not change. -/
theorem agree_setField (hi : i ≠ (s.sv v).sv_ino) : Agree s (s.setField v f n) i := by
  refine Agree.of_device (show (s.setField v f n).sfs_device = s.sfs_device from rfl) ?_
  unfold inode
  rw [find_setField]
  cases hf : s.find i with
  | none => rfl
  | some w =>
    have hw := ((find_some_iff h).mp hf).2
    have hne : w ≠ v := by
      rintro rfl
      exact hi hw.symm
    simp only [setField_sv_ne hne]

theorem tableEntry_setField (hf : f ≠ .sfi_indirect) (j : Nat) :
    (s.setField v f n).tableEntry (s.sv v).sv_ino j = s.tableEntry (s.sv v).sv_ino j := by
  unfold tableEntry
  rw [ifield_setField_ne h hv hf.symm]
  rfl

/-- Fields that are not block numbers. -/
theorem slot_setField (hf : f ≠ .sfi_indirect) (hf' : ∀ k, f ≠ .sfi_direct k) (k : Nat) :
    (s.setField v f n).slot (s.sv v).sv_ino k = s.slot (s.sv v).sv_ino k := by
  unfold slot
  simp only [tableEntry_setField h hv hf]
  by_cases hk : k < NDIRECT
  · simp only [dif_pos hk, ifield_setField_ne h hv (hf' ⟨k, hk⟩).symm]
  · simp only [dif_neg hk]

theorem data_setField (hf : f ≠ .sfi_indirect) (hf' : ∀ k, f ≠ .sfi_direct k) (k : Nat) :
    (s.setField v f n).data (s.sv v).sv_ino k = s.data (s.sv v).sv_ino k := by
  unfold data
  rw [slot_setField h hv hf hf']
  rfl

theorem slot_setField_direct_self (k : Fin NDIRECT) :
    (s.setField v (.sfi_direct k) n).slot (s.sv v).sv_ino k = n % 2 ^ 32 := by
  unfold slot
  rw [dif_pos k.isLt]
  exact ifield_setField_self h hv

theorem slot_setField_direct_ne {k : Fin NDIRECT} {k' : Nat} (hne : k' ≠ k) :
    (s.setField v (.sfi_direct k) n).slot (s.sv v).sv_ino k' = s.slot (s.sv v).sv_ino k' := by
  unfold slot
  simp only [tableEntry_setField h hv (f := .sfi_direct k) (by simp)]
  by_cases hk : k' < NDIRECT
  · have hfield : Block.Field.sfi_direct ⟨k', hk⟩ ≠ .sfi_direct k := by
      intro heq
      have : (⟨k', hk⟩ : Fin NDIRECT) = k := by injection heq
      exact hne (congrArg Fin.val this)
    simp only [dif_pos hk, ifield_setField_ne h hv hfield]
  · simp only [dif_neg hk]

end SetField

/-! ## What stays when one inode is worked on -/

/-- Of the inodes in `A` only `i` may have changed. The vnode table has not, nor has anything on the
disk outside the blocks of the inodes, nor the free block map unless it is marked dirty. -/
structure Only (A : Set Nat) (i : Nat) (s s' : Sfs) : Prop where
  others : ∀ j ∈ A, j ≠ i → Agree s s' j
  vnodes : s'.sfs_vnodes = s.sfs_vnodes
  fresh : s'.fresh = s.fresh
  super : s'.sfs_super = s.sfs_super
  superdirty : s'.sfs_superdirty = s.sfs_superdirty
  reclaimed : s'.reclaimed = s.reclaimed
  ino : ∀ v, (s'.sv v).sv_ino = (s.sv v).sv_ino
  refcount : ∀ v, (s'.sv v).vn_refcount = (s.sv v).vn_refcount
  opencount : ∀ v, (s'.sv v).vn_opencount = (s.sv v).vn_opencount
  ops : ∀ v, (s'.sv v).vn_ops = (s.sv v).vn_ops
  dirty : ∀ v, (s.sv v).sv_dirty = true → (s'.sv v).sv_dirty = true
  fixed : ∀ b, s.Fixed b → s'.sfs_device.sector b = s.sfs_device.sector b
  marks : s'.sfs_freemapdirty = false → s.sfs_freemapdirty = false ∧ s'.sfs_freemap = s.sfs_freemap

/-- What is fixed depends on the superblock only. -/
theorem fixed_eq {s s' : Sfs} (h : s'.sfs_super = s.sfs_super) : s'.Fixed = s.Fixed := by
  unfold Fixed nblocks
  rw [h]

/-- The vnode table of a state that differs in the device or the free block map. -/
theorem TableInv.of_eq {s s' : Sfs} (h : s.TableInv) (hv : s'.sfs_vnodes = s.sfs_vnodes) (hsv : s'.sv = s.sv)
    (hfresh : s'.fresh = s.fresh) : s'.TableInv := by
  constructor
  case nodup => exact hv ▸ h.nodup
  case inj => exact hv ▸ hsv ▸ h.inj
  case fresh => exact hv ▸ hfresh ▸ h.fresh
  case refs => exact hv ▸ hsv ▸ h.refs
  case ops =>
    unfold Sfs.field
    rw [hv, hsv]
    exact h.ops

theorem Geometry.of_eq {s s' : Sfs} (h : s.Geometry) (hsuper : s'.sfs_super = s.sfs_super)
    (hd : s'.sfs_device.d_blocks = s.sfs_device.d_blocks) (hm : s'.sfs_device.media = s.sfs_device.media)
    (hn : s'.sfs_freemap.nbits = s.sfs_freemap.nbits) : s'.Geometry := by
  have hblocks : s'.nblocks = s.nblocks := by
    unfold nblocks
    rw [hsuper]
  exact ⟨hm.trans h.reliable, hd ▸ h.d_blocks, by rw [hblocks, hd]; exact h.fits,
    by rw [hblocks]; exact h.small, by rw [hblocks, hn]; exact h.nbits⟩

namespace Only

variable {A : Set Nat} {i : Nat} {s s' s'' : Sfs}

/-- The vnode table is the same, and nothing but blocks of inode `i` is written. -/
theorem of_same (hothers : ∀ j ∈ A, j ≠ i → Agree s s' j) (hsv : s'.sv = s.sv) (hv : s'.sfs_vnodes = s.sfs_vnodes)
    (hrest : s'.fresh = s.fresh ∧ s'.sfs_super = s.sfs_super ∧ s'.sfs_superdirty = s.sfs_superdirty ∧
      s'.reclaimed = s.reclaimed)
    (hfixed : ∀ b, s.Fixed b → s'.sfs_device.sector b = s.sfs_device.sector b)
    (hmarks : s'.sfs_freemapdirty = false → s.sfs_freemapdirty = false ∧ s'.sfs_freemap = s.sfs_freemap) :
    Only A i s s' where
  others := hothers
  vnodes := hv
  fresh := hrest.1
  super := hrest.2.1
  superdirty := hrest.2.2.1
  reclaimed := hrest.2.2.2
  ino := fun _ => by rw [hsv]
  refcount := fun _ => by rw [hsv]
  opencount := fun _ => by rw [hsv]
  ops := fun _ => by rw [hsv]
  dirty := fun _ hd => by rwa [hsv]
  fixed := hfixed
  marks := hmarks

theorem refl (A : Set Nat) (i : Nat) (s : Sfs) : Only A i s s :=
  of_same (fun _ _ _ => .refl s _) rfl rfl ⟨rfl, rfl, rfl, rfl⟩ (fun _ _ => rfl) fun h => ⟨h, rfl⟩

theorem trans (h : Only A i s s') (h' : Only A i s' s'') : Only A i s s'' where
  others := fun j hj hne => (h.others j hj hne).trans (h'.others j hj hne)
  vnodes := by rw [h'.vnodes, h.vnodes]
  fresh := by rw [h'.fresh, h.fresh]
  super := by rw [h'.super, h.super]
  superdirty := by rw [h'.superdirty, h.superdirty]
  reclaimed := by rw [h'.reclaimed, h.reclaimed]
  ino := fun v => by rw [h'.ino, h.ino]
  refcount := fun v => by rw [h'.refcount, h.refcount]
  opencount := fun v => by rw [h'.opencount, h.opencount]
  ops := fun v => by rw [h'.ops, h.ops]
  dirty := fun v hd => h'.dirty v (h.dirty v hd)
  fixed := by
    intro b hb
    rw [h'.fixed b (by rwa [fixed_eq h.super]), h.fixed b hb]
  marks := by
    intro hd
    obtain ⟨hd', hmap⟩ := h'.marks hd
    obtain ⟨hd'', hmap'⟩ := h.marks hd'
    exact ⟨hd'', hmap.trans hmap'⟩

theorem setField {v : Nat} (h : s.TableInv) (hv : v ∈ s.sfs_vnodes) (f : Block.Field) (n : Nat) :
    Only A (s.sv v).sv_ino s (s.setField v f n) where
  others := fun _ _ hne => agree_setField h hv hne
  vnodes := rfl
  fresh := rfl
  super := rfl
  superdirty := rfl
  reclaimed := rfl
  ino := fun w => (setField_same w).1
  refcount := fun w => (setField_same w).2.1
  opencount := fun w => (setField_same w).2.2.1
  ops := fun w => (setField_same w).2.2.2
  dirty := by
    intro w hd
    by_cases hw : w = v
    · subst hw
      rw [setField_sv_self]
    · rw [setField_sv_ne hw]
      exact hd
  fixed := fun _ _ => rfl
  marks := fun hd => ⟨hd, rfl⟩

theorem alloc (h : s.FsInv A) {b : Nat} (hb : ¬ s.Used b) : Only A i s (s.alloc b) := by
  apply of_same (fun _ hj _ => agree_alloc h hj hb) rfl rfl ⟨rfl, rfl, rfl, rfl⟩
  · intro c hc
    apply Lhd.store_ne
    rintro rfl
    exact hb ((h.ledger.used c).mpr (.inl hc))
  · intro hd
    cases hd

theorem free (b : Nat) : Only A i s (s.free b) := by
  apply of_same (fun _ _ _ => agree_free _) rfl rfl ⟨rfl, rfl, rfl, rfl⟩ (fun _ _ => rfl)
  intro hd
  cases hd

theorem store (h : s.FsInv A) (hi : i ∈ A) {r : Role} (hr : s.ref i r ≠ 0) (blk : Block) :
    Only A i s (s.store (s.ref i r) blk) := by
  apply of_same (fun _ hj hne => h.agree_store_other (fun _ _ => .refl s _) hi hj hne blk) rfl rfl ⟨rfl, rfl, rfl, rfl⟩
  · intro c hc
    apply Lhd.store_ne
    rintro rfl
    exact h.ledger.apart (h.holds_ref hi hr) hc
  · exact fun hd => ⟨hd, rfl⟩

end Only

/-! ## Moves of the ledger -/

section Moves

variable {s s' : Sfs} {A : Set Nat} {i b : Nat} (h : s.FsInv A) (honly : Only A i s s')

include honly

theorem Only.holds {j c : Nat} {r : Role} (hr : j = i → s'.ref i r = s.ref i r) :
    s'.Holds A (j, r) c ↔ s.Holds A (j, r) c := by
  apply and_congr_right
  intro hj
  by_cases hji : j = i
  · subst hji
    rw [hr rfl]
  · rw [(honly.others j hj hji).ref r]

include h

/-- A block that was not in use becomes a block of an inode. -/
theorem ledger_alloc (r₀ : Role) (hi : i ∈ A) (hb : ¬ s.Used b) (hb0 : b ≠ 0) (hbefore : s.ref i r₀ = 0)
    (hafter : s'.ref i r₀ = b) (hsame : ∀ r, r ≠ r₀ → s'.ref i r = s.ref i r)
    (hused : ∀ c, s'.Used c ↔ s.Used c ∨ c = b) : Ledger (s'.Holds A) s'.Fixed s'.Used := by
  rw [fixed_eq honly.super]
  refine h.ledger.alloc (i, r₀) hb ?_ hused
  rintro ⟨j, r⟩ c
  by_cases hx : (j, r) = (i, r₀)
  · obtain ⟨rfl, rfl⟩ := Prod.mk.inj hx
    simp only [Holds, hafter, hbefore]
    constructor
    · rintro ⟨-, rfl, -⟩
      exact .inr ⟨trivial, rfl⟩
    · intro h
      rcases h with ⟨-, h, hc⟩ | ⟨-, rfl⟩
      · exact absurd h.symm hc
      · exact ⟨hi, rfl, hb0⟩
  · rw [honly.holds fun hj => hsame r fun hr => hx (by rw [hj, hr])]
    simp only [hx, false_and, or_false]

/-- A block of an inode is given back. -/
theorem ledger_free (r₀ : Role) (hi : i ∈ A) (hb0 : s.ref i r₀ ≠ 0) (hafter : s'.ref i r₀ = 0)
    (hsame : ∀ r, r ≠ r₀ → s'.ref i r = s.ref i r)
    (hused : ∀ c, s'.Used c ↔ s.Used c ∧ c ≠ s.ref i r₀) : Ledger (s'.Holds A) s'.Fixed s'.Used := by
  have hholds := h.holds_ref hi hb0
  rw [fixed_eq honly.super]
  refine h.ledger.free (h.ledger.apart hholds) ?_ hused
  rintro ⟨j, r⟩ c
  by_cases hx : (j, r) = (i, r₀)
  · obtain ⟨rfl, rfl⟩ := Prod.mk.inj hx
    simp only [Holds, hafter]
    constructor
    · rintro ⟨-, rfl, h0⟩
      exact absurd rfl h0
    · rintro ⟨⟨-, rfl, -⟩, hne⟩
      exact absurd rfl hne
  · rw [honly.holds fun hj => hsame r fun hr => hx (by rw [hj, hr])]
    refine ⟨fun hc => ⟨hc, ?_⟩, And.left⟩
    -- another holder of the same block would be the same holder
    rintro rfl
    exact hx (h.ledger.one hc hholds)

/-- No block changes hands. -/
theorem ledger_congr (hsame : ∀ r, s'.ref i r = s.ref i r) (hused : ∀ c, s'.Used c ↔ s.Used c) :
    Ledger (s'.Holds A) s'.Fixed s'.Used := by
  rw [fixed_eq honly.super]
  exact h.ledger.congr (fun ⟨_, r⟩ _ => honly.holds fun _ => hsame r) hused

/-- **The invariant after work on one inode.** -/
theorem FsInv.of_only (hd : s'.sfs_device.d_blocks = s.sfs_device.d_blocks)
    (hm : s'.sfs_device.media = s.sfs_device.media) (hn : s'.sfs_freemap.nbits = s.sfs_freemap.nbits)
    (htable : s'.TableInv) (hledger : Ledger (s'.Holds A) s'.Fixed s'.Used)
    (hclean : ∀ w ∈ s.sfs_vnodes, (s'.sv w).sv_dirty = false → s'.sfs_device.sector (s.sv w).sv_ino = (s'.sv w).sv_i) :
    s'.FsInv A :=
  { h with
    geometry := h.geometry.of_eq honly.super hd hm hn
    table := htable
    ledger := hledger
    loaded := by
      intro w hw
      rw [honly.vnodes] at hw
      rw [honly.ino]
      exact h.loaded w hw
    clean := by
      intro w hw
      rw [honly.vnodes] at hw
      rw [honly.ino]
      exact hclean w hw }

end Moves

end OS161.Sfs
