import OS161.Sfs.Blocks

/-! # Block mapping

`sfs_bmap` finds the disk block of a block of a file and, for a write, allocates what is
missing: the block, and the indirect block if the block is to be recorded there. Newly mapped
blocks are zero, so that the file reads as before.
-/

namespace OS161.Sfs

open Framework Kern

/-! ## Files that have grown -/

/-- In file `i`, blocks with a number in `K` may have got a disk block; what it reads as, and the
rest of the inode, are as before. -/
structure Grown (i : Nat) (K : Set Nat) (s s' : Sfs) : Prop where
  size : s'.ifield i .sfi_size = s.ifield i .sfi_size
  type : s'.ifield i .sfi_type = s.ifield i .sfi_type
  linkcount : s'.ifield i .sfi_linkcount = s.ifield i .sfi_linkcount
  data : ∀ k, s'.data i k = s.data i k
  slots : ∀ k, k ∉ K → s'.slot i k = s.slot i k
  keeps : ∀ k, s.slot i k ≠ 0 → s'.slot i k = s.slot i k

namespace Grown

variable {i : Nat} {K L : Set Nat} {s s' s'' : Sfs}

theorem of_agree (h : Agree s s' i) : Grown i K s s' where
  size := h.ifield _
  type := h.ifield _
  linkcount := h.ifield _
  data := h.data
  slots := fun k _ => h.slot k
  keeps := fun k _ => h.slot k

theorem refl (i : Nat) (K : Set Nat) (s : Sfs) : Grown i K s s := of_agree (.refl s i)

theorem trans (h : Grown i K s s') (h' : Grown i K s' s'') : Grown i K s s'' where
  size := by rw [h'.size, h.size]
  type := by rw [h'.type, h.type]
  linkcount := by rw [h'.linkcount, h.linkcount]
  data := fun k => by rw [h'.data, h.data]
  slots := fun k hk => by rw [h'.slots k hk, h.slots k hk]
  keeps := by
    intro k hk
    have hs := h.keeps k hk
    rw [h'.keeps k (by rwa [hs]), hs]

theorem mono (h : Grown i K s s') (hKL : K ⊆ L) : Grown i L s s' :=
  { h with slots := fun k hk => h.slots k fun hK => hk (hKL hK) }

end Grown

/-! ## The invariant through allocations -/

namespace FsInv

variable {s t : Sfs} {A : Set Nat} {b v i j : Nat}

/-- The block of a loaded inode is in use. -/
theorem ino_ne_of_not_used (h : s.FsInv A) (hv : v ∈ s.sfs_vnodes) (hb : ¬ s.Used b) : (s.sv v).sv_ino ≠ b := by
  have hi := h.loaded v hv
  rcases h.ref_ne_of_not_used hi hb .inode with h0 | h0
  · exact absurd h0 (h.ne_zero hi)
  · exact h0

/-- The block of an inode is not one of its data or indirect blocks, or another file's. -/
theorem ino_ne_ref (h : s.FsInv A) (hj : j ∈ A) (hi : i ∈ A) {r : Role} (hr : r ≠ .inode) (hne : s.ref i r ≠ 0) :
    j ≠ s.ref i r := by
  intro heq
  exact hr (h.ref_inj hi hj r .inode hne heq.symm).2

theorem table_alloc (h : s.FsInv A) : (s.alloc b).TableInv := h.table.of_eq rfl rfl rfl

theorem clean_alloc (h : s.FsInv A) (hb : ¬ s.Used b) (w : Nat) (hw : w ∈ s.sfs_vnodes)
    (hd : (s.sv w).sv_dirty = false) : (s.alloc b).sfs_device.sector (s.sv w).sv_ino = (s.sv w).sv_i := by
  rw [← h.clean w hw hd]
  exact Lhd.store_ne _ _ (h.ino_ne_of_not_used hw hb)

end FsInv

/-- After an assignment to a field of `v`, the other vnodes are as clean as before. -/
theorem clean_setField {t : Sfs} {v n : Nat} {f : Block.Field}
    (ht : ∀ w ∈ t.sfs_vnodes, (t.sv w).sv_dirty = false → t.sfs_device.sector (t.sv w).sv_ino = (t.sv w).sv_i)
    (w : Nat) (hw : w ∈ t.sfs_vnodes) (hd : ((t.setField v f n).sv w).sv_dirty = false) :
    t.sfs_device.sector (t.sv w).sv_ino = ((t.setField v f n).sv w).sv_i := by
  by_cases hwv : w = v
  · subst hwv
    rw [setField_sv_self] at hd
    cases hd
  · rw [setField_sv_ne hwv] at hd ⊢
    exact ht w hw hd

/-! ### A block recorded in the inode -/

section Record

variable {s : Sfs} {A : Set Nat} {b v n : Nat} {f g : Block.Field} {k : Fin NDIRECT} (h : s.FsInv A)
  (hv : v ∈ s.sfs_vnodes) (hu : ¬ s.Used b) (hb0 : b ≠ 0) (hb : b < s.nblocks)

include h hv hu

theorem only_record : Only A (s.sv v).sv_ino s ((s.alloc b).setField v f n) :=
  (Only.alloc h hu).trans (.setField (h.table_alloc (b := b)) hv f n)

theorem ifield_record (hg : g ≠ f) :
    ((s.alloc b).setField v f n).ifield (s.sv v).sv_ino g = s.ifield (s.sv v).sv_ino g :=
  (ifield_setField_ne h.table_alloc hv hg).trans ((agree_alloc h (h.loaded v hv) hu).ifield g)

/-- A block whose number has not changed reads as before. -/
theorem data_record {k : Nat}
    (hk : ((s.alloc b).setField v f n).slot (s.sv v).sv_ino k = s.slot (s.sv v).sv_ino k) :
    ((s.alloc b).setField v f n).data (s.sv v).sv_ino k = s.data (s.sv v).sv_ino k := by
  have hag := agree_alloc h (h.loaded v hv) hu
  rw [← hag.data k]
  unfold data
  rw [hk, ← hag.slot k]
  rfl

include hb0 in
theorem fsInv_record (hf : f ≠ .sfi_type) (r₀ : Role) (hzero : s.ref (s.sv v).sv_ino r₀ = 0)
    (hself : ((s.alloc b).setField v f n).ref (s.sv v).sv_ino r₀ = b)
    (hsame : ∀ r, r ≠ r₀ → ((s.alloc b).setField v f n).ref (s.sv v).sv_ino r = s.ref (s.sv v).sv_ino r) :
    ((s.alloc b).setField v f n).FsInv A := by
  have honly := only_record h hv hu (f := f) (n := n)
  refine h.of_only honly rfl rfl rfl (h.table_alloc.setField hf) ?_ (clean_setField (t := s.alloc b) (h.clean_alloc hu))
  exact ledger_alloc h honly r₀ (h.loaded v hv) hu hb0 hzero hself hsame used_alloc

include hb

/-- A new block is recorded in the inode. -/
theorem grown_direct (hzero : s.slot (s.sv v).sv_ino k = 0) (hb0 : b ≠ 0) :
    Grown (s.sv v).sv_ino {k.val} s ((s.alloc b).setField v (.sfi_direct k) b) ∧
      ((s.alloc b).setField v (.sfi_direct k) b).slot (s.sv v).sv_ino k = b := by
  have hsmall := h.nblocks_lt
  have hself : ((s.alloc b).setField v (.sfi_direct k) b).slot (s.sv v).sv_ino k = b := by
    have := slot_setField_direct_self (n := b) (h.table_alloc (b := b)) hv k
    rwa [Nat.mod_eq_of_lt (by omega)] at this
  have hother : ∀ k', k' ≠ k.val →
      ((s.alloc b).setField v (.sfi_direct k) b).slot (s.sv v).sv_ino k' = s.slot (s.sv v).sv_ino k' := by
    intro k' hk'
    exact (slot_setField_direct_ne h.table_alloc hv hk').trans ((agree_alloc h (h.loaded v hv) hu).slot k')
  refine ⟨?_, hself⟩
  constructor
  case size => exact ifield_record h hv hu (by simp)
  case type => exact ifield_record h hv hu (by simp)
  case linkcount => exact ifield_record h hv hu (by simp)
  case data =>
    intro k'
    by_cases hk' : k' = k.val
    · -- the new block reads as zeros, as no block did
      subst hk'
      unfold data
      rw [hself, hzero, if_neg hb0, if_pos rfl]
      exact Lhd.store_self _ _ _
    · exact data_record h hv hu (hother k' hk')
  case slots => exact fun k' hk' => hother k' hk'
  case keeps =>
    intro k' hk'
    apply hother
    rintro rfl
    exact hk' hzero

theorem fsInv_direct (hzero : s.slot (s.sv v).sv_ino k = 0) (hb0 : b ≠ 0) :
    ((s.alloc b).setField v (.sfi_direct k) b).FsInv A := by
  obtain ⟨hgrown, hself⟩ := grown_direct h hv hu hb hzero hb0
  apply fsInv_record h hv hu hb0 (by simp) (.slot k) hzero hself
  rintro (_ | _ | k') hne
  · rfl
  · exact ifield_record h hv hu (by simp)
  · apply hgrown.slots
    rintro rfl
    exact hne rfl

omit hu in
theorem ifield_indirect :
    ((s.alloc b).setField v .sfi_indirect b).ifield (s.sv v).sv_ino .sfi_indirect = b := by
  have hsmall := h.nblocks_lt
  exact ifield_setField_lt h.table_alloc hv (show b < 256 ^ 4 by omega)

include hb0

section

variable (hzero : s.ifield (s.sv v).sv_ino .sfi_indirect = 0)
include hzero

/-- A new indirect block is recorded in the inode; it has no entries yet. -/
theorem slot_indirect (k : Nat) :
    ((s.alloc b).setField v .sfi_indirect b).slot (s.sv v).sv_ino k = s.slot (s.sv v).sv_ino k := by
  unfold slot
  by_cases hk : k < NDIRECT
  · simp only [dif_pos hk]
    exact ifield_record h hv hu (by simp)
  · simp only [dif_neg hk]
    have hentry : ((s.alloc b).setField v .sfi_indirect b).tableEntry (s.sv v).sv_ino (k - NDIRECT) = 0 := by
      unfold tableEntry
      rw [ifield_indirect h hv hb, if_neg hb0]
      show (Block.entry ((s.sfs_device.store b .zeros).sector b) _) = 0
      rw [Lhd.store_self, Block.entry_zeros]
    rw [hentry]
    unfold tableEntry
    rw [hzero, if_pos rfl]

theorem grown_indirect : Grown (s.sv v).sv_ino ∅ s ((s.alloc b).setField v .sfi_indirect b) := by
  have hslot := slot_indirect h hv hu hb0 hb hzero
  constructor
  case size => exact ifield_record h hv hu (by simp)
  case type => exact ifield_record h hv hu (by simp)
  case linkcount => exact ifield_record h hv hu (by simp)
  case data => exact fun k => data_record h hv hu (hslot k)
  case slots => exact fun k _ => hslot k
  case keeps => exact fun k _ => hslot k

theorem fsInv_indirect : ((s.alloc b).setField v .sfi_indirect b).FsInv A := by
  apply fsInv_record h hv hu hb0 (by simp) .indirect hzero (ifield_indirect h hv hb)
  rintro (_ | _ | k) hne
  · rfl
  · exact absurd rfl hne
  · exact slot_indirect h hv hu hb0 hb hzero k

end

end Record

/-! ### An entry of the indirect block -/

section Entry

variable {s : Sfs} {A : Set Nat} {b v i j id : Nat}

/-- A loaded inode does not change when a block is written... -/
theorem ifield_store_loaded (h : s.TableInv) (hv : v ∈ s.sfs_vnodes) (hino : (s.sv v).sv_ino = i) (blk : Block)
    (f : Block.Field) : (s.store b blk).ifield i f = s.ifield i f := by
  subst hino
  unfold ifield inode
  rw [store_find, find_loaded h hv]
  rfl

/-- ...and when it is the indirect block, the entries are those of the new contents. -/
theorem slot_store_indirect (h : s.TableInv) (hv : v ∈ s.sfs_vnodes) (hino : (s.sv v).sv_ino = i)
    (hid : s.ifield i .sfi_indirect = id) (hid0 : id ≠ 0) (blk : Block) (k : Nat) :
    (s.store id blk).slot i k =
      if k < NDIRECT then s.slot i k else if k < MAXBLOCKS then blk.entry (k - NDIRECT) else 0 := by
  unfold slot
  simp only [ifield_store_loaded h hv hino]
  by_cases hk : k < NDIRECT
  · simp only [dif_pos hk, if_pos hk]
  · simp only [dif_neg hk, if_neg hk]
    unfold tableEntry
    rw [ifield_store_loaded h hv hino, hid, if_neg hid0]
    show (if k < MAXBLOCKS then (((s.sfs_device.store id blk).sector id).entry _) else 0) = _
    rw [Lhd.store_self]

/-- The entries as they are on the disk. -/
theorem slot_of_indirect (hid : s.ifield i .sfi_indirect = id) (hid0 : id ≠ 0) (hj : j < DBPERIDB) :
    s.slot i (NDIRECT + j) = (s.sfs_device.sector id).entry j := by
  have : MAXBLOCKS = NDIRECT + DBPERIDB := rfl
  unfold slot tableEntry
  rw [dif_neg (by omega), if_pos (by omega), hid, if_neg hid0, Nat.add_sub_cancel_left]

/-- The slots of a file when entry `j` of its indirect block is overwritten, while a block is handed
out or given back. -/
theorem slot_setEntry {t : Sfs} {n : Nat} (ht : t.TableInv) (hv : v ∈ t.sfs_vnodes) (hino : (t.sv v).sv_ino = i)
    (hag : Agree s t i) (hid : s.ifield i .sfi_indirect = id) (hid0 : id ≠ 0) (hj : j < DBPERIDB) (hn : n < 2 ^ 32)
    (k : Nat) :
    (t.store id ((s.sfs_device.sector id).setEntry j n)).slot i k = if k = NDIRECT + j then n else s.slot i k := by
  have : MAXBLOCKS = NDIRECT + DBPERIDB := rfl
  rw [slot_store_indirect ht hv hino ((hag.ifield _).trans hid) hid0, hag.slot]
  by_cases hk : k < NDIRECT
  · rw [if_pos hk, if_neg (by omega)]
  · rw [if_neg hk]
    by_cases hk' : k < MAXBLOCKS
    · rw [if_pos hk']
      by_cases hkj : k = NDIRECT + j
      · subst hkj
        rw [if_pos rfl, Nat.add_sub_cancel_left, Block.entry_setEntry_self _ _ hj, Nat.mod_eq_of_lt hn]
      · rw [if_neg hkj, Block.entry_setEntry_ne _ _ (by omega), ← slot_of_indirect hid hid0 (by omega)]
        congr 1
        omega
    · rw [if_neg hk', if_neg (by omega)]
      unfold slot
      rw [dif_neg hk, if_neg hk']

variable (h : s.FsInv A) (hv : v ∈ s.sfs_vnodes) (hino : (s.sv v).sv_ino = i)
  (hid : s.ifield i .sfi_indirect = id) (hid0 : id ≠ 0) (hj : j < DBPERIDB) (hb0 : b ≠ 0) (hb : b < s.nblocks)
  (hu : ¬ s.Used b)

/-- The state after `b` has been recorded in entry `j` of the indirect block `id`. -/
def addEntry (s : Sfs) (id j b : Nat) : Sfs :=
  (s.alloc b).store id ((s.sfs_device.sector id).setEntry j b)

include h hv hino hid hid0 hj hb hu

theorem slot_addEntry (k : Nat) : (s.addEntry id j b).slot i k = if k = NDIRECT + j then b else s.slot i k :=
  slot_setEntry h.table_alloc hv hino (agree_alloc h (hino ▸ h.loaded v hv) hu) hid hid0 hj
    (Nat.lt_trans hb h.nblocks_lt) k

omit hid hid0 hj hb in
theorem ifield_addEntry (f : Block.Field) : (s.addEntry id j b).ifield i f = s.ifield i f := by
  have hi : i ∈ A := hino ▸ h.loaded v hv
  unfold addEntry
  rw [ifield_store_loaded h.table_alloc hv hino, (agree_alloc h hi hu).ifield]

include hb0

theorem grown_addEntry (hzero : s.slot i (NDIRECT + j) = 0) : Grown i {NDIRECT + j} s (s.addEntry id j b) := by
  have hi : i ∈ A := hino ▸ h.loaded v hv
  have hslot := slot_addEntry h hv hino hid hid0 hj hb hu
  have hfield : ∀ f, (s.addEntry id j b).ifield i f = s.ifield i f := ifield_addEntry h hv hino hu
  have hne : id ≠ b := by
    rcases h.ref_ne_of_not_used hi hu .indirect with h0 | h0
    · exact absurd (hid ▸ h0) hid0
    · exact hid ▸ h0
  constructor
  case size => exact hfield _
  case type => exact hfield _
  case linkcount => exact hfield _
  case data =>
    intro k
    unfold data
    rw [hslot k]
    by_cases hk : k = NDIRECT + j
    · -- the new block reads as zeros, as no block did
      subst hk
      rw [if_pos rfl, if_neg hb0, if_pos hzero]
      show ((s.sfs_device.store b .zeros).store id _).sector b = _
      rw [Lhd.store_ne _ _ hne.symm, Lhd.store_self]
    · rw [if_neg hk]
      by_cases h0 : s.slot i k = 0
      · rw [if_pos h0, if_pos h0]
      · rw [if_neg h0, if_neg h0]
        have hid' : s.slot i k ≠ id := by
          intro heq
          have := (h.ref_inj hi hi (.slot k) .indirect h0 (heq.trans hid.symm)).2
          cases this
        have hb' : s.slot i k ≠ b := by
          rcases h.ref_ne_of_not_used hi hu (.slot k) with h1 | h1
          · exact absurd h1 h0
          · exact h1
        show ((s.sfs_device.store b .zeros).store id _).sector _ = _
        rw [Lhd.store_ne _ _ hid', Lhd.store_ne _ _ hb']
  case slots =>
    intro k hk
    rw [hslot, if_neg (show ¬ k = NDIRECT + j from hk)]
  case keeps =>
    intro k hk
    rw [hslot, if_neg]
    rintro rfl
    exact hk hzero

omit hid0 hj hb0 hb in
theorem agree_addEntry {l : Nat} (hl : l ∈ A) (hne : l ≠ i) : Agree s (s.addEntry id j b) l := by
  have hi : i ∈ A := hino ▸ h.loaded v hv
  have hext := h.agree_store_other (r := .indirect) (fun m hm => agree_alloc h hm hu) hi hl hne
    ((s.sfs_device.sector id).setEntry j b)
  rw [show s.ref i .indirect = id from hid] at hext
  exact (agree_alloc h hl hu).trans hext

omit hj hb0 hb in
theorem only_addEntry : Only A i s (s.addEntry id j b) := by
  have hi : i ∈ A := hino ▸ h.loaded v hv
  have href : s.ref i .indirect = id := hid
  apply Only.of_same (fun l hl hne => agree_addEntry h hv hino hid hu hl hne) rfl rfl ⟨rfl, rfl, rfl, rfl⟩
  · intro c hc
    -- neither the new block nor the indirect block is fixed
    have hcid : c ≠ id := by
      rintro rfl
      exact h.ledger.apart (h.holds_ref hi (r := .indirect) (by rwa [href])) (by rwa [href])
    have hcb : c ≠ b := by
      rintro rfl
      exact hu ((h.ledger.used c).mpr (.inl hc))
    show ((s.sfs_device.store b .zeros).store id _).sector c = _
    rw [Lhd.store_ne _ _ hcid, Lhd.store_ne _ _ hcb]
  · intro hd
    cases hd

theorem fsInv_addEntry (hzero : s.slot i (NDIRECT + j) = 0) : (s.addEntry id j b).FsInv A := by
  have hi : i ∈ A := hino ▸ h.loaded v hv
  have hslot := slot_addEntry h hv hino hid hid0 hj hb hu
  have honly := only_addEntry h hv hino hid hid0 (j := j) hu
  refine h.of_only honly rfl rfl rfl (h.table.of_eq rfl rfl rfl) ?_ ?_
  · apply ledger_alloc h honly (.slot (NDIRECT + j)) hi hu hb0 hzero _ _ used_alloc
    · show (s.addEntry id j b).slot i _ = b
      rw [hslot, if_pos rfl]
    · rintro (_ | _ | k) hne
      · rfl
      · exact ifield_addEntry h hv hino hu _
      · show (s.addEntry id j b).slot i k = s.slot i k
        rw [hslot, if_neg]
        rintro rfl
        exact hne rfl
  · intro w hw hd
    have href : s.ref i .indirect = id := hid
    have hwid := h.ino_ne_ref (h.loaded w hw) hi (r := .indirect) (by simp) (by rw [href]; exact hid0)
    rw [href] at hwid
    exact (Lhd.store_ne _ _ hwid).trans (h.clean_alloc hu w hw hd)

end Entry

/-! ## `sfs_bmap` -/

/-- The outcome of `sfs_bmap`: disk block `b` for block `k` of file `i`. -/
structure Mapped (A : Set Nat) (i k : Nat) (doalloc : Bool) (b : Nat) (s s' : Sfs) : Prop where
  inv : s'.FsInv A
  only : Only A i s s'
  grown : Grown i {k} s s'
  slot : s'.slot i k = b
  range : k < MAXBLOCKS
  alloc : doalloc = true → b ≠ 0
  look : doalloc = false → s' = s

/-- The outcome when the block cannot be mapped. -/
structure NotMapped (A : Set Nat) (i k : Nat) (doalloc : Bool) (e : Errno) (s s' : Sfs) : Prop where
  inv : s'.FsInv A
  only : Only A i s s'
  grown : Grown i ∅ s s'
  full : e = .enospc → doalloc = true
  big : e = .efbig → MAXBLOCKS ≤ k ∧ s' = s
  errno : e = .enospc ∨ e = .efbig

section Spec

variable {s t : Sfs} {A : Set Nat} {v i k j id : Nat} {doalloc : Bool}

/-- A block that is recorded passes the check and is handed back. -/
theorem wp_bmap_hand {b : Nat} (hi : i ∈ A) (hm : Mapped A i k doalloc b s t) {E : Errno → Sfs → Prop}
    {F : Panic → Prop} : wp (sfs_bmap_check b) (fun b s' => Mapped A i k doalloc b s s') E F t := by
  apply wp_bmap_check _ hm
  intro h0
  have href : t.ref i (.slot k) = b := hm.slot
  have hne : t.ref i (.slot k) ≠ 0 := by rwa [href]
  have hlt := hm.inv.ref_lt hi hne
  have hused := hm.inv.used_ref hi hne
  rw [href] at hlt hused
  exact ⟨hlt, hm.inv.isset_of_used hlt hused⟩

theorem wp_bmap_direct (h : s.FsInv A) (hv : v ∈ s.sfs_vnodes) (k : Fin NDIRECT) :
    wp (sfs_bmap_direct v k doalloc) (fun b s' => Mapped A (s.sv v).sv_ino k doalloc b s s')
      (fun e s' => NotMapped A (s.sv v).sv_ino k doalloc e s s') (fun _ => False) s := by
  have hi := h.loaded v hv
  have hmax : k.val < MAXBLOCKS := Nat.lt_of_lt_of_le k.isLt (by decide)
  have hslot : s.slot (s.sv v).sv_ino k = s.field v (.sfi_direct k) := by
    unfold slot
    rw [dif_pos k.isLt]
    exact ifield_loaded h.table hv _
  unfold sfs_bmap_direct
  rw [wp_read_bind]
  apply wp_if
  · intro hneed
    rw [wp_bind]
    have hzero : s.slot (s.sv v).sv_ino k = 0 := hslot.trans hneed.1
    apply wp_balloc h
    · intro b hb0 hb hu
      rw [wp_modify_bind]
      obtain ⟨hgrown, hself⟩ := grown_direct h hv hu hb hzero hb0
      exact wp_bmap_hand hi ⟨fsInv_direct h hv hu hb hzero hb0, only_record h hv hu, hgrown, hself, hmax,
        fun _ => hb0, fun hd => absurd (hneed.2.symm.trans hd) (by simp)⟩
    · exact ⟨h, .refl A _ s, .refl _ _ s, fun _ => hneed.2, fun he => (nomatch he), .inl rfl⟩
  · intro hneed
    exact wp_bmap_hand hi ⟨h, .refl A _ s, .refl _ _ s, hslot, hmax, fun hd h0 => hneed ⟨h0, hd⟩, fun _ => rfl⟩

/-- The entry of an indirect block that is there, perhaps since a moment ago. -/
theorem wp_bmap_entry (ht : t.FsInv A) (hv : v ∈ t.sfs_vnodes) (hino : (t.sv v).sv_ino = i)
    (honly : Only A i s t) (hgrown : Grown i ∅ s t) (hsame : doalloc = false → t = s)
    (hid : t.ifield i .sfi_indirect = id) (hid0 : id ≠ 0) (hj : j < DBPERIDB) :
    wp (sfs_bmap_entry id (t.sfs_device.sector id) j doalloc)
      (fun b s' => Mapped A i (NDIRECT + j) doalloc b s s')
      (fun e s' => NotMapped A i (NDIRECT + j) doalloc e s s') (fun _ => False) t := by
  have hi : i ∈ A := hino ▸ ht.loaded v hv
  have hmax : NDIRECT + j < MAXBLOCKS := Nat.add_lt_add_left hj NDIRECT
  have hslot := slot_of_indirect hid hid0 hj
  have hgrown' : Grown i {NDIRECT + j} s t := hgrown.mono (Set.empty_subset _)
  unfold sfs_bmap_entry
  apply wp_if
  · intro hneed
    rw [wp_bind]
    have hzero : t.slot i (NDIRECT + j) = 0 := hslot.trans hneed.1
    have hidlt : id < t.nblocks := by
      have hlt := ht.ref_lt (r := .indirect) hi (show t.ifield i .sfi_indirect ≠ 0 by rw [hid]; exact hid0)
      rwa [show t.ref i .indirect = id from hid] at hlt
    apply wp_balloc ht
    · intro b hb0 hb hu
      rw [wp_bind]
      apply wp_writeblock (s := t.alloc b) (ht.geometry.of_eq rfl rfl rfl rfl) hidlt
      have hnew : (t.addEntry id j b).slot i (NDIRECT + j) = b := by
        rw [slot_addEntry ht hv hino hid hid0 hj hb hu, if_pos rfl]
      have hadd := only_addEntry ht hv hino hid hid0 (j := j) hu
      exact wp_bmap_hand hi ⟨fsInv_addEntry ht hv hino hid hid0 hj hb0 hb hu hzero, honly.trans hadd,
        hgrown'.trans (grown_addEntry ht hv hino hid hid0 hj hb0 hb hu hzero), hnew, hmax, fun _ => hb0,
        fun hd => absurd (hneed.2.symm.trans hd) (by simp)⟩
    · exact ⟨ht, honly, hgrown, fun _ => hneed.2, fun he => (nomatch he), .inl rfl⟩
  · intro hneed
    exact wp_bmap_hand hi ⟨ht, honly, hgrown', hslot, hmax, fun hd h0 => hneed ⟨h0, hd⟩, hsame⟩

theorem wp_bmap_indirect (h : s.FsInv A) (hv : v ∈ s.sfs_vnodes) (hj : j < DBPERIDB) :
    wp (sfs_bmap_indirect v j doalloc)
      (fun b s' => Mapped A (s.sv v).sv_ino (NDIRECT + j) doalloc b s s')
      (fun e s' => NotMapped A (s.sv v).sv_ino (NDIRECT + j) doalloc e s s') (fun _ => False) s := by
  have hi := h.loaded v hv
  have hfield : s.ifield (s.sv v).sv_ino .sfi_indirect = s.field v .sfi_indirect := ifield_loaded h.table hv _
  have hsmall := h.nblocks_lt
  unfold sfs_bmap_indirect
  rw [wp_read_bind]
  apply wp_if
  · intro hzero
    apply wp_if
    · intro hd
      -- a new indirect block, in which nothing is recorded yet
      rw [wp_bind]
      apply wp_balloc h
      · intro b hb0 hb hu
        rw [wp_modify_bind]
        have hz : s.ifield (s.sv v).sv_ino .sfi_indirect = 0 := hfield.trans hzero
        have hentry : wp (sfs_bmap_entry b _ j doalloc) _ _ _ _ := wp_bmap_entry (fsInv_indirect h hv hu hb0 hb hz) hv
          (setField_same v).1 (only_record h hv hu) (grown_indirect h hv hu hb0 hb hz)
          (fun hf => absurd (hd.symm.trans hf) (by simp)) (ifield_indirect h hv hb) hb0 hj
        rwa [show ((s.alloc b).setField v .sfi_indirect b).sfs_device.sector b = .zeros from
          Lhd.store_self _ _ _] at hentry
      · exact ⟨h, .refl A _ s, .refl _ _ s, fun _ => hd, fun he => (nomatch he), .inl rfl⟩
    · intro hd
      -- no indirect block, and none wanted
      rw [wp_pure]
      have hslot : s.slot (s.sv v).sv_ino (NDIRECT + j) = 0 := by
        unfold slot tableEntry
        rw [dif_neg (by omega), hfield, hzero, if_pos rfl, ite_self]
      exact ⟨h, .refl A _ s, .refl _ _ s, hslot, Nat.add_lt_add_left hj NDIRECT, fun hd' => absurd hd' hd,
        fun _ => rfl⟩
  · intro hzero
    rw [wp_bind]
    have hne : s.ref (s.sv v).sv_ino .indirect ≠ 0 := fun h0 => hzero (hfield.symm.trans h0)
    have hlt := h.ref_lt hi hne
    rw [show s.ref (s.sv v).sv_ino .indirect = s.field v .sfi_indirect from hfield] at hlt
    apply wp_readblock h.geometry hlt
    exact wp_bmap_entry h hv rfl (.refl A _ s) (.refl _ _ s) (fun _ => rfl) hfield hzero hj

/-- **`sfs_bmap`** hands back the disk block of block `k` of the file, or fails without having
mapped anything. -/
theorem wp_bmap (h : s.FsInv A) (hv : v ∈ s.sfs_vnodes) (hino : (s.sv v).sv_ino = i) :
    wp (sfs_bmap v k doalloc) (fun b s' => Mapped A i k doalloc b s s')
      (fun e s' => NotMapped A i k doalloc e s s') (fun _ => False) s := by
  subst hino
  apply wp_bmap_split
  · exact fun hrange => ⟨h, .refl A _ s, .refl _ _ s, fun he => (nomatch he), fun _ => ⟨hrange, rfl⟩, .inr rfl⟩
  · rintro i rfl
    exact wp_bmap_direct h hv i
  · rintro j rfl hj
    exact wp_bmap_indirect h hv hj

end Spec

end OS161.Sfs
