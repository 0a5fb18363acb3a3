import OS161.Sfs.Volume
import OS161.Framework.Ledger

/-! # What is on a volume

The inode of a number is the loaded copy if there is one, else the block on the disk. From it
follow the blocks of the file, their contents, and who holds which block. `FsInv` says that the
free block map is right about all of them.
-/

namespace OS161.Sfs

open Framework

/-! ## Inodes, slots and contents -/

/-- The loaded vnode of an inode number. -/
def find (s : Sfs) (i : Nat) : Option Nat := s.sfs_vnodes.find? fun v => (s.sv v).sv_ino == i

/-- The inode of a number. -/
def inode (s : Sfs) (i : Nat) : Block :=
  match s.find i with
  | some v => (s.sv v).sv_i
  | none => s.sfs_device.sector i

/-- A field of the inode of a number. -/
def ifield (s : Sfs) (i : Nat) (f : Block.Field) : Nat := (s.inode i).field f

/-- Entry `j` of the indirect block. -/
def tableEntry (s : Sfs) (i j : Nat) : Nat :=
  if s.ifield i .sfi_indirect = 0 then 0 else (s.sfs_device.sector (s.ifield i .sfi_indirect)).entry j

/-- The disk block of block `k` of the file; 0 if it has none. -/
def slot (s : Sfs) (i k : Nat) : Nat :=
  if h : k < NDIRECT then s.ifield i (.sfi_direct ⟨k, h⟩)
  else if k < MAXBLOCKS then s.tableEntry i (k - NDIRECT)
  else 0

/-- Block `k` of the file as it reads. -/
def data (s : Sfs) (i k : Nat) : Block :=
  if s.slot i k = 0 then .zeros else s.sfs_device.sector (s.slot i k)

/-- The bytes of the file. -/
def content (s : Sfs) (i p : Nat) : UInt8 := (s.data i (p / BLOCKSIZE)).byte (p % BLOCKSIZE)

/-! ## Who holds which block -/

/-- What an inode holds blocks for. -/
inductive Role where
  | inode
  | indirect
  | slot (k : Nat)
  deriving DecidableEq, Repr

/-- The block that inode `i` has for a purpose. -/
def ref (s : Sfs) (i : Nat) : Role → Nat
  | .inode => i
  | .indirect => s.ifield i .sfi_indirect
  | .slot k => s.slot i k

/-- The inodes of `A` hold blocks. -/
def Holds (s : Sfs) (A : Set Nat) (h : Nat × Role) (b : Nat) : Prop :=
  h.1 ∈ A ∧ s.ref h.1 h.2 = b ∧ b ≠ 0

/-- The superblock, the free block map, and what is past the end of the volume. -/
def Fixed (s : Sfs) (b : Nat) : Prop :=
  b = SB_LOCATION ∨ (MAP_LOCATION ≤ b ∧ b < MAP_LOCATION + bitblocks s.nblocks) ∨ s.nblocks ≤ b

/-- The blocks that the free block map does not give away. -/
def Used (s : Sfs) (b : Nat) : Prop := s.sfs_freemap.nbits ≤ b ∨ bitmap_isset s.sfs_freemap b = true

/-- Sizes of the volume, its device and its free block map. -/
structure Geometry (s : Sfs) : Prop where
  reliable : s.sfs_device.Reliable
  d_blocks : s.sfs_device.d_blocks < 2 ^ 32
  fits : s.nblocks ≤ s.sfs_device.d_blocks
  /-- `sfs_blockio` computes offsets on the disk in 32 bits. -/
  small : s.nblocks ≤ 2 ^ 23
  nbits : s.sfs_freemap.nbits = bitmapsize s.nblocks

/-- The table of loaded vnodes. -/
structure TableInv (s : Sfs) : Prop where
  nodup : s.sfs_vnodes.Nodup
  inj : ∀ v ∈ s.sfs_vnodes, ∀ w ∈ s.sfs_vnodes, (s.sv v).sv_ino = (s.sv w).sv_ino → v = w
  fresh : ∀ v ∈ s.sfs_vnodes, v < s.fresh
  refs : ∀ v ∈ s.sfs_vnodes, 1 ≤ (s.sv v).vn_refcount
  ops : ∀ v ∈ s.sfs_vnodes, sfs_ops (s.field v .sfi_type) = some (s.sv v).vn_ops

/-- **The invariant of a volume** whose inodes are those in `A`. -/
structure FsInv (s : Sfs) (A : Set Nat) : Prop where
  geometry : s.Geometry
  table : s.TableInv
  ledger : Ledger (s.Holds A) s.Fixed s.Used
  nonzero : 0 ∉ A
  root : ROOT_LOCATION ∈ A
  loaded : ∀ v ∈ s.sfs_vnodes, (s.sv v).sv_ino ∈ A
  clean : ∀ v ∈ s.sfs_vnodes, (s.sv v).sv_dirty = false → s.sfs_device.sector (s.sv v).sv_ino = (s.sv v).sv_i

/-! ## The table -/

section Find

variable {s s' : Sfs} {v i : Nat}

section

variable (h : s.TableInv) (hv : v ∈ s.sfs_vnodes)
include h hv

theorem find_loaded : s.find (s.sv v).sv_ino = some v := by
  cases hf : s.find (s.sv v).sv_ino with
  | none =>
    have := List.find?_eq_none.mp hf v hv
    simp at this
  | some w =>
    have hw : w ∈ s.sfs_vnodes := List.mem_of_find?_eq_some hf
    have hino : (s.sv w).sv_ino = (s.sv v).sv_ino := by simpa using List.find?_some hf
    rw [h.inj w hw v hv hino]

theorem inode_loaded : s.inode (s.sv v).sv_ino = (s.sv v).sv_i := by
  unfold inode
  rw [find_loaded h hv]

theorem ifield_loaded (f : Block.Field) : s.ifield (s.sv v).sv_ino f = s.field v f := by
  unfold ifield field
  rw [inode_loaded h hv]

end

theorem find_some_iff (h : s.TableInv) : s.find i = some v ↔ v ∈ s.sfs_vnodes ∧ (s.sv v).sv_ino = i := by
  constructor
  · intro hf
    exact ⟨List.mem_of_find?_eq_some hf, by simpa using List.find?_some hf⟩
  · rintro ⟨hv, rfl⟩
    exact find_loaded h hv

/-- `find` looks at the numbers of the vnodes only. -/
theorem find_congr (s s' : Sfs) (i : Nat) (hv : s'.sfs_vnodes = s.sfs_vnodes)
    (hino : ∀ v, (s'.sv v).sv_ino = (s.sv v).sv_ino) : s'.find i = s.find i := by
  unfold find
  rw [hv]
  simp only [hino]

end Find

/-! ## Inodes that look the same -/

/-- Inode `i`, its blocks and their contents are the same in both states. -/
structure Agree (s s' : Sfs) (i : Nat) : Prop where
  inode : s'.inode i = s.inode i
  slot : ∀ k, s'.slot i k = s.slot i k
  data : ∀ k, s'.data i k = s.data i k

section Agree

variable {s s' s'' : Sfs} {i : Nat}

theorem Agree.refl (s : Sfs) (i : Nat) : Agree s s i := ⟨rfl, fun _ => rfl, fun _ => rfl⟩

theorem Agree.trans (h : Agree s s' i) (h' : Agree s' s'' i) : Agree s s'' i where
  inode := by rw [h'.inode, h.inode]
  slot := fun k => by rw [h'.slot, h.slot]
  data := fun k => by rw [h'.data, h.data]

theorem Agree.ifield (h : Agree s s' i) (f : Block.Field) : s'.ifield i f = s.ifield i f := by
  unfold Sfs.ifield
  rw [h.inode]

theorem Agree.content (h : Agree s s' i) (p : Nat) : s'.content i p = s.content i p := by
  unfold Sfs.content
  rw [h.data]

theorem Agree.ref (h : Agree s s' i) (r : Role) : s'.ref i r = s.ref i r := by
  cases r with
  | inode => rfl
  | indirect => exact h.ifield _
  | slot k => exact h.slot k

section

variable (hinode : s'.inode i = s.inode i) (hindirect : s.ifield i .sfi_indirect ≠ 0 → s'.sfs_device.sector (s.ifield i .sfi_indirect) = s.sfs_device.sector (s.ifield i .sfi_indirect))
include hinode hindirect

/-- The same inode and the same indirect block. -/
theorem slot_congr (k : Nat) : s'.slot i k = s.slot i k := by
  have hfield : ∀ f, s'.ifield i f = s.ifield i f := by
    intro f
    unfold Sfs.ifield
    rw [hinode]
  have hentry : ∀ j, s'.tableEntry i j = s.tableEntry i j := by
    intro j
    unfold tableEntry
    rw [hfield]
    by_cases h : s.ifield i .sfi_indirect = 0
    · rw [if_pos h, if_pos h]
    · rw [if_neg h, if_neg h, hindirect h]
  unfold Sfs.slot
  simp only [hfield, hentry]

/-- The same inode and the same blocks on the disk. -/
theorem Agree.of_inode
    (hdata : ∀ k, s.slot i k ≠ 0 → s'.sfs_device.sector (s.slot i k) = s.sfs_device.sector (s.slot i k)) :
    Agree s s' i := by
  have hslot := slot_congr hinode hindirect
  refine ⟨hinode, hslot, fun k => ?_⟩
  unfold Sfs.data
  rw [hslot]
  by_cases h : s.slot i k = 0
  · rw [if_pos h, if_pos h]
  · rw [if_neg h, if_neg h, hdata k h]

end

/-- The same device, and the same inode. -/
theorem Agree.of_device (hdev : s'.sfs_device = s.sfs_device) (hinode : s'.inode i = s.inode i) :
    Agree s s' i :=
  .of_inode hinode (fun _ => by rw [hdev]) fun _ _ => by rw [hdev]

/-- The same table, inodes and device. -/
theorem agree_of_table (s s' : Sfs) (i : Nat) (hv : s'.sfs_vnodes = s.sfs_vnodes)
    (hino : ∀ v, (s'.sv v).sv_ino = (s.sv v).sv_ino) (hi : ∀ v, (s'.sv v).sv_i = (s.sv v).sv_i)
    (hdev : s'.sfs_device = s.sfs_device) : Agree s s' i := by
  apply Agree.of_device hdev
  unfold Sfs.inode
  rw [find_congr s s' i hv hino, hdev]
  simp only [hi]

end Agree

/-! ## Writing a block -/

/-- Block `b` of the disk is written. -/
def store (s : Sfs) (b : Nat) (blk : Block) : Sfs := { s with sfs_device := s.sfs_device.store b blk }

section Store

variable {s : Sfs} {b i : Nat} {blk : Block}

@[simp] theorem store_find (i : Nat) : (s.store b blk).find i = s.find i := rfl

/-- A block that inode `i` does not use can be written. -/
theorem agree_store (hi : i ≠ 0) (href : ∀ r, s.ref i r = 0 ∨ s.ref i r ≠ b) : Agree s (s.store b blk) i := by
  have hsame : ∀ r, s.ref i r ≠ 0 → (s.store b blk).sfs_device.sector (s.ref i r) = s.sfs_device.sector (s.ref i r) :=
    fun r h0 => Lhd.store_ne _ _ ((href r).resolve_left h0)
  apply Agree.of_inode _ (hsame .indirect) fun k => hsame (.slot k)
  unfold inode
  rw [store_find]
  cases hf : s.find i with
  | some v => rfl
  | none => exact hsame .inode hi

end Store

namespace FsInv

variable {s t : Sfs} {A : Set Nat} {i j b v : Nat}

theorem ne_zero (h : s.FsInv A) (hi : i ∈ A) : i ≠ 0 := fun h0 => h.nonzero (h0 ▸ hi)

theorem holds_ref (_h : s.FsInv A) (hi : i ∈ A) {r : Role} (hne : s.ref i r ≠ 0) : s.Holds A (i, r) (s.ref i r) :=
  ⟨hi, rfl, hne⟩

section

variable (h : s.FsInv A)
include h

/-- Two references to the same block are the same reference. -/
theorem ref_inj (hi : i ∈ A) (hj : j ∈ A) (r r' : Role) (hne : s.ref i r ≠ 0)
    (heq : s.ref i r = s.ref j r') : i = j ∧ r = r' := by
  have h1 := h.holds_ref hi hne
  have h2 : s.Holds A (j, r') (s.ref i r) := ⟨hj, heq.symm, hne⟩
  have := h.ledger.one h1 h2
  exact ⟨congrArg Prod.fst this, congrArg Prod.snd this⟩

/-- A block that is referred to is within the volume. -/
theorem ref_lt (hi : i ∈ A) {r : Role} (hne : s.ref i r ≠ 0) : s.ref i r < s.nblocks := by
  have := h.ledger.apart (h.holds_ref hi hne)
  unfold Fixed at this
  omega

theorem used_ref (hi : i ∈ A) {r : Role} (hne : s.ref i r ≠ 0) : s.Used (s.ref i r) :=
  h.ledger.used_of_holds (h.holds_ref hi hne)

theorem nblocks_le_nbits : s.nblocks ≤ s.sfs_freemap.nbits := by
  rw [h.geometry.nbits]
  simp only [bitmapsize, bitblocks, BLOCKBITS]
  omega

theorem nblocks_lt : s.nblocks < 2 ^ 32 := by
  have := h.geometry.small
  omega

/-- A block that is in use, as the free block map has it. -/
theorem isset_of_used (hb : b < s.nblocks) (hu : s.Used b) : bitmap_isset s.sfs_freemap b = true := by
  rcases hu with hu | hu
  · have := h.nblocks_le_nbits
    omega
  · exact hu

/-- A block that is not in use is none of the blocks of an inode. -/
theorem ref_ne_of_not_used (hi : i ∈ A) (hb : ¬ s.Used b) (r : Role) : s.ref i r = 0 ∨ s.ref i r ≠ b := by
  by_cases h0 : s.ref i r = 0
  · exact .inl h0
  · right
    rintro rfl
    exact hb (h.used_ref hi h0)

/-- A block that is not in use can be written. -/
theorem agree_store_unused (hi : i ∈ A) (hb : ¬ s.Used b) (blk : Block) : Agree s (s.store b blk) i :=
  agree_store (h.ne_zero hi) (h.ref_ne_of_not_used hi hb)

/-- A block of one inode can be written as far as the others are concerned, also while another block
is handed out or given back. -/
theorem agree_store_other (ht : ∀ j ∈ A, Agree s t j) (hi : i ∈ A) (hj : j ∈ A) (hne : j ≠ i)
    {r : Role} (blk : Block) : Agree t (t.store (s.ref i r) blk) j := by
  apply agree_store (h.ne_zero hj)
  intro r'
  rw [(ht j hj).ref]
  by_cases h0 : s.ref j r' = 0
  · exact .inl h0
  · exact .inr fun heq => hne (h.ref_inj hj hi r' r h0 heq).1

end

end FsInv

end OS161.Sfs
