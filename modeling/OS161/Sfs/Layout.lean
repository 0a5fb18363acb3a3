import OS161.Lib.Types
import OS161.Framework.BigEndian
import OS161.Framework.Contents

/-! # On-disk structures

The structures of `kern/include/kern/sfs.h`. The machine is big-endian and the file system reads
and writes its structures as they are in memory, so a structure is kept here as the block that
it is on disk, and its fields are numbers at fixed offsets.
-/

namespace OS161

open Framework

/-- `SFS_NDIRECT`. -/
abbrev NDIRECT : Nat := 15

/-- `SFS_DBPERIDB`. -/
abbrev DBPERIDB : Nat := 128

/-- The number of blocks that a file can have. -/
abbrev MAXBLOCKS : Nat := NDIRECT + DBPERIDB

/-- `SFS_NAMELEN`. -/
abbrev NAMELEN : Nat := 60

/-- `SFS_SB_LOCATION`. -/
abbrev SB_LOCATION : Nat := 0

/-- `SFS_ROOT_LOCATION`. -/
abbrev ROOT_LOCATION : Nat := 1

/-- `SFS_MAP_LOCATION`. -/
abbrev MAP_LOCATION : Nat := 2

/-- `SFS_NOINO`. -/
abbrev NOINO : Nat := 0

abbrev SFS_MAGIC : Nat := 0xabadf001

/-- `SFS_BLOCKBITS`. -/
abbrev BLOCKBITS : Nat := 4096

/-- `SFS_BITBLOCKS`. -/
def bitblocks (nblocks : Nat) : Nat := (nblocks + BLOCKBITS - 1) / BLOCKBITS

/-- `SFS_BITMAPSIZE`. -/
def bitmapsize (nblocks : Nat) : Nat := bitblocks nblocks * BLOCKBITS

/-- `SFS_TYPE_INVAL`. -/
abbrev TYPE_INVAL : Nat := 0

/-- `SFS_TYPE_FILE`. -/
abbrev TYPE_FILE : Nat := 1

/-- `SFS_TYPE_DIR`. -/
abbrev TYPE_DIR : Nat := 2

/-! ## Numbers in blocks -/

namespace Block

theorem toList_zeros : zeros.toList = List.replicate BLOCKSIZE 0 := by
  rw [List.eq_replicate_iff]
  refine ⟨length_toList _, fun b hb => ?_⟩
  obtain ⟨j, rfl⟩ := List.mem_ofFn.mp hb
  rfl

/-- The number in the `w` bytes at `off`. -/
def get (b : Block) (off w : Nat) : Nat := beGet b.byte w off

/-- The number `n` is stored in the `w` bytes at `off`. -/
def put (b : Block) (off w n : Nat) : Block := b.overwrite off (beBytes w n)

variable (b : Block) {off w off' w' : Nat}

theorem get_lt (off w : Nat) : b.get off w < 256 ^ w := beGet_lt _ _ _

@[simp] theorem get_zeros (off w : Nat) : zeros.get off w = 0 := by
  unfold get
  induction w generalizing off with
  | zero => rfl
  | succ w ih => simp [beGet, ih]

theorem get_put_self (n : Nat) (h : off + w ≤ BLOCKSIZE) : (b.put off w n).get off w = n % 256 ^ w := by
  apply beGet_beByte
  intro k hk
  unfold put
  rw [byte_overwrite _ _ _ (by omega), if_pos (by simp; omega), show off + k - off = k by omega]
  exact getD_beBytes n hk

theorem get_put_ne (n : Nat) (h : off' + w' ≤ off ∨ off + w ≤ off') :
    (b.put off w n).get off' w' = b.get off' w' := by
  apply beGet_congr
  intro k hk
  by_cases hin : off' + k < BLOCKSIZE
  · unfold put
    rw [byte_overwrite _ _ _ hin, if_neg]
    simp only [length_beBytes]
    omega
  · simp [byte, hin]

/-! ## Inodes -/

/-- The fields of `struct sfs_inode`. -/
inductive Field where
  | sfi_size
  | sfi_type
  | sfi_linkcount
  | sfi_direct (k : Fin NDIRECT)
  | sfi_indirect
  deriving DecidableEq, Repr

namespace Field

def offset : Field → Nat
  | sfi_size => 0
  | sfi_type => 4
  | sfi_linkcount => 6
  | sfi_direct k => 8 + 4 * k
  | sfi_indirect => 68

def width : Field → Nat
  | sfi_size => 4
  | sfi_type => 2
  | sfi_linkcount => 2
  | sfi_direct _ => 4
  | sfi_indirect => 4

theorem fits (f : Field) : f.offset + f.width ≤ BLOCKSIZE := by
  cases f with
  | sfi_direct k =>
    have : NDIRECT = 15 := rfl
    show 8 + 4 * k.val + 4 ≤ 512
    omega
  | _ => decide

theorem disjoint {f g : Field} (h : g ≠ f) :
    g.offset + g.width ≤ f.offset ∨ f.offset + f.width ≤ g.offset := by
  have : NDIRECT = 15 := rfl
  cases f <;> cases g <;> simp [offset, width] at h ⊢ <;> omega

end Field

/-- A field of the inode in a block. -/
def field (i : Block) (f : Field) : Nat := i.get f.offset f.width

/-- Assignment to a field. -/
def setField (i : Block) (f : Field) (n : Nat) : Block := i.put f.offset f.width n

@[simp] theorem field_setField_self (i : Block) (f : Field) (n : Nat) :
    (i.setField f n).field f = n % 256 ^ f.width := get_put_self i n f.fits

@[simp] theorem field_setField_ne (i : Block) {f g : Field} (n : Nat) (h : g ≠ f) :
    (i.setField f n).field g = i.field g := get_put_ne i n (Field.disjoint h)

theorem field_lt (i : Block) (f : Field) : i.field f < 256 ^ f.width := get_lt _ _ _

@[simp] theorem field_zeros (f : Field) : zeros.field f = 0 := get_zeros _ _

/-! ## Indirect blocks -/

/-- `idbuf[j]`. -/
def entry (b : Block) (j : Nat) : Nat := b.get (4 * j) 4

/-- Assignment to `idbuf[j]`. -/
def setEntry (b : Block) (j n : Nat) : Block := b.put (4 * j) 4 n

@[simp] theorem entry_setEntry_self {j : Nat} (n : Nat) (hj : j < DBPERIDB) :
    (b.setEntry j n).entry j = n % 2 ^ 32 :=
  get_put_self b n (by
    have : DBPERIDB = 128 := rfl
    have : BLOCKSIZE = 512 := rfl
    omega)

@[simp] theorem entry_setEntry_ne {j k : Nat} (n : Nat) (h : k ≠ j) :
    (b.setEntry j n).entry k = b.entry k :=
  get_put_ne b n (by omega)

@[simp] theorem entry_zeros (j : Nat) : zeros.entry j = 0 := get_zeros _ _

/-! ## The superblock -/

def sp_magic (b : Block) : Nat := b.get 0 4

def sp_nblocks (b : Block) : Nat := b.get 4 4

end Block

/-! ## Directory entries -/

/-- `sizeof(struct sfs_dir)`. -/
abbrev DIRSIZE : Nat := 64

/-- The bytes of a directory entry, as `sfs_dir_link` and `sfs_dir_unlink` set it up. -/
def sfs_dir (ino : Nat) (name : List UInt8) : List UInt8 :=
  beBytes 4 ino ++ name ++ List.replicate (NAMELEN - name.length) 0

/-- `sfd_ino` of the entry in these bytes. -/
def sfd_ino (sd : List UInt8) : Nat := beGet (fun k => sd.getD k 0) 4 0

/-- `sfd_name` of the entry in these bytes, after its last byte was set to zero: the characters
before the first zero. -/
def sfd_name (sd : List UInt8) : List UInt8 := ((sd.drop 4).take (NAMELEN - 1)).takeWhile (· ≠ 0)

end OS161
