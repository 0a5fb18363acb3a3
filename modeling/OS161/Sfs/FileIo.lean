import OS161.Sfs.Bmap

/-! # File I/O

`sfs_io` cuts a request into a leading partial block, whole blocks and a trailing partial block.
All of them together write the caller's bytes at the position of the request, or read the bytes
there.

Block numbers are `uint32_t`: the position of a request is its offset modulo `2^41`.
-/

namespace OS161

open Framework Kern

namespace Sfs

/-! ## Writing a block of a file -/

section StoreData

variable {s : Sfs} {A : Set Nat} {i k : Nat}

section

variable (h : s.FsInv A) (hi : i ∈ A) (hk : s.slot i k ≠ 0) (blk : Block)
include h hi hk blk

/-- Writing a data block changes no inode and no slot. -/
theorem inode_store_data : (s.store (s.slot i k) blk).inode i = s.inode i := by
  unfold inode
  rw [store_find]
  cases hf : s.find i with
  | some v => rfl
  | none => exact Lhd.store_ne _ _ (h.ino_ne_ref hi hi (r := .slot k) (by simp) hk)

theorem slot_store_data (k' : Nat) : (s.store (s.slot i k) blk).slot i k' = s.slot i k' := by
  apply slot_congr (inode_store_data h hi hk blk)
  intro h0
  apply Lhd.store_ne
  intro heq
  exact nomatch (h.ref_inj hi hi .indirect (.slot k) h0 heq).2

/-- Only the block that is written reads differently. -/
theorem data_store_data (k' : Nat) :
    (s.store (s.slot i k) blk).data i k' = if k' = k then blk else s.data i k' := by
  unfold data
  rw [slot_store_data h hi hk]
  by_cases hkk : k' = k
  · subst hkk
    rw [if_neg hk, if_pos rfl]
    exact Lhd.store_self _ _ _
  · rw [if_neg hkk]
    by_cases h0 : s.slot i k' = 0
    · rw [if_pos h0, if_pos h0]
    · rw [if_neg h0, if_neg h0]
      apply Lhd.store_ne
      intro heq
      have := (h.ref_inj hi hi (.slot k') (.slot k) h0 heq).2
      injection this with this
      exact hkk this

theorem fsInv_store_data : (s.store (s.slot i k) blk).FsInv A := by
  have honly : Only A i s (s.store (s.slot i k) blk) := Only.store h hi (r := .slot k) hk blk
  refine h.of_only honly rfl rfl rfl (h.table.of_eq rfl rfl rfl) (ledger_congr h honly ?_ fun _ => Iff.rfl) ?_
  · rintro (_ | _ | k')
    · rfl
    · show (Block.field _ _) = Block.field _ _
      rw [inode_store_data h hi hk]
    · exact slot_store_data h hi hk blk k'
  · intro w hw hd
    have hne : (s.sv w).sv_ino ≠ s.slot i k := h.ino_ne_ref (h.loaded w hw) hi (r := .slot k) (by simp) hk
    exact (Lhd.store_ne _ _ hne).trans (h.clean w hw hd)

end

end StoreData

/-! ## What a transfer does to the volume -/

/-- `bytes` have been stored at position `o` of file `i`. -/
structure Stored (A : Set Nat) (i o : Nat) (bytes : List UInt8) (s s' : Sfs) : Prop where
  inv : s'.FsInv A
  only : Only A i s s'
  size : s'.ifield i .sfi_size = s.ifield i .sfi_size
  type : s'.ifield i .sfi_type = s.ifield i .sfi_type
  linkcount : s'.ifield i .sfi_linkcount = s.ifield i .sfi_linkcount
  content : s'.content i = splice (s.content i) o bytes

theorem Grown.content {i : Nat} {K : Set Nat} {s s' : Sfs} (h : Grown i K s s') : s'.content i = s.content i := by
  funext p
  unfold Sfs.content
  rw [h.data]

namespace Stored

variable {A : Set Nat} {i o k : Nat} {l m : List UInt8} {s s' s'' : Sfs}

/-- Growing stores nothing. -/
theorem of_grown {K : Set Nat} (hinv : s'.FsInv A) (honly : Only A i s s') (h : Grown i K s s') (o : Nat) :
    Stored A i o [] s s' :=
  { h with
    inv := hinv
    only := honly
    content := by rw [splice_nil, h.content] }

theorem refl (h : s.FsInv A) (i o : Nat) : Stored A i o [] s s :=
  of_grown h (.refl A i s) (.refl i ∅ s) o

theorem trans (h : Stored A i o l s s') (h' : Stored A i (o + l.length) m s' s'') :
    Stored A i o (l ++ m) s s'' where
  inv := h'.inv
  only := h.only.trans h'.only
  size := by rw [h'.size, h.size]
  type := by rw [h'.type, h.type]
  linkcount := by rw [h'.linkcount, h.linkcount]
  content := by rw [h'.content, h.content, splice_append]

theorem after_grown {K : Set Nat} (h : Grown i K s s') (honly : Only A i s s') (h' : Stored A i o l s' s'') :
    Stored A i o l s s'' where
  inv := h'.inv
  only := honly.trans h'.only
  size := by rw [h'.size, h.size]
  type := by rw [h'.type, h.type]
  linkcount := by rw [h'.linkcount, h.linkcount]
  content := by rw [h'.content, h.content]

/-- Bytes within one block. -/
theorem block (h : s.FsInv A) (hi : i ∈ A) (hk : s.slot i k ≠ 0) (skip : Nat) (hl : skip + l.length ≤ BLOCKSIZE) :
    Stored A i (k * BLOCKSIZE + skip) l s (s.store (s.slot i k) ((s.data i k).overwrite skip l)) where
  inv := fsInv_store_data h hi hk _
  only := .store h hi (r := .slot k) hk _
  size := by
    unfold ifield
    rw [inode_store_data h hi hk]
  type := by
    unfold ifield
    rw [inode_store_data h hi hk]
  linkcount := by
    unfold ifield
    rw [inode_store_data h hi hk]
  content := by
    have hB : BLOCKSIZE = 512 := rfl
    funext p
    unfold Sfs.content
    rw [data_store_data h hi hk]
    have hmod : p % BLOCKSIZE < BLOCKSIZE := Nat.mod_lt _ (by decide)
    by_cases hp : p / BLOCKSIZE = k
    · rw [if_pos hp, Block.byte_overwrite _ _ _ hmod, ← hp]
      have hdiv : p = p / BLOCKSIZE * BLOCKSIZE + p % BLOCKSIZE := by
        rw [hB]
        omega
      by_cases hin : skip ≤ p % BLOCKSIZE ∧ p % BLOCKSIZE < skip + l.length
      · rw [if_pos hin, splice_inside 0 (by omega) (by omega)]
        congr 1
        omega
      · rw [if_neg hin, splice_outside (by omega)]
    · rw [if_neg hp, splice_outside]
      rw [hB] at hp hl ⊢
      omega

end Stored

/-! ## Positions -/

end Sfs

/-- The position in the file of the next byte to be transferred. -/
def Uio.pos (u : Uio) : Nat := (u.uio_offset % 2 ^ 41).toNat

section Position

variable {u u' : Uio} {bytes : List UInt8}

theorem Uio.fileblock_eq (u : Uio) : u.fileblock = u.pos / BLOCKSIZE := by
  have hB : BLOCKSIZE = 512 := rfl
  unfold Uio.fileblock Uio.pos
  rw [hB]
  omega

theorem Uio.blkoff_eq (u : Uio) : (u.uio_offset % BLOCKSIZE).toNat = u.pos % BLOCKSIZE := by
  have hB : BLOCKSIZE = 512 := rfl
  unfold Uio.pos
  rw [hB]
  omega

theorem Uio.Moved.pos (h : u.Moved u' bytes) (hlt : u.pos + bytes.length < 2 ^ 41) :
    u'.pos = u.pos + bytes.length := by
  have hoff := h.offset
  unfold Uio.pos at *
  omega

end Position

namespace Sfs

/-! ## Transfers -/

/-- What the transfer of `bytes` at position `o` does to the volume. -/
def Did (A : Set Nat) (i : Nat) (rw : UioRw) (o : Nat) (bytes : List UInt8) (s s' : Sfs) : Prop :=
  match rw with
  | .UIO_WRITE => Stored A i o bytes s s'
  | .UIO_READ => s' = s ∧ bytes = slice (s.content i) o bytes.length

/-- A transfer of `len` bytes has been done. -/
structure Done (A : Set Nat) (i : Nat) (s : Sfs) (u : Uio) (len : Nat) (bytes : List UInt8) (t : Sfs × Uio) :
    Prop where
  moved : u.Moved t.2 bytes
  source : u.uio_rw = .UIO_WRITE → bytes = u.rest.take len
  length : bytes.length = len
  range : len ≠ 0 → u.pos + len ≤ MAXBLOCKS * BLOCKSIZE
  did : Did A i u.uio_rw u.pos bytes s t.1

/-- A transfer has failed after `bytes`, of which `n` are accounted for. Only a bad address can lose
some of them. -/
structure Failed (A : Set Nat) (i : Nat) (s : Sfs) (u : Uio) (e : Errno) (bytes : List UInt8) (n : Nat)
    (t : Sfs × Uio) : Prop where
  moved : u.Moved t.2 bytes
  counted : n ≤ bytes.length
  source : u.uio_rw = .UIO_WRITE → bytes.take n = u.rest.take n
  did : Did A i u.uio_rw u.pos (bytes.take n) s t.1
  all : e ≠ .efault → n = bytes.length
  fault : e = .efault → u.uio_segflg ≠ .UIO_SYSSPACE ∧ u.uio_valid ≠ none
  errno : e = .efault ∨ (e = .enospc ∧ u.uio_rw = .UIO_WRITE) ∨
    (e = .efbig ∧ MAXBLOCKS * BLOCKSIZE < u.pos + u.uio_resid)

section Did

variable {A : Set Nat} {i o : Nat} {rw : UioRw} {l m : List UInt8} {s s' s'' : Sfs}

theorem Did.nil (h : s.FsInv A) : Did A i rw o [] s s := by
  cases rw with
  | UIO_WRITE => exact .refl h i o
  | UIO_READ => exact ⟨rfl, rfl⟩

theorem Did.inv (hd : Did A i rw o l s s') (h : s.FsInv A) : s'.FsInv A := by
  cases rw with
  | UIO_WRITE => exact hd.inv
  | UIO_READ => exact hd.1 ▸ h

theorem Did.only (hd : Did A i rw o l s s') : Only A i s s' := by
  cases rw with
  | UIO_WRITE => exact Stored.only hd
  | UIO_READ => exact hd.1 ▸ .refl A i s

theorem Did.trans (h : Did A i rw o l s s') (h' : Did A i rw (o + l.length) m s' s'') :
    Did A i rw o (l ++ m) s s'' := by
  cases rw with
  | UIO_WRITE => exact Stored.trans h h'
  | UIO_READ =>
    obtain ⟨rfl, hl⟩ := h
    obtain ⟨rfl, hm⟩ := h'
    refine ⟨rfl, ?_⟩
    rw [List.length_append, slice_append, ← hl, ← hm]

end Did

section Compose

variable {A : Set Nat} {i len : Nat} {s : Sfs} {u : Uio} {t t' : Sfs × Uio} {l m : List UInt8} {e : Errno} {n : Nat}

section

variable (h : Done A i s u len l t)
include h

theorem Done.pos : t.2.pos = u.pos + len := by
  have hM : MAXBLOCKS * BLOCKSIZE = 73216 := rfl
  have hpos := h.moved.pos
  rw [h.length] at hpos
  by_cases h0 : len = 0
  · -- an offset may be anywhere, but it does not change
    have hoff := h.moved.offset
    rw [h.length, h0] at hoff
    unfold Uio.pos
    rw [hoff, h0]
    simp
  · have := h.range h0
    exact hpos (by omega)

theorem Done.resid : t.2.uio_resid + len = u.uio_resid := by
  have hresid := h.moved.resid
  rwa [h.length] at hresid

theorem Done.trans {len' : Nat} (h' : Done A i t.1 t.2 len' m t') :
    Done A i s u (len + len') (l ++ m) t' where
  moved := h.moved.trans h'.moved
  source := by
    intro hrw
    have hm := h'.source (by rw [h.moved.rw, hrw])
    rw [h.moved.rest, h.length] at hm
    rw [List.take_add, ← h.source hrw, ← hm]
  length := by rw [List.length_append, h.length, h'.length]
  range := by
    intro hne
    have h1 := h.range
    have h2 := h'.range
    rw [h.pos] at h2
    omega
  did := by
    have hd := h'.did
    rw [h.moved.rw, h.pos, ← h.length] at hd
    exact h.did.trans hd

theorem Done.failed (h' : Failed A i t.1 t.2 e m n t') :
    Failed A i s u e (l ++ m) (l.length + n) t' where
  moved := h.moved.trans h'.moved
  counted := by
    have := h'.counted
    rw [List.length_append]
    omega
  source := by
    intro hrw
    have hm := h'.source (by rw [h.moved.rw, hrw])
    have hl := h.source hrw
    rw [h.moved.rest] at hm
    rw [← h.length] at hl
    rw [List.take_append, List.take_of_length_le (by omega), Nat.add_sub_cancel_left, hm, List.take_add, ← hl]
  did := by
    have hd := h'.did
    rw [h.moved.rw, h.pos, ← h.length] at hd
    rw [List.take_append, List.take_of_length_le (by omega), Nat.add_sub_cancel_left]
    exact h.did.trans hd
  all := by
    intro he
    rw [List.length_append, h'.all he]
  fault := by
    intro he
    obtain ⟨hseg, hvalid⟩ := h'.fault he
    rw [h.moved.segflg] at hseg
    rw [h.moved.valid] at hvalid
    refine ⟨hseg, fun h0 => hvalid ?_⟩
    rw [h0]
    rfl
  errno := by
    have herrno := h'.errno
    have hresid := h.resid
    rw [h.moved.rw, h.pos, show u.pos + len + t.2.uio_resid = u.pos + u.uio_resid by omega] at herrno
    exact herrno

end

/-- Nothing to transfer. -/
theorem Done.nil (h : s.FsInv A) : Done A i s u 0 [] (s, u) :=
  ⟨.refl u, fun _ => rfl, rfl, fun h0 => absurd rfl h0, Did.nil h⟩

end Compose

/-! ## One block -/

section Block

variable {A : Set Nat} {v i k : Nat} {s t : Sfs} {u : Uio} {e : Errno} {b : Nat} {F : Panic → Prop}

theorem wp_onVolume {α : Type} (m : SfsCode α) {Q : α → Sfs × Uio → Prop} {E : Errno → Sfs × Uio → Prop} :
    wp (onVolume m) Q E F (s, u) ↔ wp m (fun a s' => Q a (s', u)) (fun e s' => E e (s', u)) F s :=
  wp_zoom _ _ _

theorem wp_onUio {α : Type} (m : Kern Uio Errno Panic α) {Q : α → Sfs × Uio → Prop}
    {E : Errno → Sfs × Uio → Prop} : wp (onUio m) Q E F (s, u) ↔
      wp m (fun a u' => Q a (s, u')) (fun e u' => E e (s, u')) F u :=
  wp_zoom _ _ _

/-- A block that could not be mapped: nothing has been transferred. -/
theorem NotMapped.failed (h : NotMapped A i u.fileblock (u.uio_rw = .UIO_WRITE) e s t)
    (hneed : u.pos % BLOCKSIZE ≠ 0 ∨ u.uio_resid ≠ 0) : Failed A i s u e [] 0 (t, u) where
  moved := .refl u
  counted := Nat.le_refl 0
  source := fun _ => rfl
  did := by
    cases hrw : u.uio_rw with
    | UIO_WRITE => exact .of_grown h.inv h.only h.grown _
    | UIO_READ =>
      refine ⟨?_, rfl⟩
      rcases h.errno with he | he
      · have := h.full he
        simp [hrw] at this
      · exact (h.big he).2
  all := fun _ => rfl
  fault := by
    intro he
    rcases h.errno with h' | h'
    · exact absurd (he.symm.trans h') (by simp)
    · exact absurd (he.symm.trans h') (by simp)
  errno := by
    right
    rcases h.errno with he | he
    · exact .inl ⟨he, by simpa using h.full he⟩
    · right
      have hk := (h.big he).1
      rw [Uio.fileblock_eq] at hk
      have hB : BLOCKSIZE = 512 := rfl
      have hM : MAXBLOCKS = 143 := rfl
      rw [hB, hM] at hk ⊢
      rw [hB] at hneed
      exact ⟨he, by omega⟩

/-- A bad address after the block has been mapped: nothing has been written. -/
theorem Mapped.failed {len : Nat} {u' : Uio} (h : Mapped A i k (u.uio_rw = .UIO_WRITE) b s t)
    (hf : u.Faulted len e u') : ∃ bytes n, Failed A i s u e bytes n (t, u') := by
  obtain ⟨bytes, hmoved, -⟩ := hf.moved
  refine ⟨bytes, 0, ?_⟩
  constructor
  case moved => exact hmoved
  case counted => exact Nat.zero_le _
  case source => exact fun _ => rfl
  case did =>
    rw [List.take_zero]
    cases hrw : u.uio_rw with
    | UIO_WRITE => exact .of_grown h.inv h.only h.grown _
    | UIO_READ => exact ⟨h.look (by simp [hrw]), rfl⟩
  case all => exact fun he => absurd hf.errno he
  case fault =>
    intro _
    obtain ⟨n, hn, -⟩ := hf.valid
    exact ⟨hf.segflg, by rw [hn]; simp⟩
  case errno => exact .inl hf.errno

/-- Where a request is in its block. -/
theorem pos_eq (u : Uio) : u.pos = u.fileblock * BLOCKSIZE + u.pos % BLOCKSIZE := by
  rw [Uio.fileblock_eq]
  exact (Nat.div_add_mod' _ _).symm

/-- A part of a block that is mapped lies within the largest file. -/
theorem pos_le {skip n : Nat} (hskip : skip = u.pos % BLOCKSIZE) (hfit : skip + n ≤ BLOCKSIZE)
    (hk : u.fileblock < MAXBLOCKS) : u.pos + n ≤ MAXBLOCKS * BLOCKSIZE := by
  rw [Uio.fileblock_eq] at hk
  rw [show MAXBLOCKS = 143 from rfl] at hk ⊢
  rw [show BLOCKSIZE = 512 from rfl] at *
  omega

/-- What a write stores comes from the caller. -/
theorem next_source {ptr bytes : List UInt8} {len : Nat} (hbytes : bytes = u.next ptr len)
    (hrw : u.uio_rw = .UIO_WRITE) : bytes = u.rest.take len := by
  rw [hbytes]
  unfold Uio.next
  rw [hrw]

/-- Only a read finds a hole. -/
theorem Mapped.reads (h : Mapped A i k (u.uio_rw = .UIO_WRITE) b s t) (h0 : b = 0) : u.uio_rw = .UIO_READ := by
  cases hrw : u.uio_rw with
  | UIO_READ => rfl
  | UIO_WRITE => exact absurd h0 (h.alloc (by simp [hrw]))

/-- A stretch of the file within one block. -/
theorem slice_content {skip len : Nat} (h : skip + len ≤ BLOCKSIZE) :
    slice (s.content i) (k * BLOCKSIZE + skip) len = ((s.data i k).toList.drop skip).take len := by
  have hB : BLOCKSIZE = 512 := rfl
  rw [Block.take_drop_toList _ h]
  apply List.ext_getElem
  · simp
  · intro j h1 h2
    have hj : j < len := by simpa using h1
    simp only [slice, List.getElem_map, List.getElem_range', Nat.one_mul]
    have hdiv : (k * BLOCKSIZE + skip + j) / BLOCKSIZE = k := by
      rw [hB] at h ⊢
      omega
    have hmod : (k * BLOCKSIZE + skip + j) % BLOCKSIZE = skip + j := by
      rw [hB] at h ⊢
      omega
    unfold content
    rw [hdiv, hmod]

/-- The buffer that `sfs_partialio` starts from is the block as it reads. -/
theorem wp_partialio_fill (h : Mapped A i k (u.uio_rw = .UIO_WRITE) b s t) (hi : i ∈ A)
    {Q : Block → Sfs → Prop} {E : Errno → Sfs → Prop} (hq : Q (t.data i k) t) :
    wp (sfs_partialio_fill u.uio_rw b) Q E F t := by
  unfold sfs_partialio_fill
  rw [wp_ite]
  unfold data at hq
  rw [h.slot] at hq
  by_cases h0 : b = 0
  · rw [if_pos h0] at hq ⊢
    rw [wp_kassert_bind (h.reads h0)]
    exact hq
  · rw [if_neg h0] at hq ⊢
    have href : t.ref i (.slot k) = b := h.slot
    have hlt := h.inv.ref_lt hi (r := .slot k) (by rwa [href])
    rw [href] at hlt
    exact wp_readblock h.inv.geometry hlt hq

/-- **`sfs_partialio`** transfers `len` bytes within a block. It fails before the first byte, unless
the caller's address is bad. -/
theorem wp_partialio (h : s.FsInv A) (hv : v ∈ s.sfs_vnodes) (hino : (s.sv v).sv_ino = i) (hu : u.WF)
    {skip len : Nat} (hlen : len ≤ u.uio_resid) (hskip : skip = u.pos % BLOCKSIZE)
    (hfit : skip + len ≤ BLOCKSIZE) (hneed : skip ≠ 0 ∨ len ≠ 0) :
    wp (sfs_partialio v skip len) (fun _ t => ∃ bytes, Done A i s u len bytes t)
      (fun e t => ∃ bytes n, Failed A i s u e bytes n t ∧ (bytes = [] ∨ e = .efault)) (fun _ => False) (s, u) := by
  have hi : i ∈ A := hino ▸ h.loaded v hv
  have hpos : u.pos = u.fileblock * BLOCKSIZE + skip := hskip ▸ pos_eq u
  have hneed' : u.pos % BLOCKSIZE ≠ 0 ∨ u.uio_resid ≠ 0 := by
    rw [← hskip]
    omega
  unfold sfs_partialio
  rw [wp_read_bind, wp_kassert_bind hfit, wp_bind, wp_onVolume]
  refine wp_post (wp_bmap h hv hino) ?_ (fun e s' hn => ⟨[], 0, hn.failed hneed', .inl rfl⟩)
  intro b t hm
  have hrange := pos_le hskip hfit hm.range
  rw [wp_bind, wp_onVolume]
  apply wp_partialio_fill hm hi
  rw [wp_bind, wp_onUio]
  have hbuf : ((t.data i u.fileblock).toList.drop skip).length = BLOCKSIZE - skip := by simp
  refine wp_post (wp_uiomove hu hlen fun _ => by rw [hbuf]; omega) ?_ ?_
  case refine_2 =>
    intro e u' hf
    obtain ⟨bytes, n, hfail⟩ := hm.failed hf
    exact ⟨bytes, n, hfail, .inr hf.errno⟩
  rintro bytes u' ⟨hmoved, hbytes⟩
  have hblen : bytes.length = len := by
    rw [hbytes]
    exact Uio.length_next (Nat.le_trans hlen hu.enough) fun _ => by rw [hbuf]; omega
  have hsource := next_source hbytes
  cases hrw : u.uio_rw with
  | UIO_READ =>
    -- the bytes come from the file
    rw [wp_pure]
    have hsame : t = s := hm.look (by simp [hrw])
    refine ⟨bytes, hmoved, hsource, hblen, fun _ => hrange, ?_⟩
    rw [hrw]
    refine ⟨hsame, ?_⟩
    rw [hblen, hpos, slice_content hfit, hbytes]
    unfold Uio.next
    rw [hrw, hsame]
  | UIO_WRITE =>
    -- the block is written back with the bytes in it
    rw [wp_onVolume]
    have hb0 : b ≠ 0 := hm.alloc (by simp [hrw])
    have href : t.ref i (.slot u.fileblock) = b := hm.slot
    have hlt := hm.inv.ref_lt hi (r := .slot u.fileblock) (by rwa [href])
    rw [href] at hlt
    apply wp_writeblock hm.inv.geometry hlt
    refine ⟨bytes, hmoved, hsource, hblen, fun _ => hrange, ?_⟩
    rw [hrw, hpos, ← hm.slot]
    exact .after_grown hm.grown hm.only
      (.block hm.inv hi (by rw [hm.slot]; exact hb0) skip (by rw [hblen]; exact hfit))

/-- The `uio` while the device uses it. -/
def deviceUio (u : Uio) (diskoff : Int) : Uio := { u with uio_offset := diskoff, uio_resid := BLOCKSIZE }

/-- The `uio` after the device has used it. -/
def restoredUio (u u' : Uio) (diskoff : Int) : Uio :=
  { u' with
    uio_offset := u'.uio_offset - diskoff + u.uio_offset
    uio_resid := u'.uio_resid + u.uio_resid - BLOCKSIZE }

/-- What the device has moved has been moved for the caller. -/
theorem moved_restored {u' : Uio} {bytes : List UInt8} {diskoff : Int} (hres : BLOCKSIZE ≤ u.uio_resid)
    (h : (deviceUio u diskoff).Moved u' bytes) : u.Moved (restoredUio u u' diskoff) bytes :=
  { h with
    offset := by
      have hoff := h.offset
      simp only [deviceUio] at hoff
      simp only [restoredUio, hoff]
      omega
    resid := by
      have hresid := h.resid
      simp only [deviceUio] at hresid
      simp only [restoredUio]
      omega }

theorem faulted_restored {u' : Uio} {diskoff : Int} (hres : BLOCKSIZE ≤ u.uio_resid)
    (h : (deviceUio u diskoff).Faulted BLOCKSIZE e u') : u.Faulted BLOCKSIZE e (restoredUio u u' diskoff) := by
  obtain ⟨bytes, hmoved, hlt⟩ := h.moved
  exact ⟨h.errno, h.segflg, h.valid, bytes, moved_restored hres hmoved, hlt⟩

/-- The block of the file and the position of an aligned request. -/
theorem pos_aligned (halign : u.pos % BLOCKSIZE = 0) : u.pos = u.fileblock * BLOCKSIZE + 0 := halign ▸ pos_eq u

/-- The transfer between the device and the caller's buffers. -/
theorem wp_device (hgeom : t.Geometry) (hb : b < t.nblocks) (hu : u.WF) (hres : BLOCKSIZE ≤ u.uio_resid) :
    wp (.zoom (fun t => (t.1.sfs_device, t.2)) (fun t r => ({ t.1 with sfs_device := r.1 }, r.2)) sfs_rwblock)
      (fun _ r => ∃ bytes, (deviceUio u (b * BLOCKSIZE)).Moved r.2 bytes ∧
        bytes = u.next (t.sfs_device.sector b).toList BLOCKSIZE ∧
        r.1 = match u.uio_rw with
          | .UIO_READ => t
          | .UIO_WRITE => t.store b (.ofList bytes))
      (fun e r => r.1 = t ∧ (deviceUio u (b * BLOCKSIZE)).Faulted BLOCKSIZE e r.2) (fun _ => False)
      (t, deviceUio u (b * BLOCKSIZE)) := by
  have hat : t.sfs_device.At (deviceUio u (b * BLOCKSIZE)) b :=
    ⟨⟨Nat.le_trans hres hu.enough, by show 512 < 2 ^ 32; decide⟩, rfl, hgeom.d_blocks⟩
  rw [wp_zoom]
  refine wp_post (wp_sfs_rwblock hgeom.reliable hat rfl (Nat.lt_of_lt_of_le hb hgeom.fits)) ?_ ?_
  · rintro - ⟨d, u'⟩ ⟨bytes, hmoved, hbytes, hd⟩
    refine ⟨bytes, hmoved, hbytes, ?_⟩
    rw [show d = _ from hd]
    show { t with sfs_device := t.sfs_device.transfer u.uio_rw b bytes } = _
    cases u.uio_rw with
    | UIO_READ => rfl
    | UIO_WRITE => rfl
  · rintro e ⟨d, u'⟩ ⟨hd, hf⟩
    refine ⟨?_, hf⟩
    rw [show d = _ from hd]

theorem wp_blockio_transfer (hm : Mapped A i u.fileblock (u.uio_rw = .UIO_WRITE) b s t) (hi : i ∈ A) (hb0 : b ≠ 0)
    (hu : u.WF) (hres : BLOCKSIZE ≤ u.uio_resid) (halign : u.pos % BLOCKSIZE = 0) :
    wp (sfs_blockio_transfer b u.uio_offset u.uio_resid) (fun _ t => ∃ bytes, Done A i s u BLOCKSIZE bytes t)
      (fun e t => ∃ bytes n, Failed A i s u e bytes n t) (fun _ => False) (t, u) := by
  have hB : BLOCKSIZE = 512 := rfl
  have href : t.ref i (.slot u.fileblock) = b := hm.slot
  have hlt := hm.inv.ref_lt hi (r := .slot u.fileblock) (by rwa [href])
  rw [href] at hlt
  have hsmall := hm.inv.geometry.small
  have hdata : t.data i u.fileblock = t.sfs_device.sector b := by
    unfold data
    rw [hm.slot, if_neg hb0]
  have hdiskoff : ((b : Int) * BLOCKSIZE) % 2 ^ 32 = b * BLOCKSIZE := by
    rw [hB, Int.emod_eq_of_lt (by omega) (by omega)]
  have hrange := pos_le halign.symm (Nat.zero_add BLOCKSIZE).le hm.range
  unfold sfs_blockio_transfer
  simp only [hdiskoff]
  rw [wp_kassert_bind hres, wp_modify_bind, wp_bind, wp_attempt]
  refine wp_post (wp_device hm.inv.geometry hlt hu hres) ?_ ?_
  · rintro - ⟨t', u'⟩ ⟨bytes, hmoved, hbytes, ht'⟩
    rw [wp_modify_bind, wp_ofExcept_ok]
    have hblen : bytes.length = BLOCKSIZE := by
      rw [hbytes]
      exact Uio.length_next (Nat.le_trans hres hu.enough) fun _ => by simp
    refine ⟨bytes, moved_restored hres hmoved, next_source hbytes, hblen, fun _ => hrange, ?_⟩
    cases hrw : u.uio_rw with
    | UIO_READ =>
      have hsame : t = s := hm.look (by simp [hrw])
      rw [hrw] at ht'
      refine ⟨ht'.trans hsame, ?_⟩
      rw [hblen, pos_aligned halign, slice_content (by omega), ← hsame, hdata, hbytes, List.drop_zero]
      unfold Uio.next
      rw [hrw]
    | UIO_WRITE =>
      rw [hrw] at ht'
      have hstore := Stored.block (l := bytes) hm.inv hi (by rw [hm.slot]; exact hb0) 0 (by omega)
      have hwritten : t' = t.store b (.ofList bytes) := ht'
      rw [Block.overwrite_all _ hblen, hm.slot, ← pos_aligned halign, ← hwritten] at hstore
      exact .after_grown hm.grown hm.only hstore
  · rintro e ⟨t', u'⟩ ⟨ht', hf⟩
    rw [wp_modify_bind, wp_ofExcept_error]
    rw [show t' = t from ht']
    exact hm.failed (faulted_restored hres hf)

/-- **`sfs_blockio`** transfers a whole block. -/
theorem wp_blockio (h : s.FsInv A) (hv : v ∈ s.sfs_vnodes) (hino : (s.sv v).sv_ino = i) (hu : u.WF)
    (hres : BLOCKSIZE ≤ u.uio_resid) (halign : u.pos % BLOCKSIZE = 0) :
    wp (sfs_blockio v) (fun _ t => ∃ bytes, Done A i s u BLOCKSIZE bytes t)
      (fun e t => ∃ bytes n, Failed A i s u e bytes n t) (fun _ => False) (s, u) := by
  have hi : i ∈ A := hino ▸ h.loaded v hv
  have hneed : u.uio_resid ≠ 0 := by
    have hB : BLOCKSIZE = 512 := rfl
    omega
  unfold sfs_blockio
  rw [wp_read_bind, wp_bind, wp_onVolume]
  refine wp_post (wp_bmap h hv hino) ?_ (fun e s' hn => ⟨[], 0, hn.failed (.inr hneed)⟩)
  intro b t hm
  apply wp_if
  · intro hb0
    -- a hole reads as zeros
    have hread : u.uio_rw = .UIO_READ := hm.reads hb0
    rw [wp_kassert_bind hread, wp_onUio]
    refine wp_post (wp_uiomovezeros hu hres hread) ?_ (fun e u' hf => hm.failed hf)
    intro _ u' hmoved
    have hrange := pos_le halign.symm (Nat.zero_add BLOCKSIZE).le hm.range
    have hsource : u.uio_rw = .UIO_WRITE → List.replicate BLOCKSIZE 0 = u.rest.take BLOCKSIZE := by
      intro hrw
      rw [hread] at hrw
      cases hrw
    refine ⟨_, hmoved, hsource, List.length_replicate, fun _ => hrange, ?_⟩
    have hsame : t = s := hm.look (by simp [hread])
    have hzeros : s.data i u.fileblock = .zeros := by
      unfold data
      rw [← hsame, hm.slot, if_pos hb0]
    rw [hread]
    refine ⟨hsame, ?_⟩
    rw [List.length_replicate, pos_aligned halign, slice_content (by omega), hzeros, List.drop_zero,
      List.take_of_length_le (by simp)]
    exact Block.toList_zeros.symm
  · intro hb0
    exact wp_blockio_transfer hm hi hb0 hu hres halign

end Block

end Sfs

end OS161
