import OS161.Sfs.FileIo

/-! # Requests to a file

`sfs_io` for a whole request: what a write leaves in the file, and what a read returns.
-/

namespace OS161.Sfs

open Framework Kern

/-! ## Fields that are not block numbers -/

section Plain

variable {s : Sfs} {A : Set Nat} {v n : Nat} {f : Block.Field}

/-- An assignment to the size or to the link count moves no block. -/
theorem FsInv.setField (h : s.FsInv A) (hv : v ∈ s.sfs_vnodes) (hf : f ≠ .sfi_indirect)
    (hf' : ∀ k, f ≠ .sfi_direct k) (ht : f ≠ .sfi_type) : (s.setField v f n).FsInv A := by
  have honly : Only A _ s (s.setField v f n) := .setField h.table hv f n
  refine h.of_only honly rfl rfl rfl (h.table.setField ht) (ledger_congr h honly ?_ fun _ => Iff.rfl)
    (clean_setField h.clean)
  rintro (_ | _ | k)
  · rfl
  · exact ifield_setField_ne h.table hv hf.symm
  · exact slot_setField h.table hv hf hf' k

theorem content_setField (h : s.TableInv) (hv : v ∈ s.sfs_vnodes) (hf : f ≠ .sfi_indirect)
    (hf' : ∀ k, f ≠ .sfi_direct k) :
    (s.setField v f n).content (s.sv v).sv_ino = s.content (s.sv v).sv_ino := by
  funext p
  unfold content
  rw [data_setField h hv hf hf']

end Plain

/-! ## The parts of a request -/

/-- Transfers of `len` bytes that lead to `D`, or fail with `E`. -/
def Moves (D : Sfs → Uio → Nat → Sfs × Uio → Prop) (E : Sfs → Uio → Errno → Sfs × Uio → Prop) (F : Panic → Prop)
    (s : Sfs) (u : Uio) (len : Nat) (m : SfsIoCode Unit) : Prop :=
  wp m (fun _ => D s u len) (E s u) F (s, u)

/-- What is to be shown about single blocks, so that it holds of the parts of a request that
satisfies `R` one after the other. -/
structure TransferRule (v : Nat) (R : Sfs → Uio → Prop) (D : Sfs → Uio → Nat → Sfs × Uio → Prop)
    (E : Sfs → Uio → Errno → Sfs × Uio → Prop) (F : Panic → Prop) : Prop where
  none : ∀ {s u}, R s u → D s u 0 (s, u)
  next : ∀ {s u n t}, R s u → D s u n t → R t.1 t.2
  trans : ∀ {s u n t n' t'}, D s u n t → D t.1 t.2 n' t' → D s u (n + n') t'
  failed : ∀ {s u n t e t'}, D s u n t → E t.1 t.2 e t' → E s u e t'
  resid : ∀ {s u n t}, D s u n t → t.2.uio_resid + n = u.uio_resid
  pos : ∀ {s u n t}, D s u n t → t.2.pos = u.pos + n
  partialio : ∀ {s u skip len}, R s u → len ≤ u.uio_resid → skip = u.pos % BLOCKSIZE → skip + len ≤ BLOCKSIZE →
    skip ≠ 0 ∨ len ≠ 0 → Moves D E F s u len (sfs_partialio v skip len)
  blockio : ∀ {s u}, R s u → BLOCKSIZE ≤ u.uio_resid → u.pos % BLOCKSIZE = 0 → Moves D E F s u BLOCKSIZE (sfs_blockio v)

theorem offset_aligned {u : Uio} (h : u.pos % BLOCKSIZE = 0) : u.uio_offset % BLOCKSIZE = 0 := by
  have heq := u.blkoff_eq
  rw [h] at heq
  rw [show BLOCKSIZE = 512 from rfl] at heq ⊢
  omega

namespace TransferRule

variable {v : Nat} {R : Sfs → Uio → Prop} {D : Sfs → Uio → Nat → Sfs × Uio → Prop}
  {E : Sfs → Uio → Errno → Sfs × Uio → Prop} {F : Panic → Prop} {s : Sfs} {u : Uio}

section

variable (T : TransferRule v R D E F)
include T

/-- One transfer after the other. -/
theorem seq {len len' total : Nat} {m m' : SfsIoCode Unit} (h : Moves D E F s u len m)
    (htotal : len + len' = total) (h' : ∀ t, D s u len t → Moves D E F t.1 t.2 len' m') :
    Moves D E F s u total (m >>= fun _ => m') := by
  subst htotal
  unfold Moves
  rw [wp_bind]
  refine wp_imp h ?_
  intro _ t hd
  exact wp_post (h' t hd) (fun _ _ hd' => T.trans hd hd') (fun _ _ hf => T.failed hd hf)

/-- The loop over the whole blocks, by induction on their number. -/
theorem blocks (n : Nat) : ∀ (s : Sfs) (u : Uio), R s u → n * BLOCKSIZE ≤ u.uio_resid →
    u.pos % BLOCKSIZE = 0 → Moves D E F s u (n * BLOCKSIZE) (sfs_io_blocks v n) := by
  induction n with
  | zero =>
    intro s u h _ _
    rw [Nat.zero_mul]
    exact T.none h
  | succ n ih =>
    intro s u h hres halign
    rw [Nat.succ_mul] at hres
    apply T.seq (T.blockio h (Nat.le_trans (Nat.le_add_left _ _) hres) halign)
      (show BLOCKSIZE + n * BLOCKSIZE = (n + 1) * BLOCKSIZE by rw [Nat.succ_mul, Nat.add_comm])
    intro t hd
    apply ih t.1 t.2 (T.next h hd)
    · exact Nat.le_of_add_le_add_right (by rw [T.resid hd]; exact hres)
    · rw [T.pos hd, Nat.add_mod_right, halign]

theorem trailing (h : R s u) (hres : u.uio_resid < BLOCKSIZE)
    (halign : u.pos % BLOCKSIZE = 0) : Moves D E F s u u.uio_resid (sfs_io_trailing v) := by
  unfold Moves sfs_io_trailing
  rw [wp_read_bind, wp_kassert_bind hres]
  apply wp_if
  · intro h0
    rw [h0]
    exact T.none h
  · intro h0
    have hfit : 0 + u.uio_resid ≤ BLOCKSIZE := by omega
    exact T.partialio h (Nat.le_refl _) halign.symm hfit (.inr h0)

/-- A request that starts at a block boundary. -/
theorem aligned (h : R s u) (halign : u.uio_resid ≠ 0 → u.pos % BLOCKSIZE = 0) :
    Moves D E F s u u.uio_resid (sfs_io_aligned v) := by
  unfold Moves sfs_io_aligned
  rw [wp_read_bind]
  apply wp_if
  · intro h0
    rw [h0]
    exact T.none h
  · intro h0
    have hal := halign h0
    rw [wp_kassert_bind (offset_aligned hal)]
    have hsplit : u.uio_resid / BLOCKSIZE * BLOCKSIZE + u.uio_resid % BLOCKSIZE = u.uio_resid := by
      rw [show BLOCKSIZE = 512 from rfl]
      omega
    apply T.seq (T.blocks _ s u h (Nat.div_mul_le_self _ _) hal) hsplit
    intro t hd
    have hresid := T.resid hd
    have hleft : t.2.uio_resid = u.uio_resid % BLOCKSIZE := by omega
    rw [← hleft]
    apply T.trailing (T.next h hd)
    · rw [hleft]
      exact Nat.mod_lt _ (by decide)
    · rw [T.pos hd, Nat.add_mul_mod_self_right, hal]

theorem leading (h : R s u) : ∃ len, Moves D E F s u len (sfs_io_leading v) ∧
    len ≤ u.uio_resid ∧ (len ≠ u.uio_resid → (u.pos + len) % BLOCKSIZE = 0) := by
  have hB : BLOCKSIZE = 512 := rfl
  unfold Moves sfs_io_leading
  simp only [wp_read_bind, Uio.blkoff_eq]
  by_cases h0 : u.pos % BLOCKSIZE = 0
  · refine ⟨0, ?_, Nat.zero_le _, fun _ => h0⟩
    rw [if_pos h0]
    exact T.none h
  · refine ⟨min (BLOCKSIZE - u.pos % BLOCKSIZE) u.uio_resid, ?_, Nat.min_le_right _ _, ?_⟩
    · rw [if_neg h0]
      have hlt : u.pos % BLOCKSIZE < BLOCKSIZE := Nat.mod_lt _ (by decide)
      exact T.partialio h (Nat.min_le_right _ _) rfl (by omega) (.inl h0)
    · intro hne
      rw [hB] at hne ⊢
      omega

/-- **All the transfers of a request.** -/
theorem all (h : R s u) : Moves D E F s u u.uio_resid (sfs_io_transfer v) := by
  obtain ⟨len, hlead, hle, halign⟩ := T.leading h
  apply T.seq hlead (show len + (u.uio_resid - len) = u.uio_resid by omega)
  intro t hd
  have hresid := T.resid hd
  rw [show u.uio_resid - len = t.2.uio_resid by omega]
  apply T.aligned (T.next h hd)
  intro hne
  rw [T.pos hd]
  exact halign (by omega)

end

end TransferRule

/-- When the first part of a request fails, the others are not tried. -/
theorem wp_transfer_first {v : Nat} {s : Sfs} {u : Uio} {Q : Unit → Sfs × Uio → Prop} {E : Errno → Sfs × Uio → Prop}
    {F : Panic → Prop} (hnone : u.uio_resid = 0 → Q () (s, u))
    (hpart : wp (sfs_partialio v (u.pos % BLOCKSIZE) (min (BLOCKSIZE - u.pos % BLOCKSIZE) u.uio_resid))
      (fun _ _ => False) E F (s, u))
    (hblock : BLOCKSIZE ≤ u.uio_resid → wp (sfs_blockio v) (fun _ _ => False) E F (s, u)) :
    wp (sfs_io_transfer v) Q E F (s, u) := by
  unfold sfs_io_transfer sfs_io_leading
  rw [wp_bind, wp_read_bind]
  simp only [Uio.blkoff_eq]
  apply wp_if
  · intro halign
    rw [halign] at hpart
    unfold sfs_io_aligned
    rw [wp_pure, wp_read_bind]
    apply wp_if hnone
    intro h0
    rw [wp_kassert_bind (offset_aligned halign), wp_bind]
    cases hn : u.uio_resid / BLOCKSIZE with
    | zero =>
      have hsmall : u.uio_resid < BLOCKSIZE := Nat.lt_of_div_eq_zero (by decide) hn
      unfold sfs_io_blocks sfs_io_trailing
      rw [wp_pure, wp_read_bind, wp_kassert_bind hsmall, wp_ite, if_neg h0]
      rw [Nat.sub_zero, Nat.min_eq_right (Nat.le_of_lt hsmall)] at hpart
      exact wp_imp hpart (fun _ _ hQ => hQ.elim)
    | succ n =>
      unfold sfs_io_blocks
      rw [wp_bind]
      have hle : BLOCKSIZE ≤ u.uio_resid := by
        rw [show BLOCKSIZE = 512 from rfl] at hn ⊢
        omega
      exact wp_imp (hblock hle) (fun _ _ hQ => hQ.elim)
  · intro _
    exact wp_imp hpart (fun _ _ hQ => hQ.elim)

/-- A request that can be worked on. -/
structure Ready (A : Set Nat) (v i : Nat) (s : Sfs) (u : Uio) : Prop where
  inv : s.FsInv A
  mem : v ∈ s.sfs_vnodes
  ino : (s.sv v).sv_ino = i
  wf : u.WF

section Parts

variable {A : Set Nat} {v i len : Nat} {s : Sfs} {u : Uio} {t : Sfs × Uio} {l : List UInt8}

theorem Ready.next (h : Ready A v i s u) (hd : Done A i s u len l t) : Ready A v i t.1 t.2 where
  inv := hd.did.inv h.inv
  mem := by
    rw [hd.did.only.vnodes]
    exact h.mem
  ino := by rw [hd.did.only.ino, h.ino]
  wf := hd.moved.wf h.wf

/-- Code that transfers `len` bytes or fails. -/
def Transfers (A : Set Nat) (i : Nat) (s : Sfs) (u : Uio) (len : Nat) (m : SfsIoCode Unit) : Prop :=
  wp m (fun _ t => ∃ bytes, Done A i s u len bytes t) (fun e t => ∃ bytes n, Failed A i s u e bytes n t)
    (fun _ => False) (s, u)

theorem transferRule : TransferRule v (Ready A v i) (fun s u n t => ∃ bytes, Done A i s u n bytes t)
    (fun s u e t => ∃ bytes n, Failed A i s u e bytes n t) (fun _ => False) where
  none := fun h => ⟨[], .nil h.inv⟩
  next := fun h ⟨_, hd⟩ => h.next hd
  trans := fun ⟨_, hd⟩ ⟨_, hd'⟩ => ⟨_, hd.trans hd'⟩
  failed := fun ⟨_, hd⟩ ⟨_, _, hf⟩ => ⟨_, _, hd.failed hf⟩
  resid := fun ⟨_, hd⟩ => hd.resid
  pos := fun ⟨_, hd⟩ => hd.pos
  partialio := by
    intro s u skip len h hlen hskip hfit hneed
    refine wp_post (wp_partialio h.inv h.mem h.ino h.wf hlen hskip hfit hneed) (fun _ _ hd => hd) ?_
    rintro e t ⟨bytes, n, hf, -⟩
    exact ⟨bytes, n, hf⟩
  blockio := fun h => wp_blockio h.inv h.mem h.ino h.wf

theorem transfers_all (h : Ready A v i s u) : Transfers A i s u u.uio_resid (sfs_io_transfer v) := transferRule.all h

end Parts

/-! ## Writes -/

/-- `bytes` have been written at position `o` of file `i` by a request that ended at offset
`off`. -/
structure Wrote (A : Set Nat) (i o : Nat) (bytes : List UInt8) (off : Int) (s s' : Sfs) : Prop where
  inv : s'.FsInv A
  only : Only A i s s'
  type : s'.ifield i .sfi_type = s.ifield i .sfi_type
  linkcount : s'.ifield i .sfi_linkcount = s.ifield i .sfi_linkcount
  content : s'.content i = splice (s.content i) o bytes
  size : s'.ifield i .sfi_size =
    if (s.ifield i .sfi_size : Int) < off then (off % 2 ^ 32).toNat else s.ifield i .sfi_size

/-- A write has been done. -/
structure WriteDone (A : Set Nat) (i : Nat) (s : Sfs) (u : Uio) (bytes : List UInt8) (t : Sfs × Uio) : Prop where
  moved : u.Moved t.2 bytes
  source : bytes = u.rest.take u.uio_resid
  all : bytes.length = u.uio_resid
  range : u.uio_resid ≠ 0 → u.pos + u.uio_resid ≤ MAXBLOCKS * BLOCKSIZE
  wrote : Wrote A i u.pos bytes t.2.uio_offset s t.1

/-- A write has failed after `bytes`, of which `n` are in the file. -/
structure WriteFailed (A : Set Nat) (i : Nat) (s : Sfs) (u : Uio) (e : Errno) (bytes : List UInt8) (n : Nat)
    (t : Sfs × Uio) : Prop where
  moved : u.Moved t.2 bytes
  counted : n ≤ bytes.length
  source : bytes.take n = u.rest.take n
  wrote : Wrote A i u.pos (bytes.take n) t.2.uio_offset s t.1
  all : e ≠ .efault → n = bytes.length
  fault : e = .efault → u.uio_segflg ≠ .UIO_SYSSPACE ∧ u.uio_valid ≠ none
  errno : e = .efault ∨ e = .enospc ∨ (e = .efbig ∧ MAXBLOCKS * BLOCKSIZE < u.pos + u.uio_resid)

section Write

variable {A : Set Nat} {v i o : Nat} {s s' : Sfs} {u u' : Uio} {l : List UInt8}

/-- The end of `sfs_io` adjusts the size. -/
theorem Stored.wrote (h : Stored A i o l s s') (hv : v ∈ s'.sfs_vnodes) (hino : (s'.sv v).sv_ino = i)
    (hrw : u.uio_rw = .UIO_WRITE) : Wrote A i o l u.uio_offset s (sfs_io_size v u s') := by
  subst hino
  have hsize : s'.field v .sfi_size = s.ifield (s'.sv v).sv_ino .sfi_size := by
    rw [← ifield_loaded h.inv.table hv, h.size]
  unfold sfs_io_size
  rw [hsize]
  by_cases hlt : (s.ifield (s'.sv v).sv_ino .sfi_size : Int) < u.uio_offset
  · rw [if_pos ⟨hrw, hlt⟩]
    have hmod : (u.uio_offset % 2 ^ 32).toNat < 256 ^ 4 := by omega
    constructor
    case inv => exact h.inv.setField hv (by simp) (by simp) (by simp)
    case only => exact h.only.trans (.setField h.inv.table hv _ _)
    case type => rw [ifield_setField_ne h.inv.table hv (by simp), h.type]
    case linkcount => rw [ifield_setField_ne h.inv.table hv (by simp), h.linkcount]
    case content => rw [content_setField h.inv.table hv (by simp) (by simp), h.content]
    case size => rw [if_pos hlt, ifield_setField_lt h.inv.table hv hmod]
  · rw [if_neg (fun hand => hlt hand.2)]
    exact { h with size := by rw [if_neg hlt, h.size] }

section

variable (h : Ready A v i s u) (hrw : u.uio_rw = .UIO_WRITE)
include h hrw

/-- What has been written, when the size has been adjusted. -/
theorem Ready.wrote {t : Sfs × Uio} {bytes : List UInt8}
    (hmoved : u.Moved t.2 bytes) (hdid : Did A i u.uio_rw u.pos l s t.1) :
    Wrote A i u.pos l t.2.uio_offset s (sfs_io_size v t.2 t.1) := by
  have hstored : Stored A i u.pos l s t.1 := by
    rwa [hrw] at hdid
  have hmem : v ∈ t.1.sfs_vnodes := by
    rw [hstored.only.vnodes]
    exact h.mem
  exact hstored.wrote hmem (by rw [hstored.only.ino, h.ino]) (by rw [hmoved.rw, hrw])

/-- What `sfs_io` makes of the transfers of a write. `P` is anything that is known about a
failure. -/
theorem wp_io_of_transfer {P : List UInt8 → Errno → Prop}
    (htrans : wp (sfs_io_transfer v) (fun _ t => ∃ bytes, Done A i s u u.uio_resid bytes t)
      (fun e t => ∃ bytes n, Failed A i s u e bytes n t ∧ P bytes e) (fun _ => False) (s, u)) :
    wp (sfs_io v) (fun _ t => ∃ bytes, WriteDone A i s u bytes t)
      (fun e t => ∃ bytes n, WriteFailed A i s u e bytes n t ∧ P bytes e) (fun _ => False) (s, u) := by
  unfold sfs_io
  rw [wp_read_bind]
  simp only [hrw]
  unfold sfs_io_limited
  rw [wp_modify_bind, wp_bind, wp_attempt]
  show wp (sfs_io_transfer v) _ _ _ (s, u)
  refine wp_post htrans ?_ ?_
  · intro _ t hd
    obtain ⟨bytes, hd⟩ := hd
    unfold sfs_io_out
    rw [wp_modify_bind, wp_ofExcept_ok]
    have hwrote := h.wrote hrw hd.moved hd.did
    exact ⟨bytes, hd.moved, hd.source hrw, hd.length, hd.range, hwrote⟩
  · intro e t hf
    obtain ⟨bytes, n, hf, hP⟩ := hf
    unfold sfs_io_out
    rw [wp_modify_bind, wp_ofExcept_error]
    have hwrote := h.wrote hrw hf.moved hf.did
    refine ⟨bytes, n, ⟨hf.moved, hf.counted, hf.source hrw, hwrote, hf.all, hf.fault, ?_⟩, hP⟩
    rcases hf.errno with he | ⟨he, -⟩ | he
    · exact .inl he
    · exact .inr (.inl he)
    · exact .inr (.inr he)

/-- **A write** stores the caller's bytes at its position. -/
theorem wp_io_write :
    wp (sfs_io v) (fun _ t => ∃ bytes, WriteDone A i s u bytes t)
      (fun e t => ∃ bytes n, WriteFailed A i s u e bytes n t) (fun _ => False) (s, u) := by
  have htrans : wp (sfs_io_transfer v) (fun _ t => ∃ bytes, Done A i s u u.uio_resid bytes t)
      (fun e t => ∃ bytes n, Failed A i s u e bytes n t ∧ True) (fun _ => False) (s, u) := by
    refine wp_post (transfers_all h) (fun _ _ hd => hd) ?_
    intro e t hf
    obtain ⟨bytes, n, hf⟩ := hf
    exact ⟨bytes, n, hf, trivial⟩
  refine wp_post (wp_io_of_transfer (P := fun _ _ => True) h hrw htrans) (fun _ _ hd => hd) ?_
  intro e t hf
  obtain ⟨bytes, n, hf, -⟩ := hf
  exact ⟨bytes, n, hf⟩

end

end Write

/-! ## Reads -/

/-- A read has been done: it changes nothing, and returns what there is of the file. -/
structure ReadDone (i : Nat) (s : Sfs) (u : Uio) (bytes : List UInt8) (t : Sfs × Uio) : Prop where
  moved : u.Moved t.2 bytes
  same : t.1 = s
  reads : bytes = slice (s.content i) u.pos bytes.length
  length : bytes.length = min u.uio_resid (s.ifield i .sfi_size - u.uio_offset).toNat

/-- A read has failed: it changes nothing. -/
structure ReadFailed (i : Nat) (s : Sfs) (u : Uio) (e : Errno) (t : Sfs × Uio) : Prop where
  same : t.1 = s
  fault : e = .efault → u.uio_segflg ≠ .UIO_SYSSPACE ∧ u.uio_valid ≠ none
  errno : e = .efault ∨ (e = .efbig ∧ MAXBLOCKS * BLOCKSIZE < s.ifield i .sfi_size)

section Read

variable {A : Set Nat} {v i extra : Nat} {s : Sfs} {u : Uio}

/-- The `uio` of a read that stops at the end of the file. -/
def limitedUio (u : Uio) (extra : Nat) : Uio := { u with uio_resid := u.uio_resid - extra }

theorem moved_limited {u' : Uio} {bytes : List UInt8} (hextra : extra ≤ u.uio_resid)
    (h : (limitedUio u extra).Moved u' bytes) :
    u.Moved { u' with uio_resid := u'.uio_resid + extra } bytes :=
  { h with
    resid := by
      have hresid := h.resid
      simp only [limitedUio] at hresid
      show u'.uio_resid + extra + bytes.length = u.uio_resid
      omega }

theorem Ready.limited (h : Ready A v i s u) (extra : Nat) : Ready A v i s (limitedUio u extra) :=
  { h with
    wf := by
      have henough := h.wf.enough
      have hrange := h.wf.range
      exact ⟨Nat.le_trans (Nat.sub_le _ _) henough, Nat.lt_of_le_of_lt (Nat.sub_le _ _) hrange⟩ }

/-- A read below the end of the file, of which `extra` bytes are past it. -/
theorem wp_io_limited (h : Ready A v i s u) (hrw : u.uio_rw = .UIO_READ) (hoff : 0 ≤ u.uio_offset)
    (hbelow : u.uio_offset < s.ifield i .sfi_size) (hextra : extra ≤ u.uio_resid)
    (hlen : u.uio_resid - extra = min u.uio_resid (s.ifield i .sfi_size - u.uio_offset).toNat) :
    wp (sfs_io_limited v extra) (fun _ t => ∃ bytes, ReadDone i s u bytes t)
      (fun e t => ReadFailed i s u e t) (fun _ => False) (s, u) := by
  have hsize : s.ifield i .sfi_size < 256 ^ 4 := Block.field_lt _ _
  have hpos : u.pos = u.uio_offset.toNat := by
    unfold Uio.pos
    rw [Int.emod_eq_of_lt hoff (by omega)]
  have hkeep : ∀ t : Sfs × Uio, t.2.uio_rw = .UIO_READ → sfs_io_size v t.2 t.1 = t.1 := by
    intro t ht
    unfold sfs_io_size
    rw [if_neg]
    rintro ⟨hw, -⟩
    rw [ht] at hw
    cases hw
  unfold sfs_io_limited
  rw [wp_modify_bind, wp_bind, wp_attempt]
  show wp (sfs_io_transfer v) _ _ _ (s, limitedUio u extra)
  refine wp_post (transfers_all (h.limited extra)) ?_ ?_
  · rintro - t ⟨bytes, hd⟩
    have hdid : t.1 = s ∧ bytes = slice (s.content i) u.pos bytes.length := by
      have := hd.did
      rwa [show (limitedUio u extra).uio_rw = .UIO_READ from hrw] at this
    unfold sfs_io_out
    rw [wp_modify_bind, wp_ofExcept_ok, hkeep t (by rw [hd.moved.rw]; exact hrw)]
    have hmoved := moved_limited hextra hd.moved
    have hlength : bytes.length = u.uio_resid - extra := hd.length
    exact ⟨bytes, hmoved, hdid.1, hdid.2, hlength.trans hlen⟩
  · rintro e t ⟨bytes, n, hf⟩
    have hdid : t.1 = s := by
      have := hf.did
      rw [show (limitedUio u extra).uio_rw = .UIO_READ from hrw] at this
      exact this.1
    unfold sfs_io_out
    rw [wp_modify_bind, wp_ofExcept_error, hkeep t (by rw [hf.moved.rw]; exact hrw)]
    refine ⟨hdid, hf.fault, ?_⟩
    rcases hf.errno with he | ⟨-, hw⟩ | ⟨he, hbig⟩
    · exact .inl he
    · rw [show (limitedUio u extra).uio_rw = .UIO_READ from hrw] at hw
      cases hw
    · refine .inr ⟨he, Nat.lt_of_lt_of_le hbig ?_⟩
      show u.pos + (u.uio_resid - extra) ≤ _
      omega

/-- **A read** returns the bytes of the file at its position. -/
theorem wp_io_read (h : Ready A v i s u) (hrw : u.uio_rw = .UIO_READ) (hoff : 0 ≤ u.uio_offset) :
    wp (sfs_io v) (fun _ t => ∃ bytes, ReadDone i s u bytes t) (fun e t => ReadFailed i s u e t)
      (fun _ => False) (s, u) := by
  have hsize : s.field v .sfi_size = s.ifield i .sfi_size := by
    rw [← h.ino]
    exact (ifield_loaded h.inv.table h.mem _).symm
  unfold sfs_io
  rw [wp_read_bind]
  simp only [hrw, hsize]
  apply wp_if
  · intro hend
    -- at or past the end
    rw [wp_pure]
    refine ⟨[], .refl u, rfl, rfl, ?_⟩
    have hnone : ((s.ifield i .sfi_size : Int) - u.uio_offset).toNat = 0 := by omega
    rw [hnone, Nat.min_zero]
    rfl
  · intro hend
    apply wp_if
    · intro hpast
      have hextra : (u.uio_offset + u.uio_resid - s.ifield i .sfi_size).toNat < u.uio_resid := by omega
      have hlen : u.uio_resid - (u.uio_offset + u.uio_resid - s.ifield i .sfi_size).toNat =
          min u.uio_resid (s.ifield i .sfi_size - u.uio_offset).toNat := by omega
      rw [wp_bind, wp_kassert]
      split
      · exact wp_io_limited h hrw hoff (by omega) (Nat.le_of_lt hextra) hlen
      · rename_i hn
        rw [hsize] at hn
        exact absurd hextra hn
    · intro hpast
      have hlen : u.uio_resid - 0 = min u.uio_resid (s.ifield i .sfi_size - u.uio_offset).toNat := by omega
      exact wp_io_limited h hrw hoff (by omega) (Nat.zero_le _) hlen

end Read

end OS161.Sfs
