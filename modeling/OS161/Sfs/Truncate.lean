import OS161.Sfs.Offsets

/-! # Truncation

`sfs_truncate` gives back blocks past the new end of a file. The entries of the indirect block
are cleared in a buffer, which is written back at the end: while the loop runs, the free block
map is ahead of the disk. The loop invariant is about the volume as it would be with the buffer
written.
-/

namespace OS161.Sfs

open Framework Kern

/-! ## Blocks given back -/

/-- The blocks of file `i` with a number in `K` have been given back. -/
structure Cleared (A : Set Nat) (i : Nat) (K : Set Nat) (s s' : Sfs) : Prop where
  inv : s'.FsInv A
  only : Only A i s s'
  size : s'.ifield i .sfi_size = s.ifield i .sfi_size
  type : s'.ifield i .sfi_type = s.ifield i .sfi_type
  linkcount : s'.ifield i .sfi_linkcount = s.ifield i .sfi_linkcount
  gone : ∀ k ∈ K, s'.slot i k = 0
  kept : ∀ k, k ∉ K → s'.slot i k = s.slot i k
  data : ∀ k, k ∉ K → s'.data i k = s.data i k

namespace Cleared

variable {A : Set Nat} {i : Nat} {K L : Set Nat} {s s' s'' : Sfs}

/-- Blocks that were not there are gone. -/
theorem refl (h : s.FsInv A) (hK : ∀ k ∈ K, s.slot i k = 0) : Cleared A i K s s where
  inv := h
  only := .refl A i s
  size := rfl
  type := rfl
  linkcount := rfl
  gone := hK
  kept := fun _ _ => rfl
  data := fun _ _ => rfl

theorem trans (h : Cleared A i K s s') (h' : Cleared A i L s' s'') : Cleared A i (K ∪ L) s s'' where
  inv := h'.inv
  only := h.only.trans h'.only
  size := by rw [h'.size, h.size]
  type := by rw [h'.type, h.type]
  linkcount := by rw [h'.linkcount, h.linkcount]
  gone := by
    intro k hk
    by_cases hL : k ∈ L
    · exact h'.gone k hL
    · rw [h'.kept k hL]
      exact h.gone k (hk.resolve_right hL)
  kept := by
    intro k hk
    rw [h'.kept k fun hL => hk (.inr hL), h.kept k fun hK => hk (.inl hK)]
  data := by
    intro k hk
    rw [h'.data k fun hL => hk (.inr hL), h.data k fun hK => hk (.inl hK)]

theorem congr (h : Cleared A i K s s') (hKL : ∀ k, k ∈ K ↔ k ∈ L) : Cleared A i L s s' := by
  have hEq : K = L := Set.ext hKL
  exact hEq ▸ h

end Cleared

variable {E : Errno → Sfs → Prop} {F : Panic → Prop}

theorem FsInv.table_free {A : Set Nat} {s : Sfs} (h : s.FsInv A) (b : Nat) : (s.free b).TableInv :=
  h.table.of_eq rfl rfl rfl

/-- A block that the inode itself refers to is given back. -/
theorem cleared_setField {s : Sfs} {A : Set Nat} {v : Nat} (h : s.FsInv A) (hv : v ∈ s.sfs_vnodes) {f : Block.Field}
    (hf : f ≠ .sfi_size ∧ f ≠ .sfi_type ∧ f ≠ .sfi_linkcount) (r₀ : Role) (hr : s.ref (s.sv v).sv_ino r₀ ≠ 0)
    (hself : ((s.free (s.ref (s.sv v).sv_ino r₀)).setField v f 0).ref (s.sv v).sv_ino r₀ = 0)
    (hsame : ∀ r, r ≠ r₀ →
      ((s.free (s.ref (s.sv v).sv_ino r₀)).setField v f 0).ref (s.sv v).sv_ino r = s.ref (s.sv v).sv_ino r) :
    Cleared A (s.sv v).sv_ino { k | .slot k = r₀ } s ((s.free (s.ref (s.sv v).sv_ino r₀)).setField v f 0) := by
  have hi := h.loaded v hv
  have htab := h.table_free (s.ref (s.sv v).sv_ino r₀)
  have hfield : ∀ g, f ≠ g → ((s.free (s.ref (s.sv v).sv_ino r₀)).setField v f 0).ifield (s.sv v).sv_ino g =
      s.ifield (s.sv v).sv_ino g :=
    fun g hg => (ifield_setField_ne htab hv hg.symm).trans ((agree_free _).ifield g)
  have honly : Only A (s.sv v).sv_ino s ((s.free (s.ref (s.sv v).sv_ino r₀)).setField v f 0) :=
    (Only.free _).trans (.setField htab hv _ _)
  constructor
  case inv =>
    exact h.of_only honly rfl rfl rfl (htab.setField hf.2.1)
      (ledger_free h honly r₀ hi hr hself hsame (used_free h (h.ref_lt hi hr)))
      (clean_setField (t := s.free (s.ref (s.sv v).sv_ino r₀)) h.clean)
  case only => exact honly
  case size => exact hfield _ hf.1
  case type => exact hfield _ hf.2.1
  case linkcount => exact hfield _ hf.2.2
  case gone =>
    rintro k rfl
    exact hself
  case kept => exact fun k hk => hsame (.slot k) hk
  case data =>
    intro k hk
    unfold data
    rw [show Sfs.slot _ _ _ = s.slot _ k from hsame (.slot k) hk]
    rfl

/-! ### A direct block -/

section Direct

variable {s : Sfs} {A : Set Nat} {v : Nat} {k : Fin NDIRECT}

/-- A direct block is given back. -/
theorem cleared_direct (h : s.FsInv A) (hv : v ∈ s.sfs_vnodes) (hk : s.slot (s.sv v).sv_ino k ≠ 0) :
    Cleared A (s.sv v).sv_ino {k.val} s
      ((s.free (s.slot (s.sv v).sv_ino k)).setField v (.sfi_direct k) 0) := by
  have htab := h.table_free (s.slot (s.sv v).sv_ino k)
  refine (cleared_setField h hv (by simp) (.slot k) hk (slot_setField_direct_self htab hv k) ?_).congr (by simp)
  rintro (_ | _ | k') hne
  · rfl
  · exact (ifield_setField_ne htab hv (by simp)).trans ((agree_free _).ifield _)
  · refine (slot_setField_direct_ne htab hv ?_).trans ((agree_free _).slot k')
    rintro rfl
    exact hne rfl

/-- The loop over the direct blocks, by induction on what is left of them. -/
theorem wp_truncate_direct (bl : Nat) (l : List (Fin NDIRECT)) : ∀ s : Sfs, s.FsInv A → v ∈ s.sfs_vnodes →
    wp (sfs_truncate_direct v bl l)
      (fun _ s' => Cleared A (s.sv v).sv_ino { k | bl ≤ k ∧ ∃ j ∈ l, j.val = k } s s') E F s := by
  induction l with
  | nil =>
    intro s h _
    apply Cleared.refl h
    rintro k ⟨-, j, hj, -⟩
    cases hj
  | cons j rest ih =>
    intro s h hv
    have hi := h.loaded v hv
    have hslot : s.slot (s.sv v).sv_ino j = s.field v (.sfi_direct j) := by
      unfold slot
      rw [dif_pos j.isLt]
      exact ifield_loaded h.table hv _
    -- the first block is dealt with, then the others
    have hstep : ∀ {s' : Sfs}, Cleared A (s.sv v).sv_ino { k | bl ≤ k ∧ j.val = k } s s' →
        wp (sfs_truncate_direct v bl rest)
          (fun _ s'' => Cleared A (s.sv v).sv_ino { k | bl ≤ k ∧ ∃ i ∈ j :: rest, i.val = k } s s'')
          E F s' := by
      intro s' hc
      have hv' : v ∈ s'.sfs_vnodes := by
        rw [hc.only.vnodes]
        exact hv
      refine wp_imp (ih s' hc.inv hv') ?_
      intro _ s'' hc'
      rw [hc.only.ino] at hc'
      apply (hc.trans hc').congr
      intro k
      simp only [Set.mem_union, Set.mem_ofPred_eq, List.mem_cons, exists_eq_or_imp, and_or_left]
    unfold sfs_truncate_direct
    rw [wp_read_bind]
    apply wp_if
    · intro hfree
      rw [wp_bind]
      have hne : s.slot (s.sv v).sv_ino j ≠ 0 := by
        rw [hslot]
        exact hfree.2
      have hlt := h.ref_lt (r := .slot j) hi hne
      have hused := h.used_ref (r := .slot j) hi hne
      rw [← hslot]
      apply wp_bfree h hlt hused
      rw [wp_modify_bind]
      apply hstep
      apply (cleared_direct h hv hne).congr
      intro k
      constructor
      · rintro rfl
        exact ⟨hfree.1, rfl⟩
      · rintro ⟨-, rfl⟩
        rfl
    · intro hfree
      apply hstep
      apply Cleared.refl h
      rintro k ⟨hb, rfl⟩
      by_contra hne
      exact hfree ⟨hb, by rwa [hslot] at hne⟩

end Direct

/-! ### An entry of the indirect block -/

section Entry

variable {s : Sfs} {A : Set Nat} {v i j id : Nat}

/-- The state after entry `j` of the indirect block `id` has been erased and its block given
back. -/
def removeEntry (s : Sfs) (id j : Nat) : Sfs :=
  (s.free ((s.sfs_device.sector id).entry j)).store id ((s.sfs_device.sector id).setEntry j 0)

variable (h : s.FsInv A) (hv : v ∈ s.sfs_vnodes) (hino : (s.sv v).sv_ino = i)
  (hid : s.ifield i .sfi_indirect = id) (hid0 : id ≠ 0) (hj : j < DBPERIDB)

include h hv hino

theorem ifield_removeEntry (f : Block.Field) : (s.removeEntry id j).ifield i f = s.ifield i f := by
  unfold removeEntry
  rw [ifield_store_loaded (h.table_free _) hv hino, (agree_free i).ifield]

include hid hid0 hj

/-- The slots of a file after its indirect block lost an entry. -/
theorem slot_removeEntry (k : Nat) : (s.removeEntry id j).slot i k = if k = NDIRECT + j then 0 else s.slot i k :=
  slot_setEntry (h.table_free _) hv hino (agree_free i) hid hid0 hj (by decide) k

omit hid0 hj in
theorem agree_removeEntry {l : Nat} (hl : l ∈ A) (hne : l ≠ i) : Agree s (s.removeEntry id j) l := by
  have hi : i ∈ A := hino ▸ h.loaded v hv
  have hext := h.agree_store_other (t := s.free ((s.sfs_device.sector id).entry j)) (r := .indirect)
    (fun m _ => agree_free m) hi hl hne ((s.sfs_device.sector id).setEntry j 0)
  rw [show s.ref i .indirect = id from hid] at hext
  exact (agree_free l).trans hext

/-- The block of an entry of the indirect block is given back. -/
theorem cleared_entry (hentry : (s.sfs_device.sector id).entry j ≠ 0) :
    Cleared A i {NDIRECT + j} s (s.removeEntry id j) := by
  have hi : i ∈ A := hino ▸ h.loaded v hv
  have hslot := slot_removeEntry h hv hino hid hid0 hj
  have hfield : ∀ f, (s.removeEntry id j).ifield i f = s.ifield i f := ifield_removeEntry h hv hino
  have hblock : s.ref i (.slot (NDIRECT + j)) = (s.sfs_device.sector id).entry j := slot_of_indirect hid hid0 hj
  have hne : s.ref i (.slot (NDIRECT + j)) ≠ 0 := by rwa [hblock]
  have hidref : s.ref i .indirect = id := hid
  have hidne : s.ref i .indirect ≠ 0 := by rwa [hidref]
  have hlt := h.ref_lt hi hne
  have honly : Only A i s (s.removeEntry id j) := by
    apply Only.of_same (fun l hl hne => agree_removeEntry h hv hino hid hl hne) rfl rfl ⟨rfl, rfl, rfl, rfl⟩
    · intro c hc
      apply Lhd.store_ne
      rintro rfl
      exact h.ledger.apart (h.holds_ref hi hidne) (by rwa [hidref])
    · intro hd
      cases hd
  constructor
  case inv =>
    refine h.of_only honly rfl rfl rfl (h.table.of_eq rfl rfl rfl) ?_ ?_
    · apply ledger_free h honly (.slot (NDIRECT + j)) hi hne
      · show (s.removeEntry id j).slot i _ = 0
        rw [hslot, if_pos rfl]
      · rintro (_ | _ | k) hlr
        · rfl
        · exact hfield _
        · show (s.removeEntry id j).slot i k = s.slot i k
          rw [hslot, if_neg]
          rintro rfl
          exact hlr rfl
      · rw [hblock] at hlt ⊢
        exact used_free h hlt
    · intro w hw hd
      have hwid := h.ino_ne_ref (h.loaded w hw) hi (r := .indirect) (by simp) hidne
      rw [hidref] at hwid
      exact (Lhd.store_ne _ _ hwid).trans (h.clean w hw hd)
  case only => exact honly
  case size => exact hfield _
  case type => exact hfield _
  case linkcount => exact hfield _
  case gone =>
    rintro k rfl
    rw [hslot, if_pos rfl]
  case kept =>
    intro k hk
    rw [hslot, if_neg (show ¬ k = NDIRECT + j from hk)]
  case data =>
    intro k hk
    have hkeep : (s.removeEntry id j).slot i k = s.slot i k := by
      rw [hslot, if_neg (show ¬ k = NDIRECT + j from hk)]
    unfold data
    rw [hkeep]
    by_cases h0 : s.slot i k = 0
    · rw [if_pos h0, if_pos h0]
    · rw [if_neg h0, if_neg h0]
      apply Lhd.store_ne
      intro heq
      have := (h.ref_inj hi hi (.slot k) .indirect h0 (heq.trans hid.symm)).2
      cases this

end Entry

/-! ### The indirect block -/

section Indirect

variable {s : Sfs} {A : Set Nat} {v id : Nat}

/-- An indirect block without entries is given back. -/
theorem cleared_indirect (h : s.FsInv A) (hv : v ∈ s.sfs_vnodes) (hid : s.ifield (s.sv v).sv_ino .sfi_indirect = id)
    (hid0 : id ≠ 0) (hempty : ∀ j, j < DBPERIDB → (s.sfs_device.sector id).entry j = 0) :
    Cleared A (s.sv v).sv_ino ∅ s ((s.free id).setField v .sfi_indirect 0) := by
  have htab := h.table_free id
  have hself : ((s.free id).setField v .sfi_indirect 0).ifield (s.sv v).sv_ino .sfi_indirect = 0 :=
    ifield_setField_self htab hv
  have hslot : ∀ k, ((s.free id).setField v .sfi_indirect 0).slot (s.sv v).sv_ino k = s.slot (s.sv v).sv_ino k := by
    intro k
    unfold slot tableEntry
    rw [hself, hid, if_pos rfl, if_neg hid0]
    by_cases hk : k < NDIRECT
    · rw [dif_pos hk, dif_pos hk]
      exact (ifield_setField_ne htab hv (by simp)).trans ((agree_free _).ifield _)
    · rw [dif_neg hk, dif_neg hk]
      by_cases hk' : k < MAXBLOCKS
      · have hM : MAXBLOCKS = NDIRECT + DBPERIDB := rfl
        rw [if_pos hk', if_pos hk', hempty _ (by omega)]
      · rw [if_neg hk', if_neg hk']
  subst hid
  refine (cleared_setField h hv (by simp) .indirect hid0 hself ?_).congr (by simp)
  rintro (_ | _ | k) hne
  · rfl
  · exact absurd rfl hne
  · exact hslot k

/-- A block that is not in use can be written. -/
theorem cleared_store_unused {i : Nat} (h : s.FsInv A) (hi : i ∈ A) (hunused : ¬ s.Used id) (blk : Block) :
    Cleared A i ∅ s (s.store id blk) := by
  have hag : ∀ j ∈ A, Agree s (s.store id blk) j := fun j hj => h.agree_store_unused hj hunused blk
  have honly : Only A i s (s.store id blk) := by
    apply Only.of_same (fun j hj _ => hag j hj) rfl rfl ⟨rfl, rfl, rfl, rfl⟩
    · intro c hc
      apply Lhd.store_ne
      rintro rfl
      exact hunused ((h.ledger.used c).mpr (.inl hc))
    · exact fun hd => ⟨hd, rfl⟩
  constructor
  case inv =>
    refine h.of_only honly rfl rfl rfl (h.table.of_eq rfl rfl rfl)
      (ledger_congr h honly (hag i hi).ref fun _ => Iff.rfl) ?_
    intro w hw hd
    exact (Lhd.store_ne _ _ (h.ino_ne_of_not_used hw hunused)).trans (h.clean w hw hd)
  case only => exact honly
  case size => exact (hag i hi).ifield _
  case type => exact (hag i hi).ifield _
  case linkcount => exact (hag i hi).ifield _
  case gone => exact fun k hk => hk.elim
  case kept => exact fun k _ => (hag i hi).slot k
  case data => exact fun k _ => (hag i hi).data k

end Indirect

/-! ## The loop over the entries -/

section Store

variable (s : Sfs) (id : Nat)

theorem store_same : s.store id (s.sfs_device.sector id) = s := by
  have hsector : (s.sfs_device.store id (s.sfs_device.sector id)).sector = s.sfs_device.sector := by
    funext m
    by_cases hm : m = id
    · subst hm
      exact Lhd.store_self _ _ _
    · exact Lhd.store_ne _ _ hm
  have hdev : s.sfs_device.store id (s.sfs_device.sector id) = s.sfs_device := by
    show { s.sfs_device with sector := (s.sfs_device.store id (s.sfs_device.sector id)).sector } = _
    rw [hsector]
  unfold store
  rw [hdev]

theorem store_store (a b : Block) : (s.store id a).store id b = s.store id b := by
  have hsector : ((s.sfs_device.store id a).store id b).sector = (s.sfs_device.store id b).sector := by
    funext m
    by_cases hm : m = id
    · subst hm
      rw [Lhd.store_self, Lhd.store_self]
    · rw [Lhd.store_ne _ _ hm, Lhd.store_ne _ _ hm, Lhd.store_ne _ _ hm]
  have hdev : (s.sfs_device.store id a).store id b = s.sfs_device.store id b := by
    show { s.sfs_device with sector := ((s.sfs_device.store id a).store id b).sector } = _
    rw [hsector]
    rfl
  show { s with sfs_device := (s.sfs_device.store id a).store id b } = _
  rw [hdev]
  rfl

end Store

/-- Before entry `j` is looked at, in a truncation that started from `s`. The volume satisfies its
invariant once the buffer is written to the indirect block. -/
structure EntriesInv (A : Set Nat) (v i bl id : Nat) (s : Sfs) (j : Nat) (r : IdLoop) (t : Sfs) : Prop where
  sv : t.sv = s.sv
  vnodes : t.sfs_vnodes = s.sfs_vnodes
  device : t.sfs_device = s.sfs_device
  cleared : Cleared A i { k | bl < k ∧ NDIRECT ≤ k ∧ k < NDIRECT + j } s (t.store id r.idbuf)
  zero : r.hasnonzero = false → ∀ l, l < j → r.idbuf.entry l = 0
  nonzero : r.hasnonzero = true → ∃ l, l < j ∧ NDIRECT + l ≤ bl
  same : r.iddirty = false → r.idbuf = s.sfs_device.sector id

namespace EntriesInv

variable {A : Set Nat} {v i bl id j : Nat} {s t : Sfs} {r : IdLoop}

theorem start (h : s.FsInv A) : EntriesInv A v i bl id s 0 ⟨s.sfs_device.sector id, false, false⟩ s where
  sv := rfl
  vnodes := rfl
  device := rfl
  cleared := by
    rw [store_same]
    apply Cleared.refl h
    rintro k ⟨-, h1, h2⟩
    omega
  zero := fun _ l hl => absurd hl (Nat.not_lt_zero l)
  nonzero := fun hn => nomatch hn
  same := fun _ => rfl

variable (hE : EntriesInv A v i bl id s j r t) (h : s.FsInv A) (hv : v ∈ s.sfs_vnodes) (hino : (s.sv v).sv_ino = i)
  (hid : s.ifield i .sfi_indirect = id) (hid0 : id ≠ 0)

include hE hv hino

theorem loaded : v ∈ (t.store id r.idbuf).sfs_vnodes ∧ ((t.store id r.idbuf).sv v).sv_ino = i := by
  constructor
  · show v ∈ t.sfs_vnodes
    rw [hE.vnodes]
    exact hv
  · show (t.sv v).sv_ino = i
    rw [hE.sv, hino]

include h hid in
theorem indirect : (t.store id r.idbuf).ifield i .sfi_indirect = id := by
  obtain ⟨hv', hino'⟩ := hE.loaded hv hino
  rw [← hino', ifield_loaded hE.cleared.inv.table hv']
  show (t.sv v).sv_i.field _ = id
  rw [hE.sv]
  subst hino
  rw [← hid, ifield_loaded h.table hv]
  rfl

include h hid hid0

/-- An entry past the new end is erased, and its block given back. -/
theorem erase (hj : j < DBPERIDB) (hbl : bl < NDIRECT + j) (hentry : r.idbuf.entry j ≠ 0) :
    sfs_bfree (r.idbuf.entry j) t = .ok () (t.free (r.idbuf.entry j)) ∧
      EntriesInv A v i bl id s (j + 1) { r with idbuf := r.idbuf.setEntry j 0, iddirty := true }
        (t.free (r.idbuf.entry j)) := by
  obtain ⟨hv', hino'⟩ := hE.loaded hv hino
  have hid' := hE.indirect h hv hino hid
  have hbuf : (t.store id r.idbuf).sfs_device.sector id = r.idbuf := Lhd.store_self _ _ _
  have hinv := hE.cleared.inv
  have hi : i ∈ A := hino ▸ h.loaded v hv
  have hslot := slot_of_indirect hid' hid0 hj
  rw [hbuf] at hslot
  have hslot0 : (t.store id r.idbuf).ref i (.slot (NDIRECT + j)) ≠ 0 := by
    show (t.store id r.idbuf).slot i (NDIRECT + j) ≠ 0
    rwa [hslot]
  have hlt := hinv.ref_lt hi hslot0
  have hused := hinv.used_ref hi hslot0
  rw [show (t.store id r.idbuf).ref i (.slot (NDIRECT + j)) = r.idbuf.entry j from hslot] at hlt hused
  refine ⟨sfs_bfree_marked (Nat.lt_of_lt_of_le hlt hinv.nblocks_le_nbits) (hinv.isset_of_used hlt hused), ?_⟩
  have hstep := cleared_entry hinv hv' hino' hid' hid0 hj (by rwa [hbuf])
  have hnext : (t.store id r.idbuf).removeEntry id j =
      (t.free (r.idbuf.entry j)).store id (r.idbuf.setEntry j 0) := by
    unfold removeEntry
    rw [hbuf]
    exact store_store (t.free (r.idbuf.entry j)) id r.idbuf _
  rw [hnext] at hstep
  constructor
  case sv => exact hE.sv
  case vnodes => exact hE.vnodes
  case device => exact hE.device
  case cleared =>
    apply (hE.cleared.trans hstep).congr
    intro k
    simp only [Set.mem_union, Set.mem_ofPred_eq, Set.mem_singleton_iff]
    omega
  case zero =>
    intro hz l hl
    by_cases hlj : l = j
    · subst hlj
      rw [Block.entry_setEntry_self _ _ hj, Nat.zero_mod]
    · rw [Block.entry_setEntry_ne _ _ hlj]
      exact hE.zero hz l (by omega)
  case nonzero =>
    intro hn
    obtain ⟨l, hl, hbl'⟩ := hE.nonzero hn
    exact ⟨l, by omega, hbl'⟩
  case same => exact fun hd => by cases hd

/-- An entry stays as it is. -/
theorem skip (hj : j < DBPERIDB) (hkeep : ¬ (bl < NDIRECT + j ∧ r.idbuf.entry j ≠ 0)) :
    EntriesInv A v i bl id s (j + 1)
      { r with hasnonzero := r.hasnonzero || decide (r.idbuf.entry j ≠ 0) } t := by
  have hid' := hE.indirect h hv hino hid
  have hslot := slot_of_indirect hid' hid0 hj
  rw [show (t.store id r.idbuf).sfs_device.sector id = r.idbuf from Lhd.store_self _ _ _] at hslot
  constructor
  case sv => exact hE.sv
  case vnodes => exact hE.vnodes
  case device => exact hE.device
  case cleared =>
    -- past the new end the entry was empty
    have hempty : Cleared A i { k | bl < k ∧ k = NDIRECT + j } (t.store id r.idbuf) (t.store id r.idbuf) := by
      apply Cleared.refl hE.cleared.inv
      rintro k ⟨hbl, rfl⟩
      rw [hslot]
      by_contra hne
      exact hkeep ⟨hbl, hne⟩
    apply (hE.cleared.trans hempty).congr
    intro k
    simp only [Set.mem_union, Set.mem_ofPred_eq]
    omega
  case zero =>
    intro hz l hl
    obtain ⟨hz', hzj⟩ : r.hasnonzero = false ∧ r.idbuf.entry j = 0 := by simpa using hz
    by_cases hlj : l = j
    · subst hlj
      exact hzj
    · exact hE.zero hz' l (by omega)
  case nonzero =>
    intro hn
    rcases Bool.or_eq_true_iff.mp hn with hn | hn
    · obtain ⟨l, hl, hbl⟩ := hE.nonzero hn
      exact ⟨l, by omega, hbl⟩
    · refine ⟨j, Nat.lt_succ_self j, Nat.le_of_not_lt fun hbl => hkeep ⟨hbl, ?_⟩⟩
      simpa using hn
  case same => exact hE.same

end EntriesInv

section Indirect

variable {A : Set Nat} {v i bl id : Nat} {s : Sfs}

/-- The loop over the entries, by induction on their number. -/
theorem wp_truncate_entries (h : s.FsInv A) (hv : v ∈ s.sfs_vnodes) (hino : (s.sv v).sv_ino = i)
    (hid : s.ifield i .sfi_indirect = id) (hid0 : id ≠ 0) (n : Nat) : ∀ (j : Nat) (r : IdLoop) (t : Sfs),
    j + n = DBPERIDB → EntriesInv A v i bl id s j r t →
    wp (sfs_truncate_entries bl j n r) (fun r' t' => EntriesInv A v i bl id s DBPERIDB r' t')
      E F t := by
  induction n with
  | zero =>
    intro j r t hj hE
    rw [Nat.add_zero] at hj
    exact hj ▸ hE
  | succ n ih =>
    intro j r t hj hE
    unfold sfs_truncate_entries
    apply wp_if
    · intro hfree
      obtain ⟨hrun, hnext⟩ := hE.erase h hv hino hid hid0 (by omega) hfree.1 hfree.2
      rw [wp_bind]
      exact wp_of_run_ok hrun (ih _ _ _ (by omega) hnext)
    · intro hfree
      exact ih _ _ _ (by omega) (hE.skip h hv hino hid hid0 (by omega) hfree)

/-- The indirect block when the loop has emptied it. -/
theorem EntriesInv.empty {r : IdLoop} {t : Sfs} (hE : EntriesInv A v i bl id s DBPERIDB r t) (h : s.FsInv A)
    (hv : v ∈ s.sfs_vnodes) (hino : (s.sv v).sv_ino = i) (hid : s.ifield i .sfi_indirect = id) (hid0 : id ≠ 0)
    (hz : r.hasnonzero = false) :
    sfs_bfree id t = .ok () (t.free id) ∧
      Cleared A i { k | bl < k ∧ NDIRECT ≤ k ∧ k < MAXBLOCKS } s ((t.free id).setField v .sfi_indirect 0) ∧
      ((t.free id).setField v .sfi_indirect 0).ifield i .sfi_indirect = 0 := by
  obtain ⟨hv', hino'⟩ := hE.loaded hv hino
  have hid' := hE.indirect h hv hino hid
  have hinv := hE.cleared.inv
  have hi : i ∈ A := hino ▸ h.loaded v hv
  have hidref : (t.store id r.idbuf).ref i .indirect = id := hid'
  have hlt := hinv.ref_lt (r := .indirect) hi (by rwa [hidref])
  have hused := hinv.used_ref (r := .indirect) hi (by rwa [hidref])
  rw [hidref] at hlt hused
  refine ⟨sfs_bfree_marked (Nat.lt_of_lt_of_le hlt hinv.nblocks_le_nbits) (hinv.isset_of_used hlt hused), ?_⟩
  have hstep := cleared_indirect hinv hv' (by rw [hino']; exact hid') hid0 (by
    intro j hj
    rw [show (t.store id r.idbuf).sfs_device.sector id = r.idbuf from Lhd.store_self _ _ _]
    exact hE.zero hz j hj)
  rw [hino'] at hstep
  -- the buffer is never written, but the block is not in use any more
  have hunused : ¬ (((t.store id r.idbuf).free id).setField v .sfi_indirect 0).Used id := by
    intro hu
    exact ((used_free hinv hlt id).mp hu).2 rfl
  have hreal : (((t.store id r.idbuf).free id).setField v .sfi_indirect 0).store id (t.sfs_device.sector id) =
      (t.free id).setField v .sfi_indirect 0 :=
    (store_store ((t.free id).setField v .sfi_indirect 0) id _ _).trans
      (store_same ((t.free id).setField v .sfi_indirect 0) id)
  have hlast := cleared_store_unused hstep.inv hi hunused (t.sfs_device.sector id)
  rw [hreal] at hlast
  have htab : (t.free id).TableInv := hinv.table.of_eq rfl rfl rfl
  have hfield : ((t.free id).setField v .sfi_indirect 0).ifield ((t.free id).sv v).sv_ino .sfi_indirect = 0 :=
    ifield_setField_self htab hv'
  rw [show ((t.free id).sv v).sv_ino = i from hino'] at hfield
  refine ⟨?_, hfield⟩
  apply ((hE.cleared.trans hstep).trans hlast).congr
  intro k
  have hM : MAXBLOCKS = NDIRECT + DBPERIDB := rfl
  simp only [Set.union_empty, Set.mem_ofPred_eq, hM]

/-- The indirect block in `sfs_truncate`: entries past the new end are erased, but the block is left
alone when the new end is in its last entry or later. -/
theorem wp_truncate_indirect (bl : Nat) (h : s.FsInv A) (hv : v ∈ s.sfs_vnodes) (hino : (s.sv v).sv_ino = i) :
    wp (sfs_truncate_indirect v bl)
      (fun _ s' => Cleared A i { k | bl < k ∧ NDIRECT ≤ k ∧ k < MAXBLOCKS } s s' ∧
        (bl < NDIRECT → s'.ifield i .sfi_indirect = 0)) E F s := by
  have hM : MAXBLOCKS = NDIRECT + DBPERIDB := rfl
  have hi : i ∈ A := hino ▸ h.loaded v hv
  have hfield : s.ifield i .sfi_indirect = s.field v .sfi_indirect := by
    rw [← hino]
    exact ifield_loaded h.table hv _
  unfold sfs_truncate_indirect
  rw [wp_read_bind]
  apply wp_if
  · intro hvisit
    have hid0 : s.field v .sfi_indirect ≠ 0 := hvisit.2
    have hlt := h.ref_lt (r := .indirect) hi (fun h0 => hid0 (hfield.symm.trans h0))
    rw [show s.ref i .indirect = s.field v .sfi_indirect from hfield] at hlt
    rw [wp_bind]
    apply wp_readblock h.geometry hlt
    rw [wp_bind]
    refine wp_imp (wp_truncate_entries h hv hino hfield hid0 DBPERIDB 0 _ s (Nat.zero_add _) (.start h)) ?_
    intro r t hE
    apply wp_if
    · intro hz
      obtain ⟨hrun, hcleared, hgone⟩ := hE.empty h hv hino hfield hid0 hz
      rw [wp_bind]
      exact wp_of_run_ok hrun ⟨hcleared, fun _ => hgone⟩
    · intro hz
      have hcleared := hE.cleared
      rw [← hM] at hcleared
      -- an entry that stays is not past the new end
      have hfar : ¬ bl < NDIRECT := by
        obtain ⟨l, -, hl⟩ := hE.nonzero (by simpa using hz)
        omega
      apply wp_if
      · intro hd
        have hgeom : t.Geometry := hcleared.inv.geometry.of_eq rfl rfl rfl rfl
        have hblocks : t.nblocks = s.nblocks := by
          unfold nblocks
          rw [show t.sfs_super = s.sfs_super from hcleared.only.super]
        exact wp_writeblock hgeom (by rw [hblocks]; exact hlt) ⟨hcleared, fun hlow => absurd hlow hfar⟩
      · intro hd
        -- the buffer is what is on the disk
        have hsame := hE.same (by simpa using hd)
        rw [hsame, ← hE.device, store_same] at hcleared
        exact ⟨hcleared, fun hlow => absurd hlow hfar⟩
  · intro hvisit
    have hz : bl < NDIRECT + DBPERIDB - 1 → s.field v .sfi_indirect = 0 := by
      intro hbl
      by_contra hne
      exact hvisit ⟨hbl, hne⟩
    constructor
    · apply Cleared.refl h
      rintro k ⟨hbl, hk, hk'⟩
      unfold slot tableEntry
      rw [dif_neg (by omega), hfield, hz (by omega), if_pos rfl, ite_self]
    · intro hlow
      rw [hfield]
      apply hz
      have hD : DBPERIDB = 128 := rfl
      omega

end Indirect

/-! ## `sfs_truncate` -/

/-- `blocklen` in `sfs_truncate`. -/
def blocklen (len : Nat) : Nat := (len + BLOCKSIZE - 1) / BLOCKSIZE % 2 ^ 32

/-- The blocks that a truncation gives back. In the indirect block the first one past the new end is
missed. -/
def PastEnd (bl : Nat) : Set Nat := { k | (k < NDIRECT ∧ bl ≤ k) ∨ (NDIRECT ≤ k ∧ k < MAXBLOCKS ∧ bl < k) }

/-- File `i` has been truncated to `len`. -/
structure Truncated (A : Set Nat) (i len : Nat) (s s' : Sfs) : Prop where
  inv : s'.FsInv A
  only : Only A i s s'
  size : s'.ifield i .sfi_size = len % 2 ^ 32
  type : s'.ifield i .sfi_type = s.ifield i .sfi_type
  linkcount : s'.ifield i .sfi_linkcount = s.ifield i .sfi_linkcount
  indirect : blocklen len < NDIRECT → s'.ifield i .sfi_indirect = 0
  gone : ∀ k ∈ PastEnd (blocklen len), s'.slot i k = 0
  kept : ∀ k, k ∉ PastEnd (blocklen len) → s'.slot i k = s.slot i k
  data : ∀ k, k ∉ PastEnd (blocklen len) → s'.data i k = s.data i k

/-- **`sfs_truncate`** always succeeds. -/
theorem wp_truncate {A : Set Nat} {v i : Nat} (len : Nat) {s : Sfs} (h : s.FsInv A) (hv : v ∈ s.sfs_vnodes)
    (hino : (s.sv v).sv_ino = i) :
    wp (sfs_truncate v len) (fun _ s' => Truncated A i len s s') (fun _ _ => False) (fun _ => False) s := by
  unfold sfs_truncate
  rw [wp_bind]
  refine wp_imp (wp_truncate_direct (blocklen len) (List.finRange NDIRECT) s h hv) ?_
  intro _ s₁ hdirect
  rw [hino] at hdirect
  have hv₁ : v ∈ s₁.sfs_vnodes := by rwa [hdirect.only.vnodes]
  have hino₁ : (s₁.sv v).sv_ino = i := by rw [hdirect.only.ino, hino]
  rw [wp_bind]
  refine wp_imp (wp_truncate_indirect (blocklen len) hdirect.inv hv₁ hino₁) ?_
  intro _ s₂ hind
  obtain ⟨hindirect, hzero⟩ := hind
  have hv₂ : v ∈ s₂.sfs_vnodes := by rwa [hindirect.only.vnodes]
  have hino₂ : (s₂.sv v).sv_ino = i := by rw [hindirect.only.ino, hino₁]
  have hcleared : Cleared A i (PastEnd (blocklen len)) s s₂ := by
    apply (hdirect.trans hindirect).congr
    intro k
    constructor
    · rintro (⟨hbl, j, -, rfl⟩ | ⟨hbl, hk, hk'⟩)
      · exact .inl ⟨j.isLt, hbl⟩
      · exact .inr ⟨hk, hk', hbl⟩
    · rintro (⟨hk, hbl⟩ | ⟨hk, hk', hbl⟩)
      · exact .inl ⟨hbl, ⟨k, hk⟩, List.mem_finRange _, rfl⟩
      · exact .inr ⟨hbl, hk, hk'⟩
  have htab := hcleared.inv.table
  rw [wp_modify]
  constructor
  case inv => exact hcleared.inv.setField hv₂ (by simp) (by simp) (by simp)
  case only =>
    apply hcleared.only.trans
    rw [← hino₂]
    exact .setField htab hv₂ _ _
  case size =>
    have hmod : len % 2 ^ 32 < 256 ^ 4 := Nat.mod_lt _ (by decide)
    rw [← hino₂, ifield_setField_lt htab hv₂ hmod]
  case type => rw [← hino₂, ifield_setField_ne htab hv₂ (by simp), hino₂, hcleared.type]
  case linkcount => rw [← hino₂, ifield_setField_ne htab hv₂ (by simp), hino₂, hcleared.linkcount]
  case indirect =>
    intro hlow
    rw [← hino₂, ifield_setField_ne htab hv₂ (by simp), hino₂, hzero hlow]
  case gone =>
    intro k hk
    rw [← hino₂, slot_setField htab hv₂ (by simp) (by simp), hino₂, hcleared.gone k hk]
  case kept =>
    intro k hk
    rw [← hino₂, slot_setField htab hv₂ (by simp) (by simp), hino₂, hcleared.kept k hk]
  case data =>
    intro k hk
    rw [← hino₂, data_setField htab hv₂ (by simp) (by simp), hino₂, hcleared.data k hk]

/-! ## Runs of writes and truncations -/

/-- What lies past the end of file `i` reads as zeros when the file grows again. -/
def ZeroPastEnd (i : Nat) (s : Sfs) : Prop := ∀ p, s.ifield i .sfi_size ≤ p → s.content i p = 0

/-- File `i` has been cut or extended to `len` bytes. -/
structure CutTo (i len : Nat) (s s' : Sfs) : Prop where
  size : s'.ifield i .sfi_size = len
  kept : ∀ p, p < len → p < s.ifield i .sfi_size → s'.content i p = s.content i p
  zero : ∀ p, len ≤ p ∨ s.ifield i .sfi_size ≤ p → s'.content i p = 0
  unmapped : ∀ k, (len + BLOCKSIZE - 1) / BLOCKSIZE ≤ k → s'.slot i k = 0

/-- `len` is no larger than the largest file, nothing but zeros is in its last block after it, and
past the direct blocks the block that follows has not been allocated. -/
structure NothingMissed (i len : Nat) (s : Sfs) : Prop where
  fits : len ≤ MAXBLOCKS * BLOCKSIZE
  tail : ∀ p, len ≤ p → p / BLOCKSIZE < (len + BLOCKSIZE - 1) / BLOCKSIZE → s.content i p = 0
  next : NDIRECT ≤ (len + BLOCKSIZE - 1) / BLOCKSIZE → s.slot i ((len + BLOCKSIZE - 1) / BLOCKSIZE) = 0

/-- The calls on one file. -/
inductive FileCall where
  | write (u : Uio)
  | truncate (len : Nat)

/-- A write within the largest file. -/
structure WithinFile (u : Uio) : Prop where
  wf : u.WF
  rw : u.uio_rw = .UIO_WRITE
  nonneg : 0 ≤ u.uio_offset
  fits : u.uio_offset + u.uio_resid ≤ MAXBLOCKS * BLOCKSIZE

/-- The code leaves the state `s'`, with or without an error. -/
def Leaves {σ α : Type} (m : Kern σ Errno Panic α) (s s' : σ) : Prop := (∃ a, m s = .ok a s') ∨ ∃ e, m s = .err e s'

/-- File `i` is loaded as `v` on a consistent volume. -/
structure OpenFile (A : Set Nat) (v i : Nat) (s : Sfs) : Prop where
  inv : s.FsInv A
  mem : v ∈ s.sfs_vnodes
  ino : (s.sv v).sv_ino = i
  past : ZeroPastEnd i s

section Runs

variable {A : Set Nat} {v i len : Nat} {s s' : Sfs}

/-- A block that a truncation does not give back is the last one of the file or comes before it, or
is the one that is missed. -/
theorem not_pastEnd {bl k : Nat} (hk : k < MAXBLOCKS) : k ∉ PastEnd bl ↔ k < bl ∨ (k = bl ∧ NDIRECT ≤ k) := by
  unfold PastEnd
  simp only [Set.mem_ofPred_eq]
  omega

theorem blocklen_fits (h : len ≤ MAXBLOCKS * BLOCKSIZE) : blocklen len = (len + BLOCKSIZE - 1) / BLOCKSIZE := by
  have hM : MAXBLOCKS * BLOCKSIZE = 73216 := rfl
  have hB : BLOCKSIZE = 512 := rfl
  unfold blocklen
  rw [hB]
  omega

theorem blocks_le (h : len ≤ MAXBLOCKS * BLOCKSIZE) : (len + BLOCKSIZE - 1) / BLOCKSIZE ≤ MAXBLOCKS := by
  have hM : MAXBLOCKS * BLOCKSIZE = 73216 := rfl
  have hB : BLOCKSIZE = 512 := rfl
  have hMB : MAXBLOCKS = 143 := rfl
  rw [hB, hMB]
  omega

theorem slot_past (h : MAXBLOCKS ≤ k) : s.slot i k = 0 := by
  have hM : MAXBLOCKS = NDIRECT + DBPERIDB := rfl
  unfold slot
  rw [dif_neg (by omega), if_neg (by omega)]

theorem content_unmapped {p : Nat} (h : s.slot i (p / BLOCKSIZE) = 0) : s.content i p = 0 := by
  unfold content data
  rw [if_pos h]
  exact Block.byte_zeros _

/-- A truncation that misses nothing does what it is to do. -/
theorem Truncated.cutTo (h : Truncated A i len s s') (hpast : ZeroPastEnd i s) (hcond : NothingMissed i len s) :
    CutTo i len s s' := by
  have hM : MAXBLOCKS * BLOCKSIZE = 73216 := rfl
  have hB : BLOCKSIZE = 512 := rfl
  have hfits := hcond.fits
  have hbl := blocklen_fits hfits
  have hle := blocks_le hfits
  have hgone : ∀ k, (len + BLOCKSIZE - 1) / BLOCKSIZE ≤ k → s'.slot i k = 0 := by
    intro k hk
    by_cases hk' : k < MAXBLOCKS
    · by_cases hend : k ∈ PastEnd (blocklen len)
      · exact h.gone k hend
      · -- the block after the end, which has not been there before
        rw [h.kept k hend]
        rw [hbl, not_pastEnd hk'] at hend
        obtain ⟨rfl, hdirect⟩ : k = (len + BLOCKSIZE - 1) / BLOCKSIZE ∧ NDIRECT ≤ k := by omega
        exact hcond.next hdirect
    · exact slot_past (Nat.le_of_not_lt hk')
  have hbelow : ∀ p, p / BLOCKSIZE < (len + BLOCKSIZE - 1) / BLOCKSIZE → s'.content i p = s.content i p := by
    intro p hp
    unfold content
    rw [h.data]
    rw [hbl, not_pastEnd (by omega)]
    exact .inl hp
  have hzero : ∀ p, len ≤ p → s'.content i p = 0 := by
    intro p hp
    by_cases hlast : p / BLOCKSIZE < (len + BLOCKSIZE - 1) / BLOCKSIZE
    · rw [hbelow p hlast]
      exact hcond.tail p hp hlast
    · exact content_unmapped (hgone _ (Nat.le_of_not_lt hlast))
  have hkept : ∀ p, p < len → s'.content i p = s.content i p := by
    intro p hp
    apply hbelow
    rw [hB]
    omega
  constructor
  case size =>
    rw [h.size]
    exact Nat.mod_eq_of_lt (by omega)
  case kept => exact fun p hp _ => hkept p hp
  case zero =>
    intro p hp
    by_cases hlt : p < len
    · rw [hkept p hlt]
      exact hpast p (by omega)
    · exact hzero p (Nat.le_of_not_lt hlt)
  case unmapped => exact hgone

/-- `sfs_truncate` on an open file, as a run. -/
theorem OpenFile.truncated (h : OpenFile A v i s) (len : Nat) :
    ∃ s', sfs_truncate v len s = .ok () s' ∧ Truncated A i len s s' := by
  obtain ⟨_, s', hrun, htr⟩ := exists_ok_of_wp (wp_truncate len h.inv h.mem h.ino)
  exact ⟨s', hrun, htr⟩

/-- The end of a write leaves zeros past the end of the file, whatever it has moved. -/
theorem Wrote.past {u u' : Uio} {bytes l : List UInt8} (h : Wrote A i u.pos l u'.uio_offset s s')
    (hmoved : u.Moved u' bytes) (hl : l.length ≤ bytes.length) (hu : WithinFile u) (hpast : ZeroPastEnd i s) :
    ZeroPastEnd i s' := by
  have hM : MAXBLOCKS * BLOCKSIZE = 73216 := rfl
  have hnonneg := hu.nonneg
  have hfits := hu.fits
  have hresid := hmoved.resid
  have hoff := hmoved.offset
  have hpos : u.pos = u.uio_offset.toNat := by
    unfold Uio.pos
    omega
  intro p hp
  rw [h.size] at hp
  rw [h.content, splice_after]
  · apply hpast
    split at hp
    · omega
    · exact hp
  · split at hp
    · omega
    · omega

theorem OpenFile.write {u u' : Uio} (h : OpenFile A v i s) (hu : WithinFile u)
    (hrun : Leaves (sfs_io v) (s, u) (s', u')) : OpenFile A v i s' := by
  have hwp := wp_io_write ⟨h.inv, h.mem, h.ino, hu.wf⟩ hu.rw
  -- what was written, however far the request came
  obtain ⟨bytes, l, hmoved, hl, hwrote⟩ : ∃ bytes l, u.Moved u' bytes ∧ l.length ≤ bytes.length ∧
      Wrote A i u.pos l u'.uio_offset s s' := by
    unfold wp at hwp
    rcases hrun with ⟨a, hrun⟩ | ⟨e, hrun⟩
    · rw [hrun] at hwp
      obtain ⟨bytes, hd⟩ := hwp
      exact ⟨bytes, bytes, hd.moved, Nat.le_refl _, hd.wrote⟩
    · rw [hrun] at hwp
      obtain ⟨bytes, n, hf⟩ := hwp
      exact ⟨bytes, bytes.take n, hf.moved, List.length_take_le' _ _, hf.wrote⟩
  constructor
  case inv => exact hwrote.inv
  case mem =>
    rw [hwrote.only.vnodes]
    exact h.mem
  case ino => rw [hwrote.only.ino, h.ino]
  case past => exact hwrote.past hmoved hl hu h.past

theorem OpenFile.truncate (h : OpenFile A v i s) (hcond : NothingMissed i len s)
    (hrun : Leaves (sfs_truncate v len) s s') : OpenFile A v i s' := by
  obtain ⟨t, ht, htr⟩ := h.truncated len
  obtain rfl : t = s' := by
    rcases hrun with ⟨a, hrun⟩ | ⟨e, hrun⟩
    · rw [ht] at hrun
      cases hrun
      rfl
    · rw [ht] at hrun
      cases hrun
  have hcut := htr.cutTo h.past hcond
  constructor
  case inv => exact htr.inv
  case mem =>
    rw [htr.only.vnodes]
    exact h.mem
  case ino => rw [htr.only.ino, h.ino]
  case past =>
    intro p hp
    rw [hcut.size] at hp
    exact hcut.zero p (.inl hp)

end Runs

end OS161.Sfs
