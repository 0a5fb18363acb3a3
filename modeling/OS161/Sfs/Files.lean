import OS161.Sfs.Truncate

/-! # The files of a volume

Writes and truncations on all loaded files, in any order and with every error.
-/

namespace OS161.Sfs

open Framework Kern

/-- The calls on the loaded vnodes, from the volume `s₀` on. -/
def volumeSystem (s₀ : Sfs) : System Sfs (Nat × FileCall) where
  init := (· = s₀)
  step := fun s (v, call) s' => v ∈ s.sfs_vnodes ∧
    match call with
    | .write u => u.WF ∧ u.uio_rw = .UIO_WRITE ∧ ∃ u', Leaves (sfs_io v) (s, u) (s', u')
    | .truncate len => Leaves (sfs_truncate v len) s s'

/-- Once a write has succeeded, a read of its range returns its bytes, however often other files
are written and truncated in between. -/
structure ReadsBack (v i : Nat) (s₀ : Sfs) (u : Uio) : Prop where
  back : wp (sfs_io v) (fun _ t => ∀ s u',
      ((volumeSystem t.1).restrict fun s a => (s.sv a.1).sv_ino ≠ i).Reachable s →
      u'.WF → u'.uio_rw = .UIO_READ → u'.uio_offset = u.uio_offset → u'.uio_resid = u.uio_resid →
      wp (sfs_io v) (fun _ r => u'.Moved r.2 (u.rest.take u.uio_resid) ∧ r.1 = s) (ReadFailed i s u')
        (fun _ => False) (s, u'))
    (fun _ _ => True) (fun _ => False) (s₀, u)

variable {A : Set Nat} {s₀ s s' : Sfs}

theorem volume_step {a : Nat × FileCall} (h : s.FsInv A) (hstep : (volumeSystem s₀).step s a s') :
    s'.FsInv A ∧ Only A (s.sv a.1).sv_ino s s' := by
  obtain ⟨v, call⟩ := a
  obtain ⟨hv, hstep⟩ := hstep
  cases call with
  | write u =>
    obtain ⟨hu, hrw, u', hrun⟩ := hstep
    have hwp := wp_io_write ⟨h, hv, rfl, hu⟩ hrw
    rcases hrun with ⟨_, hrun⟩ | ⟨_, hrun⟩
    · obtain ⟨_, hd⟩ := wp_ok hrun hwp
      exact ⟨hd.wrote.inv, hd.wrote.only⟩
    · obtain ⟨_, _, hf⟩ := wp_err hrun hwp
      exact ⟨hf.wrote.inv, hf.wrote.only⟩
  | truncate len =>
    have hwp := wp_truncate len h hv rfl
    rcases hstep with ⟨_, hrun⟩ | ⟨_, hrun⟩
    · have htr := wp_ok hrun hwp
      exact ⟨htr.inv, htr.only⟩
    · exact (wp_err hrun hwp).elim

/-- **What was written is read back.** -/
theorem reads_back {v i : Nat} {u : Uio} (h₀ : Ready A v i s₀ u) (hu : WithinFile u) :
    ReadsBack v i s₀ u := by
  have hi : i ∈ A := h₀.ino ▸ h₀.inv.loaded v h₀.mem
  refine ⟨wp_post (wp_io_write h₀ hu.rw) ?_ (fun _ _ _ => trivial)⟩
  intro _ t ⟨bytes, hd⟩ s u' h hu' hrw hoff hresid
  -- the file is as the write has left it
  obtain ⟨hready, hagree⟩ : Ready A v i s u' ∧ Agree t.1 s i := by
    refine System.invariant (I := fun s => Ready A v i s u' ∧ Agree t.1 s i) ?_ ?_ h
    · rintro _ rfl
      have honly := hd.wrote.only
      exact ⟨⟨hd.wrote.inv, honly.vnodes ▸ h₀.mem, (honly.ino v).trans h₀.ino, hu'⟩, .refl _ _⟩
    · intro s a s' ⟨hs, hagree⟩ ⟨hne, hstep⟩
      obtain ⟨hinv, honly⟩ := volume_step hs.inv hstep
      exact ⟨⟨hinv, honly.vnodes ▸ hs.mem, (honly.ino v).trans hs.ino, hu'⟩,
        hagree.trans (honly.others i hi hne.symm)⟩
  have hnonneg := hu.nonneg
  have hfits : _ ≤ (73216 : Int) := hu.fits
  have hend := hd.moved.offset
  have hall := hd.all
  refine wp_imp (wp_io_read hready hrw (hoff ▸ hnonneg)) ?_
  intro _ r ⟨bytes', hr⟩
  have hlen : bytes'.length = bytes.length := by
    rw [hr.length, hagree.ifield, hd.wrote.size, hresid, hoff]
    split <;> omega
  have hpos : u'.pos = u.pos := congrArg (fun o : Int => (o % 2 ^ 41).toNat) hoff
  have hsame : bytes' = bytes := by
    rw [hr.reads, hlen, hpos, funext hagree.content, hd.wrote.content, slice_splice]
  rw [← hd.source, ← hsame]
  exact ⟨hr.moved, hr.same⟩

theorem reads_back_byte : ReadsBack 0 3 (sparse 0) (uio_kinit [7] 100 .UIO_WRITE) := by
  have hwf : (uio_kinit [7] 100 .UIO_WRITE).WF := ⟨Nat.le_refl 1, by show 1 < 2 ^ 32; decide⟩
  have hready : Ready {ROOT_LOCATION, 3} 0 3 (sparse 0) (uio_kinit [7] 100 .UIO_WRITE) :=
    ⟨sparse_inv, List.mem_singleton.mpr rfl, rfl, hwf⟩
  exact reads_back hready ⟨hwf, rfl, by decide, by decide⟩

end OS161.Sfs
