import OS161.Lib.Uio

/-! # How much `uiomove` moves

`uiomove` (`kern/lib/uio.c`) is to move `n` bytes or as many as `uio_resid` allows, whichever is
less. Its loop ends when one of the two is zero, but the size of a turn is only limited by the
buffer and by `n`. When the buffer goes on behind the end of the transfer, the last turn takes
too much, and `uio_resid` wraps around.

So the transfer is right for those calls that ask for no more than `uio_resid`, or whose buffers
have an end at `uio_resid`. For them one call is as good as several.
-/

namespace OS161

open Framework

/-- A `uio` for a transfer within the kernel, whose buffers hold what it promises. -/
structure Uio.Kernel (u : Uio) : Prop where
  segflg : u.uio_segflg = .UIO_SYSSPACE
  wf : u.WF

/-- A buffer ends where `resid` bytes have been transferred. -/
def EndsAt (iov : List (List UInt8)) (resid : Nat) : Prop :=
  ∃ used left, iov = used ++ left ∧ used.flatten.length = resid

/-- A transfer of `n` bytes does not have to stop within a buffer. -/
def Uio.Fits (u : Uio) (n : Nat) : Prop := n ≤ u.uio_resid ∨ EndsAt u.uio_iov u.uio_resid

/-- Calls of `uiomove` for the sizes `ns`, each with the part of the kernel's buffer behind that of the call before. -/
def uiomoves : List Nat → List UInt8 → Kern Uio Errno Panic (List UInt8)
  | [], _ => pure []
  | n :: ns, ptr => do
    let bytes ← uiomove ptr n
    let more ← uiomoves ns (ptr.drop n)
    pure (bytes ++ more)

/-- What a call for `n` bytes is to do. -/
structure Uio.MovesExactly (u : Uio) (n : Nat) : Prop where
  /-- The number of bytes is the smaller of `n` and `uio_resid`, and nothing else changes. -/
  amount : ∀ ptr : List UInt8, n ≤ ptr.length → ∃ u', uiomove ptr n u = .ok (u.next ptr (min n u.uio_resid)) u' ∧
    u.Moved u' (u.next ptr (min n u.uio_resid)) ∧ (u.next ptr (min n u.uio_resid)).length = min n u.uio_resid
  /-- Several calls have the effect of one. -/
  calls : ∀ (ptr : List UInt8) (ns : List Nat), ns.sum = n → n ≤ ptr.length → uiomoves ns ptr u = uiomove ptr n u

/-! ## Turns of the loop -/

section Turns

variable {u : Uio} {ptr v : List UInt8} {vs iov : List (List UInt8)} {n m : Nat}

/-- The bytes that a turn copies. -/
def Uio.turn (u : Uio) (ptr v : List UInt8) (size : Nat) : List UInt8 :=
  match u.uio_rw with
  | .UIO_READ => ptr.take size
  | .UIO_WRITE => v.take size

theorem Uio.turn_add (u : Uio) (ptr v : List UInt8) (k m : Nat) :
    u.turn ptr v (k + m) = u.turn ptr v k ++ u.turn (ptr.drop k) (v.drop k) m := by
  unfold turn
  cases u.uio_rw with
  | UIO_READ => exact List.take_add
  | UIO_WRITE => exact List.take_add

theorem Uio.length_turn {size : Nat} (hv : size ≤ v.length) (hp : size ≤ ptr.length) : (u.turn ptr v size).length = size := by
  unfold turn
  cases u.uio_rw with
  | UIO_READ => exact List.length_take_of_le hp
  | UIO_WRITE => exact List.length_take_of_le hv

theorem Uio.Kernel.faults (hseg : u.uio_segflg = .UIO_SYSSPACE) (size : Nat) : u.faults size = false := by
  unfold Uio.faults
  rw [hseg]

/-- Nothing is left to move. -/
theorem uiomoveLoop_stop (h : n = 0 ∨ u.uio_resid = 0) :
    uiomoveLoop ptr iov n u = .ok [] { u with uio_iov := iov } := by
  cases iov with
  | nil => rw [uiomoveLoop, if_pos h]
  | cons v vs => rw [uiomoveLoop, if_pos h]

/-- A buffer that is used up. -/
theorem uiomoveLoop_skip (h : ¬ (n = 0 ∨ u.uio_resid = 0)) : uiomoveLoop ptr ([] :: vs) n u = uiomoveLoop ptr vs n u := by
  rw [uiomoveLoop, if_neg h, if_pos rfl]

/-- The last turn of a call: the buffer has all that is asked for. -/
theorem uiomoveLoop_last (hseg : u.uio_segflg = .UIO_SYSSPACE) (h : ¬ (n = 0 ∨ u.uio_resid = 0)) (hn : n ≤ v.length) :
    uiomoveLoop ptr (v :: vs) n u = .ok (u.turn ptr v n) (u.advance (v.drop n :: vs) (u.turn ptr v n) n) := by
  have hv : v ≠ [] := by
    rintro rfl
    exact h (.inl (Nat.le_zero.mp hn))
  rw [uiomoveLoop, if_neg h, if_neg hv]
  dsimp only
  rw [Nat.min_eq_right hn, Uio.Kernel.faults hseg, if_neg (by decide), if_pos (.inl (Nat.sub_self n))]
  rfl

/-- A turn that uses up its buffer before the call is done. -/
theorem uiomoveLoop_more (hseg : u.uio_segflg = .UIO_SYSSPACE) (h : ¬ (n = 0 ∨ u.uio_resid = 0)) (hv : v ≠ [])
    (hn : v.length < n) : uiomoveLoop ptr (v :: vs) n u =
      Uio.prepend (u.turn ptr v v.length) (uiomoveLoop (ptr.drop v.length) ([] :: vs) (n - v.length)
        (u.advance ([] :: vs) (u.turn ptr v v.length) v.length)) := by
  rw [uiomoveLoop, if_neg h, if_neg hv]
  dsimp only
  rw [Nat.min_eq_left (Nat.le_of_lt hn), Uio.Kernel.faults hseg, if_neg (by decide), List.drop_length]
  by_cases hend : n - v.length = 0 ∨ (u.advance ([] :: vs) (u.turn ptr v v.length) v.length).uio_resid = 0
  · rw [uiomoveLoop_stop hend]
    refine (if_pos hend).trans ?_
    show _ = Outcome.ok (u.turn ptr v v.length ++ []) _
    rw [List.append_nil]
    rfl
  · rw [uiomoveLoop_skip hend]
    exact if_neg hend

/-- The loop takes its buffers from its argument. -/
theorem uiomoveLoop_iov (iov' : List (List UInt8)) :
    uiomoveLoop ptr iov n { u with uio_iov := iov' } = uiomoveLoop ptr iov n u := by
  induction iov with
  | nil => rfl
  | cons v vs ih =>
    unfold uiomoveLoop
    rw [ih]
    rfl

theorem Uio.advance_advance {iov' : List (List UInt8)} {bytes more : List UInt8} {k : Nat} (hresid : k + m ≤ u.uio_resid)
    (hrange : u.uio_resid < 2 ^ 32) :
    (u.advance iov bytes k).advance iov' more m = u.advance iov' (bytes ++ more) (k + m) := by
  unfold advance
  congr 1
  · exact List.append_assoc _ _ _
  · push_cast
    omega
  · show ((u.uio_resid + 2 ^ 32 - k) % 2 ^ 32 + 2 ^ 32 - m) % 2 ^ 32 = _
    omega
  · show Option.map _ (Option.map _ _) = _
    rw [Option.map_map]
    congr 1
    funext x
    exact Nat.sub_sub x k m

theorem Uio.advance_resid {bytes : List UInt8} {k : Nat} (hk : k ≤ u.uio_resid) (hrange : u.uio_resid < 2 ^ 32) :
    (u.advance iov bytes k).uio_resid = u.uio_resid - k := by
  show (u.uio_resid + 2 ^ 32 - k) % 2 ^ 32 = _
  omega

end Turns

/-! ## Ends of buffers -/

variable {vs : List (List UInt8)}

theorem endsAt_cons {v : List UInt8} {resid : Nat} :
    EndsAt (v :: vs) resid ↔ resid = 0 ∨ v.length ≤ resid ∧ EndsAt vs (resid - v.length) := by
  constructor
  · rintro ⟨used, left, hiov, hlen⟩
    cases used with
    | nil => exact .inl hlen.symm
    | cons w used =>
      obtain ⟨rfl, rfl⟩ := List.cons.inj hiov
      rw [List.flatten_cons, List.length_append] at hlen
      exact .inr ⟨by omega, used, left, rfl, by omega⟩
  · rintro (rfl | ⟨hle, used, left, rfl, hlen⟩)
    · exact ⟨[], v :: vs, rfl, rfl⟩
    · refine ⟨v :: used, left, rfl, ?_⟩
      rw [List.flatten_cons, List.length_append]
      omega

theorem endsAt_zero (iov : List (List UInt8)) : EndsAt iov 0 := ⟨[], iov, rfl, rfl⟩

/-- With a buffer that ends there, the transfer stops at `uio_resid`. -/
theorem uiomoveLoop_endsAt (iov : List (List UInt8)) : ∀ {ptr : List UInt8} {n : Nat} {u : Uio},
    u.uio_segflg = .UIO_SYSSPACE → u.uio_resid < 2 ^ 32 → EndsAt iov u.uio_resid → u.uio_resid ≤ n →
      uiomoveLoop ptr iov n u = uiomoveLoop ptr iov u.uio_resid u := by
  induction iov with
  | nil =>
    rintro ptr n u _ _ ⟨used, left, hiov, hlen⟩ _
    obtain ⟨rfl, -⟩ := List.append_eq_nil_iff.mp hiov.symm
    have hzero : u.uio_resid = 0 := hlen.symm
    rw [uiomoveLoop_stop (.inr hzero), uiomoveLoop_stop (.inr hzero)]
  | cons v vs ih =>
    intro ptr n u hseg hrange hends hn
    by_cases hzero : u.uio_resid = 0
    · rw [uiomoveLoop_stop (.inr hzero), uiomoveLoop_stop (.inr hzero)]
    · have hgo : ∀ k, u.uio_resid ≤ k → ¬ (k = 0 ∨ u.uio_resid = 0) := by omega
      obtain hzero' | ⟨hle, hrest⟩ := endsAt_cons.mp hends
      · exact absurd hzero' hzero
      by_cases hv : v = []
      · subst hv
        rw [uiomoveLoop_skip (hgo n hn), uiomoveLoop_skip (hgo _ (Nat.le_refl _))]
        exact ih hseg hrange hrest hn
      · by_cases heq : n = u.uio_resid
        · rw [heq]
        -- the buffer is used up in both calls, and what follows is the induction hypothesis
        by_cases hlast : v.length = u.uio_resid
        · rw [uiomoveLoop_more hseg (hgo n hn) hv (by omega), uiomoveLoop_last hseg (hgo _ (Nat.le_refl _)) (by omega)]
          rw [uiomoveLoop_stop (.inr (by rw [Uio.advance_resid hle hrange]; omega)), ← hlast, List.drop_length]
          simp only [Uio.prepend, List.append_nil]
          rfl
        · have hresid := @Uio.advance_resid u ([] :: vs) (u.turn ptr v v.length) v.length hle hrange
          rw [uiomoveLoop_more hseg (hgo n hn) hv (by omega), uiomoveLoop_more hseg (hgo _ (Nat.le_refl _)) hv (by omega),
            uiomoveLoop_skip (by omega), uiomoveLoop_skip (by omega)]
          have hnext := @ih (ptr.drop v.length) (n - v.length)
            (u.advance ([] :: vs) (u.turn ptr v v.length) v.length) hseg (by omega) (by rw [hresid]; exact hrest)
            (by omega)
          rw [hnext, hresid]

/-! ## Several calls -/

/-- A call for `n + m` bytes is a call for `n` and then one for `m`. -/
def CallSplits (ptr : List UInt8) (iov : List (List UInt8)) (n m : Nat) (u : Uio) : Prop :=
  ∃ bytes u', uiomoveLoop ptr iov n u = .ok bytes u' ∧ u'.Kernel ∧ u'.Fits m ∧
    uiomoveLoop ptr iov (n + m) u = Uio.prepend bytes (uiomove (ptr.drop n) m u')

/-- So do all calls that do not have to stop within one of these buffers. -/
def Splits (iov : List (List UInt8)) : Prop :=
  ∀ (ptr : List UInt8) (n m : Nat) (u : Uio), u.uio_segflg = .UIO_SYSSPACE → u.uio_resid < 2 ^ 32 →
    u.uio_resid ≤ iov.flatten.length → (n + m ≤ u.uio_resid ∨ EndsAt iov u.uio_resid) → CallSplits ptr iov n m u

theorem Uio.prepend_nil (o : Outcome Uio Errno Panic (List UInt8)) : Uio.prepend [] o = o := by
  cases o <;> rfl

theorem Uio.prepend_append (bytes more : List UInt8) (o : Outcome Uio Errno Panic (List UInt8)) :
    Uio.prepend (bytes ++ more) o = Uio.prepend bytes (Uio.prepend more o) := by
  cases o with
  | ok rest u => exact congrArg (Outcome.ok · u) (List.append_assoc _ _ _)
  | err e u => rfl
  | panic p => rfl

/-- A call that has nothing to do. -/
theorem CallSplits.stop {iov : List (List UInt8)} {ptr : List UInt8} {n m : Nat} {u : Uio}
    (hseg : u.uio_segflg = .UIO_SYSSPACE) (hrange : u.uio_resid < 2 ^ 32) (henough : u.uio_resid ≤ iov.flatten.length)
    (hfits : n + m ≤ u.uio_resid ∨ EndsAt iov u.uio_resid) (h : n = 0 ∨ u.uio_resid = 0) :
    CallSplits ptr iov n m u := by
  refine ⟨[], { u with uio_iov := iov }, uiomoveLoop_stop h, ⟨hseg, henough, hrange⟩, ?_, ?_⟩
  · rcases hfits with hle | hends
    · exact .inl (Nat.le_trans (Nat.le_add_left m n) hle)
    · exact .inr hends
  · rw [Uio.prepend_nil]
    show _ = uiomoveLoop (ptr.drop n) iov m { u with uio_iov := iov }
    rw [uiomoveLoop_iov (u := u) iov]
    rcases h with rfl | hzero
    · rw [Nat.zero_add, List.drop_zero]
    · rw [uiomoveLoop_stop (.inr hzero), uiomoveLoop_stop (.inr hzero)]

theorem Splits.skip (h : Splits vs) : Splits ([] :: vs) := by
  intro ptr n m u hseg hrange henough hfits
  by_cases hstop : n = 0 ∨ u.uio_resid = 0
  · exact .stop hseg hrange henough hfits hstop
  · unfold CallSplits
    rw [uiomoveLoop_skip hstop, uiomoveLoop_skip (by omega)]
    apply h ptr n m u hseg hrange henough
    rcases hfits with hle | hends
    · exact .inl hle
    · rcases endsAt_cons.mp hends with hzero | ⟨-, hends⟩
      · exact absurd (.inr hzero) hstop
      · exact .inr hends

/-- The first call ends within the first buffer. -/
theorem CallSplits.within {ptr v : List UInt8} {n m : Nat} {u : Uio}
    (hseg : u.uio_segflg = .UIO_SYSSPACE) (hrange : u.uio_resid < 2 ^ 32)
    (henough : u.uio_resid ≤ (v :: vs).flatten.length) (hfits : n + m ≤ u.uio_resid ∨ EndsAt (v :: vs) u.uio_resid)
    (hgo : ¬ (n = 0 ∨ u.uio_resid = 0)) (hn : n ≤ v.length) : CallSplits ptr (v :: vs) n m u := by
  have hfits' : n + m ≤ u.uio_resid ∨ v.length ≤ u.uio_resid ∧ EndsAt vs (u.uio_resid - v.length) := by
    rcases hfits with hle | hends
    · exact .inl hle
    · exact .inr ((endsAt_cons.mp hends).resolve_left fun hzero => hgo (.inr hzero))
  have hnr : n ≤ u.uio_resid := by omega
  have hdrop : (v.drop n).length = v.length - n := List.length_drop
  generalize hu' : u.advance (v.drop n :: vs) (u.turn ptr v n) n = u'
  have hresid : u'.uio_resid = u.uio_resid - n := by
    rw [← hu', Uio.advance_resid hnr hrange]
  have hiov : u'.uio_iov = v.drop n :: vs := by
    rw [← hu']
    rfl
  have hseg' : u'.uio_segflg = .UIO_SYSSPACE := by
    rw [← hu']
    exact hseg
  have hturn : ∀ p w k, u'.turn p w k = u.turn p w k := by
    intro p w k
    rw [← hu']
    rfl
  refine ⟨u.turn ptr v n, u', ?_, ⟨hseg', ?_, by omega⟩, ?_, ?_⟩
  · rw [uiomoveLoop_last hseg hgo hn, hu']
  · rw [Uio.rest, hiov, hresid]
    simp only [List.flatten_cons, List.length_append] at henough ⊢
    omega
  · rcases hfits' with hle | ⟨hle, hends⟩
    · exact .inl (by omega)
    · refine .inr ?_
      rw [hiov, hresid]
      refine endsAt_cons.mpr (.inr ⟨by omega, ?_⟩)
      rwa [hdrop, show u.uio_resid - n - (v.length - n) = u.uio_resid - v.length by omega]
  · -- the second call goes on in what is left of the buffer
    unfold uiomove
    rw [hiov]
    by_cases hm : m = 0
    · rw [uiomoveLoop_stop (.inl hm), hm, Nat.add_zero, uiomoveLoop_last hseg hgo hn, hu', ← hiov]
      show _ = Outcome.ok (_ ++ []) _
      rw [List.append_nil]
    · by_cases hend : n = v.length
      · subst hend
        have hv : v ≠ [] := by
          rintro rfl
          exact hgo (.inl rfl)
        rw [List.drop_length] at hu' ⊢
        rw [uiomoveLoop_more hseg (by omega) hv (by omega), Nat.add_sub_cancel_left, hu']
      · have hgo' : ¬ (m = 0 ∨ u'.uio_resid = 0) := by omega
        by_cases hlast : n + m ≤ v.length
        · rw [uiomoveLoop_last hseg (by omega) hlast, uiomoveLoop_last hseg' hgo' (by omega), hturn, List.drop_drop, ← hu',
            Uio.advance_advance (by omega) hrange, Uio.turn_add]
          rfl
        · have hne : v.drop n ≠ [] := by
            intro hnil
            rw [hnil] at hdrop
            exact hend (by simp at hdrop; omega)
          have hv : v ≠ [] := by
            rintro rfl
            exact hne List.drop_nil
          have hsum : v.length = n + (v.length - n) := by omega
          rw [uiomoveLoop_more hseg (by omega) hv (by omega), uiomoveLoop_more hseg' hgo' hne (by omega), hturn, hdrop,
            ← Uio.prepend_append, List.drop_drop, ← hu', Uio.advance_advance (by omega) hrange, ← Uio.turn_add, ← hsum,
            show m - (v.length - n) = n + m - v.length by omega]

theorem splits (iov : List (List UInt8)) : Splits iov := by
  induction iov with
  | nil =>
    intro ptr n m u hseg hrange henough hfits
    exact .stop hseg hrange henough hfits (.inr (Nat.le_zero.mp henough))
  | cons v vs ih =>
    intro ptr n m u hseg hrange henough hfits
    by_cases hstop : n = 0 ∨ u.uio_resid = 0
    · exact .stop hseg hrange henough hfits hstop
    by_cases hn : n ≤ v.length
    · exact .within hseg hrange henough hfits hstop hn
    by_cases hv : v = []
    · subst hv
      exact ih.skip ptr n m u hseg hrange henough hfits
    -- both calls use up the first buffer
    have hle : v.length ≤ u.uio_resid := by
      rcases hfits with hle | hends
      · omega
      · rcases endsAt_cons.mp hends with hzero | ⟨hle, -⟩
        · exact absurd (.inr hzero) hstop
        · exact hle
    generalize hu₁ : u.advance ([] :: vs) (u.turn ptr v v.length) v.length = u₁
    have hresid : u₁.uio_resid = u.uio_resid - v.length := by
      rw [← hu₁, Uio.advance_resid hle hrange]
    have hseg₁ : u₁.uio_segflg = .UIO_SYSSPACE := by
      rw [← hu₁]
      exact hseg
    have henough₁ : u₁.uio_resid ≤ ([] :: vs).flatten.length := by
      simp only [List.flatten_cons, List.length_append, List.nil_append] at henough ⊢
      omega
    have hfits₁ : n - v.length + m ≤ u₁.uio_resid ∨ EndsAt ([] :: vs) u₁.uio_resid := by
      rcases hfits with hsum | hends
      · exact .inl (by omega)
      · rcases endsAt_cons.mp hends with hzero | ⟨-, hends⟩
        · exact absurd (.inr hzero) hstop
        · exact .inr (endsAt_cons.mpr (.inr ⟨Nat.zero_le _, by rw [hresid]; exact hends⟩))
    obtain ⟨bytes, u', hrun, hkernel, hfits', hboth⟩ :=
      ih.skip (ptr.drop v.length) (n - v.length) m u₁ hseg₁ (by omega) henough₁ hfits₁
    refine ⟨u.turn ptr v v.length ++ bytes, u', ?_, hkernel, hfits', ?_⟩
    · rw [uiomoveLoop_more hseg hstop hv (by omega), hu₁, hrun]
      rfl
    · rw [List.drop_drop, Nat.add_sub_cancel' (by omega)] at hboth
      rw [uiomoveLoop_more hseg (by omega) hv (by omega), hu₁, show n + m - v.length = n - v.length + m by omega, hboth,
        Uio.prepend_append]

theorem uiomoves_eq (ns : List Nat) : ∀ {ptr : List UInt8} {u : Uio}, u.Kernel → u.Fits ns.sum →
    uiomoves ns ptr u = uiomove ptr ns.sum u := by
  induction ns with
  | nil =>
    intro ptr u _ _
    exact (uiomoveLoop_stop (.inl rfl)).symm
  | cons n ns ih =>
    intro ptr u hu hfits
    rw [List.sum_cons] at hfits ⊢
    obtain ⟨bytes, u', hrun, hkernel, hfits', hboth⟩ :=
      splits u.uio_iov ptr n ns.sum u hu.segflg hu.wf.range hu.wf.enough hfits
    have hfirst : uiomove ptr n u = .ok bytes u' := hrun
    unfold uiomoves
    rw [Kern.bind_run_ok hfirst]
    refine Eq.trans ?_ hboth.symm
    show Kern.andThen (uiomoves ns (ptr.drop n)) (fun more => pure (bytes ++ more)) u' = _
    unfold Kern.andThen
    rw [ih hkernel hfits']
    cases uiomove (ptr.drop n) ns.sum u' <;> rfl

/-! ## Too much -/

/-- More than `resid` bytes have been moved, if the call has succeeded at all. -/
def Overrun (resid : Nat) : Outcome Uio Errno Panic (List UInt8) → Prop
  | .ok bytes _ => resid < bytes.length
  | .err _ _ => True
  | .panic _ => True

theorem Overrun.prepend {resid : Nat} {bytes : List UInt8} {o : Outcome Uio Errno Panic (List UInt8)}
    (h : resid < bytes.length ∨ Overrun (resid - bytes.length) o) : Overrun resid (Uio.prepend bytes o) := by
  cases o with
  | ok more u =>
    show resid < (bytes ++ more).length
    rw [List.length_append]
    rcases h with h | h
    · omega
    · have hmore : resid - bytes.length < more.length := h
      omega
  | err e u => trivial
  | panic p => trivial

/-- Without a buffer that ends there, the transfer goes beyond `uio_resid`. -/
theorem uiomoveLoop_overrun (iov : List (List UInt8)) : ∀ {ptr : List UInt8} {n : Nat} {u : Uio},
    u.uio_segflg = .UIO_SYSSPACE → u.uio_resid < 2 ^ 32 → u.uio_resid ≤ iov.flatten.length →
      ¬ EndsAt iov u.uio_resid → u.uio_resid < n → n ≤ ptr.length →
        Overrun u.uio_resid (uiomoveLoop ptr iov n u) := by
  induction iov with
  | nil =>
    intro ptr n u _ _ henough hends _ _
    exact absurd (Nat.le_zero.mp henough ▸ endsAt_zero []) hends
  | cons v vs ih =>
    intro ptr n u hseg hrange henough hends hn hptr
    have hzero : u.uio_resid ≠ 0 := fun hzero => hends (hzero ▸ endsAt_zero _)
    have hgo : ¬ (n = 0 ∨ u.uio_resid = 0) := by omega
    rw [List.flatten_cons, List.length_append] at henough
    by_cases hle : v.length ≤ u.uio_resid
    · have hrest : ¬ EndsAt vs (u.uio_resid - v.length) := fun h => hends (endsAt_cons.mpr (.inr ⟨hle, h⟩))
      by_cases hv : v = []
      · subst hv
        rw [uiomoveLoop_skip hgo]
        exact ih hseg hrange (by simpa using henough) hrest hn hptr
      · have hlt : v.length ≠ u.uio_resid := by
          intro heq
          rw [heq, Nat.sub_self] at hrest
          exact hrest (endsAt_zero vs)
        have hresid := @Uio.advance_resid u ([] :: vs) (u.turn ptr v v.length) v.length hle hrange
        have hlen : (u.turn ptr v v.length).length = v.length := Uio.length_turn (Nat.le_refl _) (by omega)
        have hmore := @ih (ptr.drop v.length) (n - v.length) (u.advance ([] :: vs) (u.turn ptr v v.length) v.length)
          hseg (by omega) (by omega) (by rw [hresid]; exact hrest) (by omega) (by rw [List.length_drop]; omega)
        rw [uiomoveLoop_more hseg hgo hv (by omega), uiomoveLoop_skip (by omega)]
        apply Overrun.prepend
        rw [hresid] at hmore
        rw [hlen]
        exact .inr hmore
    · -- this buffer goes on behind the end of the transfer
      by_cases hlast : n ≤ v.length
      · rw [uiomoveLoop_last hseg hgo hlast]
        show u.uio_resid < (u.turn ptr v n).length
        rwa [Uio.length_turn hlast hptr]
      · have hv : v ≠ [] := by
          rintro rfl
          exact hle (Nat.zero_le _)
        rw [uiomoveLoop_more hseg hgo hv (by omega)]
        apply Overrun.prepend
        rw [Uio.length_turn (Nat.le_refl _) (by omega)]
        exact .inl (by omega)

/-! ## The condition -/

theorem Uio.Kernel.uiomove_fits {u : Uio} {n : Nat} (hu : u.Kernel) (hfits : u.Fits n) (ptr : List UInt8) :
    uiomove ptr n u = uiomove ptr (min n u.uio_resid) u := by
  by_cases hn : n ≤ u.uio_resid
  · rw [Nat.min_eq_left hn]
  · rw [Nat.min_eq_right (by omega)]
    exact uiomoveLoop_endsAt u.uio_iov hu.segflg hu.wf.range (hfits.resolve_left hn) (by omega)

/-- **`uiomove` moves exactly what the `uio` allows** just when the transfer does not have to stop within a buffer. -/
theorem uiomove_exact_iff {u : Uio} (hu : u.Kernel) (n : Nat) : u.MovesExactly n ↔ u.Fits n := by
  have hmin : min n u.uio_resid ≤ u.uio_resid := Nat.min_le_right _ _
  have henough := hu.wf.enough
  constructor
  · intro h
    by_cases hfits : u.Fits n
    · exact hfits
    · rw [Uio.Fits, not_or, Nat.not_le] at hfits
      obtain ⟨hlt, hends⟩ := hfits
      have hzeros : (List.replicate n (0 : UInt8)).length = n := List.length_replicate
      have hover := uiomoveLoop_overrun u.uio_iov hu.segflg hu.wf.range henough hends hlt (Nat.le_of_eq hzeros.symm)
      obtain ⟨u', hrun, -, hlen⟩ := h.amount _ (Nat.le_of_eq hzeros.symm)
      rw [show uiomoveLoop _ u.uio_iov n u = _ from hrun, Overrun, hlen] at hover
      omega
  · intro hfits
    constructor
    · intro ptr hptr
      have hp : u.uio_rw = .UIO_READ → min n u.uio_resid ≤ ptr.length := fun _ => by omega
      have hlen := Uio.length_next (Nat.le_trans hmin henough) hp
      rw [hu.uiomove_fits hfits ptr]
      have hwp := wp_uiomove hu.wf hmin hp
      unfold Kern.wp at hwp
      cases hrun : uiomove ptr (min n u.uio_resid) u with
      | ok bytes u' =>
        rw [hrun] at hwp
        obtain ⟨hmoved, rfl⟩ := hwp
        exact ⟨u', rfl, hmoved, hlen⟩
      | err e u' =>
        rw [hrun] at hwp
        exact absurd hu.segflg hwp.segflg
      | panic p =>
        rw [hrun] at hwp
        exact hwp.elim
    · rintro ptr ns rfl _
      exact uiomoves_eq ns hu hfits

/-- A transfer of at most 5 bytes into a buffer of 10. -/
def sampleTransfer : Uio where
  uio_iov := [List.replicate 10 0]
  moved := []
  uio_offset := 0
  uio_resid := 5
  uio_segflg := .UIO_SYSSPACE
  uio_rw := .UIO_READ
  uio_valid := none

theorem sampleTransfer_kernel : sampleTransfer.Kernel := ⟨rfl, by decide, by decide⟩

/-- A call for 3 bytes, and one for 9 into buffers of 2, 0, 3 and 7 bytes. -/
theorem uiomove_exact_sample : sampleTransfer.MovesExactly 3 ∧
    { sampleTransfer with uio_iov := [[0, 0], [], [0, 0, 0], List.replicate 7 0] }.MovesExactly 9 :=
  ⟨(uiomove_exact_iff sampleTransfer_kernel 3).mpr (.inl (by decide)),
    (uiomove_exact_iff ⟨rfl, by decide, by decide⟩ 9).mpr
      (.inr ⟨[[0, 0], [], [0, 0, 0]], [List.replicate 7 0], rfl, rfl⟩)⟩

/-- **A call for 10 bytes moves all of them**, and the residual count wraps around; a call for 11 panics. -/
theorem uiomove_overruns : sampleTransfer.Kernel ∧ ¬ sampleTransfer.MovesExactly 10 ∧
    (match uiomove (List.replicate 10 1) 10 sampleTransfer with
      | .ok bytes u' => some (bytes.length, u'.uio_resid, u'.uio_offset)
      | _ => none) = some (10, 2 ^ 32 - 5, 10) ∧
    (match uiomove (List.replicate 11 1) 11 sampleTransfer with
      | .panic p => some p
      | _ => none) = some .uiomove_ran_out_of_buffers := by
  have hten : (match uiomove (List.replicate 10 1) 10 sampleTransfer with
      | .ok bytes u' => some (bytes.length, u'.uio_resid, u'.uio_offset)
      | _ => none) = some (10, 2 ^ 32 - 5, 10) := by decide
  refine ⟨sampleTransfer_kernel, ?_, hten, by decide⟩
  intro h
  obtain ⟨u', hrun, -, hlen⟩ := h.amount (List.replicate 10 1) (by decide)
  rw [hrun] at hten
  have hmoved := congrArg Prod.fst (Option.some.inj hten)
  exact absurd (hmoved.symm.trans hlen) (by decide)

end OS161
