import OS161.Lib.Types

/-! # `uio`: buffers that I/O is done into

The model of `kern/lib/uio.c`. A `uio` describes a caller's buffers and how much of them is
still to be transferred. Each buffer is kept by value: the part already passed over goes to
`moved`, the rest stays in `uio_iov`. `uio_resid` and the sizes are `size_t`, hence taken modulo
`2^32`; `uio_offset` is an `off_t`.
-/

namespace OS161

open Framework Kern

/-- Direction of a transfer. -/
inductive UioRw where
  | UIO_READ
  | UIO_WRITE
  deriving DecidableEq, Repr

/-- What kind of pointer the buffers are reached through. -/
inductive UioSeg where
  | UIO_USERISPACE
  | UIO_USERSPACE
  | UIO_SYSSPACE
  deriving DecidableEq, Repr

structure Uio where
  /-- What is left of each buffer. -/
  uio_iov : List (List UInt8)
  /-- The bytes transferred so far, in order. -/
  moved : List UInt8
  uio_offset : Int
  uio_resid : Nat
  uio_segflg : UioSeg
  uio_rw : UioRw
  /-- For user buffers: how many of the bytes left can be touched before an access faults; `none`
      when all of them can. -/
  uio_valid : Option Nat

namespace Uio

/-- The bytes left in the buffers. -/
def rest (u : Uio) : List UInt8 := u.uio_iov.flatten

/-- Whether copying the next `size` bytes faults. -/
def faults (u : Uio) (size : Nat) : Bool :=
  match u.uio_segflg, u.uio_valid with
  | .UIO_SYSSPACE, _ => false
  | _, none => false
  | _, some k => decide (k < size)

/-- The bookkeeping at the end of one turn of the loop of `uiomove`. -/
def advance (u : Uio) (iov : List (List UInt8)) (bytes : List UInt8) (size : Nat) : Uio :=
  { u with
    uio_iov := iov
    moved := u.moved ++ bytes
    uio_resid := (u.uio_resid + 2 ^ 32 - size) % 2 ^ 32
    uio_offset := u.uio_offset + size
    uio_valid := u.uio_valid.map (· - size) }

/-- Prepend the bytes of one turn of the loop to what the later turns move. -/
def prepend (bytes : List UInt8) :
    Outcome Uio Errno Panic (List UInt8) → Outcome Uio Errno Panic (List UInt8)
  | .ok more u => .ok (bytes ++ more) u
  | .err e u => .err e u
  | .panic p => .panic p

end Uio

/-- The loop of `uiomove`, by recursion on the buffers. Returns the bytes
moved: out of `ptr` when reading, into it when writing.

A buffer that is used up while there is still something to move is
left behind on the next turn; running past the last one is the panic. -/
def uiomoveLoop : List UInt8 → List (List UInt8) → Nat → Uio →
    Outcome Uio Errno Panic (List UInt8)
  | _, [], n, u =>
    if n = 0 ∨ u.uio_resid = 0 then .ok [] { u with uio_iov := [] }
    else .panic .uiomove_ran_out_of_buffers
  | ptr, v :: vs, n, u =>
    if n = 0 ∨ u.uio_resid = 0 then .ok [] { u with uio_iov := v :: vs }
    else if v = [] then uiomoveLoop ptr vs n u
    else
      let size := min v.length n
      if u.faults size then .err .efault { u with uio_iov := v :: vs }
      else
        -- memmove, copyout or copyin of `size` bytes
        let bytes := match u.uio_rw with
          | .UIO_READ => ptr.take size
          | .UIO_WRITE => v.take size
        let u' := u.advance (v.drop size :: vs) bytes size
        if n - size = 0 ∨ u'.uio_resid = 0 then .ok bytes u'
        else Uio.prepend bytes (uiomoveLoop (ptr.drop size) vs (n - size) u')

/-- `uiomove(ptr, n, uio)`. -/
def uiomove (ptr : List UInt8) (n : Nat) : Kern Uio Errno Panic (List UInt8) :=
  fun u => uiomoveLoop ptr u.uio_iov n u

/-- The loop of `uiomovezeros`; each turn moves at least one byte, so `n` turns are enough. -/
def uiomovezerosLoop : Nat → Nat → Kern Uio Errno Panic Unit
  | 0, _ => pure ()
  | turns + 1, n =>
    if n = 0 then pure ()
    else do
      let amt := min 16 n
      let _ ← uiomove (List.replicate 16 0) amt
      uiomovezerosLoop turns (n - amt)

/-- `uiomovezeros(n, uio)`: sends zeros, sixteen at a time. -/
def uiomovezeros (n : Nat) : Kern Uio Errno Panic Unit := uiomovezerosLoop n n

/-- `uio_kinit`: a transfer of `len` bytes from or to one kernel buffer. -/
def uio_kinit (kbuf : List UInt8) (pos : Int) (rw : UioRw) : Uio where
  uio_iov := [kbuf]
  moved := []
  uio_offset := pos
  uio_resid := kbuf.length
  uio_segflg := .UIO_SYSSPACE
  uio_rw := rw
  uio_valid := none

/-! ## What a transfer does -/

/-- `u'` is `u` after the bytes `bytes` have been transferred. -/
structure Uio.Moved (u u' : Uio) (bytes : List UInt8) : Prop where
  moved : u'.moved = u.moved ++ bytes
  rest : u'.rest = u.rest.drop bytes.length
  offset : u'.uio_offset = u.uio_offset + bytes.length
  resid : u'.uio_resid + bytes.length = u.uio_resid
  segflg : u'.uio_segflg = u.uio_segflg
  rw : u'.uio_rw = u.uio_rw
  valid : u'.uio_valid = u.uio_valid.map (· - bytes.length)

/-- The buffers hold what `uio_resid` promises. -/
structure Uio.WF (u : Uio) : Prop where
  enough : u.uio_resid ≤ u.rest.length
  range : u.uio_resid < 2 ^ 32

namespace Uio.Moved

theorem refl (u : Uio) : Moved u u [] where
  moved := by simp
  rest := by simp
  offset := by simp
  resid := by simp
  segflg := rfl
  rw := rfl
  valid := by simp

theorem trans {u u' u'' : Uio} {bytes more : List UInt8} (h : Moved u u' bytes)
    (h' : Moved u' u'' more) : Moved u u'' (bytes ++ more) where
  moved := by rw [h'.moved, h.moved, List.append_assoc]
  rest := by rw [h'.rest, h.rest, List.drop_drop, List.length_append]
  offset := by
    rw [h'.offset, h.offset, List.length_append]
    push_cast
    omega
  resid := by
    have h1 := h.resid
    have h2 := h'.resid
    rw [List.length_append]
    omega
  segflg := by rw [h'.segflg, h.segflg]
  rw := by rw [h'.rw, h.rw]
  valid := by
    rw [h'.valid, h.valid, List.length_append, Option.map_map]
    congr 1
    funext k
    simp only [Function.comp]
    omega

theorem wf {u u' : Uio} {bytes : List UInt8} (h : Moved u u' bytes) (hu : u.WF) : u'.WF where
  enough := by
    have h1 := h.resid
    have h2 := hu.enough
    rw [h.rest, List.length_drop]
    omega
  range := by
    have h1 := h.resid
    have h2 := hu.range
    omega

end Uio.Moved

/-- What `uiomove` returns: the caller's next bytes when writing, the bytes of `ptr` when
reading. -/
def Uio.next (u : Uio) (ptr : List UInt8) (n : Nat) : List UInt8 :=
  match u.uio_rw with
  | .UIO_READ => ptr.take n
  | .UIO_WRITE => u.rest.take n

/-- A transfer of `n` bytes has ended in a fault, part of the way. -/
structure Uio.Faulted (u : Uio) (n : Nat) (e : Errno) (u' : Uio) : Prop where
  errno : e = .efault
  segflg : u.uio_segflg ≠ .UIO_SYSSPACE
  valid : ∃ k, u.uio_valid = some k ∧ k < n
  moved : ∃ bytes, u.Moved u' bytes ∧ bytes.length < n

/-- The outcomes of `uiomove(ptr, n, uio)` when the buffers are large enough: all of the bytes are
moved, or some and then an access faults. -/
def Uio.MoveSpec (u : Uio) (ptr : List UInt8) (n : Nat) :
    Outcome Uio Errno Panic (List UInt8) → Prop
  | .ok bytes u' => u.Moved u' bytes ∧ bytes = u.next ptr n
  | .err e u' => u.Faulted n e u'
  | .panic _ => False

variable {u : Uio}

theorem Uio.faults_eq_true {size : Nat} (h : u.faults size = true) :
    u.uio_segflg ≠ .UIO_SYSSPACE ∧ ∃ k, u.uio_valid = some k ∧ k < size := by
  unfold faults at h
  split at h
  · cases h
  · cases h
  · rename_i hvalid hseg
    exact ⟨hseg, _, hvalid, by simpa using h⟩

theorem Uio.length_next {ptr : List UInt8} {n : Nat} (h : n ≤ u.rest.length)
    (hp : u.uio_rw = .UIO_READ → n ≤ ptr.length) : (u.next ptr n).length = n := by
  unfold next
  cases hrw : u.uio_rw with
  | UIO_READ => exact List.length_take_of_le (hp hrw)
  | UIO_WRITE => exact List.length_take_of_le h

/-- One turn of the loop that copies `size` bytes of the first buffer. -/
theorem Uio.advance_moved {v : List UInt8} (vs : List (List UInt8))
    {bytes : List UInt8} {size : Nat} (hs : size ≤ v.length) (hr : size ≤ u.uio_resid)
    (hm : u.uio_resid < 2 ^ 32) (hb : bytes.length = size) :
    Moved { u with uio_iov := v :: vs } (u.advance (v.drop size :: vs) bytes size) bytes where
  moved := rfl
  rest := by
    simp only [rest, advance, List.flatten_cons, hb]
    rw [List.drop_append_of_le_length hs]
  offset := by simp [advance, hb]
  resid := by
    have hmod : (u.uio_resid + 2 ^ 32 - size) % 2 ^ 32 = u.uio_resid - size := by
      rw [show u.uio_resid + 2 ^ 32 - size = (u.uio_resid - size) + 2 ^ 32 from by omega,
        Nat.add_mod_right, Nat.mod_eq_of_lt (by omega)]
    simp only [advance, hmod, hb]
    omega
  segflg := rfl
  rw := rfl
  valid := by simp [advance, hb]

/-- Only the bytes left matter, not how they are cut into buffers. -/
theorem Uio.Moved.of_flatten {u u' : Uio} {iov iov' : List (List UInt8)} {bytes : List UInt8}
    (h : iov.flatten = iov'.flatten) (hm : Moved { u with uio_iov := iov } u' bytes) :
    Moved { u with uio_iov := iov' } u' bytes :=
  { hm with
    rest := by
      have hrest := hm.rest
      simp only [Uio.rest] at hrest ⊢
      rw [hrest, h] }

theorem Uio.MoveSpec.of_flatten {iov iov' : List (List UInt8)} {ptr : List UInt8}
    {n : Nat} {o : Outcome Uio Errno Panic (List UInt8)} (h : iov.flatten = iov'.flatten)
    (hm : MoveSpec { u with uio_iov := iov } ptr n o) :
    MoveSpec { u with uio_iov := iov' } ptr n o := by
  cases o with
  | ok bytes u' =>
    refine ⟨hm.1.of_flatten h, ?_⟩
    rw [hm.2]
    simp only [next, Uio.rest, h]
  | err e u' =>
    obtain ⟨he, hseg, hvalid, bytes, hmoved, hlen⟩ := hm
    exact ⟨he, hseg, hvalid, bytes, hmoved.of_flatten h, hlen⟩
  | panic p => exact hm

/-- A turn that copies `size` bytes, followed by the turns that move the remaining `n - size`, moves
`n`. -/
theorem Uio.MoveSpec.prepend {u u' : Uio} {ptr bytes : List UInt8} {n size : Nat}
    {o : Outcome Uio Errno Panic (List UInt8)} (hsize : size ≤ n)
    (hlen : bytes.length = size) (hmoved : Moved u u' bytes)
    (hnext : u.next ptr n = bytes ++ u'.next (ptr.drop size) (n - size))
    (hrest : MoveSpec u' (ptr.drop size) (n - size) o) :
    MoveSpec u ptr n (Uio.prepend bytes o) := by
  cases o with
  | ok more u'' =>
    refine ⟨hmoved.trans hrest.1, ?_⟩
    rw [hnext, hrest.2]
  | err e u'' =>
    obtain ⟨he, hseg, ⟨k, hk, hkn⟩, more, hmore, hshort⟩ := hrest
    refine ⟨he, by rwa [hmoved.segflg] at hseg, ?_, bytes ++ more, hmoved.trans hmore, ?_⟩
    · rw [hmoved.valid, Option.map_eq_some_iff] at hk
      obtain ⟨k', hk', rfl⟩ := hk
      exact ⟨k', hk', by omega⟩
    · rw [List.length_append]
      omega
  | panic p => exact hrest

/-- Specification of the loop, by induction on the buffers. -/
theorem uiomoveLoop_spec (iov : List (List UInt8)) :
    ∀ (ptr : List UInt8) (n : Nat) (u : Uio), n ≤ u.uio_resid → u.uio_resid < 2 ^ 32 →
      n ≤ iov.flatten.length → (u.uio_rw = .UIO_READ → n ≤ ptr.length) →
      Uio.MoveSpec { u with uio_iov := iov } ptr n (uiomoveLoop ptr iov n u) := by
  induction iov with
  | nil =>
    intro ptr n u _ _ hn _
    have hn0 : n = 0 := by simpa using hn
    subst hn0
    rw [uiomoveLoop, if_pos (Or.inl rfl)]
    refine ⟨Uio.Moved.refl _, ?_⟩
    unfold Uio.next
    split <;> simp
  | cons v vs ih =>
    intro ptr n u hr hm hn hp
    rw [uiomoveLoop]
    by_cases hstop : n = 0 ∨ u.uio_resid = 0
    · -- nothing left to move
      have hn0 : n = 0 := by omega
      subst hn0
      rw [if_pos hstop]
      refine ⟨Uio.Moved.refl _, ?_⟩
      unfold Uio.next
      split <;> simp
    · rw [if_neg hstop]
      by_cases hv : v = []
      · -- an empty buffer is skipped
        subst hv
        rw [if_pos rfl]
        exact (ih ptr n u hr hm (by simpa using hn) hp).of_flatten (by simp)
      · rw [if_neg hv]
        dsimp only
        generalize hsz : min v.length n = size
        have hsn : size ≤ n := by omega
        have hsv : size ≤ v.length := by omega
        by_cases hf : u.faults size = true
        · rw [if_pos hf]
          obtain ⟨hseg, k, hk, hks⟩ := Uio.faults_eq_true hf
          exact ⟨rfl, hseg, ⟨k, hk, by omega⟩, [], Uio.Moved.refl _, by
            simp only [List.length_nil]; omega⟩
        · rw [if_neg hf]
          generalize hbytes : (match u.uio_rw with
            | .UIO_READ => ptr.take size
            | .UIO_WRITE => v.take size) = bytes
          have hlen : bytes.length = size := by
            subst hbytes
            cases hrw : u.uio_rw with
            | UIO_READ => exact List.length_take_of_le (by have := hp hrw; omega)
            | UIO_WRITE => exact List.length_take_of_le hsv
          have hmoved := Uio.advance_moved vs hsv (by omega : size ≤ u.uio_resid) hm hlen
          have hresid := hmoved.resid
          rw [hlen] at hresid
          dsimp only at hresid
          by_cases hend : n - size = 0 ∨
              (u.advance (v.drop size :: vs) bytes size).uio_resid = 0
          · -- the first buffer holds all that is asked for
            rw [if_pos hend]
            have hall : size = n := by omega
            refine ⟨hmoved, ?_⟩
            subst hbytes hall
            unfold Uio.next
            cases hrw : u.uio_rw with
            | UIO_READ => simp
            | UIO_WRITE => simp [Uio.rest, List.take_append_of_le_length hsv]
          · -- it is used up, and the others hold the rest
            rw [if_neg hend]
            have hused : size = v.length := by omega
            have hmore := ih (ptr.drop size) (n - size)
              (u.advance (v.drop size :: vs) bytes size) (by omega) (by omega)
              (by simp only [List.flatten_cons, List.length_append] at hn; omega)
              (fun h => by rw [List.length_drop]; have := hp h; omega)
            refine Uio.MoveSpec.prepend hsn hlen hmoved ?_
              (hmore.of_flatten (by simp [hused]))
            subst hbytes
            unfold Uio.next
            cases hrw : u.uio_rw with
            | UIO_READ =>
              simp only [Uio.advance, hrw]
              rw [← List.take_add, Nat.add_sub_cancel' hsn]
            | UIO_WRITE =>
              simp only [Uio.advance, hrw, Uio.rest, List.flatten_cons, hused,
                List.drop_length, List.nil_append, List.take_length]
              rw [List.take_append, List.take_of_length_le (by omega)]

/-- Specification of `uiomove`. -/
theorem wp_uiomove {ptr : List UInt8} {n : Nat} (hu : u.WF) (hn : n ≤ u.uio_resid)
    (hp : u.uio_rw = .UIO_READ → n ≤ ptr.length) :
    wp (uiomove ptr n) (fun bytes u' => u.Moved u' bytes ∧ bytes = u.next ptr n)
      (u.Faulted n) (fun _ => False) u := by
  have henough := hu.enough
  have hspec := uiomoveLoop_spec u.uio_iov ptr n u hn hu.range
    (by unfold Uio.rest at henough; omega) hp
  unfold wp uiomove
  cases h : uiomoveLoop ptr u.uio_iov n u <;> rw [h] at hspec <;> exact hspec

/-! ## Zeros -/

/-- The loop of `uiomovezeros` moves zeros only. -/
theorem wp_uiomovezerosLoop (turns : Nat) :
    ∀ (n : Nat) (u : Uio), n ≤ turns → u.WF → n ≤ u.uio_resid → u.uio_rw = .UIO_READ →
      wp (uiomovezerosLoop turns n) (fun _ u' => u.Moved u' (List.replicate n 0))
        (fun e u' => u.Faulted n e u') (fun _ => False) u := by
  induction turns with
  | zero =>
    intro n u hn _ _ _
    have h0 : n = 0 := by omega
    subst h0
    exact Uio.Moved.refl u
  | succ turns ih =>
    intro n u hn hu hr hrw
    unfold uiomovezerosLoop
    rw [wp_ite]
    by_cases h0 : n = 0
    · subst h0
      exact Uio.Moved.refl u
    · rw [if_neg h0, wp_bind]
      have hturn : wp (uiomove (List.replicate 16 0) (min 16 n)) _ _ _ u :=
        wp_uiomove hu (by omega) fun _ => by rw [List.length_replicate]; omega
      refine wp_post hturn ?_ ?_
      · rintro bytes u' ⟨hmoved, hbytes⟩
        have hzeros : bytes = List.replicate (min 16 n) 0 := by
          rw [hbytes]
          unfold Uio.next
          rw [hrw]
          show (List.replicate 16 0).take (min 16 n) = _
          rw [List.take_replicate, Nat.min_eq_left (Nat.min_le_left 16 n)]
        have hlen : bytes.length = min 16 n := by simp [hzeros]
        have hresid := hmoved.resid
        refine wp_post (ih (n - min 16 n) u' (by omega) (hmoved.wf hu) (by omega) (by rw [hmoved.rw, hrw]))
          ?_ ?_
        · intro _ u'' hrest
          have hall := hmoved.trans hrest
          rwa [hzeros, List.replicate_append_replicate, show min 16 n + (n - min 16 n) = n by omega] at hall
        · rintro e u'' ⟨he, hseg, ⟨k, hk, hlt⟩, more, hmore, hshort⟩
          refine ⟨he, hmoved.segflg ▸ hseg, ?_, bytes ++ more, hmoved.trans hmore, ?_⟩
          · rw [hmoved.valid, Option.map_eq_some_iff] at hk
            obtain ⟨k', hk', rfl⟩ := hk
            exact ⟨k', hk', by omega⟩
          · rw [List.length_append]
            omega
      · rintro e u' ⟨he, hseg, ⟨k, hk, hlt⟩, bytes, hmoved, hshort⟩
        exact ⟨he, hseg, ⟨k, hk, by omega⟩, bytes, hmoved, by omega⟩

/-- Specification of `uiomovezeros`. -/
theorem wp_uiomovezeros {n : Nat} (hu : u.WF) (hn : n ≤ u.uio_resid) (hrw : u.uio_rw = .UIO_READ) :
    wp (uiomovezeros n) (fun _ u' => u.Moved u' (List.replicate n 0)) (fun e u' => u.Faulted n e u')
      (fun _ => False) u :=
  wp_uiomovezerosLoop n n u (Nat.le_refl n) hu hn hrw

end OS161
