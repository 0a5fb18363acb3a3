import OS161.Framework.BigEndian
import OS161.Lib.Types

/-! # User memory and copies to it

The model of `copyout` and `copyoutstr` (`kern/vm/copyinout.c`), with the user memory of the
current process as their state. Pages are faulted in when they are touched, so that what matters
of an address is only whether it lies in a segment, and in which kind.
-/

namespace OS161

open Framework Kern

/-- What an access to an address finds. -/
inductive Perm where
  /-- No segment: `vm_fault` returns `EFAULT`. -/
  | unmapped
  /-- The code segment: stores end the process. -/
  | text
  | data
  deriving DecidableEq, Repr

/-- Memory as the kernel sees it through 32-bit addresses. -/
structure UserMem where
  byte : Nat → UInt8
  perm : Nat → Perm

/-- `USERSPACETOP`, the end of the addresses that `copycheck` accepts. -/
abbrev COPYTOP : Nat := 0x80000000

namespace UserMem

def load (mem : UserMem) (addr : Nat) : Option UInt8 :=
  if mem.perm addr = .unmapped then none else some (mem.byte addr)

/-- The word at an address. -/
def word (mem : UserMem) (addr : Nat) : Nat := beGet mem.byte 4 addr

def set (mem : UserMem) (addr : Nat) (b : UInt8) : UserMem :=
  { mem with byte := fun a => if a = addr then b else mem.byte a }

end UserMem

/-- A pointer that the kernel copies from. -/
inductive Src where
  /-- Into kernel memory; what follows the given bytes is zero. -/
  | kernel (bytes : List UInt8)
  | user (addr : Nat)
  deriving DecidableEq, Repr

/-- `NULL`. -/
def Src.null : Src := .user 0

/-- Byte `k` behind a pointer. -/
def Src.read (mem : UserMem) (src : Src) (k : Nat) : Option UInt8 :=
  match src with
  | .kernel bytes => some (bytes.getD k 0)
  | .user addr => mem.load ((addr + k) % 2 ^ 32)

/-! ## The functions -/

/-- `copycheck`; the value is `stoplen`. -/
@[irreducible] def copycheck (userptr len : Nat) : Except Errno Nat :=
  let top := (userptr + len + 2 ^ 32 - 1) % 2 ^ 32
  if top < userptr then .error .efault
  else if userptr ≥ COPYTOP then .error .efault
  else if top ≥ COPYTOP then .ok (COPYTOP - userptr)
  else .ok len

/-- Store one byte to user memory. -/
def store_user (addr : Nat) (b : UInt8) : Kern UserMem Errno Panic Unit := do
  let mem ← .read
  match mem.perm addr with
  | .unmapped => .fail .efault
  | .text => .halt .vm_fault_exit
  | .data => .modify fun mem => mem.set addr b

/-- `memcpy` from byte `k` on, for `n` bytes. -/
def copy_bytes (src : Src) (dest : Nat) : (n k : Nat) → Kern UserMem Errno Panic Unit
  | 0, _ => pure ()
  | n + 1, k => do
    let mem ← .read
    match src.read mem k with
    | none => .fail .efault
    | some b => do
      store_user (dest + k) b
      copy_bytes src dest n (k + 1)

def copyout (src : Src) (userdest len : Nat) : Kern UserMem Errno Panic Unit := do
  let stoplen ← .ofExcept (copycheck userdest len)
  if stoplen ≠ len then .fail .efault else copy_bytes src userdest len 0

/-- The loop of `copystr` from byte `k` on; whether it has met the NUL. -/
def copystr_loop (src : Src) (dest : Nat) : (n k : Nat) → Kern UserMem Errno Panic Bool
  | 0, _ => pure false
  | n + 1, k => do
    let mem ← .read
    match src.read mem k with
    | none => .fail .efault
    | some b => do
      store_user (dest + k) b
      if b = 0 then pure true else copystr_loop src dest n (k + 1)

/-- `copyoutstr`, with `copystr`. -/
def copyoutstr (src : Src) (userdest len : Nat) : Kern UserMem Errno Panic Unit := do
  let stoplen ← .ofExcept (copycheck userdest len)
  let found ← copystr_loop src userdest (min len stoplen) 0
  if found then pure ()
  else if stoplen < len then .fail .efault
  else .fail .enametoolong

/-- The loop of `strlen` from byte `k` on. -/
def strlen_loop (src : Src) : (n k : Nat) → Kern UserMem Errno Panic Nat
  | 0, _ => .halt .kernel_fault
  | n + 1, k => do
    let mem ← .read
    match src.read mem k with
    | none => .halt .kernel_fault
    | some b => if b = 0 then pure k else strlen_loop src n (k + 1)

/-- `strlen`; a string ends within the address space. -/
def strlen (src : Src) : Kern UserMem Errno Panic Nat := strlen_loop src (2 ^ 32) 0

/-! ## What they do to memory -/

/-- Only bytes in `[lo, hi)` have changed. -/
structure UserMem.Within (lo hi : Nat) (mem mem' : UserMem) : Prop where
  perm : mem'.perm = mem.perm
  byte : ∀ a, a < lo ∨ hi ≤ a → mem'.byte a = mem.byte a

namespace UserMem.Within

variable {lo hi : Nat} {mem mem' mem'' : UserMem}

theorem refl (lo hi : Nat) (mem : UserMem) : Within lo hi mem mem := ⟨rfl, fun _ _ => rfl⟩

theorem trans (h : Within lo hi mem mem') (h' : Within lo hi mem' mem'') :
    Within lo hi mem mem'' where
  perm := h'.perm.trans h.perm
  byte := fun a ha => (h'.byte a ha).trans (h.byte a ha)

theorem widen {lo' hi' : Nat} (h : Within lo hi mem mem') (hlo : lo' ≤ lo) (hhi : hi ≤ hi') :
    Within lo' hi' mem mem' :=
  { h with byte := fun a ha => h.byte a (by omega) }

theorem set (mem : UserMem) {addr : Nat} (b : UInt8) (hlo : lo ≤ addr) (hhi : addr < hi) :
    Within lo hi mem (mem.set addr b) where
  perm := rfl
  byte := fun a ha => if_neg (by omega)

end UserMem.Within

/-- All addresses of `[lo, hi)` can be stored to. -/
def UserMem.Data (mem : UserMem) (lo hi : Nat) : Prop := ∀ a, lo ≤ a → a < hi → mem.perm a = .data

theorem UserMem.Data.of_perm {mem mem' : UserMem} {lo hi : Nat} (h : mem.Data lo hi)
    (hperm : mem'.perm = mem.perm) : mem'.Data lo hi :=
  fun a hlo hhi => hperm ▸ h a hlo hhi

section Specs

variable {mem : UserMem} {src : Src} {dest n k : Nat}

theorem wp_store_user {Q : Unit → UserMem → Prop} {E : Errno → UserMem → Prop} {F : Panic → Prop}
    {addr : Nat} {b : UInt8} (hdata : mem.perm addr = .data) (hQ : Q () (mem.set addr b)) :
    wp (store_user addr b) Q E F mem := by
  unfold store_user
  simp only [wp_bind, wp_read, hdata]
  exact hQ

/-- Copies within data pages change only their destination. -/
theorem wp_copystr_loop (hdata : mem.Data (dest + k) (dest + k + n)) :
    wp (copystr_loop src dest n k) (fun _ mem' => UserMem.Within (dest + k) (dest + k + n) mem mem')
      (fun _ mem' => UserMem.Within (dest + k) (dest + k + n) mem mem') (fun _ => False) mem := by
  induction n generalizing k mem with
  | zero => exact UserMem.Within.refl _ _ _
  | succ n ih =>
    unfold copystr_loop
    simp only [wp_bind, wp_read]
    split
    · exact UserMem.Within.refl _ _ _
    · rename_i b _
      rw [wp_bind]
      apply wp_store_user (hdata _ (Nat.le_refl _) (by omega))
      have hset : UserMem.Within (dest + k) (dest + k + (n + 1)) mem (mem.set (dest + k) b) :=
        UserMem.Within.set mem b (Nat.le_refl _) (by omega)
      rw [wp_ite]
      split
      · exact hset
      · have hrest : (mem.set (dest + k) b).Data (dest + (k + 1)) (dest + (k + 1) + n) :=
          fun a hlo hhi => hdata a (by omega) (by omega)
        have hgo : ∀ mem', UserMem.Within (dest + (k + 1)) (dest + (k + 1) + n)
            (mem.set (dest + k) b) mem' →
            UserMem.Within (dest + k) (dest + k + (n + 1)) mem mem' :=
          fun mem' h => hset.trans (h.widen (by omega) (by omega))
        exact wp_post (ih hrest) (fun _ => hgo) (fun _ => hgo)

theorem copycheck_ok {len : Nat} (hpos : 0 < len) (htop : dest + len ≤ COPYTOP) :
    copycheck dest len = .ok len := by
  unfold copycheck COPYTOP at *
  rw [show (dest + len + 2 ^ 32 - 1) % 2 ^ 32 = dest + len - 1 by omega]
  simp only [ge_iff_le]
  rw [if_neg (by omega), if_neg (by omega), if_neg (by omega)]

/-- **`copyoutstr`** into data pages changes only its destination. -/
theorem wp_copyoutstr {len : Nat} (hdata : mem.Data dest (dest + len)) :
    wp (copyoutstr src dest len) (fun _ mem' => UserMem.Within dest (dest + len) mem mem')
      (fun _ mem' => UserMem.Within dest (dest + len) mem mem') (fun _ => False) mem := by
  have hloop : ∀ stoplen, wp (copystr_loop src dest (min len stoplen) 0)
      (fun _ mem' => UserMem.Within dest (dest + len) mem mem')
      (fun _ mem' => UserMem.Within dest (dest + len) mem mem') (fun _ => False) mem := by
    intro stoplen
    have hmin : mem.Data (dest + 0) (dest + 0 + min len stoplen) :=
      fun a hlo hhi => hdata a hlo (by omega)
    have hwide : ∀ mem', UserMem.Within (dest + 0) (dest + 0 + min len stoplen) mem mem' →
        UserMem.Within dest (dest + len) mem mem' :=
      fun mem' h => h.widen (by omega) (by omega)
    exact wp_post (wp_copystr_loop hmin) (fun _ => hwide) (fun _ => hwide)
  unfold copyoutstr
  rw [wp_bind]
  cases copycheck dest len with
  | error e => exact UserMem.Within.refl _ _ _
  | ok stoplen =>
    rw [wp_ofExcept_ok, wp_bind]
    refine wp_imp (hloop stoplen) ?_
    intro found mem' h
    simp only [wp_ite, wp_pure, wp_fail]
    split
    · exact h
    · split <;> exact h

/-- `memcpy` from kernel memory into data pages. -/
theorem wp_copy_bytes_kernel {bytes : List UInt8} (hdata : mem.Data (dest + k) (dest + k + n)) :
    wp (copy_bytes (.kernel bytes) dest n k)
      (fun _ mem' => UserMem.Within (dest + k) (dest + k + n) mem mem' ∧
        ∀ j, k ≤ j → j < k + n → mem'.byte (dest + j) = bytes.getD j 0)
      (fun _ _ => False) (fun _ => False) mem := by
  induction n generalizing k mem with
  | zero => exact ⟨UserMem.Within.refl _ _ _, fun j _ _ => by omega⟩
  | succ n ih =>
    unfold copy_bytes
    simp only [wp_bind, wp_read, Src.read]
    apply wp_store_user (hdata _ (Nat.le_refl _) (by omega))
    have hset : UserMem.Within (dest + k) (dest + k + (n + 1)) mem
        (mem.set (dest + k) (bytes.getD k 0)) :=
      UserMem.Within.set mem _ (Nat.le_refl _) (by omega)
    have hrest : (mem.set (dest + k) (bytes.getD k 0)).Data (dest + (k + 1))
        (dest + (k + 1) + n) := fun a hlo hhi => hdata a (by omega) (by omega)
    refine wp_imp (ih hrest) ?_
    rintro _ mem' ⟨hw, hbytes⟩
    refine ⟨hset.trans (hw.widen (by omega) (by omega)), ?_⟩
    intro j hlo hhi
    by_cases hj : j = k
    · -- the byte just stored is below the rest
      subst hj
      rw [hw.byte _ (by omega)]
      exact if_pos rfl
    · exact hbytes j (by omega) (by omega)

/-- **`copyout`** from kernel memory into data pages. -/
theorem wp_copyout_kernel {bytes : List UInt8} {len : Nat} (hpos : 0 < len)
    (htop : dest + len ≤ COPYTOP) (hdata : mem.Data dest (dest + len)) :
    wp (copyout (.kernel bytes) dest len) (fun _ mem' => UserMem.Within dest (dest + len) mem mem' ∧
        ∀ j, j < len → mem'.byte (dest + j) = bytes.getD j 0)
      (fun _ _ => False) (fun _ => False) mem := by
  unfold copyout
  rw [wp_bind, copycheck_ok hpos htop, wp_ofExcept_ok, wp_ite,
    if_neg (by simp)]
  refine wp_imp (wp_copy_bytes_kernel (k := 0) hdata) ?_
  rintro _ mem' ⟨hw, hbytes⟩
  exact ⟨hw, fun j hj => hbytes j (by omega) (by omega)⟩

/-- `copyout` from an address that is not mapped stores nothing. -/
theorem copyout_unmapped {addr len : Nat} (hpos : 0 < len) (htop : dest + len ≤ COPYTOP)
    (haddr : addr < 2 ^ 32) (hperm : mem.perm addr = .unmapped) :
    copyout (.user addr) dest len mem = .err .efault mem := by
  obtain ⟨n, rfl⟩ := Nat.exists_eq_succ_of_ne_zero (by omega : len ≠ 0)
  have hread : Src.read mem (.user addr) 0 = none := by
    unfold Src.read UserMem.load
    dsimp only
    rw [Nat.add_zero, Nat.mod_eq_of_lt haddr, if_pos hperm]
  unfold copyout
  rw [copycheck_ok hpos htop]
  show (if n.succ ≠ n.succ then Kern.fail .efault else copy_bytes (.user addr) dest n.succ 0) mem = _
  rw [if_neg (by simp)]
  unfold copy_bytes
  rw [read_bind_run, hread]
  rfl

/-! ## Strings -/

/-- The pointer leads to the bytes of `s` and a NUL. -/
def Src.Designates (mem : UserMem) (src : Src) (s : List UInt8) : Prop :=
  ∀ k, k ≤ s.length → src.read mem k = some (s.getD k 0)

theorem strlen_loop_run {s : List UInt8} (h : Src.Designates mem src s) (hs : 0 ∉ s)
    (hk : k ≤ s.length) (hn : s.length < k + n) : strlen_loop src n k mem = .ok s.length mem := by
  induction n generalizing k with
  | zero => omega
  | succ n ih =>
    unfold strlen_loop
    rw [read_bind_run, h k hk]
    dsimp only
    by_cases hend : k = s.length
    · subst hend
      rw [if_pos (by simp)]
      rfl
    · have hlt : k < s.length := by omega
      have hne : s.getD k 0 ≠ 0 := by
        rw [List.getD_eq_getElem _ _ hlt]
        intro hz
        exact hs (hz ▸ List.getElem_mem hlt)
      rw [if_neg hne]
      exact ih (by omega) (by omega)

theorem strlen_run {s : List UInt8} (h : Src.Designates mem src s) (hs : 0 ∉ s)
    (hlen : s.length < 2 ^ 32) : strlen src mem = .ok s.length mem :=
  strlen_loop_run h hs (Nat.zero_le _) (by omega)

end Specs

end OS161
