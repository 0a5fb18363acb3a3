import OS161.Exec.CopyInOut
import OS161.Vm.AddrSpace

/-! # The argument vector of a new process

The code of `runprogram` (`kern/syscall/runprogram.c`) and `sys_execv`
(`kern/syscall/execv_syscalls.c`) that copies the arguments to the user stack. The two differ in
where the strings are: in kernel memory, or in the memory of the process itself.

`stringAddr[argc]` is set to an address on the stack, so that the vector that the program gets
does not end with a NULL pointer. Main result: `argv_never_terminated`.
-/

namespace OS161

open Framework Kern

/-! ## The code -/

/-- `while (cond x) x--`, with a bound on the number of rounds. -/
def while_dec (cond : Nat → Bool) : (fuel x : Nat) → Nat
  | 0, x => x
  | fuel + 1, x => if cond x then while_dec cond fuel (sub32 x 1) else x

/-- The loop that adds up `stringSpace`. -/
def string_space (ptr : Nat → UserMem → Src) : List Nat → Kern UserMem Errno Panic Nat
  | [] => pure 0
  | i :: rest => do
    let mem ← .read
    let len ← strlen (ptr i mem)
    let more ← string_space ptr rest
    pure (len + 1 + more)

/-- Align the stack pointer to 8 bytes, before the strings are padded. -/
def align_stack (argc stringSpace : Nat) : Nat :=
  while_dec (fun sp => sub32 (sub32 sp (4 * argc)) stringSpace % 8 ≠ 0) 8 USERSTACK

/-- Where a string of length `len` goes. -/
def push_string (stackptr len : Nat) : Nat :=
  while_dec (fun sp => sp % 4 ≠ 0) 4 (sub32 stackptr (len + 1))

/-- The loop that copies the strings, last one first; `stringAddr` is what has been filled of the
array. -/
def copy_strings (ptr : Nat → UserMem → Src) :
    (i stackptr : Nat) → (stringAddr : List Nat) → Kern UserMem Errno Panic (Nat × List Nat)
  | 0, stackptr, stringAddr => pure (stackptr, stringAddr)
  | i + 1, stackptr, stringAddr => do
    let mem ← .read
    let len ← strlen (ptr i mem)
    let stackptr := push_string stackptr len
    let _ ← .attempt (copyoutstr (ptr i mem) stackptr len)
    copy_strings ptr i stackptr (stackptr :: stringAddr)

/-- The loop that stores the pointers, last one first. -/
def store_pointers : (stringAddr : List Nat) → (stackptr : Nat) → Kern UserMem Errno Panic Nat
  | [], stackptr => pure stackptr
  | addr :: rest, stackptr => do
    let stackptr := sub32 stackptr 4
    let _ ← .attempt (copyout (.kernel (beBytes 4 addr)) stackptr 4)
    store_pointers rest stackptr

/-- The argument-copying code, up to `enter_new_process`: the new stack pointer, which is also
`argv`. -/
def copy_args (ptr : Nat → UserMem → Src) (argc : Nat) : Kern UserMem Errno Panic Nat := do
  let stringSpace ← string_space ptr (List.range argc)
  let stackptr := sub32 (align_stack argc stringSpace) 4
  let _ ← .attempt (copyout .null stackptr 4)
  let r ← copy_strings ptr argc stackptr [stackptr]
  store_pointers r.2.reverse r.1

/-- In `runprogram`, with the arguments in kernel memory. -/
def runprogram_args (args : List (List UInt8)) : Kern UserMem Errno Panic Nat :=
  copy_args (fun i _ => .kernel (args.getD i [])) args.length

/-- The loop of `sys_execv` that counts the arguments. -/
def count_args (argv : Nat) : (fuel i : Nat) → Kern UserMem Errno Panic Nat
  | 0, _ => .halt .kernel_fault
  | fuel + 1, i => do
    let mem ← .read
    if mem.perm (argv + 4 * i) = .unmapped then .halt .kernel_fault
    else if mem.word (argv + 4 * i) = 0 then pure i
    else count_args argv fuel (i + 1)

/-- In `sys_execv`, with the argument vector at `argv` in user memory. -/
def sys_execv_args (argv : Nat) : Kern UserMem Errno Panic Nat := do
  let argc ← count_args argv (2 ^ 32) 0
  copy_args (fun i mem => .user (mem.word (argv + 4 * i))) argc

/-! ## The property -/

/-- The lowest address of the stack. -/
abbrev STACKBASE : Nat := USERSTACK - STACKPAGES * PAGE_SIZE

/-- The address ranges of the pointer array and of the strings with their NULs. -/
def argvRanges (args : List (List UInt8)) (mem : UserMem) (argv : Nat) : List (Nat × Nat) :=
  (argv, argv + 4 * (args.length + 1)) ::
    (List.range args.length).map fun i =>
      (mem.word (argv + 4 * i), mem.word (argv + 4 * i) + (args.getD i []).length + 1)

/-- What the new program may rely on: `argv` leads to the arguments. -/
structure ArgvOk (args : List (List UInt8)) (argv : Nat) (mem : UserMem) : Prop where
  null : mem.word (argv + 4 * args.length) = 0
  strings : ∀ i < args.length, ∀ k ≤ (args.getD i []).length,
    mem.byte (mem.word (argv + 4 * i) + k) = (args.getD i []).getD k 0
  disjoint : (argvRanges args mem argv).Pairwise fun r r' => r.2 ≤ r'.1 ∨ r'.2 ≤ r.1
  inside : ∀ r ∈ argvRanges args mem argv, argv ≤ r.1 ∧ r.2 ≤ USERSTACK
  argv_aligned : argv % 4 = 0
  stackptr_aligned : argv % 8 = 0

/-- The strings, in the order in which they are copied, and the pointers fit between the bottom of
the stack and `stackptr`. -/
def FitsBelow (pointers : Nat) : (lens : List Nat) → (stackptr : Nat) → Prop
  | [], stackptr => STACKBASE + 4 * pointers ≤ stackptr
  | len :: rest, stackptr => len < stackptr ∧ FitsBelow pointers rest (push_string stackptr len)

/-- The layout of the arguments fits into the stack. -/
def ArgsFit (args : List (List UInt8)) : Prop :=
  FitsBelow (args.length + 1) (args.map List.length).reverse
    (align_stack args.length (args.map fun s => s.length + 1).sum - 4)

/-- The memory of a process after `load_elf`: the stack can be stored to, and there is nothing at
address 0. -/
structure StackReady (mem : UserMem) : Prop where
  stack : mem.Data STACKBASE USERSTACK
  null : mem.perm 0 = .unmapped

/-- The argument vector at `argv` in the memory of a process that calls `execv`; it does not lie on
the stack that is about to be filled. -/
structure ExecvVector (args : List (List UInt8)) (argv : Nat) (mem : UserMem) : Prop where
  array : ∀ i ≤ args.length, mem.perm (argv + 4 * i) ≠ .unmapped ∧
    (argv + 4 * i + 4 ≤ STACKBASE ∨ USERSTACK ≤ argv + 4 * i)
  pointers : ∀ i < args.length, mem.word (argv + 4 * i) ≠ 0
  last : mem.word (argv + 4 * args.length) = 0
  strings : ∀ i < args.length, ∀ k ≤ (args.getD i []).length,
    let a := mem.word (argv + 4 * i) + k
    a < 2 ^ 32 ∧ mem.perm a ≠ .unmapped ∧ mem.byte a = (args.getD i []).getD k 0 ∧
      (a < STACKBASE ∨ USERSTACK ≤ a)

/-! ## Layout -/

section Layout

variable {cond : Nat → Bool} {fuel x : Nat}

theorem userstack_eq : USERSTACK = 0x80000000 := rfl

theorem stackbase_eq : STACKBASE = 0x7fff4000 := rfl

theorem copytop_eq : COPYTOP = 0x80000000 := rfl

/-- A loop that stops before zero goes down. -/
theorem while_dec_le (hcond : cond 0 = false) (hx : x < 2 ^ 32) : while_dec cond fuel x ≤ x := by
  induction fuel generalizing x with
  | zero => exact Nat.le_refl _
  | succ fuel ih =>
    unfold while_dec
    split
    · rename_i h
      have hpos : x ≠ 0 := by
        rintro rfl
        rw [hcond] at h
        cases h
      rw [sub32_eq hx (by omega)]
      have := ih (x := x - 1) (by omega)
      omega
    · exact Nat.le_refl _

/-- The stack pointer moves by at most 8 bytes. -/
theorem while_dec_bounds (hx : x < 2 ^ 32) (hfuel : fuel ≤ x) :
    x - fuel ≤ while_dec cond fuel x ∧ while_dec cond fuel x ≤ x := by
  induction fuel generalizing x with
  | zero => exact ⟨Nat.sub_le _ _, Nat.le_refl _⟩
  | succ fuel ih =>
    unfold while_dec
    split
    · rw [sub32_eq hx (by omega)]
      have := ih (x := x - 1) (by omega) (by omega)
      omega
    · omega

theorem push_string_le {stackptr len : Nat} (hsp : stackptr < 2 ^ 32) (hlen : len < stackptr) :
    push_string stackptr len + len + 1 ≤ stackptr := by
  have hle : push_string stackptr len ≤ sub32 stackptr (len + 1) := by
    apply while_dec_le
    · rfl
    · rw [sub32_eq hsp hlen]
      omega
  rw [sub32_eq hsp hlen] at hle
  omega

theorem FitsBelow.base_le {pointers : Nat} {lens : List Nat} {stackptr : Nat}
    (h : FitsBelow pointers lens stackptr) (hsp : stackptr < 2 ^ 32) :
    STACKBASE + 4 * pointers ≤ stackptr := by
  induction lens generalizing stackptr with
  | nil => exact h
  | cons len rest ih =>
    have hpush := push_string_le hsp h.1
    have hrest := ih h.2 (by omega)
    omega

theorem align_stack_bounds (argc stringSpace : Nat) :
    USERSTACK - 8 ≤ align_stack argc stringSpace ∧ align_stack argc stringSpace ≤ USERSTACK :=
  while_dec_bounds (by decide) (by decide)

end Layout

/-! ## The copying code -/

section Copy

/-- Copying to the stack does not change the arguments. -/
def Stable (args : List (List UInt8)) (ptr : Nat → UserMem → Src) (mem : UserMem) : Prop :=
  ∀ mem', UserMem.Within STACKBASE USERSTACK mem mem' →
    ∀ i < args.length, Src.Designates mem' (ptr i mem') (args.getD i [])

variable {args : List (List UInt8)} {ptr : Nat → UserMem → Src} {mem : UserMem}

section

variable (h : Stable args ptr mem) (hnul : ∀ s ∈ args, 0 ∉ s) (hlen : ∀ s ∈ args, s.length < 2 ^ 32)
include h hnul hlen

/-- The length that `strlen` finds. -/
theorem Stable.strlen {mem' : UserMem}
    (hmem : UserMem.Within STACKBASE USERSTACK mem mem') {i : Nat} (hi : i < args.length) :
    strlen (ptr i mem') mem' = .ok (args.getD i []).length mem' := by
  have hmem_args : args.getD i [] ∈ args := by
    rw [List.getD_eq_getElem _ _ hi]
    exact List.getElem_mem hi
  exact strlen_run (h mem' hmem i hi) (hnul _ hmem_args) (hlen _ hmem_args)

theorem Stable.string_space (l : List Nat) (hl : ∀ i ∈ l, i < args.length) :
    string_space ptr l mem = .ok (l.map fun i => (args.getD i []).length + 1).sum mem := by
  induction l with
  | nil => rfl
  | cons i rest ih =>
    have hi := h.strlen hnul hlen (UserMem.Within.refl _ _ mem) (hl i List.mem_cons_self)
    have hrest := ih fun j hj => hl j (List.mem_cons_of_mem i hj)
    unfold OS161.string_space
    rw [read_bind_run, bind_run_ok hi, bind_run_ok hrest]
    rfl

end

/-- The lengths in the order in which the strings are copied. -/
theorem reverse_lengths_succ {i : Nat} (hi : i < args.length) :
    ((args.take (i + 1)).map List.length).reverse =
      (args.getD i []).length :: ((args.take i).map List.length).reverse := by
  rw [List.take_succ_eq_append_getElem hi, List.map_append, List.reverse_append,
    List.getD_eq_getElem _ _ hi]
  rfl

/-- **The string loop** stays on the stack, and pushes one address a string. -/
theorem Stable.copy_strings (h : Stable args ptr mem) (hnul : ∀ s ∈ args, 0 ∉ s)
    (hlen : ∀ s ∈ args, s.length < 2 ^ 32) (hready : StackReady mem) {pointers : Nat} :
    ∀ (i : Nat) (stackptr : Nat) (stringAddr : List Nat) (mem' : UserMem), i ≤ args.length →
      stackptr ≤ USERSTACK → UserMem.Within STACKBASE USERSTACK mem mem' →
      FitsBelow pointers ((args.take i).map List.length).reverse stackptr →
      wp (copy_strings ptr i stackptr stringAddr)
        (fun r mem'' => UserMem.Within STACKBASE USERSTACK mem mem'' ∧
          (∃ new, new.length = i ∧ r.2 = new ++ stringAddr) ∧
          STACKBASE + 4 * pointers ≤ r.1 ∧ r.1 ≤ stackptr)
        (fun _ _ => False) (fun _ => False) mem' := by
  intro i
  induction i with
  | zero =>
    intro stackptr stringAddr mem' _ _ hw hfits
    exact ⟨hw, ⟨[], rfl, rfl⟩, hfits, Nat.le_refl _⟩
  | succ i ih =>
    intro stackptr stringAddr mem' hi hsp hw hfits
    have htop := userstack_eq
    have hsp32 : stackptr < 2 ^ 32 := by omega
    rw [reverse_lengths_succ hi] at hfits
    obtain ⟨hlt, hrest⟩ := hfits
    -- where the string goes: on the stack, below the old stack pointer
    have hpush := push_string_le hsp32 hlt
    have hbase := hrest.base_le (by omega)
    unfold OS161.copy_strings
    rw [wp_read_bind, wp_bind]
    apply wp_of_run_ok (h.strlen hnul hlen hw hi)
    dsimp only
    generalize push_string stackptr (args.getD i []).length = stackptr' at *
    rw [wp_bind, wp_attempt]
    have hdata : mem'.Data stackptr' (stackptr' + (args.getD i []).length) :=
      fun a hlo hhi => hw.perm ▸ hready.stack a (by omega) (by omega)
    have hgo : ∀ mem'', UserMem.Within stackptr' (stackptr' + (args.getD i []).length) mem' mem'' →
        wp (OS161.copy_strings ptr i stackptr' (stackptr' :: stringAddr))
          (fun r mem'' => UserMem.Within STACKBASE USERSTACK mem mem'' ∧
            (∃ new, new.length = i + 1 ∧ r.2 = new ++ stringAddr) ∧
            STACKBASE + 4 * pointers ≤ r.1 ∧ r.1 ≤ stackptr)
          (fun _ _ => False) (fun _ => False) mem'' := by
      intro mem'' hw'
      have hwide := hw.trans (hw'.widen (by omega) (by omega))
      apply wp_imp (ih stackptr' (stackptr' :: stringAddr) mem'' (by omega) (by omega) hwide
        hrest) _
      rintro r memEnd ⟨hw'', ⟨new, hnew, hr⟩, hlo, hhi⟩
      refine ⟨hw'', ⟨new ++ [stackptr'], ?_, ?_⟩, hlo, by omega⟩
      · rw [List.length_append, hnew]
        rfl
      · rw [hr, List.append_assoc]
        rfl
    exact wp_post (wp_copyoutstr hdata) (fun _ => hgo) (fun _ => hgo)

theorem UserMem.word_of_bytes {mem : UserMem} {addr value : Nat}
    (h : ∀ j, j < 4 → mem.byte (addr + j) = (beBytes 4 value).getD j 0) :
    mem.word addr = value % 2 ^ 32 := by
  rw [show (2 : Nat) ^ 32 = 256 ^ 4 by norm_num]
  apply beGet_beByte
  intro k hk
  rw [h k hk, getD_beBytes value hk]

/-- There is room on the stack for `n` pointers below the stack pointer. -/
def Room (n stackptr : Nat) : Prop := STACKBASE + 4 * n ≤ stackptr ∧ stackptr ≤ USERSTACK

/-- **The pointer loop** stores the addresses downwards from the stack pointer. -/
theorem wp_store_pointers :
    ∀ (stringAddr : List Nat) (stackptr : Nat) (mem : UserMem), mem.Data STACKBASE USERSTACK →
      Room stringAddr.length stackptr →
      wp (store_pointers stringAddr stackptr)
        (fun argv mem' => argv + 4 * stringAddr.length = stackptr ∧
          UserMem.Within argv stackptr mem mem' ∧
          ∀ j < stringAddr.length,
            mem'.word (stackptr - 4 * (j + 1)) = stringAddr.getD j 0 % 2 ^ 32)
        (fun _ _ => False) (fun _ => False) mem := by
  intro stringAddr
  induction stringAddr with
  | nil =>
    intro stackptr mem _ _
    exact ⟨rfl, UserMem.Within.refl _ _ _, fun j hj => (Nat.not_lt_zero j hj).elim⟩
  | cons addr rest ih =>
    intro stackptr mem hdata hroom
    rw [List.length_cons] at hroom
    obtain ⟨hlo, hhi⟩ := hroom
    have hbase := stackbase_eq
    have htop := userstack_eq
    have hcopytop := copytop_eq
    have hsub : sub32 stackptr 4 = stackptr - 4 := sub32_eq (by omega) (by omega)
    unfold store_pointers
    dsimp only
    rw [hsub, wp_bind, wp_attempt]
    have hslot : mem.Data (stackptr - 4) (stackptr - 4 + 4) :=
      fun a ha ha' => hdata a (by omega) (by omega)
    apply wp_post (wp_copyout_kernel (by omega) (by omega) hslot) _ (fun _ _ => False.elim)
    rintro _ mem' ⟨hw, hbytes⟩
    apply wp_imp (ih (stackptr - 4) mem' (hdata.of_perm hw.perm) ⟨by omega, by omega⟩) _
    rintro argv mem'' ⟨hargv, hw', hwords⟩
    refine ⟨by rw [List.length_cons]; omega, ?_, ?_⟩
    · exact (hw.widen (by omega) (by omega)).trans (hw'.widen (by omega) (by omega))
    · intro j hj
      rcases j with _ | j
      · -- the later stores are below this one
        apply UserMem.word_of_bytes
        intro k hk
        rw [hw'.byte _ (by omega)]
        exact hbytes k hk
      · rw [List.length_cons] at hj
        have hword := hwords j (by omega)
        rw [show stackptr - 4 * (j + 1 + 1) = stackptr - 4 - 4 * (j + 1) by omega]
        exact hword

/-- The last slot of the vector gets the address that was pushed first. -/
theorem wp_store_vector {new : List Nat} {last stackptr : Nat} (hdata : mem.Data STACKBASE USERSTACK)
    (hroom : Room (new.length + 1) stackptr) :
    wp (store_pointers (new ++ [last]).reverse stackptr)
      (fun argv mem' => mem'.word (argv + 4 * new.length) = last % 2 ^ 32)
      (fun _ _ => False) (fun _ => False) mem := by
  have hlist : (new ++ [last]).reverse = last :: new.reverse := by
    rw [List.reverse_append, List.reverse_singleton, List.singleton_append]
  have hlength : (last :: new.reverse).length = new.length + 1 := by
    rw [List.length_cons, List.length_reverse]
  rw [hlist]
  rw [← hlength] at hroom
  apply wp_imp (wp_store_pointers _ stackptr mem hdata hroom) _
  rintro argv mem' ⟨hargv, -, hwords⟩
  rw [hlength] at hargv hwords
  have hword := hwords 0 (Nat.succ_pos _)
  rwa [show stackptr - 4 * (0 + 1) = argv + 4 * new.length by omega, List.getD_cons_zero] at hword

theorem FitsBelow.lengths {pointers : Nat} {lens : List Nat} {stackptr : Nat}
    (h : FitsBelow pointers lens stackptr) (hsp : stackptr < 2 ^ 32) :
    ∀ len ∈ lens, len < 2 ^ 32 := by
  induction lens generalizing stackptr with
  | nil =>
    intro len hlen
    cases hlen
  | cons len rest ih =>
    have hpush := push_string_le hsp h.1
    intro len' hlen'
    rcases List.mem_cons.mp hlen' with rfl | hrest
    · have := h.1
      omega
    · exact ih h.2 (by omega) len' hrest

theorem ArgsFit.lengths (h : ArgsFit args) : ∀ s ∈ args, s.length < 2 ^ 32 := by
  intro s hs
  have htop := userstack_eq
  have hbounds := align_stack_bounds args.length (args.map fun s => s.length + 1).sum
  apply FitsBelow.lengths h (by omega)
  rw [List.mem_reverse]
  exact List.mem_map_of_mem hs

/-- The space that `string_space` adds up, index by index. -/
theorem sum_range_lengths (args : List (List UInt8)) :
    ((List.range args.length).map fun i => (args.getD i []).length + 1).sum =
      (args.map fun s => s.length + 1).sum := by
  congr 1
  apply List.ext_getElem
  · simp
  · intro i h1 h2
    have hi : i < args.length := by simpa using h2
    simp [hi]

/-- **The copying code** ends with an address in the last slot of the vector. -/
theorem Stable.copy_args (h : Stable args ptr mem) (hnul : ∀ s ∈ args, 0 ∉ s)
    (hfit : ArgsFit args) (hready : StackReady mem) :
    wp (copy_args ptr args.length)
      (fun argv mem' => mem'.word (argv + 4 * args.length) ≠ 0) (fun _ _ => False)
      (fun _ => False) mem := by
  have hlen := hfit.lengths
  have hustack := userstack_eq
  have hcopytop := copytop_eq
  have hspace := h.string_space hnul hlen (List.range args.length) fun i hi => List.mem_range.mp hi
  rw [sum_range_lengths] at hspace
  unfold ArgsFit at hfit
  obtain ⟨hlo, hhi⟩ := align_stack_bounds args.length (args.map fun s => s.length + 1).sum
  unfold OS161.copy_args
  rw [wp_bind]
  apply wp_of_run_ok hspace
  dsimp only
  generalize align_stack args.length (args.map fun s => s.length + 1).sum = top at *
  have htop : sub32 top 4 = top - 4 := sub32_eq (by omega) (by omega)
  -- the NULL that should end the vector is not stored
  have hnull : copyout .null (top - 4) 4 mem = .err .efault mem :=
    copyout_unmapped (by omega) (by omega) (by omega) hready.null
  rw [htop, wp_bind, wp_attempt]
  apply wp_of_run_err hnull
  have hstrings := h.copy_strings hnul hlen hready args.length (top - 4) [top - 4] mem
    (Nat.le_refl _) (by omega) (UserMem.Within.refl _ _ _) (by simpa using hfit)
  apply wp_seq hstrings _ (fun _ _ => id) (fun _ => id)
  rintro ⟨stackptr, stringAddr⟩ mem' ⟨hw, ⟨new, hnew, rfl⟩, hbase, hsp⟩
  dsimp only at hsp hbase
  apply wp_imp (wp_store_vector (hready.stack.of_perm hw.perm) ⟨by omega, by omega⟩) _
  intro argv mem'' hlast
  rw [hnew, Nat.mod_eq_of_lt (by omega)] at hlast
  omega

end Copy

/-! ## The two callers -/

section Callers

variable {args : List (List UInt8)} {mem : UserMem}

theorem stable_kernel (args : List (List UInt8)) (mem : UserMem) :
    Stable args (fun i _ => .kernel (args.getD i [])) mem :=
  fun _ _ _ _ _ _ => rfl

/-- Words outside of the stack stay. -/
theorem UserMem.Within.word {lo hi : Nat} {mem mem' : UserMem} (h : Within lo hi mem mem')
    {addr : Nat} (haddr : addr + 4 ≤ lo ∨ hi ≤ addr) : mem'.word addr = mem.word addr := by
  apply beGet_congr
  intro k hk
  exact h.byte _ (by omega)

theorem ExecvVector.stable {argv : Nat} (h : ExecvVector args argv mem) :
    Stable args (fun i mem => .user (mem.word (argv + 4 * i))) mem := by
  intro mem' hw i hi k hk
  have hword := hw.word (h.array i (by omega)).2
  obtain ⟨hlt, hperm, hbyte, hout⟩ := h.strings i hi k hk
  unfold Src.read UserMem.load
  dsimp only
  rw [hword, Nat.mod_eq_of_lt hlt, hw.perm, if_neg hperm, hw.byte _ hout, hbyte]

theorem ExecvVector.count_args {argv : Nat} (h : ExecvVector args argv mem) {fuel i : Nat}
    (hi : i ≤ args.length) (hfuel : args.length < i + fuel) :
    count_args argv fuel i mem = .ok args.length mem := by
  induction fuel generalizing i with
  | zero => omega
  | succ fuel ih =>
    unfold OS161.count_args
    rw [read_bind_run, if_neg (h.array i hi).1]
    by_cases hend : i = args.length
    · rw [hend, if_pos h.last]
      rfl
    · rw [if_neg (h.pointers i (by omega))]
      exact ih (by omega) (by omega)

/-- **The argument vector is never terminated**: whatever the arguments and the memory, the code
runs to its end and the vector is not the promised one. -/
theorem argv_never_terminated (args : List (List UInt8)) (hnul : ∀ s ∈ args, 0 ∉ s)
    (hfit : ArgsFit args) (mem : UserMem) (hready : StackReady mem) :
    (∃ argv mem', runprogram_args args mem = .ok argv mem' ∧ ¬ ArgvOk args argv mem') ∧
      ∀ vec, ExecvVector args vec mem →
        ∃ argv mem', sys_execv_args vec mem = .ok argv mem' ∧ ¬ ArgvOk args argv mem' := by
  constructor
  · obtain ⟨argv, mem', hrun, hlast⟩ :=
      exists_ok_of_wp ((stable_kernel args mem).copy_args hnul hfit hready)
    exact ⟨argv, mem', hrun, fun hok => hlast hok.null⟩
  · intro vec hvec
    obtain ⟨argv, mem', hrun, hlast⟩ :=
      exists_ok_of_wp (hvec.stable.copy_args hnul hfit hready)
    refine ⟨argv, mem', ?_, fun hok => hlast hok.null⟩
    -- the pointers fit on the stack, so that they can be counted
    have htop := userstack_eq
    have hbounds := align_stack_bounds args.length (args.map fun s => s.length + 1).sum
    have hbase := FitsBelow.base_le hfit (by omega)
    unfold sys_execv_args
    rw [bind_run_ok (hvec.count_args (Nat.zero_le _) (by omega))]
    exact hrun

/-- A process with one argument vector, that of `execv` with the argument "a". -/
def oneArgument : UserMem where
  byte := fun a => if a = 0x400001 then 0x40 else if a = 0x400003 then 0x10
    else if a = 0x400010 then 0x61 else 0
  perm := fun a => if STACKBASE ≤ a ∧ a < USERSTACK then .data
    else if 0x400000 ≤ a ∧ a < 0x401000 then .data else .unmapped

theorem oneArgument_ready : StackReady oneArgument where
  stack := fun _ hlo hhi => if_pos ⟨hlo, hhi⟩
  null := by decide

theorem oneArgument_vector : ExecvVector [[0x61]] 0x400000 oneArgument where
  array := by decide +kernel
  pointers := by decide +kernel
  last := by decide +kernel
  strings := by decide +kernel

theorem oneArgument_fit : ArgsFit [[0x61]] := by
  show 1 < align_stack 1 2 - 4 ∧ STACKBASE + 4 * 2 ≤ push_string (align_stack 1 2 - 4) 1
  decide +kernel

/-- Both callers, on the one argument "a". -/
theorem argv_never_terminated_one :
    (∃ argv mem', runprogram_args [[0x61]] oneArgument = .ok argv mem' ∧
      ¬ ArgvOk [[0x61]] argv mem') ∧
    ∃ argv mem', sys_execv_args 0x400000 oneArgument = .ok argv mem' ∧
      ¬ ArgvOk [[0x61]] argv mem' := by
  have h := argv_never_terminated [[0x61]] (by decide) oneArgument_fit oneArgument
    oneArgument_ready
  exact ⟨h.1, h.2 0x400000 oneArgument_vector⟩

/-- **The failing run**: `runprogram` with the argument "a" leaves the address `0x7ffffffa` where
the vector should end with NULL. -/
theorem argv_unterminated :
    ∃ argv mem', runprogram_args [[0x61]] oneArgument = .ok argv mem' ∧
      mem'.word (argv + 4) = 0x7ffffffa ∧ ¬ ArgvOk [[0x61]] argv mem' := by
  have hrun : (runprogram_args [[0x61]] oneArgument).returned.map (fun x => x.2.word (x.1 + 4)) =
      some 0x7ffffffa := by decide +kernel
  obtain ⟨⟨argv, mem'⟩, hret, hword⟩ := Option.map_eq_some_iff.mp hrun
  refine ⟨argv, mem', Outcome.eq_ok hret, hword, ?_⟩
  intro hok
  have hnull : mem'.word (argv + 4) = 0 := hok.null
  have hword : mem'.word (argv + 4) = 0x7ffffffa := hword
  omega

end Callers

end OS161
