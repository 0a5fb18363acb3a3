import OS161.Framework.BigEndian
import OS161.Vm.AddrSpace

/-! # Loading executables

The model of `load_elf` (`kern/syscall/loadelf.c`). An executable is the contents of its file.
The first half of `load_elf` reads the headers and sets up the address space; what its second
half does to user memory is a list of stores, so that page faults and context switches can
happen between any two of them.
-/

namespace OS161

open Framework Kern

/-- What `VOP_READ` transfers: fewer than `len` bytes at the end of the file. -/
def file_read (file : List UInt8) (offset len : Nat) : List UInt8 := (file.drop offset).take len

/-! ## Headers -/

/-- The fields of `Elf32_Ehdr` that are used. -/
structure Ehdr where
  e_ident : List UInt8
  e_type : Nat
  e_machine : Nat
  e_version : Nat
  e_entry : Nat
  e_phoff : Nat
  e_phentsize : Nat
  e_phnum : Nat
  deriving DecidableEq, Repr

/-- The fields of `Elf32_Phdr` that are used. -/
structure Phdr where
  p_type : Nat
  p_offset : Nat
  p_vaddr : Nat
  p_filesz : Nat
  p_memsz : Nat
  p_flags : Nat
  deriving DecidableEq, Repr

/-- `sizeof(Elf32_Ehdr)`. -/
abbrev EHDR_SIZE : Nat := 52

/-- `sizeof(Elf32_Phdr)`. -/
abbrev PHDR_SIZE : Nat := 32

def Ehdr.decode (bytes : List UInt8) : Ehdr :=
  let get := fun i => bytes.getD i 0
  { e_ident := bytes.take 16
    e_type := beGet get 2 16
    e_machine := beGet get 2 18
    e_version := beGet get 4 20
    e_entry := beGet get 4 24
    e_phoff := beGet get 4 28
    e_phentsize := beGet get 2 42
    e_phnum := beGet get 2 44 }

def Phdr.decode (bytes : List UInt8) : Phdr :=
  let get := fun i => bytes.getD i 0
  { p_type := beGet get 4 0
    p_offset := beGet get 4 4
    p_vaddr := beGet get 4 8
    p_filesz := beGet get 4 16
    p_memsz := beGet get 4 20
    p_flags := beGet get 4 24 }

/-- Whether the header is the one of a 32-bit big-endian MIPS executable: magic number,
`ELFCLASS32`, `ELFDATA2MSB`, `EV_CURRENT`, `ET_EXEC` and `EM_MIPS`. -/
def Ehdr.ok (eh : Ehdr) : Bool :=
  eh.e_ident.take 7 = [0x7f, 0x45, 0x4c, 0x46, 1, 2, 1] ∧ eh.e_version = 1 ∧ eh.e_type = 2 ∧
    eh.e_machine = 8

/-- Read and check the executable header. -/
def read_ehdr (file : List UInt8) : Except Errno Ehdr :=
  let bytes := file_read file 0 EHDR_SIZE
  if bytes.length ≠ EHDR_SIZE then .error .enoexec
  else if (Ehdr.decode bytes).ok then .ok (Ehdr.decode bytes)
  else .error .enoexec

/-- Read program header `i`. -/
def read_phdr (file : List UInt8) (eh : Ehdr) (i : Nat) : Except Errno Phdr :=
  let bytes := file_read file ((eh.e_phoff + i * eh.e_phentsize) % 2 ^ 32) PHDR_SIZE
  if bytes.length ≠ PHDR_SIZE then .error .enoexec else .ok (Phdr.decode bytes)

/-- What the `switch` on `p_type` says to do with a program header. -/
inductive PhdrKind where
  | skip
  | load
  | bad
  deriving DecidableEq, Repr

/-- `PT_NULL`, `PT_PHDR` and `PT_MIPS_REGINFO` are skipped, `PT_LOAD` is loaded. -/
def Phdr.kind (ph : Phdr) : PhdrKind :=
  if ph.p_type = 0 ∨ ph.p_type = 6 ∨ ph.p_type = 0x70000000 then .skip
  else if ph.p_type = 1 then .load
  else .bad

/-! ## The first loop -/

/-- One round of the loop that sets up the address space. -/
def define_phdr (file : List UInt8) (eh : Ehdr) (i : Nat) : Kern AddrSpace Errno Panic Unit := do
  let ph ← .ofExcept (read_phdr file eh i)
  match ph.kind with
  | .skip => pure ()
  | .load => as_define_region ph.p_vaddr ph.p_memsz
  | .bad => .fail .enoexec

def define_phdrs (file : List UInt8) (eh : Ehdr) : List Nat → Kern AddrSpace Errno Panic Unit
  | [] => pure ()
  | i :: rest => do
    define_phdr file eh i
    define_phdrs file eh rest

/-! ## The second loop -/

/-- What loading does to user memory. -/
inductive LoadOp where
  | store (vaddr : Nat)
  /-- `load_elf` returns the error. -/
  | fail (e : Errno)
  deriving DecidableEq, Repr

/-- `load_segment`: the bytes that the file has are stored one after the other, and the load fails
if they are too few. -/
def load_segment (file : List UInt8) (ph : Phdr) : List LoadOp :=
  let filesize := min ph.p_filesz ph.p_memsz
  let n := (file_read file ph.p_offset filesize).length
  (List.range n).map (fun k => .store ((ph.p_vaddr + k) % 2 ^ 32)) ++
    if n ≠ filesize then [.fail .enoexec] else []

def load_phdr (file : List UInt8) (eh : Ehdr) (i : Nat) : List LoadOp :=
  match read_phdr file eh i with
  | .error e => [.fail e]
  | .ok ph =>
    match ph.kind with
    | .skip => []
    | .load => load_segment file ph
    | .bad => [.fail .enoexec]

/-- `load_elf` up to `as_prepare_load`; the stores that follow before `as_complete_load`, and the
entry point. -/
def load_elf (file : List UInt8) : Kern AddrSpace Errno Panic (List LoadOp × Nat) := do
  let eh ← .ofExcept (read_ehdr file)
  define_phdrs file eh (List.range eh.e_phnum)
  as_prepare_load
  pure ((List.range eh.e_phnum).flatMap (load_phdr file eh), eh.e_entry)

/-! ## Before `as_complete_load` -/

section NotLoaded

variable {as : AddrSpace}

/-- Setting up segments does not make an address space loaded. -/
theorem as_define_region_loaded (vaddr sz : Nat) (h : as.loaded = false) :
    wp (as_define_region vaddr sz) (fun _ as' => as'.loaded = false)
      (fun _ as' => as'.loaded = false) (fun _ => True) as := by
  have hset : ∀ (as : AddrSpace) t seg, (as.setSegment t seg).loaded = as.loaded := by
    intro as t seg
    cases t <;> rfl
  unfold as_define_region define_segment segment_prepare
  simp only [wp_bind, wp_read, wp_ite, wp_modify, wp_fail, wp_zoom, wp_kassert, hset, h, ite_self]

theorem define_phdrs_loaded (file : List UInt8) (eh : Ehdr) (is : List Nat) (h : as.loaded = false) :
    wp (define_phdrs file eh is) (fun _ as' => as'.loaded = false)
      (fun _ as' => as'.loaded = false) (fun _ => True) as := by
  induction is generalizing as with
  | nil => exact h
  | cons i is ih =>
    have hround : wp (define_phdr file eh i) (fun _ as' => as'.loaded = false)
        (fun _ as' => as'.loaded = false) (fun _ => True) as := by
      unfold define_phdr
      rw [wp_bind]
      cases read_phdr file eh i with
      | error e => exact h
      | ok ph =>
        rw [wp_ofExcept_ok]
        split
        · exact h
        · exact as_define_region_loaded _ _ h
        · exact h
    exact wp_seq hround (fun _ _ h' => ih h') (fun _ _ h' => h') (fun _ h' => h')

theorem load_elf_loaded (file : List UInt8) (h : as.loaded = false) :
    wp (load_elf file) (fun _ as' => as'.loaded = false)
      (fun _ as' => as'.loaded = false) (fun _ => True) as := by
  unfold load_elf
  rw [wp_bind]
  cases read_ehdr file with
  | error e => exact h
  | ok eh =>
    rw [wp_ofExcept_ok]
    exact wp_seq (define_phdrs_loaded file eh _ h) (fun _ _ h' => h') (fun _ _ h' => h') (fun _ h' => h')

end NotLoaded

end OS161
