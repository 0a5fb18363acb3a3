import OS161.Vm.KmallocInv

/-! # Arrays of pointers

The model of `kern/lib/array.c` and `kern/include/array.h`. A pointer is a number, and an
`unsigned` wraps at `2 ^ 32`. A block from `kmalloc` is given by its contents and by its size in
bytes, as `kmalloc` rounds the request; `alloc_kpages` is taken to hand out the pages it is
asked for.

The size that `array_setsize` allocates is found by doubling, and both the doubling and the byte
count of `kmalloc` wrap. The key point is which sizes `num` are safe from every array: those up
to `2 ^ 29 - 511`.
-/

namespace OS161

open Framework

/-- `struct array`; `room` is the size in bytes of the block at `v`. -/
structure PtrArray where
  v : Nat → Nat
  room : Nat
  num : Nat
  max : Nat

namespace PtrArray

/-- The bytes of the block that `kmalloc(sz)` returns: whole pages, with the rounding as the code
computes it, or one block of a subpage size. -/
def kmallocRoom (sz : Nat) : Nat :=
  if Kmalloc.LARGEST_SUBPAGE_SIZE ≤ sz then (sz + (PAGE_SIZE - 1)) % 2 ^ 32 / PAGE_SIZE * PAGE_SIZE
  else Kmalloc.blockSize sz

/-- The array after its `num` pointers are copied to the block `newptr`. -/
def moved (a : PtrArray) (newptr : Nat → Nat) (newmax : Nat) : PtrArray :=
  { a with
    v := fun i => if i < a.num * 4 % 2 ^ 32 / 4 then a.v i else newptr i
    room := kmallocRoom (newmax * 4 % 2 ^ 32)
    max := newmax }

end PtrArray

end OS161
