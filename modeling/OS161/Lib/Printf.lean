import OS161.Framework.Contents
import OS161.Framework.Kernel

/-! # `printf` into a buffer

The model of `common/libc/printf/__printf.c` and `snprintf.c`. The engine takes the format one
character at a time and hands its text to a send function piece by piece. A send function
returns nothing, so the engine is modelled with the list of the calls that it makes.

A buffer gets the same bytes however the text is cut into calls.
-/

namespace OS161.Printf

open Framework Kern Function

/-! ## The engine -/

/-- The value of a C `int`. -/
@[irreducible] def toInt (x : Int) : Int := Int.bmod x (2 ^ 32)

def ascii (c : Char) : UInt8 := UInt8.ofNat c.toNat

/-- The string that starts with these bytes. -/
def cstr (s : List UInt8) : List UInt8 := s.takeWhile (· ≠ 0)

def strlen (s : List UInt8) : Nat := (cstr s).length

/-- An argument, as the caller has passed it. -/
inductive Arg where
  | int (v : BitVec 32)
  | long (v : BitVec 32)
  | llong (v : BitVec 64)
  | pointer (v : BitVec 32)
  /-- The bytes at a pointer that is not NULL. -/
  | string (s : Option (List UInt8))

inductive IntSize where
  | INTSZ
  | LONGSZ
  | LLONGSZ
  deriving DecidableEq

structure PF where
  /-- The calls of `sendfunc` up to now. -/
  sent : List (List UInt8)
  ap : List Arg
  charcount : Int
  in_pct : Bool
  size : IntSize
  num : BitVec 64
  sign : Int
  spacing : Int
  rightspc : Bool
  fillchar : UInt8
  base : Nat
  /-- `baseprefix`. -/
  basePre : Bool
  altformat : Bool

inductive PfAssert where
  | send_nul
  | modifier
  deriving DecidableEq

/-- An error is a use of an argument that was not passed, or not with this type. -/
abbrev PfM := Kern PF Unit PfAssert

def pf_print (txt : List UInt8) : PfM Unit :=
  .modify fun pf => { pf with sent := pf.sent ++ [txt], charcount := toInt (pf.charcount + txt.length) }

def pf_endfield : PfM Unit :=
  .modify fun pf =>
    { pf with in_pct := false, size := .INTSZ, num := 0, sign := 0, spacing := 0, rightspc := false
              fillchar := ascii ' ', base := 0, basePre := false, altformat := false }

def pf_modifier (ch : UInt8) : PfM Unit := do
  let pf ← .read
  if ch = ascii '#' then .modify fun pf => { pf with altformat := true }
  else if ch = ascii '-' then .modify fun pf => { pf with rightspc := true }
  else if ch = ascii 'l' then
    .modify fun pf => { pf with size := if pf.size = .LONGSZ then .LLONGSZ else .LONGSZ }
  else if ch = ascii '0' then
    if 0 < pf.spacing then .modify fun pf => { pf with spacing := toInt (pf.spacing * 10) }
    else .modify fun pf => { pf with fillchar := ascii '0' }
  else do
    .kassert (ascii '0' < ch ∧ ch ≤ ascii '9') .modifier
    .modify fun pf => { pf with spacing := toInt (pf.spacing * 10 + (ch - ascii '0').toNat) }

def va_arg {α : Type} (get : Arg → Option α) : PfM α := do
  let pf ← .read
  match pf.ap.head?.bind get with
  | some v => do
    .modify fun pf => { pf with ap := pf.ap.tail }
    pure v
  | none => .fail ()

/-- An integer of the size that the modifiers say, extended to the longest type. -/
def Arg.integer (extend : BitVec 32 → BitVec 64) : IntSize → Arg → Option (BitVec 64)
  | .INTSZ, .int v => some (extend v)
  | .LONGSZ, .long v => some (extend v)
  | .LLONGSZ, .llong v => some v
  | _, _ => none

def pf_getnum (ch : UInt8) : PfM Unit := do
  let pf ← .read
  if ch = ascii 'p' then do
    let v ← va_arg fun a => match a with
      | .pointer v => some v
      | _ => none
    .modify fun pf => { pf with num := v.zeroExtend 64 }
  else if ch = ascii 'd' then do
    let signednum ← va_arg (Arg.integer (·.signExtend 64) pf.size)
    .modify fun pf =>
      if signednum.toInt < 0 then { pf with sign := -1, num := -signednum } else { pf with num := signednum }
  else do
    let v ← va_arg (Arg.integer (·.zeroExtend 64) pf.size)
    .modify fun pf => { pf with num := v }

def pf_setbase (ch : UInt8) : PfM Unit :=
  .modify fun pf =>
    { pf with base := if ch = ascii 'd' ∨ ch = ascii 'u' then 10
                      else if ch = ascii 'x' ∨ ch = ascii 'p' then 16
                      else if ch = ascii 'o' then 8 else pf.base
              basePre := pf.basePre || pf.altformat || ch = ascii 'p' }

/-- The loop of `__pf_fill`. -/
def pf_fill (f : UInt8) : Nat → PfM Unit
  | 0 => pure ()
  | spc + 1 => do
    pf_print [f]
    pf_fill f spc

def pf_pad (c : Prop) [Decidable c] (f : UInt8) (spc : Nat) : PfM Unit := if c then pf_fill f spc else pure ()

def pf_printstuff (prefix1 prefix2 stuff : List UInt8) : PfM Unit := do
  let pf ← .read
  let len := toInt (strlen prefix1 + strlen prefix2 + strlen stuff)
  let spc := if len < pf.spacing then (pf.spacing - len).toNat else 0
  pf_pad (0 < spc ∧ pf.rightspc = false ∧ pf.fillchar ≠ ascii '0') pf.fillchar spc
  pf_print (cstr prefix1)
  pf_print (cstr prefix2)
  pf_pad (0 < spc ∧ pf.rightspc = false ∧ pf.fillchar = ascii '0') pf.fillchar spc
  pf_print (cstr stuff)
  pf_pad (0 < spc ∧ pf.rightspc = true) pf.fillchar spc

def digits : List UInt8 := "0123456789abcdef".toList.map ascii

/-- The loop of `__pf_printnum`, which writes the digits from right to left; there are never more than bits. -/
def convert (base : Nat) : Nat → Nat → List UInt8 → List UInt8
  | 0, _, x => x
  | bits + 1, xnum, x =>
    let x := digits.getD (xnum % base) 0 :: x
    if 0 < xnum / base then convert base bits (xnum / base) x else x

def pf_printnum : PfM Unit := do
  let pf ← .read
  let bprefix1 :=
    if pf.basePre ∧ pf.base = 16 then [ascii '0', ascii 'x']
    else if pf.basePre ∧ pf.base = 8 then [ascii '0'] else []
  let sprefix1 := if pf.sign ≠ 0 then [ascii '-'] else []
  pf_printstuff sprefix1 bprefix1 (convert pf.base 64 pf.num.toNat [])

/-- The character of `%c`, or one that stands for itself. -/
def pf_char (ch : UInt8) : PfM UInt8 :=
  if ch = ascii 'c' then
    va_arg fun a => match a with
      | .int v => some (UInt8.ofNat v.toNat)
      | _ => none
  else pure ch

def modifiers : List UInt8 := "#-l0123456789".toList.map ascii

def pf_send (ch : UInt8) : PfM Unit := do
  .kassert (ch ≠ 0) .send_nul
  let pf ← .read
  if pf.in_pct = false ∧ ch ≠ ascii '%' then pf_print [ch]
  else if pf.in_pct = false then .modify fun pf => { pf with in_pct := true }
  else if ch ∈ modifiers then pf_modifier ch
  else if ch ∈ "doupx".toList.map ascii then do
    pf_getnum ch
    pf_setbase ch
    pf_printnum
    pf_endfield
  else if ch = ascii 's' then do
    let str ← va_arg fun a => match a with
      | .string s => some s
      | _ => none
    pf_printstuff [] [] (str.getD ("(null)".toList.map ascii))
    pf_endfield
  else do
    let c ← pf_char ch
    pf_printstuff [] [] [c]
    pf_endfield

/-- The loop of `__vprintf`, which ends at the NUL of the format. -/
def pf_loop : List UInt8 → PfM Unit
  | [] => pure ()
  | ch :: format =>
    if ch = 0 then pure ()
    else do
      pf_send ch
      pf_loop format

def pf_session (format : List UInt8) : PfM Int := do
  pf_endfield
  pf_loop format
  let pf ← .read
  pure pf.charcount

/-- The state that `__vprintf` sets up; `__pf_endfield` sets the rest. -/
def pfStart (ap : List Arg) : PF := ⟨[], ap, 0, false, .INTSZ, 0, 0, 0, false, 0, 0, false, false⟩

/-- `__vprintf`. -/
def vprintf (format : List UInt8) (ap : List Arg) : Outcome PF Unit PfAssert Int := pf_session format (pfStart ap)

/-! ## The buffer -/

structure SNP where
  /-- The memory, from the start of the buffer on. -/
  buf : Nat → UInt8
  buflen : Nat
  bufpos : Nat

/-- The body of the loop of `__snprintf_send`. -/
def SNP.store (snp : SNP) (c : UInt8) : SNP :=
  if snp.bufpos < snp.buflen then { snp with buf := update snp.buf snp.bufpos c, bufpos := snp.bufpos + 1 } else snp

def snprintf_send (snp : SNP) (data : List UInt8) : SNP := data.foldl SNP.store snp

def snpStart (buf : Nat → UInt8) (len : Nat) : SNP := ⟨buf, if len = 0 then 0 else len - 1, 0⟩

/-- `vsnprintf`: the memory after it, and the result. -/
def vsnprintf (buf : Nat → UInt8) (len : Nat) (fmt : List UInt8) (ap : List Arg) : Option ((Nat → UInt8) × Int) :=
  match vprintf fmt ap with
  | .ok chars pf =>
    let snp := pf.sent.foldl snprintf_send (snpStart buf len)
    some (if 0 < len then update snp.buf snp.bufpos 0 else snp.buf, chars)
  | _ => none

/-! ## Counting -/

/-- The engine has counted what it has sent. -/
def Counted (pf : PF) : Prop := pf.charcount = toInt pf.sent.flatten.length

/-- The code keeps the count right, and no assertion in it fails. -/
def Counts {α : Type} (m : PfM α) : Prop :=
  ∀ pf, Counted pf → m.wp (fun _ => Counted) (fun _ _ => True) (fun _ => False) pf

namespace Counts

variable {α β : Type}

theorem ret (a : α) : Counts (pure a) := fun _ h => h

theorem bind {m : PfM α} {f : α → PfM β} (hm : Counts m) (hf : ∀ a, Counts (f a)) : Counts (m >>= f) :=
  fun pf h => wp_then (hm pf h) fun a pf' h' => hf a pf' h'

theorem read {f : PF → PfM β} (hf : ∀ pf, Counts (f pf)) : Counts (Kern.read >>= f) := fun pf h => hf pf pf h

theorem ite {c : Prop} [Decidable c] {m m' : PfM α} (hm : c → Counts m) (hm' : ¬ c → Counts m') :
    Counts (if c then m else m') :=
  fun pf h => wp_if (fun hc => hm hc pf h) fun hc => hm' hc pf h

theorem modify {f : PF → PF} (hf : ∀ pf, (f pf).sent = pf.sent ∧ (f pf).charcount = pf.charcount) :
    Counts (.modify f) := by
  intro pf h
  show Counted (f pf)
  rwa [Counted, (hf pf).1, (hf pf).2]

theorem assert {c : Prop} [Decidable c] {p : PfAssert} {f : Unit → PfM β} (hc : c) (hf : Counts (f ())) :
    Counts (Kern.kassert c p >>= f) :=
  fun pf h => (wp_kassert_bind hc f).mpr (hf pf h)

theorem endfield : Counts pf_endfield := modify fun _ => ⟨rfl, rfl⟩

theorem print (txt : List UInt8) : Counts (pf_print txt) := by
  intro pf h
  show toInt (pf.charcount + txt.length) = toInt (pf.sent ++ [txt]).flatten.length
  rw [h, List.flatten_append, List.flatten_singleton, List.length_append, Int.natCast_add]
  unfold toInt
  exact Int.bmod_add_bmod

theorem fill (f : UInt8) (spc : Nat) : Counts (pf_fill f spc) := by
  induction spc with
  | zero => exact ret ()
  | succ spc ih => exact (print [f]).bind fun _ => ih

theorem pad {c : Prop} [Decidable c] {f : UInt8} {spc : Nat} : Counts (pf_pad c f spc) :=
  ite (fun _ => fill f spc) fun _ => ret ()

theorem vaArg (get : Arg → Option α) : Counts (va_arg get) := by
  apply read
  intro pf
  cases pf.ap.head?.bind get with
  | some v => exact (modify fun _ => ⟨rfl, rfl⟩).bind fun _ => ret v
  | none => exact fun _ _ => trivial

theorem printstuff (prefix1 prefix2 stuff : List UInt8) : Counts (pf_printstuff prefix1 prefix2 stuff) := by
  apply read
  intro pf
  exact pad.bind fun _ => (print _).bind fun _ => (print _).bind fun _ => pad.bind fun _ => (print _).bind fun _ => pad

/-- A character that is none of the others is a digit. -/
theorem modifier {ch : UInt8} (hch : ch ∈ modifiers) : Counts (pf_modifier ch) := by
  have hdigit : ch ≠ ascii '#' → ch ≠ ascii '-' → ch ≠ ascii 'l' → ch ≠ ascii '0' → ascii '0' < ch ∧ ch ≤ ascii '9' := by
    revert ch
    decide +kernel
  apply read
  intro pf
  refine ite (fun _ => modify fun _ => ⟨rfl, rfl⟩) fun h₁ => ite (fun _ => modify fun _ => ⟨rfl, rfl⟩) fun h₂ =>
    ite (fun _ => modify fun _ => ⟨rfl, rfl⟩) fun h₃ => ite (fun _ => ?_) fun h₄ => ?_
  · exact ite (fun _ => modify fun _ => ⟨rfl, rfl⟩) fun _ => modify fun _ => ⟨rfl, rfl⟩
  · exact assert (hdigit h₁ h₂ h₃ h₄) (modify fun _ => ⟨rfl, rfl⟩)

theorem getnum (ch : UInt8) : Counts (pf_getnum ch) := by
  apply read
  intro pf
  apply ite
  · exact fun _ => (vaArg _).bind fun _ => modify fun _ => ⟨rfl, rfl⟩
  · refine fun _ => ite (fun _ => (vaArg _).bind fun v => modify fun pf => ?_) fun _ => ?_
    · split <;> exact ⟨rfl, rfl⟩
    · exact (vaArg _).bind fun _ => modify fun _ => ⟨rfl, rfl⟩

theorem send {ch : UInt8} (hch : ch ≠ 0) : Counts (pf_send ch) := by
  refine assert hch (read fun pf => ite (fun _ => print _) fun _ => ite (fun _ => modify fun _ => ⟨rfl, rfl⟩) fun _ =>
    ite modifier fun _ => ite (fun _ => ?_) fun _ => ite (fun _ => ?_) fun _ => ?_)
  · exact (getnum ch).bind fun _ => (modify fun _ => ⟨rfl, rfl⟩ : Counts (pf_setbase ch)).bind fun _ =>
      (read fun _ => printstuff _ _ _ : Counts pf_printnum).bind fun _ => endfield
  · exact (vaArg _).bind fun str => (printstuff _ _ _).bind fun _ => endfield
  · exact (ite (fun _ => vaArg _) fun _ => ret ch : Counts (pf_char ch)).bind fun c =>
      (printstuff _ _ _).bind fun _ => endfield

theorem loop (format : List UInt8) : Counts (pf_loop format) := by
  induction format with
  | nil => exact ret ()
  | cons ch format ih => exact ite (fun _ => ret ()) fun hch => (send hch).bind fun _ => ih

end Counts

/-- The engine returns the length of what it has sent, as an `int`, or asks for an argument that is not there. -/
theorem vprintf_counts (format : List UInt8) (ap : List Arg) :
    (∀ p, vprintf format ap ≠ .panic p) ∧
      ∀ chars pf, vprintf format ap = .ok chars pf → chars = toInt pf.sent.flatten.length := by
  have hstart : Counted (pfStart ap) := by simp [Counted, pfStart, toInt]
  have hrun : (pf_session format).wp (fun chars pf => chars = toInt pf.sent.flatten.length) (fun _ _ => True)
      (fun _ => False) (pfStart ap) := by
    apply wp_then (Counts.endfield _ hstart)
    intro _ pf₁ h₁
    apply wp_then (Counts.loop format pf₁ h₁)
    intro _ pf₂ h₂
    exact h₂
  refine ⟨fun p hp => wp_panic (m := pf_session format) hp hrun, ?_⟩
  intro chars pf h
  exact wp_ok (m := pf_session format) h hrun

/-! ## The contract -/

/-- The stores of a text, from any position: as much as there is room for. -/
theorem foldl_store (l : List UInt8) : ∀ snp : SNP, snp.bufpos ≤ snp.buflen →
    l.foldl SNP.store snp =
      { snp with buf := splice snp.buf snp.bufpos (l.take (snp.buflen - snp.bufpos))
                 bufpos := snp.bufpos + (l.take (snp.buflen - snp.bufpos)).length } := by
  induction l with
  | nil =>
    intro snp _
    simp
  | cons c l ih =>
    intro snp h
    rw [List.foldl_cons, SNP.store]
    split
    · rename_i hroom
      obtain ⟨k, hk⟩ : ∃ k, snp.buflen - snp.bufpos = k + 1 := ⟨snp.buflen - snp.bufpos - 1, by omega⟩
      have hrest : snp.buflen - (snp.bufpos + 1) = k := by omega
      rw [ih _ (Nat.succ_le_of_lt hroom), hk]
      simp only [hrest, List.take_succ_cons, List.length_cons]
      have hcons : splice snp.buf snp.bufpos (c :: l.take k) =
          splice (update snp.buf snp.bufpos c) (snp.bufpos + 1) (l.take k) := by
        rw [← List.singleton_append, splice_append, splice_singleton, List.length_singleton]
      rw [hcons, Nat.add_assoc, Nat.add_comm 1]
    · rename_i hfull
      have hnone : snp.buflen - snp.bufpos = 0 := by omega
      rw [ih snp h, hnone]
      simp

/-- Every argument that the format asks for is there. -/
def Matching (fmt : List UInt8) (ap : List Arg) : Prop := ∀ pf, vprintf fmt ap ≠ .err () pf

/-- **The contract of `snprintf`.** For matching arguments the engine produces a text. If it is
shorter than 2^31 bytes, the buffer has its first bytes and a NUL, nothing else is stored, and
its length is returned; the calls by which it is sent do not matter. -/
theorem vsnprintf_contract {fmt : List UInt8} {ap : List Arg} (hmatch : Matching fmt ap) :
    ∃ chars pf, vprintf fmt ap = .ok chars pf ∧ (pf.sent.flatten.length < 2 ^ 31 → ∀ buf len,
      vsnprintf buf len fmt ap =
        some (if len = 0 then buf else splice buf 0 (pf.sent.flatten.take (len - 1) ++ [0]),
          (pf.sent.flatten.length : Int)) ∧
      (∀ out res, vsnprintf buf len fmt ap = some (out, res) → ∀ p, len ≤ p → out p = buf p) ∧
      ∀ calls : List (List UInt8), calls.flatten = pf.sent.flatten →
        calls.foldl snprintf_send (snpStart buf len) = pf.sent.foldl snprintf_send (snpStart buf len)) := by
  obtain ⟨hpanic, hcount⟩ := vprintf_counts fmt ap
  cases hrun : vprintf fmt ap with
  | err _ pf => exact absurd hrun (hmatch pf)
  | panic p => exact absurd hrun (hpanic p)
  | ok chars pf =>
    refine ⟨chars, pf, rfl, ?_⟩
    intro hshort buf len
    have hchars : chars = pf.sent.flatten.length := by
      rw [hcount chars pf hrun, toInt]
      exact Int.bmod_eq_of_le_mul_two (by omega) (by omega)
    -- all calls together store the text
    have hflat : ∀ calls : List (List UInt8),
        calls.foldl snprintf_send (snpStart buf len) = calls.flatten.foldl SNP.store (snpStart buf len) :=
      fun calls => List.foldl_flatten.symm
    have hstored : vsnprintf buf len fmt ap = some (if len = 0 then buf else splice buf 0
        (pf.sent.flatten.take (len - 1) ++ [0]), (pf.sent.flatten.length : Int)) := by
      unfold vsnprintf
      rw [hrun, ← hchars]
      dsimp only
      rw [hflat, foldl_store _ _ (Nat.zero_le _), snpStart]
      by_cases hlen : len = 0
      · simp [hlen]
      · simp only [hlen, if_false, Nat.pos_of_ne_zero hlen, if_true, Nat.sub_zero]
        rw [splice_append, splice_singleton]
    refine ⟨hstored, ?_, ?_⟩
    · intro out res hout p hp
      rw [hstored] at hout
      cases hout
      split
      · rfl
      · apply splice_after
        rw [List.length_append, List.length_take, List.length_singleton]
        omega
    · intro calls hcalls
      rw [hflat, hflat, hcalls]

/-- `%5s` with the string `abc`, into a buffer of four bytes. -/
theorem vsnprintf_contract_cut : ∃ fmt ap, Matching fmt ap ∧
    vsnprintf (fun _ => 7) 4 fmt ap = some (splice (fun _ => 7) 0 [32, 32, 97, 0], 5) := by
  let fmt := "%5s".toList.map ascii
  let ap : List Arg := [.string (some ("abc".toList.map ascii))]
  have hview : (match vprintf fmt ap with
      | .ok _ pf => some pf.sent.flatten
      | _ => none) = some ("  abc".toList.map ascii) := by
    decide +kernel
  have hmatch : Matching fmt ap := by
    intro pf hpf
    rw [hpf] at hview
    cases hview
  obtain ⟨chars, pf, hrun, hcontract⟩ := vsnprintf_contract hmatch
  rw [hrun] at hview
  have htext : pf.sent.flatten = "  abc".toList.map ascii := Option.some.inj hview
  rw [htext] at hcontract
  exact ⟨fmt, ap, hmatch, (hcontract (by decide) _ 4).1⟩

end OS161.Printf
