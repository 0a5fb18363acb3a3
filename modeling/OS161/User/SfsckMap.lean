import OS161.Lib.Bitmap

/-! # The block maps of `sfsck`

The model of `bitmap_mark` and `check_bitmap` of `user/sbin/sfsck/sfsck.c`. Two maps, with a bit
for each block, say which blocks are in use and which are to be freed. At the end the bitmap on
the disk is compared with them byte by byte, and made right.

The maps depend on the order of the calls only through what the calls say as a whole: a block is
used if some call says so, and freed if some call says so and none says that it is used.
-/

namespace OS161.Sfsck

open Framework Function

/-! ## `bitmap_mark` -/

/-- `blockusage_t`. -/
inductive BlockUsage where
  | B_SUPERBLOCK
  | B_BITBLOCK
  | B_INODE
  | B_IBLOCK
  | B_DIRDATA
  | B_DATA
  | B_TOFREE
  | B_PASTEND
  deriving DecidableEq, Repr

/-- What `sfsck` says. -/
inductive Warning where
  /-- "Block %lu (used as %s) already in use! (NOT FIXED)" -/
  | in_use (block : Nat) (how : BlockUsage) (howdesc : Nat)
  /-- "Block %lu erroneously shown %s in bitmap" -/
  | shown_free (block : Nat)
  | shown_allocated (block : Nat)
  /-- "%lu blocks erroneously shown free in bitmap (fixed)" -/
  | free_count (n : Nat)
  /-- "%lu blocks erroneously shown used in bitmap (fixed)" -/
  | used_count (n : Nat)
  deriving DecidableEq, Repr

/-- One of the two lines at the end of `check_bitmap`. -/
def Warning.counts : Warning → Bool
  | .free_count _ | .used_count _ => true
  | _ => false

abbrev EXIT_RECOV : Nat := 1

abbrev EXIT_UNRECOV : Nat := 2

/-- The static variables. -/
structure Maps where
  bitmapdata : Bitmap
  tofreedata : Bitmap
  badness : Nat
  count_blocks : Nat
  warnings : List Warning

def Maps.setbadness (s : Maps) (code : Nat) : Maps := if s.badness < code then { s with badness := code } else s

def Maps.warnx (s : Maps) (w : Warning) : Maps := { s with warnings := s.warnings ++ [w] }

def bitmap_init (bitblocks : Nat) : Maps where
  bitmapdata := ⟨bitblocks * BLOCKSIZE * 8, fun _ => 0⟩
  tofreedata := ⟨bitblocks * BLOCKSIZE * 8, fun _ => 0⟩
  badness := 0
  count_blocks := 0
  warnings := []

def bitmap_mark (block : Nat) (how : BlockUsage) (howdesc : Nat) (s : Maps) : Maps :=
  if how = .B_TOFREE then
    if bitmap_isset s.tofreedata block then s
    else if bitmap_isset s.bitmapdata block then s
    else { s with tofreedata := s.tofreedata.mark block }
  else
    let s' := if bitmap_isset s.bitmapdata block then (s.warnx (.in_use block how howdesc)).setbadness EXIT_UNRECOV else s
    { s' with
      -- really using the block, don't free it
      tofreedata := if bitmap_isset s.tofreedata block then s.tofreedata.unmark block else s.tofreedata
      bitmapdata := s.bitmapdata.mark block
      count_blocks := if how ≠ .B_PASTEND then add32 s.count_blocks 1 else s.count_blocks }

/-! ## `check_bitmap` -/

def countbits (val : UInt8) : Nat := (List.range 8).countP fun y => val &&& wordMask y ≠ 0

/-- `reportbits`, for byte `k` of the bitmap. -/
def reportbits (k : Nat) (val : UInt8) (what : Nat → Warning) : List Warning :=
  ((List.range 8).filter fun y => val &&& wordMask y ≠ 0).map fun y => what (k * 8 + y)

/-- The variables of `check_bitmap`, and the bitmap on the disk. The buffer has the indices of the
whole bitmap, and only one block of it is used at a time. -/
structure Check where
  disk : Nat → UInt8
  bits : Nat → UInt8
  bchanged : Bool
  alloccount : Nat
  freecount : Nat
  warnings : List Warning

/-- The body of the inner loop, for byte `k`; `none` if its assertion fails. -/
def check_byte (s : Maps) (c : Check) (k : Nat) : Option Check :=
  let found := s.bitmapdata.v k
  let tofree := s.tofreedata.v k
  if found &&& tofree ≠ 0 then none
  else if c.bits k = found then some c
  else if c.bits k = found ||| tofree then some { c with bits := update c.bits k found, bchanged := true }
  else
    -- free the ones we're freeing
    let bits := c.bits k &&& ~~~tofree
    let short := found &&& ~~~bits
    let extra := bits &&& ~~~found
    some
      { c with
        bits := update c.bits k found
        bchanged := true
        alloccount := if bits &&& found ≠ found then c.alloccount + countbits short else c.alloccount
        freecount := if bits &&& found ≠ bits then c.freecount + countbits extra else c.freecount
        warnings := c.warnings ++ (if bits &&& found ≠ found then reportbits k short .shown_free else []) ++
          if bits &&& found ≠ bits then reportbits k extra .shown_allocated else [] }

/-- The body of the loop over the blocks. -/
def check_block (s : Maps) (c : Check) (i : Nat) : Option Check := do
  let c ← (List.range' (i * BLOCKSIZE) BLOCKSIZE).foldlM (check_byte s) { c with bits := c.disk, bchanged := false }
  some (if c.bchanged then { c with disk := fun k => if k / BLOCKSIZE = i then c.bits k else c.disk k } else c)

/-- The lines at the end, if there is something to say. -/
def Maps.report (s : Maps) (n : Nat) (w : Warning) : Maps := if 0 < n then (s.warnx w).setbadness EXIT_RECOV else s

/-- `check_bitmap`, with the bitmap that is on the disk after it. -/
def check_bitmap (bitblocks : Nat) (disk : Nat → UInt8) (s : Maps) : Option (Maps × (Nat → UInt8)) := do
  let c ← (List.range' 0 bitblocks).foldlM (check_block s) ⟨disk, disk, false, 0, 0, s.warnings⟩
  let s := { s with warnings := c.warnings }
  some ((s.report c.alloccount (.free_count c.alloccount)).report c.freecount (.used_count c.freecount), c.disk)

/-! ## What the calls say -/

/-- A call of `bitmap_mark` with a block that the maps have a bit for. -/
structure Mark (bitblocks : Nat) where
  block : Nat
  inRange : block < bitblocks * BLOCKSIZE * 8
  how : BlockUsage
  howdesc : Nat

variable {bitblocks : Nat}

/-- The maps after some calls, of which the last one stands first. -/
def marked : List (Mark bitblocks) → Maps
  | [] => bitmap_init bitblocks
  | m :: ms => bitmap_mark m.block m.how m.howdesc (marked ms)

/-- The blocks that the calls say are used, each as often as they say so. -/
def used (ms : List (Mark bitblocks)) : List Nat := (ms.filter fun m => m.how ≠ .B_TOFREE).map Mark.block

/-- The blocks that are to be freed. -/
def freed (ms : List (Mark bitblocks)) : List Nat :=
  ((ms.filter fun m => m.how = .B_TOFREE).map Mark.block).filter fun b => b ∉ used ms

theorem badness_warned (s : Maps) (w : Warning) {code : Nat} (hcode : 0 < code) :
    ((s.warnx w).setbadness code).badness ≠ 0 := by
  unfold Maps.setbadness
  split
  · exact Nat.ne_of_gt hcode
  · rename_i hle
    exact Nat.ne_of_gt (Nat.lt_of_lt_of_le hcode (Nat.not_lt.mp hle))

theorem report_spec (s : Maps) (n : Nat) (w : Warning) :
    (s.report n w).warnings = s.warnings ++ (if 0 < n then [w] else []) ∧
      ((s.report n w).badness ≠ 0 ↔ s.badness ≠ 0 ∨ 0 < n) := by
  unfold Maps.report
  split
  · rename_i hn
    refine ⟨?_, by simp [badness_warned, hn]⟩
    unfold Maps.setbadness
    split <;> rfl
  · rename_i hn
    simp [hn]

theorem mark_tofree (s : Maps) (block howdesc x : Nat) :
    (bitmap_mark block .B_TOFREE howdesc s).bitmapdata = s.bitmapdata ∧
      bitmap_isset (bitmap_mark block .B_TOFREE howdesc s).tofreedata x =
        (bitmap_isset s.tofreedata x || (decide (x = block) && !bitmap_isset s.bitmapdata x)) ∧
      (bitmap_mark block .B_TOFREE howdesc s).badness = s.badness := by
  unfold bitmap_mark
  rw [if_pos rfl]
  split
  · exact ⟨rfl, by grind, rfl⟩
  · split
    · exact ⟨rfl, by grind, rfl⟩
    · exact ⟨rfl, by grind [Bitmap.isset_mark], rfl⟩

theorem mark_used (s : Maps) {how : BlockUsage} (hhow : how ≠ .B_TOFREE) (block howdesc x : Nat) :
    bitmap_isset (bitmap_mark block how howdesc s).bitmapdata x = (bitmap_isset s.bitmapdata x || decide (x = block)) ∧
      bitmap_isset (bitmap_mark block how howdesc s).tofreedata x =
        (bitmap_isset s.tofreedata x && !decide (x = block)) ∧
      ((bitmap_mark block how howdesc s).badness ≠ 0 ↔
        s.badness ≠ 0 ∨ bitmap_isset s.bitmapdata block = true) := by
  unfold bitmap_mark
  rw [if_neg hhow]
  refine ⟨Bitmap.isset_mark _, ?_, ?_⟩
  · dsimp only
    split
    · exact Bitmap.isset_unmark _
    · grind
  · dsimp only
    split
    · rename_i hset
      simp [badness_warned, hset]
    · rename_i hset
      simp [hset]

/-- The maps are the sets, and badness says whether a block is used twice. -/
theorem marked_spec (ms : List (Mark bitblocks)) :
    (∀ b, bitmap_isset (marked ms).bitmapdata b = decide (b ∈ used ms)) ∧
      (∀ b, bitmap_isset (marked ms).tofreedata b = decide (b ∈ freed ms)) ∧
      ((marked ms).badness ≠ 0 ↔ ¬ (used ms).Nodup) := by
  induction ms with
  | nil =>
    simp [marked, bitmap_init, Bitmap.isset_eq, used, freed]
  | cons m ms ih =>
    obtain ⟨hused, hfreed, hbad⟩ := ih
    rw [marked]
    by_cases hhow : m.how = .B_TOFREE
    · have hsame : used (m :: ms) = used ms := by simp [used, hhow]
      have hmark := mark_tofree (marked ms) m.block m.howdesc
      rw [hhow, hsame]
      refine ⟨fun b => by rw [(hmark b).1, hused], fun b => ?_, by rw [(hmark 0).2.2, hbad]⟩
      rw [(hmark b).2.1, hfreed, hused, Bool.eq_iff_iff]
      simp only [freed, hsame]
      simp
      grind
    · have hcons : used (m :: ms) = m.block :: used ms := by simp [used, hhow]
      have hmark := mark_used (marked ms) hhow m.block m.howdesc
      rw [hcons]
      refine ⟨fun b => ?_, fun b => ?_, ?_⟩
      · rw [(hmark b).1, hused, Bool.eq_iff_iff]
        simp [or_comm]
      · rw [(hmark b).2.1, hfreed, Bool.eq_iff_iff]
        simp [freed, hcons, hhow]
        grind
      · rw [(hmark 0).2.2, hbad, hused]
        simp
        grind

theorem marked_quiet (ms : List (Mark bitblocks)) : ∀ w ∈ (marked ms).warnings, w.counts = false := by
  induction ms with
  | nil => exact fun _ hw => nomatch hw
  | cons m ms ih =>
    rw [marked]
    grind [bitmap_mark, Maps.warnx, Maps.setbadness, Warning.counts]

/-! ## The loops -/

/-- Bit `y` of a byte. -/
def bit (w : UInt8) (y : Nat) : Bool := w.toBitVec.getLsbD y

theorem bit_and (v w : UInt8) (y : Nat) : bit (v &&& w) y = (bit v y && bit w y) := by simp [bit]

theorem bit_or (v w : UInt8) (y : Nat) : bit (v ||| w) y = (bit v y || bit w y) := by simp [bit]

theorem bit_not (w : UInt8) {y : Nat} (hy : y < 8) : bit (~~~w) y = !bit w y := by simp [bit, hy]

/-- The bit of a block in the bitmap on the disk. -/
def diskBit (disk : Nat → UInt8) (b : Nat) : Bool := bit (disk (b / 8)) (b % 8)

/-- A block that is used, and clear on the disk. -/
def shortOf (s : Maps) (disk : Nat → UInt8) (b : Nat) : Bool := bitmap_isset s.bitmapdata b && !diskBit disk b

/-- A block that is set on the disk, and neither to be freed nor used. -/
def extraOf (s : Maps) (disk : Nat → UInt8) (b : Nat) : Bool :=
  diskBit disk b && !bitmap_isset s.tofreedata b && !bitmap_isset s.bitmapdata b

/-- The bytes before the `k`th have been made right in `image`, and counted. -/
structure Upto (s : Maps) (disk : Nat → UInt8) (k : Nat) (image : Nat → UInt8) (c : Check) : Prop where
  image : ∀ x, image x = if x < k then s.bitmapdata.v x else disk x
  alloccount : c.alloccount = (List.range (k * 8)).countP (shortOf s disk)
  freecount : c.freecount = (List.range (k * 8)).countP (extraOf s disk)
  quiet : ∀ w ∈ c.warnings, w.counts = false

section Count

variable {k n : Nat} {f : Nat → Bool}

theorem countP_byte : (List.range ((k + 1) * 8)).countP f =
    (List.range (k * 8)).countP f + (List.range 8).countP fun y => f (k * 8 + y) := by
  rw [Nat.add_mul, Nat.one_mul, List.range_add, List.countP_append, List.countP_map]
  rfl

theorem count_none (hn : n = (List.range (k * 8)).countP f) (hf : ∀ y < 8, f (k * 8 + y) = false) :
    n = (List.range ((k + 1) * 8)).countP f := by
  rw [countP_byte, ← hn, List.countP_eq_zero.mpr fun y hy => by simp [hf y (List.mem_range.mp hy)]]
  rfl

/-- A counter goes up by the bits of a byte, and stays if there are none. -/
theorem count_byte {w : UInt8} {p : Prop} [Decidable p] (hn : n = (List.range (k * 8)).countP f)
    (hf : ∀ y < 8, bit w y = f (k * 8 + y)) (hp : ¬ p → ∀ y < 8, f (k * 8 + y) = false) :
    (if p then n + countbits w else n) = (List.range ((k + 1) * 8)).countP f := by
  split
  · rw [countP_byte, hn]
    congr 1
    refine List.countP_congr fun y hy => ?_
    have hy := List.mem_range.mp hy
    rw [decide_eq_true_iff, and_wordMask_ne_zero w hy, ← hf y hy]
    rfl
  · rename_i hnot
    exact count_none hn (hp hnot)

end Count

variable {s : Maps} {disk : Nat → UInt8} {k : Nat} {c : Check}

theorem isset_byte (b : Bitmap) (k : Nat) {y : Nat} (hy : y < 8) : bitmap_isset b (k * 8 + y) = bit (b.v k) y := by
  rw [Bitmap.isset_eq, show (k * 8 + y) / 8 = k by omega, show (k * 8 + y) % 8 = y by omega]
  rfl

theorem diskBit_byte {y : Nat} (hy : y < 8) : diskBit disk (k * 8 + y) = bit (disk k) y := by
  unfold diskBit
  rw [show (k * 8 + y) / 8 = k by omega, show (k * 8 + y) % 8 = y by omega]

theorem reportbits_quiet (val : UInt8) {what : Nat → Warning} (hwhat : ∀ b, (what b).counts = false) :
    ∀ w ∈ reportbits k val what, w.counts = false := by
  intro w hw
  obtain ⟨y, -, rfl⟩ := List.mem_map.mp hw
  exact hwhat _

/-- **One byte.** The two shortcuts are taken only if there is nothing to count. -/
theorem check_byte_done (hapart : ∀ b, (bitmap_isset s.bitmapdata b && bitmap_isset s.tofreedata b) = false)
    (h : Upto s disk k c.bits c) :
    ∃ c', check_byte s c k = some c' ∧ Upto s disk (k + 1) c'.bits c' ∧ c'.disk = c.disk ∧
      c'.bits = update c.bits k (s.bitmapdata.v k) ∧ (c'.bchanged = false → c.bchanged = false ∧ c'.bits = c.bits) := by
  have hbits : c.bits k = disk k := (h.image k).trans (if_neg (Nat.lt_irrefl k))
  have hboth : ∀ y < 8, (bit (s.bitmapdata.v k) y && bit (s.tofreedata.v k) y) = false := fun y hy => by
    rw [← isset_byte _ _ hy, ← isset_byte _ _ hy, hapart]
  have hshort : ∀ y < 8, shortOf s disk (k * 8 + y) = (bit (s.bitmapdata.v k) y && !bit (disk k) y) := fun y hy => by
    rw [shortOf, isset_byte _ _ hy, diskBit_byte hy]
  have hextra : ∀ y < 8, extraOf s disk (k * 8 + y) =
      (bit (disk k) y && !bit (s.tofreedata.v k) y && !bit (s.bitmapdata.v k) y) := fun y hy => by
    rw [extraOf, isset_byte _ _ hy, isset_byte _ _ hy, diskBit_byte hy]
  have himage : ∀ x, update c.bits k (s.bitmapdata.v k) x = if x < k + 1 then s.bitmapdata.v x else disk x := by
    intro x
    rw [update_apply, h.image]
    grind
  have hzero : ¬ s.bitmapdata.v k &&& s.tofreedata.v k ≠ 0 := by
    rw [not_not]
    apply UInt8.eq_of_toBitVec_eq
    apply BitVec.eq_of_getLsbD_eq
    intro y hy
    exact ((bit_and _ _ y).trans (hboth y hy)).trans BitVec.getLsbD_zero.symm
  unfold check_byte
  rw [if_neg hzero, hbits]
  generalize s.bitmapdata.v k = found at *
  generalize s.tofreedata.v k = tofree at *
  split
  · rename_i heq
    have hsame : update c.bits k found = c.bits := by rw [← heq, ← hbits, update_eq_self]
    refine ⟨c, rfl, ⟨hsame ▸ himage, count_none h.alloccount ?_, count_none h.freecount ?_, h.quiet⟩, rfl, hsame.symm,
      fun hc => ⟨hc, rfl⟩⟩
    · grind
    · grind
  · split
    · rename_i heq
      refine ⟨_, rfl, ⟨himage, count_none h.alloccount ?_, count_none h.freecount ?_, h.quiet⟩, rfl, rfl, nofun⟩
      · grind [bit_or]
      · grind [bit_or]
    · refine ⟨_, rfl, ⟨himage, count_byte h.alloccount ?_ ?_, count_byte h.freecount ?_ ?_, ?_⟩, rfl, rfl, nofun⟩
      · grind [bit_and, bit_not]
      · intro hall y hy
        grind [bit_and, bit_not]
      · grind [bit_and, bit_not]
      · intro hall y hy
        have := congrArg (bit · y) (not_not.mp hall)
        grind [bit_and, bit_not]
      · grind [h.quiet, reportbits_quiet, Warning.counts]

theorem foldlM_range {σ : Type} {f : σ → Nat → Option σ} {P : Nat → σ → Prop} (n : Nat) {a : Nat} {c : σ} (h : P a c)
    (hstep : ∀ i c, a ≤ i → i < a + n → P i c → ∃ c', f c i = some c' ∧ P (i + 1) c') :
    ∃ c', (List.range' a n).foldlM f c = some c' ∧ P (a + n) c' := by
  induction n generalizing a c with
  | zero => exact ⟨c, rfl, h⟩
  | succ n ih =>
    obtain ⟨c1, hrun, h1⟩ := hstep a c (Nat.le_refl a) (by omega) h
    obtain ⟨c2, hrest, h2⟩ := ih h1 fun i c hlo hhi => hstep i c (by omega) (by omega)
    refine ⟨c2, ?_, ?_⟩
    · rw [List.range'_succ, List.foldlM_cons, hrun]
      exact hrest
    · rwa [Nat.add_assoc, Nat.add_comm 1] at h2

/-- **One block.** What is in the buffer is on the disk after it, written or not. -/
theorem check_block_done (hapart : ∀ b, (bitmap_isset s.bitmapdata b && bitmap_isset s.tofreedata b) = false)
    {i : Nat} (h : Upto s disk (i * BLOCKSIZE) c.disk c) :
    ∃ c', check_block s c i = some c' ∧ Upto s disk ((i + 1) * BLOCKSIZE) c'.disk c' := by
  obtain ⟨c1, hrun, hc1, hdisk, hother, hsame⟩ := foldlM_range (f := check_byte s) BLOCKSIZE
    (P := fun k c' => Upto s disk k c'.bits c' ∧ c'.disk = c.disk ∧ (∀ x, x / BLOCKSIZE ≠ i → c'.bits x = c.disk x) ∧
      (c'.bchanged = false → c'.bits = c.disk))
    (c := { c with bits := c.disk, bchanged := false }) ⟨{ h with }, rfl, fun _ _ => rfl, fun _ => rfl⟩
    (by
      intro k c' hlo hhi ⟨hc', hdisk, hother, hsame⟩
      obtain ⟨c'', hrun, hup, hdisk', hbits, hsame'⟩ := check_byte_done hapart hc'
      refine ⟨c'', hrun, hup, hdisk'.trans hdisk, fun x hx => ?_, fun hno => ?_⟩
      · have hxk : x ≠ k := by
          rintro rfl
          exact hx (Nat.div_eq_of_lt_le hlo (by rwa [Nat.add_mul, Nat.one_mul]))
        rw [hbits, update_of_ne hxk, hother x hx]
      · obtain ⟨hno, hb⟩ := hsame' hno
        rw [hb, hsame hno])
  rw [← Nat.add_one_mul] at hc1
  unfold check_block
  rw [hrun]
  refine ⟨_, rfl, ?_⟩
  split
  · refine { hc1 with image := fun x => ?_ }
    rw [← hc1.image x]
    dsimp only
    split
    · rfl
    · rename_i hx
      rw [hdisk, hother x hx]
  · rename_i hno
    rw [hdisk, ← hsame (Bool.eq_false_iff.mpr hno)]
    exact hc1

/-! ## The result -/

/-- How many blocks are used that the disk shows free. -/
def shownFree (ms : List (Mark bitblocks)) (disk : Nat → UInt8) : Nat :=
  (List.range (bitblocks * BLOCKSIZE * 8)).countP fun b => b ∈ used ms ∧ diskBit disk b = false

/-- How many blocks the disk shows used that are neither being freed nor used. -/
def shownUsed (ms : List (Mark bitblocks)) (disk : Nat → UInt8) : Nat :=
  (List.range (bitblocks * BLOCKSIZE * 8)).countP fun b => (diskBit disk b = true ∧ b ∉ freed ms) ∧ b ∉ used ms

/-- **Reconciliation.** After any calls of `bitmap_mark`, for any bitmap on the disk: no block is
marked both ways, and `check_bitmap` leaves a bitmap that shows just the used blocks and reports
the two counts; the result is bad if one of them is not 0 or a block is used twice. -/
theorem check_bitmap_reconciles (ms : List (Mark bitblocks)) (disk : Nat → UInt8) :
    (∀ b, (bitmap_isset (marked ms).bitmapdata b && bitmap_isset (marked ms).tofreedata b) = false) ∧
      ∃ s disk', check_bitmap bitblocks disk (marked ms) = some (s, disk') ∧
        (∀ b < bitblocks * BLOCKSIZE * 8, diskBit disk' b = true ↔ b ∈ used ms) ∧
        s.warnings.filter Warning.counts = (if 0 < shownFree ms disk then [.free_count (shownFree ms disk)] else []) ++
          (if 0 < shownUsed ms disk then [.used_count (shownUsed ms disk)] else []) ∧
        (s.badness ≠ 0 ↔ 0 < shownFree ms disk ∨ 0 < shownUsed ms disk ∨ ¬ (used ms).Nodup) := by
  obtain ⟨hused, hfreed, hbad⟩ := marked_spec ms
  have hapart : ∀ b, (bitmap_isset (marked ms).bitmapdata b && bitmap_isset (marked ms).tofreedata b) = false := by
    intro b
    rw [hused, hfreed]
    grind [freed]
  obtain ⟨c, hrun, hc⟩ := foldlM_range (f := check_block (marked ms)) bitblocks (a := 0)
    (P := fun i c => Upto (marked ms) disk (i * BLOCKSIZE) c.disk c)
    (c := ⟨disk, disk, false, 0, 0, (marked ms).warnings⟩) ⟨by simp, by simp, by simp, marked_quiet ms⟩
    fun i c _ _ h => check_block_done hapart h
  rw [Nat.zero_add] at hc
  have halloc : c.alloccount = shownFree ms disk := by
    rw [hc.alloccount]
    exact List.countP_congr fun b _ => by simp [shortOf, hused]
  have hfree : c.freecount = shownUsed ms disk := by
    rw [hc.freecount]
    exact List.countP_congr fun b _ => by simp [extraOf, hused, hfreed]
  refine ⟨hapart, ?_⟩
  unfold check_bitmap
  rw [hrun]
  refine ⟨_, _, rfl, fun b hb => ?_, ?_, ?_⟩
  · have hlt : b / 8 < bitblocks * BLOCKSIZE := Nat.div_lt_of_lt_mul (by omega)
    rw [diskBit, hc.image, if_pos hlt, bit, ← Bitmap.isset_eq, hused, decide_eq_true_iff]
  · rw [(report_spec _ _ _).1, (report_spec _ _ _).1, halloc, hfree, List.filter_append, List.filter_append,
      List.filter_eq_nil_iff.mpr fun w hw => by simp [hc.quiet w hw], List.nil_append]
    congr 1 <;> split <;> rfl
  · rw [(report_spec _ _ _).2, (report_spec _ _ _).2, halloc, hfree]
    rw [hbad]
    grind

end OS161.Sfsck
