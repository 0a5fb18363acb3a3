import OS161.Vm.AddrSpace

/-! # Regions of an address space

What sequences of `as_define_region` calls (`kern/vm/addrspace.c`) record in a fresh address
space. The address and the size of a request are arbitrary 32-bit words; rounding to pages wraps
around, and a base address of 0 stands for a segment that is not set up.
-/

namespace OS161

open Framework Kern

/-- The pages of a region, as `as_define_region` rounds them. -/
def regionPages (vaddr sz : Nat) : Nat :=
  pageFrame (((sz + vaddr % PAGE_SIZE) % 2 ^ 32 + PAGE_SIZE - 1) % 2 ^ 32) / PAGE_SIZE

/-- The arguments `vaddr` and `sz` of `as_define_region`. -/
abbrev RegionRequest : Type := UInt32 × UInt32

namespace RegionRequest

def vaddr (r : RegionRequest) : Nat := r.1.toNat

def sz (r : RegionRequest) : Nat := r.2.toNat

/-- A page that meets `[vaddr, vaddr + sz)`, computed without wrap-around. -/
def Meets (r : RegionRequest) (page : Nat) : Prop :=
  ∃ a, r.vaddr ≤ a ∧ a < r.vaddr + r.sz ∧ a / PAGE_SIZE = page

/-- The requests that an address space can record: not empty, above page 0 and below the stack. -/
structure Representable (r : RegionRequest) : Prop where
  above : PAGE_SIZE ≤ r.vaddr
  nonempty : 0 < r.sz
  below : r.vaddr + r.sz ≤ USERSTACK - STACKPAGES * PAGE_SIZE

def npages (r : RegionRequest) : Nat := regionPages r.vaddr r.sz

end RegionRequest

/-- The segment is set up for exactly the pages of a request, below the stack. -/
structure Records (seg : Segment) (r : RegionRequest) : Prop where
  set : seg.vbase ≠ 0
  aligned : pageFrame seg.vbase = seg.vbase
  pages : ∀ p, (seg.vbase / PAGE_SIZE ≤ p ∧ p < seg.vbase / PAGE_SIZE + seg.npages) ↔ r.Meets p
  below : seg.vbase + seg.npages * PAGE_SIZE ≤ USERSTACK - STACKPAGES * PAGE_SIZE
  table : seg.ptable = List.replicate seg.npages pte_create

/-- The segment of the first and of the second accepted request. -/
def regionSegment : Nat → SegmentT
  | 0 => .CODE
  | _ => .DATA

/-- The accepted requests, in order, are recorded. -/
structure RegionsOk (accepted : List RegionRequest) (as : AddrSpace) : Prop where
  two : accepted.length ≤ 2
  recorded : ∀ i r, accepted[i]? = some r → Records (as.segment (regionSegment i)) r

/-- A sequence of calls does what it should: a call that returns 0 records its region beside the
earlier ones, any other returns an error and changes nothing. -/
def DefinesOk : List RegionRequest → List RegionRequest → AddrSpace → Prop
  | _, [], _ => True
  | accepted, r :: rs, as =>
    match as_define_region r.vaddr r.sz as with
    | .ok _ as' =>
      (∀ t, (as.segment t).vbase ≠ 0 → as'.segment t = as.segment t) ∧
        RegionsOk (accepted ++ [r]) as' ∧ DefinesOk (accepted ++ [r]) rs as'
    | .err _ as' => as' = as ∧ DefinesOk accepted rs as
    | .panic _ => False

/-! ## One call -/

/-- The segment that a request sets up. -/
def regionOf (r : RegionRequest) (t : SegmentT) : Segment where
  vbase := pageFrame r.vaddr
  npages := r.npages
  ptable := List.replicate r.npages pte_create
  tsegment := t

section Calls

variable {as : AddrSpace} {vaddr sz : Nat}

theorem define_segment_run (t : SegmentT) {npages : Nat} (hn : npages ≠ 0) :
    define_segment t vaddr npages as = .ok () (as.setSegment t { as.segment t with
      npages := npages, ptable := List.replicate npages pte_create, vbase := vaddr }) := by
  cases t <;>
    simp [define_segment, segment_prepare, Kern.zoom, Kern.kassert, hn, bind, Kern.andThen, Kern.read, Kern.modify,
      Kern.ret, AddrSpace.segment, AddrSpace.setSegment]

theorem define_segment_empty (t : SegmentT) : define_segment t vaddr 0 as = .panic .segment_prepare_npages := by
  cases t <;>
    simp [define_segment, segment_prepare, Kern.zoom, Kern.kassert, bind, Kern.andThen, Kern.read, Kern.modify,
      Kern.halt, AddrSpace.segment, AddrSpace.setSegment]

theorem as_define_region_code (vaddr sz : Nat) (hcode : as.as_vbase1 = 0 ∧ as.code.vbase = 0) :
    as_define_region vaddr sz as = define_segment .CODE (pageFrame vaddr) (regionPages vaddr sz)
      { as with as_vbase1 := pageFrame vaddr, as_npages1 := regionPages vaddr sz } := by
  unfold as_define_region
  rw [read_bind_run, if_pos hcode]
  rfl

theorem as_define_region_data (vaddr sz : Nat) (hcode : ¬ (as.as_vbase1 = 0 ∧ as.code.vbase = 0))
    (hdata : as.as_vbase2 = 0 ∧ as.data.vbase = 0) :
    as_define_region vaddr sz as = define_segment .DATA (pageFrame vaddr) (regionPages vaddr sz)
      { as with as_vbase2 := pageFrame vaddr, as_npages2 := regionPages vaddr sz } := by
  unfold as_define_region
  rw [read_bind_run, if_neg hcode, if_pos hdata]
  rfl

theorem as_define_region_full (hcode : ¬ (as.as_vbase1 = 0 ∧ as.code.vbase = 0))
    (hdata : ¬ (as.as_vbase2 = 0 ∧ as.data.vbase = 0)) :
    as_define_region vaddr sz as = .err .eunimp as := by
  unfold as_define_region
  rw [read_bind_run, if_neg hcode, if_neg hdata]
  rfl

end Calls

variable {as : AddrSpace}

/-- The first region goes to the code segment, whatever its bounds. -/
theorem define_first (r : RegionRequest) (h : as.as_vbase1 = 0 ∧ as.code.vbase = 0) :
    as_define_region r.vaddr r.sz as =
      if r.npages = 0 then .panic .segment_prepare_npages
      else .ok ()
        { as with as_vbase1 := pageFrame r.vaddr, as_npages1 := r.npages, code := regionOf r as.code.tsegment } := by
  rw [as_define_region_code _ _ h]
  by_cases hn : r.npages = 0
  · rw [if_pos hn, show regionPages r.vaddr r.sz = 0 from hn]
    exact define_segment_empty .CODE
  · rw [if_neg hn]
    exact define_segment_run .CODE hn

/-- The second region goes to the data segment. -/
theorem define_second (r : RegionRequest) (h1 : ¬ (as.as_vbase1 = 0 ∧ as.code.vbase = 0))
    (h2 : as.as_vbase2 = 0 ∧ as.data.vbase = 0) :
    as_define_region r.vaddr r.sz as =
      if r.npages = 0 then .panic .segment_prepare_npages
      else .ok ()
        { as with as_vbase2 := pageFrame r.vaddr, as_npages2 := r.npages, data := regionOf r as.data.tsegment } := by
  rw [as_define_region_data _ _ h1 h2]
  by_cases hn : r.npages = 0
  · rw [if_pos hn, show regionPages r.vaddr r.sz = 0 from hn]
    exact define_segment_empty .DATA
  · rw [if_neg hn]
    exact define_segment_run .DATA hn

/-! ## The pages of a request -/

/-- Below the stack nothing wraps around. -/
theorem regionPages_eq {vaddr sz : Nat} (hbelow : vaddr + sz ≤ USERSTACK - STACKPAGES * PAGE_SIZE) :
    regionPages vaddr sz = (vaddr % PAGE_SIZE + sz + PAGE_SIZE - 1) / PAGE_SIZE := by
  unfold regionPages pageFrame
  simp only [PAGE_SIZE, USERSTACK, STACKPAGES] at hbelow ⊢
  rw [Nat.mod_eq_of_lt (by omega : sz + vaddr % 4096 < 2 ^ 32),
    Nat.mod_eq_of_lt (by omega : sz + vaddr % 4096 + 4096 - 1 < 2 ^ 32)]
  omega

variable {r : RegionRequest}

theorem npages_eq (h : r.Representable) :
    r.npages = (r.vaddr % PAGE_SIZE + r.sz + PAGE_SIZE - 1) / PAGE_SIZE := regionPages_eq h.below

/-- A request for which no page is computed is empty or wraps around. -/
theorem not_representable (hn : r.npages = 0) : ¬ r.Representable := by
  intro h
  have hpages := npages_eq h
  have hpos := h.nonempty
  simp only [PAGE_SIZE] at hpages
  omega

/-- A representable request is recorded with the pages it asks for. -/
theorem records_regionOf (h : r.Representable) (t : SegmentT) : Records (regionOf r t) r := by
  obtain ⟨habove, hpos, hbelow⟩ := h
  have hn := npages_eq ⟨habove, hpos, hbelow⟩
  simp only [PAGE_SIZE, USERSTACK, STACKPAGES] at habove hbelow hn
  constructor
  · show pageFrame r.vaddr ≠ 0
    simp only [pageFrame, PAGE_SIZE]
    omega
  · show pageFrame (pageFrame r.vaddr) = pageFrame r.vaddr
    simp only [pageFrame, PAGE_SIZE]
    omega
  · intro p
    show (pageFrame r.vaddr / PAGE_SIZE ≤ p ∧ p < pageFrame r.vaddr / PAGE_SIZE + r.npages) ↔ r.Meets p
    simp only [RegionRequest.Meets, pageFrame, PAGE_SIZE, hn]
    constructor
    · intro ⟨hlo, hhi⟩
      -- the first byte of the page, or of the request on its first page
      refine ⟨max r.vaddr (p * 4096), ?_, ?_, ?_⟩ <;> omega
    · intro ⟨a, hlo, hhi, hp⟩
      omega
  · show pageFrame r.vaddr + r.npages * PAGE_SIZE ≤ USERSTACK - STACKPAGES * PAGE_SIZE
    simp only [pageFrame, PAGE_SIZE, USERSTACK, STACKPAGES, hn]
    omega
  · rfl

/-- Nothing else is recorded as it should be. -/
theorem representable_of_records {t : SegmentT} (h : Records (regionOf r t) r)
    (hn : r.npages ≠ 0) : r.Representable := by
  have hset : pageFrame r.vaddr ≠ 0 := h.set
  have hpages : ∀ p, (pageFrame r.vaddr / PAGE_SIZE ≤ p ∧ p < pageFrame r.vaddr / PAGE_SIZE + r.npages) ↔
    r.Meets p := h.pages
  have hbelow : pageFrame r.vaddr + r.npages * PAGE_SIZE ≤ USERSTACK - STACKPAGES * PAGE_SIZE := h.below
  simp only [RegionRequest.Meets, pageFrame, PAGE_SIZE, USERSTACK, STACKPAGES] at hset hpages hbelow
  -- the first page recorded is met, so the request is not empty
  obtain ⟨a, ha1, ha2, -⟩ := (hpages (r.vaddr / 4096 * 4096 / 4096)).mp ⟨Nat.le_refl _, by omega⟩
  -- the page of its last byte is met, and so recorded
  obtain ⟨-, hlast⟩ := (hpages ((r.vaddr + r.sz - 1) / 4096)).mpr
    ⟨r.vaddr + r.sz - 1, by omega, by omega, rfl⟩
  constructor
  · simp only [PAGE_SIZE]
    omega
  · omega
  · simp only [PAGE_SIZE, USERSTACK, STACKPAGES]
    omega

/-! ## Sequences of calls -/

/-- Once two regions are recorded every call fails and changes nothing. -/
theorem definesOk_full (accepted rs : List RegionRequest)
    (h1 : as.code.vbase ≠ 0) (h2 : as.data.vbase ≠ 0) : DefinesOk accepted rs as := by
  induction rs with
  | nil => trivial
  | cons r rs ih =>
    unfold DefinesOk
    rw [as_define_region_full (fun h => h1 h.2) (fun h => h2 h.2)]
    exact ⟨rfl, ih⟩

/-- The second call: the code segment is recorded, the data segment is free. -/
theorem definesOk_data {r₁ : RegionRequest} (rs : List RegionRequest)
    (h1 : Records as.code r₁) (h2 : as.as_vbase2 = 0 ∧ as.data.vbase = 0) :
    DefinesOk [r₁] rs as ↔ ∀ r ∈ rs.take 1, r.Representable := by
  match rs with
  | [] => simp [DefinesOk]
  | r :: rs =>
    unfold DefinesOk
    rw [define_second r (fun h => h1.set h.2) h2]
    by_cases hn : r.npages = 0
    · -- `segment_prepare` panics, and the request is empty or wraps around
      rw [if_pos hn]
      have hr := not_representable hn
      simpa using hr
    · rw [if_neg hn]
      simp only [List.take_succ_cons, List.take_zero, List.mem_singleton, forall_eq]
      constructor
      · intro ⟨_, hok, _⟩
        exact representable_of_records (hok.recorded 1 r rfl) hn
      · intro h
        refine ⟨?_, ⟨by simp, ?_⟩, ?_⟩
        · intro t ht
          match t with
          | .CODE => rfl
          | .DATA => exact absurd h2.2 ht
          | .STACK => rfl
        · intro i r' hr'
          match i with
          | 0 =>
            obtain rfl : r₁ = r' := by simpa using hr'
            exact h1
          | 1 =>
            obtain rfl : r = r' := by simpa using hr'
            exact records_regionOf h _
        · exact definesOk_full _ rs h1.set (records_regionOf h .DATA).set

/-- **Region definition.** A sequence of calls on a fresh address space records what it accepts, and
refuses the rest without an effect, exactly if its first two requests are representable:
`as_define_region` checks nothing but that there are no more than two. -/
theorem as_define_region_calls (rs : List RegionRequest) :
    DefinesOk [] rs as_create ↔ ∀ r ∈ rs.take 2, r.Representable := by
  match rs with
  | [] => simp [DefinesOk]
  | r :: rs =>
    unfold DefinesOk
    rw [define_first r ⟨rfl, rfl⟩]
    by_cases hn : r.npages = 0
    · rw [if_pos hn]
      have hr := not_representable hn
      simp [hr]
    · rw [if_neg hn]
      simp only [List.take_succ_cons, List.mem_cons, forall_eq_or_imp]
      constructor
      · intro ⟨_, hok, hrest⟩
        have hr : Records (regionOf r .CODE) r := hok.recorded 0 r rfl
        exact ⟨representable_of_records hr hn, (definesOk_data rs hr ⟨rfl, rfl⟩).mp hrest⟩
      · intro ⟨h, hrest⟩
        have hr : Records (regionOf r .CODE) r := records_regionOf h _
        refine ⟨?_, ⟨by simp, ?_⟩, (definesOk_data rs hr ⟨rfl, rfl⟩).mpr hrest⟩
        · intro t ht
          match t with
          | .CODE => exact absurd rfl ht
          | .DATA => rfl
          | .STACK => rfl
        · intro i r' hr'
          match i with
          | 0 =>
            obtain rfl : r = r' := by simpa using hr'
            exact hr

/-- A request for almost 4 GB at 0x400800 is accepted, and recorded as the one page at 0x400000. -/
theorem as_define_region_wraps :
    (∃ as', as_define_region 0x400800 0xFFFFFF00 as_create = .ok () as' ∧ as'.code.vbase = 0x400000 ∧
      as'.code.npages = 1) ∧
      ¬ DefinesOk [] [(0x400800, 0xFFFFFF00)] as_create := by
  have hfree : as_create.as_vbase1 = 0 ∧ as_create.code.vbase = 0 := ⟨rfl, rfl⟩
  have hrun := define_first (0x400800, 0xFFFFFF00) hfree
  have hn : RegionRequest.npages (0x400800, 0xFFFFFF00) = 1 := by decide
  rw [if_neg (by rw [hn]; decide)] at hrun
  refine ⟨⟨_, hrun, by decide, hn⟩, ?_⟩
  intro h
  unfold DefinesOk at h
  have h' := h
  rw [hrun] at h'
  -- the page 0x401 is asked for and not recorded
  have hpage := ((h'.2.1.recorded 0 _ rfl).pages 0x401).mpr ⟨0x401000, by decide, by decide, by decide⟩
  exact absurd hpage.2 (by decide)

end OS161
