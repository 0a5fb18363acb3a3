import OS161.Vm.KmallocInv

/-! # Safety of the subpage allocator

`KmInv` is the invariant of all runs: the heap has the shape of some layout, live blocks are
blocks of it that are not free, and every page belongs to the heap or to one thread that is on
its way with it. `kmalloc_safe` follows for every reachable state.
-/

namespace OS161.Kmalloc

open Framework Kern Function

/-! ## Live blocks -/

/-- A block that somebody has is a block of a heap page and not free. -/
def LiveAt (h : Heap) (L : Layout) (b : Block) : Prop :=
  ∃ p ∈ L.all, ∃ o, b.addr = h.page p + o ∧ IsBlock (h.btype p) o ∧
    blocktype b.sz = some (h.btype p) ∧ o ∉ L.free p

section LiveAt

variable {h h' : Heap} {L L' : Layout} {b c : Block}

/-- A block of a page that is as before, and that is not free. -/
theorem LiveAt.on {q : PrId} {o : Nat} (hq : q ∈ L'.all) (hpage : h'.page q = h.page q)
    (htype : h'.btype q = h.btype q) (haddr : b.addr = h.page q + o) (hblock : IsBlock (h.btype q) o)
    (hsz : blocktype b.sz = some (h.btype q)) (hfree : o ∉ L'.free q) : LiveAt h' L' b := by
  refine ⟨q, hq, o, ?_, ?_, ?_, hfree⟩
  · rw [hpage, haddr]
  · rwa [htype]
  · rw [htype, hsz]

/-- The new block of a `kmalloc`. -/
theorem Took.live {k addr o sz : Nat} {p : PrId} (ht : Took h h' L L' k addr p o)
    (hsz : blocktype sz = some k) : LiveAt h' L' ⟨addr, sz⟩ := by
  refine .on (ht.all ▸ ht.mem) (ht.page p) (ht.btype p) ht.addr ?_ ?_ fun ho => (ht.others p o ho).2 ⟨rfl, rfl⟩
  · rw [ht.type]
    exact ht.block
  · rw [ht.type]
    exact hsz

/-- Other blocks stay what they were, and are not the new one. -/
theorem Took.keeps {k addr o : Nat} {p : PrId} (ht : Took h h' L L' k addr p o)
    (hinv : HeapInv h L) (hb : LiveAt h L b) : LiveAt h' L' b ∧ addr ≠ b.addr := by
  obtain ⟨q, hq, o', haddr, hblock, hsz, hfree⟩ := hb
  constructor
  · exact .on (ht.all ▸ hq) (ht.page q) (ht.btype q) haddr hblock hsz fun ho' => hfree (ht.others q o' ho').1
  · rw [ht.addr, haddr]
    by_cases hqp : p = q
    · subst hqp
      intro heq
      exact hfree (Nat.add_left_cancel heq ▸ ht.free)
    · exact hinv.apart ht.mem hq hqp ht.block.2 hblock.2

theorem Grown.keeps {page : Nat} (hg : Grown h h' L L' page) (hb : LiveAt h L b) : LiveAt h' L' b := by
  obtain ⟨q, hq, o, haddr, hblock, hsz, hfree⟩ := hb
  obtain ⟨hq', hpage, htype, hsame⟩ := hg.old q hq
  exact .on hq' hpage htype haddr hblock hsz (hsame ▸ hfree)

/-- A page that is given back has had no other live block. -/
theorem Gave.keeps {p : PrId} {o : Nat} {r : Option Nat} (hg : Gave h h' L L' p o r)
    (hb : LiveAt h L b) (hne : b.addr ≠ h.page p + o) : LiveAt h' L' b := by
  obtain ⟨q, hq, o', haddr, hblock, hsz, hfree⟩ := hb
  have hother : ¬ (q = p ∧ o' = o) := by
    rintro ⟨rfl, rfl⟩
    exact hne haddr
  by_cases hq' : q ∈ L'.all
  · obtain ⟨-, hpage, htype, hlist⟩ := hg.old q hq'
    exact .on hq' hpage htype haddr hblock hsz fun ho' => (hlist o' ho').elim hfree hother
  · obtain ⟨rfl, hall⟩ := hg.gone q hq hq'
    exact absurd (hall o' hblock fun heq => hother ⟨rfl, heq⟩) hfree

section

variable (hinv : HeapInv h L) (hb : LiveAt h L b)
include hinv hb

/-- Live blocks at different addresses do not overlap. -/
theorem LiveAt.apart (hc : LiveAt h L c) (hne : b.addr ≠ c.addr) :
    b.addr + blockSize b.sz ≤ c.addr ∨ c.addr + blockSize c.sz ≤ b.addr := by
  obtain ⟨p, hp, o, haddr, hblock, hsz, -⟩ := hb
  obtain ⟨q, hq, o', haddr', hblock', hsz', -⟩ := hc
  rw [blockSize_eq hsz, blockSize_eq hsz', haddr, haddr']
  apply hinv.blocks_apart hp hq hblock hblock'
  rintro ⟨rfl, rfl⟩
  exact hne (haddr.trans haddr'.symm)

theorem LiveAt.placed : Placed h b := by
  obtain ⟨p, hp, o, haddr, hblock, hsz, -⟩ := hb
  have hk := hinv.btype p hp
  refine ⟨⟨p, (hinv.mem_all p).mp hp, ?_, ?_⟩, ?_, ?_⟩
  · rw [haddr]
    exact Nat.le_add_right ..
  · rw [haddr, blockSize_eq hsz, Nat.add_assoc]
    exact Nat.add_le_add_left (hblock.inside hk) _
  · rw [haddr, blockSize_eq hsz]
    apply Nat.mod_eq_zero_of_dvd
    exact Nat.dvd_add (Nat.dvd_trans (sizes_dvd hk) (Nat.dvd_of_mod_eq_zero (hinv.page p hp).1))
      (Nat.dvd_of_mod_eq_zero hblock.1)
  · rw [blockSize_eq hsz]
    exact (blocktype_some hsz).2

/-- The word of a free block is not in a live one. -/
theorem LiveAt.outside {p : PrId} (hp : p ∈ L.all) {o : Nat}
    (ho : o ∈ L.free p) : ¬ (b.addr ≤ h.page p + o ∧ h.page p + o < b.addr + b.sz) := by
  obtain ⟨q, hq, o', haddr, hblock, hsz, hfree⟩ := hb
  have hsize := (blocktype_some hsz).2
  have hpos := sizes_pos (hinv.btype p hp)
  have hapart := hinv.blocks_apart hp hq (hinv.block p hp o ho) hblock (by rintro ⟨rfl, rfl⟩; exact hfree ho)
  rw [haddr]
  omega

end

end LiveAt

/-! ## Pages -/

/-- The page a thread is on its way with. -/
def KmPc.page : KmPc → Option Nat
  | .got _ page => some page
  | .give page => some page
  | _ => none

/-- The request a thread is in. -/
def KmPc.asked : KmPc → Option Nat
  | .want sz => some sz
  | .got sz _ => some sz
  | _ => none

/-- Every page has one holder: the heap, which has those in `used`, or a thread. -/
structure PagesInv (pc : Nat → KmPc) (owned : List Nat) (Used : Nat → Prop) : Prop where
  asked : ∀ t sz, (pc t).asked = some sz → ∃ k, blocktype sz = some k
  isPage : ∀ t sz page, pc t = .got sz page → IsPage page
  used : ∀ page, Used page → page ∈ owned
  held : ∀ t page, (pc t).page = some page → page ∈ owned ∧ ¬ Used page
  apart : ∀ t t' page, (pc t).page = some page → (pc t').page = some page → t = t'

namespace PagesInv

variable {pc : Nat → KmPc} {owned : List Nat} {used used' : Nat → Prop} {t : Nat}

section

variable (hinv : PagesInv pc owned used)
include hinv

/-- A thread goes on; if it has a page then, no other thread has it, nor the heap. -/
theorem moved {owned' : List Nat} {pc' : KmPc} (howned : ∀ p ∈ owned, p ∈ owned')
    (hasked : ∀ sz, pc'.asked = some sz → ∃ k, blocktype sz = some k)
    (hgot : ∀ sz page, pc' = .got sz page → IsPage page) (hpage : ∀ page, pc'.page = some page →
      (page ∈ owned' ∧ ¬ used page) ∧ ∀ t', t' ≠ t → (pc t').page ≠ some page) :
    PagesInv (update pc t pc') owned' used where
  asked := (forall_update_iff pc fun _ p => ∀ sz, p.asked = some sz → ∃ k, blocktype sz = some k).mpr
    ⟨hasked, fun t' _ => hinv.asked t'⟩
  isPage := (forall_update_iff pc fun _ p => ∀ sz page, p = .got sz page → IsPage page).mpr
    ⟨hgot, fun t' _ => hinv.isPage t'⟩
  used := fun page hp => howned page (hinv.used page hp)
  held := (forall_update_iff pc fun _ p => ∀ page, p.page = some page → page ∈ owned' ∧ ¬ used page).mpr
    ⟨fun page hp => (hpage page hp).1,
      fun t' _ page hp => ⟨howned page (hinv.held t' page hp).1, (hinv.held t' page hp).2⟩⟩
  apart := by
    intro t₁ t₂ page
    by_cases h₁ : t₁ = t
    · subst h₁
      by_cases h₂ : t₂ = t₁
      · exact fun _ _ => h₂.symm
      · rw [update_self, update_of_ne h₂]
        exact fun hp hp' => absurd hp' ((hpage page hp).2 t₂ h₂)
    · rw [update_of_ne h₁]
      by_cases h₂ : t₂ = t
      · subst h₂
        rw [update_self]
        exact fun hp' hp => absurd hp' ((hpage page hp).2 t₁ h₁)
      · rw [update_of_ne h₂]
        exact hinv.apart t₁ t₂ page

/-- A thread goes on with the page that it has had, or without one. -/
theorem move (t : Nat) (pc' : KmPc)
    (hasked : ∀ sz, pc'.asked = some sz → ∃ k, blocktype sz = some k)
    (hgot : ∀ sz page, pc' ≠ .got sz page)
    (hpage : ∀ page, pc'.page = some page → (pc t).page = some page) :
    PagesInv (update pc t pc') owned used := by
  apply hinv.moved (fun _ hp => hp) hasked (fun sz page heq => absurd heq (hgot sz page))
  intro page hp
  exact ⟨hinv.held t page (hpage page hp), fun t' ht hp' => ht (hinv.apart t' t page hp' (hpage page hp))⟩

theorem idle (t : Nat) : PagesInv (update pc t .idle) owned used :=
  hinv.move t .idle (fun _ h => nomatch h) (fun _ _ h => nomatch h) (fun _ h => nomatch h)

/-- No other thread has the page of a thread. -/
theorem no_other {page : Nat} (hpage : (pc t).page = some page) (t' : Nat) :
    (update pc t .idle t').page ≠ some page := by
  by_cases ht : t' = t
  · subst ht
    rw [update_self]
    exact nofun
  · rw [update_of_ne ht]
    exact fun hp => ht (hinv.apart t' t page hp hpage)

/-- Fewer pages are in use, and all of them by the heap already. -/
theorem shrink (hsub : ∀ page, used' page → used page) : PagesInv pc owned used' :=
  { hinv with
    used := fun page hp => hinv.used page (hsub page hp)
    held := fun t page hp => ⟨(hinv.held t page hp).1, fun hu => (hinv.held t page hp).2 (hsub page hu)⟩ }

/-- The heap takes the page of a thread. -/
theorem adopt {page : Nat} (hpage : (pc t).page = some page)
    (hused : ∀ p, used' p → used p ∨ p = page) : PagesInv (update pc t .idle) owned used' := by
  have hidle := hinv.idle t
  refine { hidle with used := fun p hp => ?_, held := fun t' p hp => ⟨(hidle.held t' p hp).1, fun hu => ?_⟩ }
  · rcases hused p hp with hu | rfl
    · exact hinv.used p hu
    · exact (hinv.held t p hpage).1
  · rcases hused p hu with hu | rfl
    · exact (hidle.held t' p hp).2 hu
    · exact hinv.no_other hpage t' hp

/-- A page goes back to where it came from. -/
theorem release {page : Nat} (hpage : (pc t).page = some page) :
    PagesInv (update pc t .idle) (owned.filter (· ≠ page)) used := by
  have hidle := hinv.idle t
  refine { hidle with used := fun p hp => ?_, held := fun t' p hp => ⟨?_, (hidle.held t' p hp).2⟩ }
  · refine List.mem_filter.mpr ⟨hinv.used p hp, decide_eq_true ?_⟩
    rintro rfl
    exact (hinv.held t p hpage).2 hp
  · refine List.mem_filter.mpr ⟨(hidle.held t' p hp).1, decide_eq_true ?_⟩
    rintro rfl
    exact hinv.no_other hpage t' hp

end

end PagesInv

/-! ## Steps -/

/-- The pages of the heap. -/
def UsedPage (h : Heap) (L : Layout) (page : Nat) : Prop := ∃ p ∈ L.all, h.page p = page

structure KmInv (s : KmState) (L : Layout) : Prop where
  heap : HeapInv s.heap L
  live : ∀ b ∈ s.live, LiveAt s.heap L b
  apart : s.live.Pairwise fun b c => b.addr ≠ c.addr
  pages : PagesInv s.pc s.owned (UsedPage s.heap L)

namespace KmInv

variable {s s' : KmState} {L : Layout} {t : Nat}

/-- Code under the lock that ends normally. -/
theorem of_locked {α : Type} {code : KmCode α} {k : α → KmState → KmState}
    (h : s.locked code k = some s') :
    ∃ a h', code s.heap = .ok a h' ∧ s' = k a { s with heap := h' } := by
  unfold KmState.locked at h
  split at h
  · rename_i a h' hcode
    exact ⟨a, h', hcode, (Option.some.inj h).symm⟩
  · cases h
  · cases h

section

variable (hinv : KmInv s L)
include hinv

theorem heap_used {sz : Nat} {page : Nat} (hpc : s.pc t = .got sz page) :
    (∃ k, blocktype sz = some k) ∧ IsPage page ∧ ∀ q ∈ L.all, s.heap.page q ≠ page := by
  refine ⟨hinv.pages.asked t sz (by rw [hpc]; rfl), hinv.pages.isPage t sz page hpc, fun q hq heq => ?_⟩
  exact (hinv.pages.held t page (by rw [hpc]; rfl)).2 ⟨q, hq, heq⟩

/-- A block more in use. -/
theorem took {h' : Heap} {L' : Layout} {k addr o sz : Nat} {p : PrId}
    (htook : Took s.heap h' L L' k addr p o) (hsz : blocktype sz = some k) :
    KmInv (({ s with heap := h', live := ⟨addr, sz⟩ :: s.live } : KmState).setPc t .idle) L' := by
  constructor
  case heap => exact htook.inv
  case live =>
    intro b hb
    rcases List.mem_cons.mp hb with rfl | hb
    · exact htook.live hsz
    · exact (htook.keeps hinv.heap (hinv.live b hb)).1
  case apart =>
    exact List.pairwise_cons.mpr ⟨fun b hb => (htook.keeps hinv.heap (hinv.live b hb)).2, hinv.apart⟩
  case pages =>
    refine (hinv.pages.idle t).shrink fun page ⟨q, hq, hpage⟩ => ⟨q, htook.all ▸ hq, ?_⟩
    rw [← htook.page]
    exact hpage

theorem kmalloc {sz : Nat} (h : kmNext s (.kmalloc t sz) = some s') : ∃ L', KmInv s' L' := by
  simp only [kmNext] at h
  split at h
  · rename_i hen
    obtain ⟨k, hsz⟩ := blocktype_small hen.2
    obtain ⟨r, h', hcode, rfl⟩ := of_locked h
    have hspec := wp_ok hcode (wp_kmalloc_search hinv.heap hsz)
    rcases r with _ | addr
    · have hsame : h' = s.heap := hspec
      subst hsame
      refine ⟨L, hinv.heap, hinv.live, hinv.apart, ?_⟩
      refine hinv.pages.move t _ (fun sz' hsz' => ?_) (fun _ _ hne => nomatch hne) (fun _ hne => nomatch hne)
      cases hsz'
      exact ⟨k, hsz⟩
    · obtain ⟨L', p, o, htook⟩ := hspec
      exact ⟨L', hinv.took htook hsz⟩
  · cases h

theorem alloc_kpages {page : Option Nat}
    (h : kmNext s (.alloc_kpages t page) = some s') : KmInv s' L := by
  simp only [kmNext] at h
  split at h
  · rename_i sz hpc
    rcases page with _ | page
    · cases h
      exact { hinv with pages := hinv.pages.idle t }
    · simp only at h
      split at h
      · rename_i hfresh
        cases h
        refine { hinv with pages := ?_ }
        refine hinv.pages.moved (fun p hp => List.mem_cons_of_mem _ hp) (fun sz' hsz' => ?_) (fun sz' page' heq => ?_)
          (fun page' heq => ?_)
        · cases hsz'
          exact hinv.pages.asked t sz (by rw [hpc]; rfl)
        · cases heq
          exact hfresh.1
        · cases heq
          exact ⟨⟨List.mem_cons_self .., fun hused => hfresh.2 (hinv.pages.used page hused)⟩,
            fun t' _ hp => hfresh.2 (hinv.pages.held t' page hp).1⟩
      · cases h
  · cases h

theorem install (h : kmNext s (.install t) = some s') : ∃ L', KmInv s' L' := by
  simp only [kmNext] at h
  split at h
  · rename_i sz page hpc
    obtain ⟨⟨k, hsz⟩, hpage, hnew⟩ := hinv.heap_used hpc
    have hheld : (s.pc t).page = some page := by rw [hpc]; rfl
    obtain ⟨r, h', hcode, rfl⟩ := of_locked h
    have hspec := wp_ok hcode (wp_kmalloc_install hinv.heap hsz hpage hnew)
    rcases r with _ | addr
    · have hsame : h' = s.heap := hspec
      subst hsame
      refine ⟨L, hinv.heap, hinv.live, hinv.apart, ?_⟩
      refine hinv.pages.move t _ (fun _ hne => nomatch hne) (fun _ _ hne => nomatch hne) (fun p hp => ?_)
      cases hp
      exact hheld
    · obtain ⟨h₁, L₁, L', p, o, hgrown, htook⟩ := hspec
      -- the page first goes to the heap, and then a block is taken from it
      have hadopt : KmInv (({ s with heap := h₁ } : KmState).setPc t .idle) L₁ := by
        refine ⟨hgrown.inv, fun b hb => hgrown.keeps (hinv.live b hb), hinv.apart, ?_⟩
        refine hinv.pages.adopt hheld ?_
        rintro p' ⟨q, hq, rfl⟩
        rcases hgrown.new q hq with hold | hnewPage
        · exact .inl ⟨q, hold, (hgrown.old q hold).2.1.symm⟩
        · exact .inr hnewPage
      have htaken := hadopt.took (t := t) htook hsz
      simp only [KmState.setPc, update_idem] at htaken
      exact ⟨L', htaken⟩
  · cases h

theorem free_kpages (h : kmNext s (.free_kpages t) = some s') : KmInv s' L := by
  simp only [kmNext] at h
  split at h
  · rename_i page hpc
    cases h
    exact { hinv with pages := hinv.pages.release (by rw [hpc]; rfl) }
  · cases h

theorem kfree {ptr : Nat} (h : kmNext s (.kfree t ptr) = some s') : ∃ L', KmInv s' L' := by
  simp only [kmNext] at h
  split at h
  · rename_i hen
    obtain ⟨-, b, hb, rfl⟩ := hen
    obtain ⟨p, hp, o, haddr, hblock, -, hfree⟩ := hinv.live b hb
    obtain ⟨r, h', hcode, rfl⟩ := of_locked h
    rw [haddr] at hcode
    obtain ⟨L', hgave⟩ := wp_ok hcode (wp_kfree hinv.heap hp hblock hfree)
    have hlive : ∀ c ∈ s.live.filter (fun c => c.addr ≠ b.addr), LiveAt h' L' c := by
      intro c hc
      obtain ⟨hc, hne⟩ := List.mem_filter.mp hc
      exact hgave.keeps (hinv.live c hc) (haddr ▸ of_decide_eq_true hne)
    have hsub : ∀ page, UsedPage h' L' page → UsedPage s.heap L page := by
      rintro page ⟨q, hq, rfl⟩
      exact ⟨q, (hgave.old q hq).1, (hgave.old q hq).2.1.symm⟩
    have hpages := hinv.pages.shrink hsub
    refine ⟨L', ?_⟩
    rcases r with _ | page
    · exact ⟨hgave.inv, hlive, hinv.apart.filter _, hpages⟩
    · -- the thread leaves with the page, which the heap no longer has
      obtain ⟨rfl, hgone⟩ := hgave.page page rfl
      have hwas : UsedPage s.heap L (s.heap.page p) := ⟨p, hp, rfl⟩
      refine ⟨hgave.inv, hlive, hinv.apart.filter _, ?_⟩
      refine hpages.moved (fun _ hq => hq) (fun _ hne => nomatch hne) (fun _ _ hne => nomatch hne) (fun page heq => ?_)
      cases heq
      refine ⟨⟨hinv.pages.used _ hwas, ?_⟩, fun t' _ hheld => (hinv.pages.held t' _ hheld).2 hwas⟩
      rintro ⟨q, hq, heq⟩
      obtain ⟨hq', hpage, -, -⟩ := hgave.old q hq
      rw [hpage] at heq
      exact hgone (hinv.heap.distinct q hq' p hp heq ▸ hq)
  · cases h

theorem store {a v : Nat} (h : kmNext s (.store a v) = some s') : KmInv s' L := by
  simp only [kmNext] at h
  split at h
  · rename_i hmay
    cases h
    refine { hinv with heap := ?_ }
    refine hinv.heap.of_mem fun p hp o ho => update_of_ne ?_ _ _
    rintro rfl
    rcases hmay with hout | ⟨b, hb, hin⟩
    · have hblock := hinv.heap.block p hp o ho
      exact hout _ (hinv.pages.used _ ⟨p, hp, rfl⟩)
        ⟨Nat.le_add_right .., Nat.add_lt_add_left hblock.2 _⟩
    · exact (hinv.live b hb).outside hinv.heap hp ho hin
  · cases h

theorem step {a : KmAct} (h : kmNext s a = some s') : ∃ L', KmInv s' L' := by
  cases a with
  | kmalloc t sz => exact hinv.kmalloc h
  | alloc_kpages t page => exact ⟨L, hinv.alloc_kpages h⟩
  | install t => exact hinv.install h
  | free_kpages t => exact ⟨L, hinv.free_kpages h⟩
  | kfree t ptr => exact hinv.kfree h
  | store a v => exact ⟨L, hinv.store h⟩

theorem listed {p : PrId} (hp : p ∈ L.all) : Listed s.heap s.live p := by
  have hheap := hinv.heap
  refine ⟨⟨_, hheap.chain p hp, (hheap.chain p hp).nodup, ?_, ?_⟩, ⟨_, hheap.all, hp⟩, ?_, hheap.btype p hp⟩
  · rw [List.length_map]
    exact hheap.nfree p hp
  · intro a ha
    obtain ⟨o, ho, rfl⟩ := List.mem_map.mp ha
    have hblock := hheap.block p hp o ho
    refine ⟨⟨Nat.le_add_right .., Nat.add_lt_add_left hblock.2 _⟩, ?_, fun b hb heq => ?_⟩
    · rw [Nat.add_sub_cancel_left]
      exact hblock.1
    · obtain ⟨q, hq, o', haddr, hblock', -, hfree⟩ := hinv.live b hb
      by_cases hqp : q = p
      · subst hqp
        exact hfree (Nat.add_left_cancel (haddr.symm.trans heq) ▸ ho)
      · exact hheap.apart hq hp hqp hblock'.2 hblock.2 (haddr.symm.trans heq)
  · intro k hk
    refine ⟨_, hheap.same k hk, ?_⟩
    rw [hheap.mem_size k hk]
    exact ⟨fun h => h.2.symm, fun h => ⟨hp, h.symm⟩⟩

/-- The invariant gives the property. -/
theorem ok : KmOk s where
  disjoint := hinv.apart.imp_of_mem fun hb hc hne =>
    (hinv.live _ hb).apart hinv.heap (hinv.live _ hc) hne
  placed := fun b hb => (hinv.live b hb).placed hinv.heap
  listed := fun p hp => hinv.listed ((hinv.heap.mem_all p).mpr hp)
  no_panic_search := by
    intro sz hsz p hpanic
    obtain ⟨k, hk⟩ := blocktype_small hsz
    exact wp_panic (F := fun _ => False) hpanic (wp_kmalloc_search hinv.heap hk)
  no_panic_install := by
    intro t sz page hpc p hpanic
    obtain ⟨⟨k, hk⟩, hpage, hnew⟩ := hinv.heap_used hpc
    exact wp_panic (F := fun _ => False) hpanic (wp_kmalloc_install hinv.heap hk hpage hnew)
  no_panic_free := by
    intro b hb p hpanic
    obtain ⟨q, hq, o, haddr, hblock, -, hfree⟩ := hinv.live b hb
    rw [haddr] at hpanic
    exact wp_panic (F := fun _ => False) hpanic (wp_kfree hinv.heap hq hblock hfree)
  failed_search := by
    intro sz hsz h hrun
    obtain ⟨k, hk⟩ := blocktype_small hsz
    have hspec := wp_ok hrun (wp_kmalloc_search hinv.heap hk)
    exact hspec
  failed_install := by
    intro t sz page hpc h hrun
    obtain ⟨⟨k, hk⟩, hpage, hnew⟩ := hinv.heap_used hpc
    have hspec := wp_ok hrun (wp_kmalloc_install hinv.heap hk hpage hnew)
    exact hspec

end

end KmInv

/-- At the start nothing is in use. -/
theorem kmSystem_init {s : KmState} (h : kmSystem.init s) : ∃ L, KmInv s L := by
  obtain ⟨hbits, hsize, hall, hlive, howned, hpc⟩ := h
  have hinuse : ∀ p, s.heap.inuse p = false := by
    intro p
    unfold Heap.inuse
    rw [hbits]
    exact BitVec.getLsbD_zero
  refine ⟨⟨[], fun _ => [], fun _ => []⟩, ?_, ?_, ?_, ?_⟩
  · constructor
    case all => exact hall
    case same => exact fun k _ => hsize k
    case mem_all =>
      intro p
      rw [hinuse p]
      exact ⟨(fun hp => nomatch hp), (fun hp => nomatch hp)⟩
    case mem_size => exact fun k _ p => ⟨(fun hp => nomatch hp), (fun hp => nomatch hp.1)⟩
    all_goals exact fun p hp => nomatch hp
  · rw [hlive]
    exact fun b hb => nomatch hb
  · rw [hlive]
    exact List.Pairwise.nil
  · constructor
    case asked => exact fun t sz h => by rw [hpc] at h; cases h
    case isPage => exact fun t sz page h => by rw [hpc] at h; cases h
    case used => exact fun page ⟨p, hp, _⟩ => nomatch hp
    case held => exact fun t page h => by rw [hpc] at h; cases h
    case apart => exact fun t t' page h => by rw [hpc] at h; cases h

/-- **Safety of `kmalloc` and `kfree`.** In every state of every run, blocks in use do not overlap
and lie in their pages, the lists of the allocator are in order, no assertion of it can fail,
and a `kmalloc` that fails changes nothing. -/
theorem kmalloc_safe {s : KmState} (h : kmSystem.Reachable s) : KmOk s := by
  have hinv : ∃ L, KmInv s L := by
    refine System.invariant (I := fun s => ∃ L, KmInv s L) ?_ ?_ h
    · exact fun s hs => kmSystem_init hs
    · intro s a s' ⟨L, hinv⟩ hstep
      exact hinv.step hstep
  obtain ⟨L, hinv⟩ := hinv
  exact hinv.ok

/-- The memory before the first call. -/
def kmStart : KmState where
  heap :=
    { pagerefs := fun _ => ⟨none, none, 0, 0, 0⟩, pagerefs_inuse := fun _ => 0
      sizebases := fun _ => none, allbase := none, mem := fun _ => 0 }
  live := []
  owned := []
  pc := fun _ => .idle

/-- Two threads allocate 100 and 120 bytes from one page, and the first block is given back. -/
theorem kmalloc_safe_two : ∃ s, kmSystem.Reachable s ∧ s.live = [⟨0x80010f00, 120⟩] ∧ KmOk s := by
  obtain ⟨s, hreach, hlive⟩ : ∃ s, kmSystem.Reachable s ∧ s.live = [⟨0x80010f00, 120⟩] :=
    System.exists_reachable (s := kmStart) ⟨fun _ => rfl, fun _ => rfl, rfl, rfl, rfl, fun _ => rfl⟩
      [.kmalloc 0 100, .alloc_kpages 0 (some 0x80010000), .install 0, .kmalloc 1 120, .store 0x80010f80 7,
        .kfree 0 0x80010f80] (by decide +kernel)
  exact ⟨s, hreach, hlive, kmalloc_safe hreach⟩

end OS161.Kmalloc
