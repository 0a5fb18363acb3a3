import OS161.Framework.Registry
import OS161.Framework.TransitionSystem
import OS161.Lib.Types

/-! # The known devices

The table of named devices of `kern/vfs/vfslist.c`: how names enter it with `vfs_adddev`,
`vfs_addfs` and `vfs_mount`, and what `vfs_getroot` finds under a name.

Each operation holds `vfs_biglock` from its first access to the table to its last. Devices and
file systems are any types; a file system has at most one volume name, which `FSOP_GETVOLNAME`
reads.
-/

namespace OS161

open Framework Kern

/-- The bytes of a string in front of its NUL. -/
abbrev CName : Type := List UInt8

/-- `struct knowndev`, without the vnode made for the device. -/
structure Knowndev (δ φ : Type) where
  kd_name : CName
  kd_rawname : Option CName
  kd_device : Option δ
  kd_fs : Option φ

/-- What a name stands for. -/
inductive Root (δ φ : Type) where
  /-- The root of a file system. -/
  | fs (fs : φ)
  /-- The vnode of a device. -/
  | device (dev : δ)

section Model

variable {δ φ : Type} (getvolname : φ → Option CName)

/-- Code on the table. -/
abbrev VfsM (δ φ α : Type) : Type := Kern (List (Knowndev δ φ)) Errno Panic α

/-! ## Lookup -/

/-- What `vfs_getroot` does with one device; `none` when it goes on to the next one. -/
def Knowndev.getroot (kd : Knowndev δ φ) (devname : CName) : Option (VfsM δ φ (Root δ φ)) :=
  let itself : VfsM δ φ (Root δ φ) :=
    match kd.kd_device with
    | some dev => pure (.device dev)
    | none => Kern.halt .vfs_getroot_device
  match kd.kd_fs with
  | some fs =>
    if kd.kd_name = devname ∨ getvolname fs = some devname then some (pure (.fs fs))
    else if kd.kd_rawname = some devname then some itself
    else none
  | none =>
    if kd.kd_name = devname then
      if kd.kd_rawname.isSome then some (Kern.fail .enxio) else some itself
    else if kd.kd_rawname = some devname then some itself
    else none

/-- The loop of `vfs_getroot`. -/
def getrootLoop (devname : CName) : List (Knowndev δ φ) → VfsM δ φ (Root δ φ)
  | [] => Kern.fail .enodev
  | kd :: rest => (kd.getroot getvolname devname).getD (getrootLoop devname rest)

def vfs_getroot (devname : CName) : VfsM δ φ (Root δ φ) := do
  let knowndevs ← Kern.read
  getrootLoop getvolname devname knowndevs

/-! ## Adding a device -/

/-- The name with "raw" behind it. -/
def mkrawname (name : CName) : CName := name ++ [0x72, 0x61, 0x77]

/-- `samestring3`: the first name is there and is one of the others. -/
def samestring3 (a : Option CName) (n : List (Option CName)) : Bool :=
  a.isSome && n.contains a

/-- The volume name of the file system, if there is one and it has a name. -/
def Knowndev.volname (kd : Knowndev δ φ) : Option CName := kd.kd_fs.bind getvolname

def badnames (knowndevs : List (Knowndev δ φ)) (n1 n2 n3 : Option CName) : Bool :=
  knowndevs.any fun kd =>
    samestring3 (kd.volname getvolname) [n1, n2, n3] || samestring3 kd.kd_rawname [n1, n2, n3] ||
      samestring3 (some kd.kd_name) [n1, n2, n3]

/-- Whether the allocations of `vfs_doadd` succeed: those before the check of the names, and the
growth of the array. -/
structure AddMemory where
  parts : Bool
  grow : Bool

def vfs_doadd (dname : CName) (mountable : Bool) (dev : Option δ) (fs : Option φ) (mem : AddMemory) :
    VfsM δ φ Unit := do
  let rawname := if mountable then some (mkrawname dname) else none
  let knowndevs ← Kern.read
  if ¬ mem.parts then Kern.fail .enomem
  else if badnames getvolname knowndevs (some dname) rawname (fs.bind getvolname) then Kern.fail .eexist
  else if ¬ mem.grow then Kern.fail .enomem
  else
    Kern.modify fun knowndevs => knowndevs ++
      [{ kd_name := dname, kd_rawname := rawname, kd_device := dev, kd_fs := fs }]

def vfs_adddev (devname : CName) (dev : δ) (mountable : Bool) (mem : AddMemory) : VfsM δ φ Unit :=
  vfs_doadd getvolname devname mountable (some dev) none mem

def vfs_addfs (devname : CName) (fs : φ) (mem : AddMemory) : VfsM δ φ Unit :=
  vfs_doadd getvolname devname false none (some fs) mem

/-! ## Mounting -/

/-- Where the first mountable device of that name is. -/
def mountIndex (knowndevs : List (Knowndev δ φ)) (devname : CName) : Option Nat :=
  knowndevs.findIdx? fun dev => dev.kd_rawname.isSome && decide (dev.kd_name = devname)

def findmount (devname : CName) : VfsM δ φ (Nat × Knowndev δ φ) := do
  let knowndevs ← Kern.read
  match (mountIndex knowndevs devname).bind fun i => (knowndevs[i]?).map fun kd => (i, kd) with
  | none => Kern.fail .enodev
  | some found => pure found

/-- `kd->kd_fs = fs`. -/
def setFs (i : Nat) (kd : Knowndev δ φ) (fs : Option φ) : VfsM δ φ Unit :=
  Kern.modify fun knowndevs => knowndevs.set i { kd with kd_fs := fs }

def vfs_mount (devname : CName) (mountfunc : δ → Except Errno φ) : VfsM δ φ Unit := do
  let (i, kd) ← findmount devname
  if kd.kd_fs.isSome then Kern.fail .ebusy
  else
    -- `findmount` returns mountable devices only, so `kd_rawname` is set
    match kd.kd_device with
    | none => Kern.halt .vfs_mount_device
    | some dev => do
      let fs ← Kern.ofExcept (mountfunc dev)
      setFs i kd (some fs)

/-- `vfs_unmount`, with the results of `FSOP_SYNC` and `FSOP_UNMOUNT`. -/
def vfs_unmount (devname : CName) (sync unmount : φ → Except Errno Unit) : VfsM δ φ Unit := do
  let (i, kd) ← findmount devname
  match kd.kd_fs with
  | none => Kern.fail .einval
  | some fs =>
    Kern.kassert kd.kd_device.isSome .vfs_unmount_device
    Kern.ofExcept (sync fs)
    Kern.ofExcept (unmount fs)
    setFs i kd none

/-! ## The table over time -/

/-- The operations that change the table. -/
inductive VfsAct (δ φ : Type) where
  | vfs_adddev (devname : CName) (dev : δ) (mountable : Bool) (mem : AddMemory)
  | vfs_addfs (devname : CName) (fs : φ) (mem : AddMemory)
  | vfs_mount (devname : CName) (mountfunc : δ → Except Errno φ)
  | vfs_unmount (devname : CName) (sync unmount : φ → Except Errno Unit)

def VfsAct.code : VfsAct δ φ → VfsM δ φ Unit
  | .vfs_adddev devname dev mountable mem => OS161.vfs_adddev getvolname devname dev mountable mem
  | .vfs_addfs devname fs mem => OS161.vfs_addfs getvolname devname fs mem
  | .vfs_mount devname mountfunc => OS161.vfs_mount devname mountfunc
  | .vfs_unmount devname sync unmount => OS161.vfs_unmount devname sync unmount

/-- From the empty table of `vfs_bootstrap`. -/
def vfsSystem : System (List (Knowndev δ φ)) (VfsAct δ φ) :=
  .ofNext (· = []) fun s a => (a.code getvolname).finalState s

/-- The names under which a device can be found. -/
def Knowndev.names (kd : Knowndev δ φ) : List CName :=
  kd.kd_name :: kd.kd_rawname.toList ++ (kd.volname getvolname).toList

/-- All names are distinct, and `vfs_getroot` finds under a name the one device that has it. -/
structure NamesUnique (s : List (Knowndev δ φ)) : Prop where
  distinct : Registry.Unique (Knowndev.names getvolname) s
  denotes : ∀ kd ∈ s, ∀ devname ∈ kd.names getvolname,
    some (vfs_getroot getvolname devname s) = (kd.getroot getvolname devname).map fun code => code s

/-- A file system that enters the table does not bring a volume name that is in use: `vfs_addfs`
with another name than the device's own, `vfs_mount` with a name that no known device has. -/
def FreshVolume (s : List (Knowndev δ φ)) : VfsAct δ φ → Prop
  | .vfs_addfs devname fs mem =>
    mem.parts → mem.grow → badnames getvolname s (some devname) none (getvolname fs) = false →
      getvolname fs ≠ some devname
  | .vfs_mount devname mountfunc => ∀ i kd dev fs, mountIndex s devname = some i → s[i]? = some kd →
      kd.kd_fs = none → kd.kd_device = some dev → mountfunc dev = .ok fs →
      ∀ v, getvolname fs = some v → v ∉ Registry.All (Knowndev.names getvolname) s
  | _ => True

end Model

section Proofs

variable {δ φ : Type} {getvolname : φ → Option CName} {s s' : List (Knowndev δ φ)} {kd : Knowndev δ φ}

/-! ## Names -/

theorem mem_names {n : CName} :
    n ∈ kd.names getvolname ↔ kd.kd_name = n ∨ kd.kd_rawname = some n ∨ kd.volname getvolname = some n := by
  simp only [Knowndev.names, List.cons_append, List.mem_cons, List.mem_append, Option.mem_toList]
  constructor
  · rintro (rfl | h | h)
    · exact .inl rfl
    · exact .inr (.inl h)
    · exact .inr (.inr h)
  · rintro (rfl | h | h)
    · exact .inl rfl
    · exact .inr (.inl h)
    · exact .inr (.inr h)

/-- `vfs_getroot` stops at the devices that have the name, and at no others. -/
theorem getroot_isSome {n : CName} : (kd.getroot getvolname n).isSome ↔ n ∈ kd.names getvolname := by
  rw [mem_names]
  unfold Knowndev.getroot Knowndev.volname
  cases kd.kd_fs with
  | none =>
    by_cases hname : kd.kd_name = n
    · by_cases hraw : kd.kd_rawname.isSome <;> simp [hname, hraw]
    · by_cases hraw : kd.kd_rawname = some n <;> simp [hname, hraw]
  | some fs =>
    by_cases hname : kd.kd_name = n ∨ getvolname fs = some n
    · simp only [hname, if_true, Option.isSome_some, true_iff]
      rcases hname with h | h
      · exact .inl h
      · exact .inr (.inr h)
    · obtain ⟨hn, hv⟩ := not_or.mp hname
      by_cases hraw : kd.kd_rawname = some n <;> simp [hn, hv, hraw]

theorem samestring3_iff {a : Option CName} {l : List (Option CName)} :
    samestring3 a l = true ↔ ∃ n, a = some n ∧ some n ∈ l := by
  cases a with
  | none => simp [samestring3]
  | some n => simp [samestring3]

/-- `badnames` finds the names that are in the table. -/
theorem badnames_iff {n1 n2 n3 : Option CName} : badnames getvolname s n1 n2 n3 = true ↔
    ∃ n, some n ∈ [n1, n2, n3] ∧ n ∈ Registry.All (Knowndev.names getvolname) s := by
  simp only [badnames, List.any_eq_true, Bool.or_eq_true, samestring3_iff, Registry.mem_all, mem_names]
  constructor
  · rintro ⟨kd, hkd, (⟨n, hn, hmem⟩ | ⟨n, hn, hmem⟩) | ⟨n, hn, hmem⟩⟩
    · exact ⟨n, hmem, kd, hkd, .inr (.inr hn)⟩
    · exact ⟨n, hmem, kd, hkd, .inr (.inl hn)⟩
    · exact ⟨n, hmem, kd, hkd, .inl (Option.some.inj hn)⟩
  · rintro ⟨n, hmem, kd, hkd, hn | hn | hn⟩
    · exact ⟨kd, hkd, .inr ⟨n, congrArg some hn, hmem⟩⟩
    · exact ⟨kd, hkd, .inl (.inr ⟨n, hn, hmem⟩)⟩
    · exact ⟨kd, hkd, .inl (.inl ⟨n, hn, hmem⟩)⟩

theorem mkrawname_ne (name : CName) : mkrawname name ≠ name := by
  intro h
  have hlen := congrArg List.length h
  simp [mkrawname] at hlen

/-! ## What a name finds -/

/-- The loop passes the devices that do not have the name. -/
theorem getrootLoop_skip {n : CName} {front rest : List (Knowndev δ φ)}
    (h : ∀ kd ∈ front, n ∉ kd.names getvolname) :
    getrootLoop getvolname n (front ++ rest) = getrootLoop getvolname n rest := by
  induction front with
  | nil => rfl
  | cons kd front ih =>
    have hnone : kd.getroot getvolname n = none := by
      rw [← Option.not_isSome_iff_eq_none, getroot_isSome]
      exact h kd List.mem_cons_self
    show (kd.getroot getvolname n).getD _ = _
    rw [hnone]
    exact ih fun kd hkd => h kd (List.mem_cons_of_mem _ hkd)

theorem namesUnique_iff :
    NamesUnique getvolname s ↔ Registry.Unique (Knowndev.names getvolname) s := by
  constructor
  · exact fun h => h.distinct
  intro h
  refine ⟨h, ?_⟩
  intro kd hkd n hn
  obtain ⟨i, hi, rfl⟩ := List.getElem_of_mem hkd
  -- the devices in front of this one do not have the name
  have hfront : ∀ kd' ∈ s.take i, n ∉ kd'.names getvolname := by
    intro kd' hkd' hn'
    obtain ⟨j, hj, rfl⟩ := List.getElem_of_mem hkd'
    rw [List.length_take] at hj
    rw [List.getElem_take] at hn'
    have heq := h.index_eq (List.getElem?_eq_getElem (by omega)) (List.getElem?_eq_getElem hi) hn' hn
    omega
  have hsplit : s = s.take i ++ s[i] :: s.drop (i + 1) := by
    rw [← List.drop_eq_getElem_cons hi, List.take_append_drop]
  have hloop : getrootLoop getvolname n s = (s[i].getroot getvolname n).getD
      (getrootLoop getvolname n (s.drop (i + 1))) := by
    refine (congrArg (getrootLoop getvolname n) hsplit).trans ?_
    rw [getrootLoop_skip hfront]
    rfl
  obtain ⟨code, hcode⟩ := Option.isSome_iff_exists.mp (getroot_isSome.mpr hn)
  show some (getrootLoop getvolname n s s) = _
  rw [hloop, hcode]
  rfl

/-! ## What the operations do -/

/-- The device that `vfs_doadd` adds. -/
def newdev (dname : CName) (mountable : Bool) (dev : Option δ) (fs : Option φ) : Knowndev δ φ where
  kd_name := dname
  kd_rawname := if mountable then some (mkrawname dname) else none
  kd_device := dev
  kd_fs := fs

/-- The moves of the table. -/
inductive VfsMove (getvolname : φ → Option CName) (s : List (Knowndev δ φ)) :
    VfsAct δ φ → List (Knowndev δ φ) → Prop where
  | failed {a : VfsAct δ φ} (hfresh : FreshVolume getvolname s a) : VfsMove getvolname s a s
  | adddev {devname : CName} {dev : δ} {mountable : Bool} {mem : AddMemory}
      (hnew : badnames getvolname s (some devname) (newdev devname mountable (some dev) (none : Option φ)).kd_rawname
        none = false) :
      VfsMove getvolname s (.vfs_adddev devname dev mountable mem)
        (s ++ [newdev devname mountable (some dev) none])
  | addfs {devname : CName} {fs : φ} {mem : AddMemory} (hparts : mem.parts = true) (hgrow : mem.grow = true)
      (hnew : badnames getvolname s (some devname) none (getvolname fs) = false) :
      VfsMove getvolname s (.vfs_addfs devname fs mem) (s ++ [newdev devname false none (some fs)])
  | mount {devname : CName} {mountfunc : δ → Except Errno φ} {i : Nat} {kd : Knowndev δ φ} {dev : δ} {fs : φ}
      (hi : mountIndex s devname = some i) (hkd : s[i]? = some kd) (hfree : kd.kd_fs = none)
      (hdev : kd.kd_device = some dev) (hfs : mountfunc dev = .ok fs) :
      VfsMove getvolname s (.vfs_mount devname mountfunc) (s.set i { kd with kd_fs := some fs })
  | unmount {devname : CName} {sync unmount : φ → Except Errno Unit} {i : Nat} {kd : Knowndev δ φ} {fs : φ}
      (hkd : s[i]? = some kd) (hfs : kd.kd_fs = some fs) :
      VfsMove getvolname s (.vfs_unmount devname sync unmount) (s.set i { kd with kd_fs := none })

theorem mountIndex_get {devname : CName} {i : Nat} (h : mountIndex s devname = some i) : ∃ kd, s[i]? = some kd := by
  obtain ⟨hi, -⟩ := List.findIdx?_eq_some_iff_getElem.mp h
  exact ⟨s[i], List.getElem?_eq_getElem hi⟩

/-- `findmount`, by where the device is. -/
theorem findmount_run (devname : CName) :
    (mountIndex s devname = none ∧ findmount devname s = .err .enodev s) ∨
      ∃ i kd, mountIndex s devname = some i ∧ s[i]? = some kd ∧ findmount devname s = .ok (i, kd) s := by
  unfold findmount
  rw [read_bind_run]
  cases hi : mountIndex s devname with
  | none => exact .inl ⟨rfl, rfl⟩
  | some i =>
    obtain ⟨kd, hkd⟩ := mountIndex_get hi
    right
    refine ⟨i, kd, rfl, hkd, ?_⟩
    simp only [Option.bind_some, hkd, Option.map_some, pure_run]

theorem vfs_mount_move {devname : CName} {mountfunc : δ → Except Errno φ}
    (h : (vfs_mount devname mountfunc).finalState s = some s') :
    VfsMove getvolname s (.vfs_mount devname mountfunc) s' := by
  unfold vfs_mount finalState at h
  rcases findmount_run (s := s) devname with ⟨hnone, hrun⟩ | ⟨i, kd, hi, hkd, hrun⟩
  · -- no such device
    rw [bind_run_err hrun] at h
    cases h
    exact .failed fun i _ _ _ hi => by
      rw [hnone] at hi
      cases hi
  rw [bind_run_ok hrun] at h
  -- a mount that fails meets the condition because nothing is mounted
  have hfail : (∀ dev fs, kd.kd_fs = none → kd.kd_device = some dev → mountfunc dev ≠ .ok fs) →
      FreshVolume getvolname s (.vfs_mount devname mountfunc) := by
    intro hnot i' kd' dev fs hi' hkd' hfree hdev hfs
    rw [hi] at hi'
    cases hi'
    rw [hkd] at hkd'
    cases hkd'
    exact absurd hfs (hnot dev fs hfree hdev)
  cases hfs : kd.kd_fs with
  | some fs =>
    simp only [hfs, Option.isSome_some, if_true, fail_run] at h
    cases h
    exact .failed (hfail fun _ _ hfree => by rw [hfs] at hfree; cases hfree)
  | none =>
    cases hdev : kd.kd_device with
    | none =>
      simp only [hfs, hdev, Option.isSome_none, Bool.false_eq_true, if_false] at h
      cases h
    | some dev =>
      simp only [hfs, hdev, Option.isSome_none, Bool.false_eq_true, if_false] at h
      cases hmount : mountfunc dev with
      | error e =>
        rw [hmount] at h
        cases h
        refine .failed (hfail fun dev' fs _ hdev' hok => ?_)
        rw [hdev] at hdev'
        cases hdev'
        rw [hmount] at hok
        cases hok
      | ok fs =>
        rw [hmount] at h
        cases h
        exact .mount hi hkd hfs hdev hmount

theorem vfs_unmount_move {devname : CName} {sync unmount : φ → Except Errno Unit}
    (h : (vfs_unmount devname sync unmount).finalState s = some s') :
    VfsMove getvolname s (.vfs_unmount devname sync unmount) s' := by
  unfold vfs_unmount finalState at h
  rcases findmount_run (s := s) devname with ⟨hnone, hrun⟩ | ⟨i, kd, hi, hkd, hrun⟩
  · rw [bind_run_err hrun] at h
    cases h
    exact .failed trivial
  rw [bind_run_ok hrun] at h
  cases hfs : kd.kd_fs with
  | none =>
    simp only [hfs, fail_run] at h
    cases h
    exact .failed trivial
  | some fs =>
    simp only [hfs] at h
    by_cases hdev : kd.kd_device.isSome
    · simp only [Kern.kassert, hdev, if_true] at h
      cases hsync : sync fs with
      | error e =>
        rw [hsync] at h
        cases h
        exact .failed trivial
      | ok _ =>
        cases hun : unmount fs with
        | error e =>
          rw [hsync, hun] at h
          cases h
          exact .failed trivial
        | ok _ =>
          rw [hsync, hun] at h
          cases h
          exact .unmount hkd hfs
    · simp only [Kern.kassert, hdev] at h
      cases h

theorem vfs_doadd_run {dname : CName} {mountable : Bool} {dev : Option δ} {fs : Option φ} {mem : AddMemory}
    (h : (vfs_doadd getvolname dname mountable dev fs mem).finalState s = some s') :
    (s' = s ∧ ¬ (mem.parts = true ∧ mem.grow = true ∧ badnames getvolname s (some dname)
        (newdev dname mountable dev fs).kd_rawname (fs.bind getvolname) = false)) ∨
      (s' = s ++ [newdev dname mountable dev fs] ∧ mem.parts = true ∧ mem.grow = true ∧
        badnames getvolname s (some dname) (newdev dname mountable dev fs).kd_rawname
          (fs.bind getvolname) = false) := by
  unfold vfs_doadd finalState at h
  rw [read_bind_run] at h
  by_cases hparts : mem.parts = true
  · by_cases hbad : badnames getvolname s (some dname) (newdev dname mountable dev fs).kd_rawname
        (fs.bind getvolname) = true
    · have hbad' := hbad
      unfold newdev at hbad'
      simp only [hparts, hbad', not_true_eq_false, if_false, if_true, fail_run] at h
      cases h
      exact .inl ⟨rfl, fun hall => by rw [hbad] at hall; simp at hall⟩
    · have hgood : badnames getvolname s (some dname) (newdev dname mountable dev fs).kd_rawname
          (fs.bind getvolname) = false := by
        rwa [Bool.not_eq_true] at hbad
      have hgood' := hgood
      unfold newdev at hgood'
      by_cases hgrow : mem.grow = true
      · simp only [hparts, hgrow, hgood', not_true_eq_false, if_false, Bool.false_eq_true] at h
        cases h
        exact .inr ⟨rfl, hparts, hgrow, hgood⟩
      · simp only [hparts, hgrow, hgood', not_true_eq_false, not_false_eq_true, if_false, if_true,
          Bool.false_eq_true, fail_run] at h
        cases h
        exact .inl ⟨rfl, fun hall => hgrow hall.2.1⟩
  · simp only [hparts] at h
    cases h
    exact .inl ⟨rfl, fun hall => hparts hall.1⟩

theorem vfs_move {a : VfsAct δ φ} (h : (a.code getvolname).finalState s = some s') : VfsMove getvolname s a s' := by
  cases a with
  | vfs_adddev devname dev mountable mem =>
    rcases vfs_doadd_run h with ⟨rfl, -⟩ | ⟨rfl, -, -, hnew⟩
    · exact .failed trivial
    · exact .adddev hnew
  | vfs_addfs devname fs mem =>
    rcases vfs_doadd_run h with ⟨rfl, hnot⟩ | ⟨rfl, hparts, hgrow, hnew⟩
    · exact .failed fun hparts hgrow hnew => absurd ⟨hparts, hgrow, hnew⟩ hnot
    · exact .addfs hparts hgrow hnew
  | vfs_mount devname mountfunc => exact vfs_mount_move h
  | vfs_unmount devname sync unmount => exact vfs_unmount_move h

/-! ## Runs -/

/-- A device is added: its names are new and differ from one another. -/
theorem unique_add (h : Registry.Unique (Knowndev.names getvolname) s)
    (hnew : badnames getvolname s (some kd.kd_name) kd.kd_rawname (kd.volname getvolname) = false) :
    Registry.Unique (Knowndev.names getvolname) (s ++ [kd]) ↔ (kd.names getvolname).Nodup := by
  rw [Registry.unique_append]
  constructor
  · exact fun hu => hu.2.1
  · refine fun hnodup => ⟨h, hnodup, ?_⟩
    intro n hn hmem
    have hbad : badnames getvolname s (some kd.kd_name) kd.kd_rawname (kd.volname getvolname) = true := by
      rw [badnames_iff]
      refine ⟨n, ?_, hmem⟩
      rcases mem_names.mp hn with h | h | h <;> simp [h]
    rw [hnew] at hbad
    cases hbad

theorem names_adddev (devname : CName) (mountable : Bool) (dev : Option δ) :
    ((newdev devname mountable dev (none : Option φ)).names getvolname).Nodup := by
  have hne := (mkrawname_ne devname).symm
  cases mountable <;> simp [newdev, Knowndev.names, Knowndev.volname, hne]

theorem names_addfs (devname : CName) (fs : φ) :
    ((newdev devname false (none : Option δ) (some fs)).names getvolname).Nodup ↔ getvolname fs ≠ some devname := by
  cases hv : getvolname fs with
  | none => simp [newdev, Knowndev.names, Knowndev.volname, hv]
  | some v =>
    simp only [newdev, Knowndev.names, Knowndev.volname, hv, Bool.false_eq_true, if_false, Option.toList_none,
      Option.bind_some, Option.toList_some, List.cons_append, List.nil_append, List.nodup_cons,
      List.mem_singleton, List.not_mem_nil, not_false_eq_true, List.nodup_nil, and_true, ne_eq, Option.some.injEq]
    exact ⟨fun h heq => h heq.symm, fun h heq => h heq.symm⟩

/-- What a step does to the names: it keeps them distinct exactly when it meets the condition. -/
theorem unique_step {a : VfsAct δ φ} (h : Registry.Unique (Knowndev.names getvolname) s)
    (hmove : VfsMove getvolname s a s') :
    Registry.Unique (Knowndev.names getvolname) s' ↔ FreshVolume getvolname s a := by
  cases hmove with
  | failed hfresh => exact iff_of_true h hfresh
  | @adddev devname dev mountable mem hnew =>
    exact iff_of_true ((unique_add h hnew).mpr (names_adddev devname mountable _)) trivial
  | @addfs devname fs mem hparts hgrow hnew =>
    rw [unique_add h hnew, names_addfs]
    exact ⟨fun hne _ _ _ => hne, fun hfresh => hfresh hparts hgrow hnew⟩
  | @mount devname mountfunc i kd dev fs hi hkd hfree hdev hfs =>
    have hnames : Knowndev.names getvolname { kd with kd_fs := some fs } =
        kd.names getvolname ++ (getvolname fs).toList := by
      simp [Knowndev.names, Knowndev.volname, hfree]
    rw [Registry.unique_set_more hkd hnames]
    constructor
    · intro hu i' kd' dev' fs' hi' hkd' _ hdev' hfs' v hv
      rw [hi] at hi'
      cases hi'
      rw [hkd] at hkd'
      cases hkd'
      rw [hdev] at hdev'
      cases hdev'
      rw [hfs] at hfs'
      cases hfs'
      exact hu.2.2 v (by simp [hv])
    · intro hfresh
      refine ⟨h, ?_, ?_⟩
      · cases getvolname fs <;> simp
      · intro v hv
        exact hfresh i kd dev fs hi hkd hfree hdev hfs v (Option.mem_toList.mp hv)
  | @unmount devname sync unmount i kd fs hkd hfs =>
    have hnames : kd.names getvolname =
        Knowndev.names getvolname { kd with kd_fs := none } ++ (getvolname fs).toList := by
      simp [Knowndev.names, Knowndev.volname, hfs]
    exact iff_of_true (h.set_less hkd hnames) trivial

/-- **Names in the table of devices.** They are distinct, and each finds its one device, in every
run in which no file system is mounted under a name in use; and the first step against this
makes a name stand for two things. -/
theorem vfs_names_unique (h : ((vfsSystem getvolname).restrict (FreshVolume getvolname)).Reachable s) :
    NamesUnique getvolname s ∧ ∀ a s', ¬ FreshVolume getvolname s a →
      (a.code getvolname).finalState s = some s' → ¬ NamesUnique getvolname s' := by
  have hinv : Registry.Unique (Knowndev.names getvolname) s := by
    refine System.invariant (I := Registry.Unique (Knowndev.names getvolname)) ?_ ?_ h
    · intro s hs
      rw [show s = [] from hs]
      exact Registry.unique_nil
    · intro s a s' hu hstep
      exact (unique_step hu (vfs_move hstep.2)).mpr hstep.1
  refine ⟨namesUnique_iff.mpr hinv, ?_⟩
  intro a s' hnot hstep hu
  exact hnot ((unique_step hinv (vfs_move hstep)).mp hu.distinct)

/-! ## Two disks with one volume name -/

/-- "lhd0", "lhd1" and "vol". -/
def lhd0 : CName := [0x6c, 0x68, 0x64, 0x30]

def lhd1 : CName := [0x6c, 0x68, 0x64, 0x31]

def vol : CName := [0x76, 0x6f, 0x6c]

/-- Disks are numbers, and so are the file systems on them, all of which have the volume name
"vol". -/
def addDisk (devname : CName) (dev : Nat) : VfsAct Nat Nat := .vfs_adddev devname dev true ⟨true, true⟩

def mountDisk (devname : CName) : VfsAct Nat Nat := .vfs_mount devname fun dev => .ok dev

/-- With one such disk mounted all names are distinct. -/
theorem vfs_names_unique_one :
    let s : List (Knowndev Nat Nat) := [⟨lhd0, some (mkrawname lhd0), some 0, some 0⟩]
    NamesUnique (fun _ => some vol) s ∧ ∀ a s', ¬ FreshVolume (fun _ => some vol) s a →
      (a.code fun _ => some vol).finalState s = some s' → ¬ NamesUnique (fun _ => some vol) s' := by
  apply vfs_names_unique
  refine .step (mountDisk lhd0) (.step (addDisk lhd0 0) (.init rfl) ⟨trivial, rfl⟩) ⟨?_, rfl⟩
  intro i kd dev fs _ _ _ _ _ v hv
  cases hv
  decide

/-- With two of them mounted the name finds the first one, and not the second. -/
theorem vfs_names_clash : ∃ s : List (Knowndev Nat Nat), (vfsSystem fun _ => some vol).Reachable s ∧
    ¬ NamesUnique (fun _ => some vol) s ∧
    System.follow (fun s a => (VfsAct.code (fun _ => some vol) a).finalState s)
      [addDisk lhd0 0, addDisk lhd1 1, mountDisk lhd0, mountDisk lhd1] [] = some s ∧
    vfs_getroot (fun _ => some vol) vol s = .ok (.fs 0) s := by
  obtain ⟨s, hs, hroot, hdup⟩ : ∃ s : List (Knowndev Nat Nat),
      System.follow (fun s a => (VfsAct.code (fun _ => some vol) a).finalState s)
        [addDisk lhd0 0, addDisk lhd1 1, mountDisk lhd0, mountDisk lhd1] [] = some s ∧
      vfs_getroot (fun _ => some vol) vol s = .ok (.fs 0) s ∧
      ¬ Registry.Unique (Knowndev.names fun _ => some vol) s :=
    ⟨_, rfl, rfl, by unfold Registry.Unique; decide⟩
  exact ⟨s, System.Reachable.follow _ (.init rfl) hs, fun hu => hdup hu.distinct, hs, hroot⟩

end Proofs

end OS161
