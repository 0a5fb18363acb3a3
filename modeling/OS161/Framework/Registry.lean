import Mathlib

/-! # Registries

A list of entries, each with a few names. The names are unique when no name stands twice, in one
entry or in two; then a name finds one entry.
-/

namespace Framework

namespace Registry

variable {α ν : Type*} (names : α → List ν)

/-- All names of a registry. -/
def All (l : List α) : List ν := l.flatMap names

/-- No name stands twice. -/
def Unique (l : List α) : Prop := (All names l).Nodup

variable {names} {l : List α} {a b : α} {i j : Nat} {n : ν} {ns : List ν}

theorem mem_all : n ∈ All names l ↔ ∃ a ∈ l, n ∈ names a := List.mem_flatMap

theorem unique_nil : Unique names [] := List.nodup_nil

/-! ## Changes -/

theorem unique_append : Unique names (l ++ [a]) ↔
    Unique names l ∧ (names a).Nodup ∧ ∀ n ∈ names a, n ∉ All names l := by
  have hall : All names (l ++ [a]) = All names l ++ names a := by simp [All]
  unfold Unique
  rw [hall, List.nodup_append]
  constructor
  · rintro ⟨hl, ha, hne⟩
    exact ⟨hl, ha, fun n hn hmem => hne n hmem n hn rfl⟩
  · rintro ⟨hl, ha, hne⟩
    refine ⟨hl, ha, ?_⟩
    intro n hn m hm heq
    subst heq
    exact hne n hm hn

open scoped List in
/-- An entry is replaced by one that has more names. -/
theorem all_set_perm (ha : l[i]? = some a) (hb : names b = names a ++ ns) :
    (All names (l.set i b)).Perm (All names l ++ ns) := by
  obtain ⟨hi, rfl⟩ := List.getElem?_eq_some_iff.mp ha
  have hset : l.set i b = l.take i ++ b :: l.drop (i + 1) := List.set_eq_take_append_cons_drop.trans (if_pos hi)
  have hsplit : l = l.take i ++ l[i] :: l.drop (i + 1) := by
    rw [← List.drop_eq_getElem_cons hi, List.take_append_drop]
  have hold : All names l = All names (l.take i) ++ names l[i] ++ All names (l.drop (i + 1)) := by
    refine (congrArg (All names) hsplit).trans ?_
    simp only [All, List.flatMap_append, List.flatMap_cons, List.append_assoc]
  have hnew : All names (l.set i b) =
      All names (l.take i) ++ (names l[i] ++ ns) ++ All names (l.drop (i + 1)) := by
    rw [hset]
    simp [All, hb]
  rw [hold, hnew]
  -- the new names move over the entries behind
  calc All names (l.take i) ++ (names l[i] ++ ns) ++ All names (l.drop (i + 1))
      = All names (l.take i) ++ names l[i] ++ (ns ++ All names (l.drop (i + 1))) := by
        simp only [List.append_assoc]
    _ ~ All names (l.take i) ++ names l[i] ++ (All names (l.drop (i + 1)) ++ ns) :=
        List.perm_append_comm.append_left _
    _ = All names (l.take i) ++ names l[i] ++ All names (l.drop (i + 1)) ++ ns := by
        simp only [List.append_assoc]

theorem unique_set_more (ha : l[i]? = some a) (hb : names b = names a ++ ns) :
    Unique names (l.set i b) ↔ Unique names l ∧ ns.Nodup ∧ ∀ n ∈ ns, n ∉ All names l := by
  unfold Unique
  rw [(all_set_perm ha hb).nodup_iff, List.nodup_append]
  constructor
  · rintro ⟨hl, hns, hne⟩
    exact ⟨hl, hns, fun n hn hmem => hne n hmem n hn rfl⟩
  · rintro ⟨hl, hns, hne⟩
    refine ⟨hl, hns, ?_⟩
    intro n hn m hm heq
    subst heq
    exact hne n hm hn

theorem Unique.set_less (h : Unique names l) (ha : l[i]? = some a) (hb : names a = names b ++ ns) :
    Unique names (l.set i b) := by
  obtain ⟨hi, -⟩ := List.getElem?_eq_some_iff.mp ha
  have hback : (l.set i b).set i a = l := by
    rw [List.set_set, ← (List.getElem?_eq_some_iff.mp ha).2, List.set_getElem_self]
  have hget : (l.set i b)[i]? = some b := by
    rw [List.getElem?_set_self hi]
  have hboth := (unique_set_more hget hb).mp (hback.symm ▸ h)
  exact hboth.1

/-! ## A name finds one entry -/

theorem Unique.index_eq (h : Unique names l) (ha : l[i]? = some a) (hb : l[j]? = some b)
    (hna : n ∈ names a) (hnb : n ∈ names b) : i = j := by
  have hdisj := (List.nodup_flatMap.mp h).2
  obtain ⟨hi, rfl⟩ := List.getElem?_eq_some_iff.mp ha
  obtain ⟨hj, rfl⟩ := List.getElem?_eq_some_iff.mp hb
  rw [List.pairwise_iff_getElem] at hdisj
  rcases Nat.lt_trichotomy i j with hlt | heq | hgt
  · exact absurd hnb (hdisj i j hi hj hlt hna)
  · exact heq
  · exact absurd hna (hdisj j i hj hi hgt hnb)

end Registry

end Framework
