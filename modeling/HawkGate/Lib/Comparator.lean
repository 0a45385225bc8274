-- SUMMARY: Comparison functions of `qsort`, the orders they decide on a list, and what sorting with them can give.
import Mathlib.Data.List.Sort

/-!
# Comparators

A sorting routine is called with a function that returns a number below, at or
above 0. It sorts a list if the signs are those of a total preorder on that list,
and may leave any permutation behind if they are not.
-/

universe u

namespace Comparator

variable {α : Type u}

/-- On the list the signs are those of a total preorder. -/
structure ConsistentOn (cmp : α → α → Int32) (l : List α) : Prop where
  swap : ∀ x ∈ l, ∀ y ∈ l, (cmp x y < 0 ↔ 0 < cmp y x)
  trans : ∀ x ∈ l, ∀ y ∈ l, ∀ z ∈ l, cmp x y ≤ 0 → cmp y z ≤ 0 → cmp x z ≤ 0

/-- On the list the signs are those of the order `le`. -/
structure DecidesOn (cmp : α → α → Int32) (le : α → α → Prop) (l : List α) : Prop where
  neg : ∀ x ∈ l, ∀ y ∈ l, (cmp x y < 0 ↔ ¬ le y x)
  pos : ∀ x ∈ l, ∀ y ∈ l, (0 < cmp x y ↔ ¬ le x y)

/-- A routine that permutes every list, and sorts it where the comparator is consistent. -/
structure Sorts (sort : (α → α → Int32) → List α → List α) : Prop where
  perm : ∀ cmp l, (sort cmp l).Perm l
  sorted : ∀ cmp l, ConsistentOn cmp l → (sort cmp l).Pairwise fun x y => cmp x y ≤ 0

section
variable {cmp : α → α → Int32} {le : α → α → Prop} {l : List α}

theorem DecidesOn.le_iff (h : DecidesOn cmp le l) {x y : α} (hx : x ∈ l) (hy : y ∈ l) :
    cmp x y ≤ 0 ↔ le x y := by
  rw [← Int32.not_lt, h.pos x hx y hy, not_not]

theorem DecidesOn.consistent (h : DecidesOn cmp le l)
    (htrans : ∀ x y z, le x y → le y z → le x z) : ConsistentOn cmp l where
  swap x hx y hy := (h.neg x hx y hy).trans (h.pos y hy x hx).symm
  trans x hx y hy z hz hxy hyz := by
    rw [h.le_iff hx hy] at hxy
    rw [h.le_iff hy hz] at hyz
    exact (h.le_iff hx hz).mpr (htrans x y z hxy hyz)

/-- A correct routine sorts by the order that the comparator decides. -/
theorem Sorts.pairwise {sort : (α → α → Int32) → List α → List α} (hsort : Sorts sort)
    (h : DecidesOn cmp le l) (htrans : ∀ x y z, le x y → le y z → le x z) :
    (sort cmp l).Pairwise le := by
  refine (hsort.sorted cmp l (h.consistent htrans)).imp_of_mem fun hx hy hle => ?_
  exact (h.le_iff ((hsort.perm cmp l).mem_iff.mp hx) ((hsort.perm cmp l).mem_iff.mp hy)).mp hle

/-! ## What a correct routine may return -/

theorem ConsistentOn.le_total (h : ConsistentOn cmp l) {x y : α} (hx : x ∈ l) (hy : y ∈ l) :
    cmp x y ≤ 0 ∨ cmp y x ≤ 0 := by
  by_cases hxy : cmp x y ≤ 0
  · exact Or.inl hxy
  · exact Or.inr (Int32.le_of_lt ((h.swap y hy x hx).mpr (Int32.not_le.mp hxy)))

/-- A list with a consistent comparator has a sorted permutation, in which a given part of the
    list that is sorted already keeps its order. -/
theorem ConsistentOn.exists_sorted (h : ConsistentOn cmp l) {c : List α} (hc : c.Sublist l)
    (hsorted : c.Pairwise fun x y => cmp x y ≤ 0) :
    ∃ p : List α, p.Perm l ∧ (p.Pairwise fun x y => cmp x y ≤ 0) ∧ c.Sublist p := by
  -- insertion sort, on the members of the list, where the comparator is a total preorder
  let r : {z // z ∈ l} → {z // z ∈ l} → Prop := fun a b => cmp a.1 b.1 ≤ 0
  have : Std.Total r := ⟨fun a b => h.le_total a.2 b.2⟩
  have : IsTrans _ r := ⟨fun a b c => h.trans a.1 a.2 b.1 b.2 c.1 c.2⟩
  classical
  rw [← List.attach_map_subtype_val l] at hc
  obtain ⟨c', hc', rfl⟩ := List.sublist_map_iff.mp hc
  refine ⟨(List.insertionSort r l.attach).map Subtype.val, ?_, ?_, ?_⟩
  · have := (List.perm_insertionSort r l.attach).map Subtype.val
    rwa [List.attach_map_subtype_val] at this
  · exact (List.pairwise_insertionSort r l.attach).map Subtype.val fun _ _ => id
  · exact (List.sublist_insertionSort (List.pairwise_map.mp hsorted) hc').map Subtype.val

theorem ConsistentOn.of_perm {l' : List α} (h : ConsistentOn cmp l) (hperm : l'.Perm l) :
    ConsistentOn cmp l' where
  swap x hx y hy := h.swap x (hperm.mem_iff.mp hx) y (hperm.mem_iff.mp hy)
  trans x hx y hy z hz :=
    h.trans x (hperm.mem_iff.mp hx) y (hperm.mem_iff.mp hy) z (hperm.mem_iff.mp hz)

theorem exists_perm_cons_cons {x y : α} (hx : x ∈ l) (hy : y ∈ l) (hne : x ≠ y) :
    ∃ rest, (x :: y :: rest).Perm l := by
  classical
  have hy' : y ∈ l.erase x := (List.mem_erase_of_ne hne.symm).mpr hy
  exact ⟨(l.erase x).erase y,
    (((List.perm_cons_erase hy').cons x).symm).trans (List.perm_cons_erase hx).symm⟩

/-- Some correct routine leaves two elements in an order that the comparator allows. -/
theorem exists_sorts_sublist {x y : α} (hx : x ∈ l) (hy : y ∈ l) (hne : x ≠ y)
    (hle : cmp x y ≤ 0) : ∃ sort, Sorts sort ∧ [x, y].Sublist (sort cmp l) := by
  classical
  -- the routine is chosen by what it returns for each comparator and list
  have hchoose : ∀ (cmp' : α → α → Int32) (l' : List α), ∃ p : List α, p.Perm l' ∧
      (ConsistentOn cmp' l' → p.Pairwise fun x y => cmp' x y ≤ 0) ∧
      (cmp' = cmp ∧ l' = l → [x, y].Sublist p) := by
    intro cmp' l'
    by_cases hthis : cmp' = cmp ∧ l' = l
    · obtain ⟨rfl, rfl⟩ := hthis
      obtain ⟨rest, hrest⟩ := exists_perm_cons_cons hx hy hne
      have hfront : [x, y].Sublist (x :: y :: rest) := ((List.nil_sublist rest).cons_cons y).cons_cons x
      by_cases hcons : ConsistentOn cmp' l'
      · obtain ⟨p, hp, hsorted, hsub⟩ := (hcons.of_perm hrest).exists_sorted hfront
          (List.pairwise_pair.mpr hle)
        exact ⟨p, hp.trans hrest, fun _ => hsorted, fun _ => hsub⟩
      · exact ⟨x :: y :: rest, hrest, fun h => absurd h hcons, fun _ => hfront⟩
    · by_cases hcons : ConsistentOn cmp' l'
      · obtain ⟨p, hp, hsorted, -⟩ := hcons.exists_sorted (List.nil_sublist l') List.Pairwise.nil
        exact ⟨p, hp, fun _ => hsorted, fun h => absurd h hthis⟩
      · exact ⟨l', .refl l', fun h => absurd h hcons, fun h => absurd h hthis⟩
  choose sort hperm hsorted hsub using hchoose
  exact ⟨sort, ⟨hperm, hsorted⟩, hsub cmp l ⟨rfl, rfl⟩⟩

end

end Comparator
