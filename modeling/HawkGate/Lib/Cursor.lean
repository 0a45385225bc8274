-- SUMMARY: A walk through a list of keys that others insert into and delete from between its steps.
import Mathlib.Data.List.Nodup

/-!
# Cursors

A walk stands on a key and goes on to the key behind it. Others insert and delete
keys meanwhile, and the keys that stay keep their order. The walk meets no key
twice as long as the key it stands on stays and none that it met is put in behind
it again.
-/

universe u

namespace Cursor

variable {K : Type u} [DecidableEq K]

/-- The keys that were there before stand in their old order. -/
def OrderKept (l l' : List K) : Prop := (l'.filter (· ∈ l)).Sublist l

/-- The walk stands on `c`, and no key that it has visited stands behind it. -/
structure Placed (visited : List K) (c : K) (l : List K) : Prop where
  mem : c ∈ l
  ahead : ∀ a ∈ visited, ¬ [c, a].Sublist l

variable {visited l l' : List K} {c d : K}

theorem OrderKept.refl (l : List K) : OrderKept l l := List.filter_sublist

theorem orderKept_filter (p : K → Bool) (l : List K) : OrderKept l (l.filter p) :=
  List.filter_sublist.trans List.filter_sublist

/-- One new key in any place. -/
theorem orderKept_insert {before behind : List K} (h : d ∉ before ++ behind) :
    OrderKept (before ++ behind) (before ++ d :: behind) := by
  have hnew : [d].filter (· ∈ before ++ behind) = [] := by simpa using h
  have hsplit : before ++ d :: behind = before ++ [d] ++ behind := by simp
  rw [OrderKept, hsplit, List.filter_append, List.filter_append, hnew, List.append_nil,
    ← List.filter_append]
  exact List.filter_sublist

/-- Old keys that stand in some order stood in it before. -/
theorem OrderKept.sublist (h : OrderKept l l') {a b : K} (ha : a ∈ l) (hb : b ∈ l)
    (hab : [a, b].Sublist l') : [a, b].Sublist l := by
  have hold : [a, b].filter (· ∈ l) = [a, b] := by simp [ha, hb]
  rw [← hold]
  exact (hab.filter _).trans h

/-- The walk keeps its place if its key stays and no visited key comes in behind it. -/
theorem Placed.of_orderKept (h : Placed visited c l) (horder : OrderKept l l') (hmem : c ∈ l')
    (hnew : ∀ a ∈ visited, a ∉ l → ¬ [c, a].Sublist l') : Placed visited c l' := by
  refine ⟨hmem, fun a ha hsub => ?_⟩
  by_cases hold : a ∈ l
  · exact h.ahead a ha (horder.sublist h.mem hold hsub)
  · exact hnew a ha hold hsub

omit [DecidableEq K] in
theorem mem_of_pair_sublist {before behind : List K} (hnodup : (before ++ d :: behind).Nodup)
    {a : K} (h : [d, a].Sublist (before ++ d :: behind)) : a ∈ behind := by
  have hbefore : d ∉ before := fun hd =>
    (List.nodup_append.mp hnodup).2.2 d hd d List.mem_cons_self rfl
  induction before with
  | nil => exact List.singleton_sublist.mp (List.cons_sublist_cons.mp h)
  | cons b before ih =>
    obtain ⟨hne, hbefore⟩ := List.ne_and_not_mem_of_not_mem_cons hbefore
    cases h with
    | cons _ h => exact ih (List.nodup_cons.mp hnodup).2 h hbefore
    | cons_cons => exact absurd rfl hne

omit [DecidableEq K] in
/-- The walk begins in its place. -/
theorem placed_first {rest : List K} (hnodup : (c :: rest).Nodup) : Placed [c] c (c :: rest) := by
  refine ⟨List.mem_cons_self, fun a ha hsub => ?_⟩
  obtain rfl := List.mem_singleton.mp ha
  have hmem : a ∈ rest := List.singleton_sublist.mp (List.cons_sublist_cons.mp hsub)
  exact (List.nodup_cons.mp hnodup).1 hmem

omit [DecidableEq K] in
/-- The key behind the cursor is a new one, and the walk stays in its place on it. -/
theorem Placed.next {before behind : List K} (h : Placed visited c l)
    (hl : l = before ++ c :: d :: behind) (hnodup : l.Nodup) :
    d ∉ visited ∧ Placed (visited ++ [d]) d l := by
  subst hl
  have hsplit : before ++ c :: d :: behind = (before ++ [c]) ++ d :: behind := List.append_cons ..
  refine ⟨fun hd => h.ahead d hd ?_, by simp, ?_⟩
  · exact List.Sublist.trans (List.sublist_append_left [c, d] behind)
      (List.sublist_append_right before _)
  · intro a ha hsub
    rw [hsplit] at hsub hnodup
    have hmem := mem_of_pair_sublist hnodup hsub
    rcases List.mem_append.mp ha with ha | ha
    · -- a visited key behind `d` would stand behind `c`
      refine h.ahead a ha ?_
      have hpair : [c, a].Sublist (c :: d :: behind) :=
        (List.singleton_sublist.mpr (List.mem_cons_of_mem d hmem)).cons_cons c
      exact hpair.trans (List.sublist_append_right before _)
    · obtain rfl := List.mem_singleton.mp ha
      have htail := (List.nodup_append.mp hnodup).2.1
      exact (List.nodup_cons.mp htail).1 hmem

end Cursor
