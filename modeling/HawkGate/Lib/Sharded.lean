-- SUMMARY: Quantities kept in slots that are added to one at a time, and their totals.
import Mathlib.Algebra.BigOperators.Fin
import Mathlib.Algebra.BigOperators.Pi

/-!
# Sharded quantities

A quantity is kept in slots, so that parties add to it without sharing a slot.
Its value is the total of the slots: adding to any slot adds to the total, and
so which slots a sequence of additions goes to makes no difference.
-/

universe u v

namespace Sharded

variable {ι : Type u} {M : Type v} [Fintype ι] [DecidableEq ι] [AddCommMonoid M]

/-- The value of a sharded quantity. -/
def total (c : ι → M) : M := ∑ i, c i

omit [DecidableEq ι] in
@[simp] theorem total_zero : total (fun _ : ι => (0 : M)) = 0 := Finset.sum_const_zero

/-- Adding to a slot adds to the total. -/
theorem total_update (c : ι → M) (i : ι) (d : M) :
    total (Function.update c i (c i + d)) = total c + d := by
  have hsplit : Function.update c i (c i + d) = fun j => c j + if j = i then d else 0 := by
    funext j
    by_cases h : j = i
    · subst h
      simp
    · simp [h]
  rw [hsplit, total, Finset.sum_add_distrib, Finset.sum_ite_eq' Finset.univ i fun _ => d]
  simp [total]

/-- A sequence of additions, each to a slot. -/
def post (c : ι → M) : List (ι × M) → ι → M
  | [] => c
  | (i, d) :: posts => post (Function.update c i (c i + d)) posts

omit [Fintype ι] in
theorem post_append (c : ι → M) (posts posts' : List (ι × M)) :
    post c (posts ++ posts') = post (post c posts) posts' := by
  induction posts generalizing c with
  | nil => rfl
  | cons p posts ih => exact ih _

/-- The total after some additions does not depend on their slots. -/
theorem total_post (c : ι → M) (posts : List (ι × M)) :
    total (post c posts) = total c + (posts.map Prod.snd).sum := by
  induction posts generalizing c with
  | nil => rw [post, List.map_nil, List.sum_nil, add_zero]
  | cons p posts ih =>
    obtain ⟨i, d⟩ := p
    rw [post, ih, total_update, List.map_cons, List.sum_cons, add_assoc]

/-- Summing the slots one after another gives the total. -/
theorem foldl_ofFn_eq_total {n : Nat} {α : Type} (f : α → M) (c : Fin n → α) :
    (List.ofFn c).foldl (fun m a => m + f a) 0 = total fun i => f (c i) := by
  have hsum : ∀ (l : List α) (m : M), l.foldl (fun m a => m + f a) m = m + (l.map f).sum := by
    intro l
    induction l with
    | nil => simp
    | cons a l ih =>
      intro m
      rw [List.foldl_cons, ih, List.map_cons, List.sum_cons, add_assoc]
  rw [hsum, zero_add, List.map_ofFn, List.sum_ofFn]
  rfl

end Sharded
