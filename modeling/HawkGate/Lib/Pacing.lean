-- SUMMARY: Departure pacing over an ordered time domain: how far a paced schedule runs ahead and how dense it can be.
import Mathlib.Algebra.Order.BigOperators.Group.Finset
import Mathlib.Algebra.BigOperators.Intervals
import Mathlib.Tactic.GCongr

/-!
# Pacing

A pacer keeps the departure time of the last admitted item. An item that
arrives at `now` and takes `delay` departs at `max now last + delay`, and is
refused when that is more than `h` ahead of `now`. Arrival times need not be in
order. The time domain is any ordered commutative monoid.
-/

namespace Pacing

variable {T : Type*} [AddCommMonoid T] [LinearOrder T] [IsOrderedAddMonoid T]

/-- The departure time of an item that arrives at `now` and takes `delay`. -/
def next (last now delay : T) : T := max now last + delay

def Admits (h last now delay : T) : Prop := next last now delay ≤ now + h

instance (h last now delay : T) : Decidable (Admits h last now delay) :=
  inferInstanceAs (Decidable (_ ≤ _))

/-- The pacer after an item: a refused item leaves no trace. -/
def after (h last now delay : T) : T :=
  if Admits h last now delay then next last now delay else last

theorem now_le_next {last now delay : T} (hd : 0 ≤ delay) : now ≤ next last now delay :=
  le_add_of_le_of_nonneg (le_max_left _ _) hd

theorem last_add_le_next (last now delay : T) : last + delay ≤ next last now delay := by
  rw [next]
  gcongr
  exact le_max_right _ _

/-- One item moves the departure time by at least the delay it is charged. -/
theorem add_charge_le_after (h last now delay : T) :
    last + (if Admits h last now delay then delay else 0) ≤ after h last now delay := by
  unfold after
  split
  · exact last_add_le_next last now delay
  · exact (add_zero last).le

/-- The schedule of a sequence of arrivals, each a time and a delay. -/
def lastAt (h start : T) (arrivals : ℕ → T × T) : ℕ → T
  | 0 => start
  | n + 1 => after h (lastAt h start arrivals n) (arrivals n).1 (arrivals n).2

/-- Item `n` is admitted. -/
def AdmittedAt (h start : T) (arrivals : ℕ → T × T) (n : ℕ) : Prop :=
  Admits h (lastAt h start arrivals n) (arrivals n).1 (arrivals n).2

instance (h start : T) (arrivals : ℕ → T × T) (n : ℕ) :
    Decidable (AdmittedAt h start arrivals n) :=
  inferInstanceAs (Decidable (Admits _ _ _ _))

section
variable {h start : T} {arrivals : ℕ → T × T}

/-- Over any stretch of the schedule, the departure time moves by at least what
    the admitted items of the stretch are charged. -/
theorem add_sum_le_lastAt {i j : ℕ} (hij : i ≤ j) :
    lastAt h start arrivals i +
        ∑ k ∈ Finset.Ico i j, (if AdmittedAt h start arrivals k then (arrivals k).2 else 0)
      ≤ lastAt h start arrivals j := by
  induction j, hij using Nat.le_induction with
  | base => simp
  | succ j hij ih =>
    rw [Finset.sum_Ico_succ_top hij, ← add_assoc]
    calc _ ≤ lastAt h start arrivals j +
          (if AdmittedAt h start arrivals j then (arrivals j).2 else 0) := by gcongr
      _ ≤ lastAt h start arrivals (j + 1) := add_charge_le_after _ _ _ _

omit [IsOrderedAddMonoid T] in
theorem lastAt_succ_of_admitted {n : ℕ} (hn : AdmittedAt h start arrivals n) :
    lastAt h start arrivals (n + 1) =
      next (lastAt h start arrivals n) (arrivals n).1 (arrivals n).2 :=
  if_pos hn

/-- Between two admitted items, the admitted delays fit between their departures. -/
theorem next_add_sum_le_next {i j : ℕ} (hij : i < j) (hi : AdmittedAt h start arrivals i)
    (hj : AdmittedAt h start arrivals j) :
    next (lastAt h start arrivals i) (arrivals i).1 (arrivals i).2 +
        ∑ k ∈ Finset.Ioc i j with AdmittedAt h start arrivals k, (arrivals k).2
      ≤ next (lastAt h start arrivals j) (arrivals j).1 (arrivals j).2 := by
  rw [← lastAt_succ_of_admitted hi, ← lastAt_succ_of_admitted hj, Finset.sum_filter]
  have hIoc : Finset.Ioc i j = Finset.Ico (i + 1) (j + 1) := by
    ext k
    simp only [Finset.mem_Ioc, Finset.mem_Ico]
    omega
  rw [hIoc]
  exact add_sum_le_lastAt (by omega)

end

/-! ## Without refusal -/

/-- The departure time before arrival `n` when nothing is ever refused. -/
def departAt (start : T) (arrivals : ℕ → T × T) : ℕ → T
  | 0 => start
  | n + 1 => next (departAt start arrivals n) (arrivals n).1 (arrivals n).2

/-- The departure times never go back. -/
theorem departAt_mono {start : T} {arrivals : ℕ → T × T} (h : ∀ n, 0 ≤ (arrivals n).2) :
    Monotone (departAt start arrivals) := by
  refine monotone_nat_of_le_succ fun n => ?_
  calc departAt start arrivals n ≤ departAt start arrivals n + (arrivals n).2 :=
        le_add_of_nonneg_right (h n)
    _ ≤ departAt start arrivals (n + 1) := last_add_le_next _ _ _

/-- The departure time is bounded exactly by what has arrived: from the start, and from each
    arrival on. The bound may leave room for `x` more. -/
theorem departAt_add_le_iff (start : T) (arrivals : ℕ → T × T) (n : ℕ) (x b : T) :
    departAt start arrivals n + x ≤ b ↔
      start + ∑ k ∈ Finset.range n, (arrivals k).2 + x ≤ b ∧
        ∀ j < n, (arrivals j).1 + ∑ k ∈ Finset.Ico j n, (arrivals k).2 + x ≤ b := by
  induction n generalizing x with
  | zero => simp [departAt]
  | succ n ih =>
    -- the last delay joins the room that is left
    have hsum : ∀ a : T, ∀ j ≤ n, a + ∑ k ∈ Finset.Ico j (n + 1), (arrivals k).2 + x =
        a + ∑ k ∈ Finset.Ico j n, (arrivals k).2 + ((arrivals n).2 + x) := by
      intro a j hj
      rw [Finset.sum_Ico_succ_top hj, add_assoc, add_assoc, add_assoc]
    have hstart : start + ∑ k ∈ Finset.range (n + 1), (arrivals k).2 + x =
        start + ∑ k ∈ Finset.range n, (arrivals k).2 + ((arrivals n).2 + x) := by
      rw [Finset.sum_range_succ, add_assoc, add_assoc, add_assoc]
    rw [departAt, next, add_assoc, max_add, max_le_iff, ih, hstart]
    constructor
    · rintro ⟨hnow, hfirst, hrest⟩
      refine ⟨hfirst, fun j hj => ?_⟩
      rw [hsum _ j (Nat.le_of_lt_succ hj)]
      rcases Nat.lt_or_eq_of_le (Nat.le_of_lt_succ hj) with hlt | rfl
      · exact hrest j hlt
      · simpa using hnow
    · rintro ⟨hfirst, hrest⟩
      refine ⟨?_, hfirst, fun j hj => ?_⟩
      · have hlast := hrest n (Nat.lt_succ_self n)
        rw [hsum _ n le_rfl] at hlast
        simpa using hlast
      · have hj' := hrest j (Nat.lt_succ_of_lt hj)
        rwa [hsum _ j hj.le] at hj'

end Pacing
