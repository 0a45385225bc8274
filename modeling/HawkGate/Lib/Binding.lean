-- SUMMARY: Two-way binding tables that are refreshed only on change, and what a history of sightings leaves in them.
import Mathlib.Logic.Function.Basic

/-!
# Binding tables

A forward table holds the address of each party, a reverse table the party at
each address. A sighting of a party at an address writes both, but only if the
forward table does not already have it. The forward table then holds the latest
address of a party, the reverse table the party that *arrived* at the address
last, which is not always the one seen there last.

Histories are newest first.
-/

namespace Binding

universe u v

variable {M : Type u} {A : Type v} [DecidableEq M] [DecidableEq A]

/-- The two tables. -/
structure Tables (M : Type u) (A : Type v) where
  fwd : M → Option A
  rev : A → Option M

def Tables.empty : Tables M A := ⟨fun _ => none, fun _ => none⟩

/-- Refresh the tables on a sighting of `m` at `a`. -/
def Tables.observe (t : Tables M A) (m : M) (a : A) : Tables M A :=
  if t.fwd m = some a then t
  else ⟨Function.update t.fwd m (some a), Function.update t.rev a (some m)⟩

/-- The tables after a history of sightings. -/
def replay : List (M × A) → Tables M A
  | [] => .empty
  | (m, a) :: hist => (replay hist).observe m a

/-- Where `m` was seen last. -/
def lastAddr (m : M) : List (M × A) → Option A
  | [] => none
  | (n, a) :: hist => if m = n then some a else lastAddr m hist

/-- The party that arrived at `a` last: its sighting there was not preceded by one of its
    own at the same address. -/
def holder (a : A) : List (M × A) → Option M
  | [] => none
  | (m, b) :: hist => if a = b ∧ lastAddr m hist ≠ some b then some m else holder a hist

/-- A sighting of `m` at `a` finds `m` arriving there or already holding the address. -/
def Holds (hist : List (M × A)) (m : M) (a : A) : Prop :=
  lastAddr m hist ≠ some a ∨ holder a hist = some m

instance (hist : List (M × A)) (m : M) (a : A) : Decidable (Holds hist m a) :=
  inferInstanceAs (Decidable (_ ∨ _))

theorem observe_fwd (t : Tables M A) (m n : M) (a : A) :
    (t.observe m a).fwd n = if n = m then some a else t.fwd n := by
  unfold Tables.observe
  split
  · next h =>
    split
    · next hn => rw [hn, h]
    · rfl
  · exact Function.update_apply t.fwd m (some a) n

theorem observe_rev (t : Tables M A) (m : M) (a b : A) :
    (t.observe m a).rev b = if b = a ∧ t.fwd m ≠ some a then some m else t.rev b := by
  unfold Tables.observe
  split
  · next h => simp [h]
  · next h => simp [h, Function.update_apply]

theorem replay_fwd (hist : List (M × A)) (m : M) : (replay hist).fwd m = lastAddr m hist := by
  induction hist with
  | nil => rfl
  | cons o hist ih =>
    obtain ⟨n, a⟩ := o
    rw [replay, observe_fwd, lastAddr, ih]

theorem replay_rev (hist : List (M × A)) (a : A) : (replay hist).rev a = holder a hist := by
  induction hist with
  | nil => rfl
  | cons o hist ih =>
    obtain ⟨m, b⟩ := o
    rw [replay, observe_rev, holder, replay_fwd, ih]

/-- After a sighting of `m` at `a` the reverse table names `m` exactly if `m` arrived or
    held the address. -/
theorem observe_rev_self_iff (hist : List (M × A)) (m : M) (a : A) :
    ((replay hist).observe m a).rev a = some m ↔ Holds hist m a := by
  rw [observe_rev, replay_fwd, replay_rev, Holds]
  by_cases h : lastAddr m hist = some a
  · simp [h]
  · simp [h]

end Binding
