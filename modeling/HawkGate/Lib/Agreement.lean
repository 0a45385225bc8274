-- SUMMARY: Two answers to "is this party admitted", one by party and one by address mark, and how local changes keep them agreeing.
import Mathlib.Logic.Basic

/-!
# Agreement of two views

An enforcing component admits the parties with a live session. A reporting
component works from addresses: it reports an address as admitted if the address
is marked, and takes a missing session for one that never ends. The two agree on
an address bound to a party under a condition that every change can be checked
against locally.
-/

namespace Agreement

universe u v

/-- What the two components consult. -/
structure View (K : Type u) (A : Type v) where
  bound : A → Option K
  present : K → Prop
  live : K → Prop
  marked : A → Prop

variable {K : Type u} {A : Type v}

/-- A live session has a marked address, and a marked address has a session. -/
def View.At (v : View K A) (a : A) (k : K) : Prop :=
  (v.live k → v.marked a) ∧ (v.marked a → v.present k)

/-- Every bound address is in order. -/
def View.Consistent (v : View K A) : Prop :=
  ∀ a k, v.bound a = some k → v.At a k

/-- The reporting component agrees with the enforcing one exactly where the address is in
    order. -/
theorem View.at_iff {v : View K A} {a : A} {k : K} (hlive : v.live k → v.present k) :
    v.At a k ↔ ((v.marked a ∧ (v.present k → v.live k)) ↔ v.live k) := by
  constructor
  · rintro ⟨hmark, hpres⟩
    exact ⟨fun h => h.2 (hpres h.1), fun h => ⟨hmark h, fun _ => h⟩⟩
  · intro h
    refine ⟨fun hl => (h.mpr hl).1, fun hm => ?_⟩
    refine Classical.byContradiction fun habs => habs ?_
    exact hlive (h.mp ⟨hm, fun hp => absurd hp habs⟩)

/-- Sessions that end without anything else changing keep the view consistent. -/
theorem View.Consistent.of_ended {v v' : View K A} (h : v.Consistent) (hbound : v'.bound = v.bound)
    (hpresent : v'.present = v.present) (hlive : ∀ k, v'.live k → v.live k)
    (hmarked : v'.marked = v.marked) : v'.Consistent := by
  intro a k hak
  rw [hbound] at hak
  obtain ⟨hmark, hpres⟩ := h a k hak
  rw [View.At, hmarked, hpresent]
  exact ⟨fun hl => hmark (hlive k hl), hpres⟩

/-- Nothing but the session of `m` and the mark and binding of at most the address `x`
    changes. -/
structure View.LocalChange (v v' : View K A) (m : K) (x : Option A) : Prop where
  bound : ∀ a, some a ≠ x → v'.bound a = v.bound a
  present : ∀ k, k ≠ m → (v'.present k ↔ v.present k)
  live : ∀ k, k ≠ m → (v'.live k ↔ v.live k)
  marked : ∀ a, some a ≠ x → (v'.marked a ↔ v.marked a)

section
variable {v v' : View K A} {m : K} {x : Option A}

/-- A local change keeps the view consistent exactly if it is consistent afterwards at `x` and
    at the other addresses of `m`. -/
theorem View.LocalChange.consistent_iff (hch : View.LocalChange v v' m x) (h : v.Consistent) :
    v'.Consistent ↔
      (∀ a k, x = some a → v'.bound a = some k → v'.At a k) ∧
        ∀ a, some a ≠ x → v.bound a = some m → v'.At a m := by
  constructor
  · intro h'
    refine ⟨fun a k _ hak => h' a k hak, fun a hax ham => h' a m ?_⟩
    rw [hch.bound a hax, ham]
  · rintro ⟨hx, hm⟩ a k hak
    by_cases hax : some a = x
    · exact hx a k hax.symm hak
    · rw [hch.bound a hax] at hak
      by_cases hk : k = m
      · subst hk
        exact hm a hax hak
      · rw [View.At, hch.live k hk, hch.marked a hax, hch.present k hk]
        exact h a k hak

/-- A local change that ends the session of `m` and unmarks `x` keeps the view consistent
    exactly if no other live session is bound to `x` and no other address of `m` stays marked
    without a session. -/
theorem View.LocalChange.consistent_iff_of_ended (hch : View.LocalChange v v' m x)
    (h : v.Consistent) (hdead : ¬ v'.live m) (hunmarked : ∀ a, x = some a → ¬ v'.marked a) :
    v'.Consistent ↔
      (∀ a k, x = some a → v'.bound a = some k → k ≠ m → ¬ v.live k) ∧
        ∀ a, some a ≠ x → v.bound a = some m → v.marked a → v'.present m := by
  rw [hch.consistent_iff h]
  refine and_congr ?_ ?_
  · refine forall_congr' fun a => forall_congr' fun k => forall_congr' fun hx => ?_
    refine forall_congr' fun _ => ?_
    constructor
    · intro hat hk hl
      exact hunmarked a hx (hat.1 ((hch.live k hk).mpr hl))
    · intro hothers
      refine ⟨fun hl => absurd ?_ hdead, fun hm => absurd hm (hunmarked a hx)⟩
      by_cases hk : k = m
      · exact hk ▸ hl
      · exact absurd ((hch.live k hk).mp hl) (hothers hk)
  · refine forall_congr' fun a => forall_congr' fun hx => forall_congr' fun _ => ?_
    constructor
    · exact fun hat hm => hat.2 ((hch.marked a hx).mpr hm)
    · exact fun hpres => ⟨fun hl => absurd hl hdead, fun hm => hpres ((hch.marked a hx).mp hm)⟩

end

end Agreement
