-- SUMMARY: Ledgers: a sum over the entries of a table, runs whose steps all balance, and audits while payments go on.
import HawkGate.Lib.BoundedMap
import HawkGate.Lib.Transition
import Mathlib.Algebra.BigOperators.Group.Multiset.Basic
import Mathlib.Data.List.Perm.Basic

/-!
# Ledgers

Every entry of a table is an account. The books balance at a step if what they
held and what came in is what they hold afterwards and what went out; then they
balance over every run.
-/

universe u v

/-! ## Books -/

namespace BoundedMap

variable {K V W A : Type} [DecidableEq K] [AddCommMonoid A] {cap cap' : Nat}

/-- The sum of a quantity over all entries. -/
def sum (m : BoundedMap K V cap) (f : V → A) : A := (m.entries.map fun e => f e.2).sum

/-- The quantity at a key; nothing where there is no entry. -/
def balance (m : BoundedMap K V cap) (f : V → A) (k : K) : A := ((m.lookup k).map f).getD 0

theorem lookup_of_mem_entries {m : BoundedMap K V cap} {k : K} {v : V} (h : (k, v) ∈ m.entries) :
    m.lookup k = some v := by
  obtain ⟨before, behind, hentries⟩ := List.append_of_mem h
  have hnodup := m.nodup
  rw [hentries, List.map_append, List.map_cons] at hnodup
  refine List.lookup_eq_some_iff.mpr ⟨before, behind, hentries, fun e he => ?_⟩
  have hne := (List.nodup_append.mp hnodup).2.2 e.1 (List.mem_map_of_mem he) k List.mem_cons_self
  exact bne_iff_ne.mpr hne.symm

/-- The entries of a table sum up to those of the other keys and the balance at this one. -/
theorem sum_erase_add_balance (m : BoundedMap K V cap) (f : V → A) (k : K) :
    (m.erase k).sum f + m.balance f k = m.sum f := by
  have hlist : ∀ l : List (K × V), (l.map Prod.fst).Nodup →
      ((assocErase k l).map fun e => f e.2).sum + ((l.lookup k).map f).getD 0 =
        (l.map fun e => f e.2).sum := by
    intro l
    induction l with
    | nil => exact fun _ => add_zero 0
    | cons e l ih =>
      obtain ⟨j, v⟩ := e
      intro hnodup
      obtain ⟨hfresh, hrest⟩ := List.nodup_cons.mp hnodup
      by_cases hj : j = k
      · subst hj
        have herase : assocErase j ((j, v) :: l) = l := by
          rw [← assocErase_of_not_mem hfresh]
          simp [assocErase]
        rw [herase, lookup_cons_if, if_pos rfl, List.map_cons, List.sum_cons, add_comm]
        rfl
      · have herase : assocErase k ((j, v) :: l) = (j, v) :: assocErase k l := by
          simp [assocErase, hj]
        rw [herase, lookup_cons_if, if_neg (Ne.symm hj), List.map_cons, List.sum_cons, List.map_cons,
          List.sum_cons, add_assoc, ih hrest]
  exact hlist m.entries m.nodup

theorem sum_eq_sum_balance (m : BoundedMap K V cap) (f : V → A) :
    m.sum f = (m.keys.map (m.balance f)).sum := by
  rw [sum, keys, List.map_map]
  congr 1
  refine List.map_congr_left fun e he => ?_
  rw [Function.comp, balance, lookup_of_mem_entries he]
  rfl

/-- Tables that hold the same quantity at every key have the same sum. -/
theorem sum_congr {m : BoundedMap K V cap} {m' : BoundedMap K W cap'} {f : V → A} {g : W → A}
    (h : ∀ k, (m'.lookup k).map g = (m.lookup k).map f) : m'.sum g = m.sum f := by
  have hkeys : m'.keys.Perm m.keys := by
    refine (List.perm_ext_iff_of_nodup m'.nodup m.nodup).mpr fun k => ?_
    rw [← keys, ← keys, mem_keys_iff, mem_keys_iff, ← Option.isSome_map (f := g), h k,
      Option.isSome_map]
  have hbalance : m'.balance g = m.balance f := by
    funext k
    rw [balance, balance, h k]
  rw [sum_eq_sum_balance, sum_eq_sum_balance, hbalance]
  exact (hkeys.map _).sum_eq

/-- A change of one account changes the sum by as much. -/
theorem sum_add_balance_comm {m m' : BoundedMap K V cap} {f : V → A} {k : K}
    (h : ∀ j, j ≠ k → (m'.lookup j).map f = (m.lookup j).map f) :
    m'.sum f + m.balance f k = m.sum f + m'.balance f k := by
  have hothers : (m'.erase k).sum f = (m.erase k).sum f := by
    refine sum_congr fun j => ?_
    rw [lookup_erase, lookup_erase]
    by_cases hj : j = k
    · rw [if_pos hj, if_pos hj]
    · rw [if_neg hj, if_neg hj, h j hj]
  rw [← sum_erase_add_balance m' f k, ← sum_erase_add_balance m f k, hothers, add_right_comm]

end BoundedMap

/-! ## Runs -/

namespace Transition

variable {σ : Type u} {ε : Type v} {A : Type} [AddCommMonoid A] {step : σ → ε → σ}

variable (step) in
/-- Under an invariant, what every step leaves on the books is what was there, with what came in
    and without what went out. -/
structure Balanced (Inv : σ → Prop) (books : σ → A) (paidIn paidOut : σ → ε → List A) : Prop where
  keeps : ∀ s e, Inv s → Inv (step s e)
  balances : ∀ s e, Inv s → books (step s e) + (paidOut s e).sum = books s + (paidIn s e).sum

/-- If every step balances, so does the run. -/
theorem Balanced.run {Inv : σ → Prop} {books : σ → A} {paidIn paidOut : σ → ε → List A}
    (h : Balanced step Inv books paidIn paidOut) {s : σ} (hs : Inv s) (es : List ε) :
    books (run step s es) + (emitted step paidOut s es).sum =
      books s + (emitted step paidIn s es).sum := by
  induction es generalizing s with
  | nil => rfl
  | cons e es ih =>
    rw [run_cons, emitted, emitted, List.sum_append, List.sum_append]
    calc
      books (Transition.run step (step s e) es) +
            ((paidOut s e).sum + (emitted step paidOut (step s e) es).sum)
          = (books (Transition.run step (step s e) es) +
              (emitted step paidOut (step s e) es).sum) + (paidOut s e).sum := by
          rw [add_comm (paidOut s e).sum, add_assoc]
      _ = (books (step s e) + (paidOut s e).sum) + (emitted step paidIn (step s e) es).sum := by
          rw [ih (h.keeps s e hs), add_right_comm]
      _ = books s + ((paidIn s e).sum + (emitted step paidIn (step s e) es).sum) := by
          rw [h.balances s e hs, add_assoc]

end Transition

/-! ## Audits -/

namespace Ledger

variable {K A : Type} [DecidableEq K] [AddCommMonoid A]

/-- What payments, each with its account, bring to an account. -/
def received (payments : Multiset (K × A)) (k : K) : A :=
  ((payments.filter fun p => p.1 = k).map Prod.snd).sum

theorem received_add (payments later : Multiset (K × A)) (k : K) :
    received (payments + later) k = received payments k + received later k := by
  rw [received, Multiset.filter_add, Multiset.map_add, Multiset.sum_add]
  rfl

/-- Payments to one account are received there. -/
theorem received_payments (k j : K) (amounts : List A) :
    received (amounts.map (Prod.mk k) : Multiset (K × A)) j = if k = j then amounts.sum else 0 := by
  rw [received, Multiset.filter_coe, Multiset.map_coe, Multiset.sum_coe, List.filter_map,
    List.map_map]
  by_cases hj : k = j
  · simp [Function.comp_def, hj]
  · simp [Function.comp_def, hj]

/-- The total found in the accounts seen so far, which held `opening` at first: it has some of the
    payments made to them meanwhile. -/
def Audited (opening : K → A) (payments : Multiset (K × A)) (seen : List K) (total : A) : Prop :=
  ∃ counted, counted ≤ payments.filter (fun p => p.1 ∈ seen) ∧
    total = (seen.map opening).sum + (counted.map Prod.snd).sum

variable {opening : K → A} {payments later : Multiset (K × A)} {seen : List K} {total : A}

theorem audited_nil : Audited opening payments [] 0 := ⟨0, Multiset.zero_le _, (add_zero 0).symm⟩

/-- Payments that come later may be counted or not. -/
theorem Audited.pay (h : Audited opening payments seen total) :
    Audited opening (payments + later) seen total := by
  obtain ⟨counted, hle, htotal⟩ := h
  refine ⟨counted, hle.trans ?_, htotal⟩
  rw [Multiset.filter_add]
  exact Multiset.le_add_right _ _

/-- The next account is read with all that was paid to it until then. -/
theorem Audited.see (h : Audited opening payments seen total) {k : K} (hk : k ∉ seen) :
    Audited opening payments (seen ++ [k]) (total + (opening k + received payments k)) := by
  obtain ⟨counted, hle, rfl⟩ := h
  have hdisjoint : payments.filter (fun p => p.1 ∈ seen ∧ p.1 = k) = 0 :=
    Multiset.filter_eq_nil.mpr fun p _ hp => hk (hp.2 ▸ hp.1)
  have hseen : payments.filter (fun p => p.1 ∈ seen ++ [k]) =
      payments.filter (fun p => p.1 ∈ seen) + payments.filter (fun p => p.1 = k) := by
    rw [Multiset.filter_add_filter, hdisjoint, add_zero]
    simp only [List.mem_append, List.mem_singleton]
  refine ⟨counted + payments.filter (fun p => p.1 = k), ?_, ?_⟩
  · rw [hseen]
    exact Multiset.add_le_add_right hle
  · rw [List.map_append, List.sum_append, List.map_singleton, List.sum_singleton, Multiset.map_add,
      Multiset.sum_add, ← received, add_add_add_comm]

end Ledger
